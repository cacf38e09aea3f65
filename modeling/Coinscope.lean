import Coinscope.Theory.Bytes
import Coinscope.Theory.Caches
import Coinscope.Theory.Circle
import Coinscope.Theory.Framing
import Coinscope.Theory.Runs
import Coinscope.Theory.Histories
import Coinscope.Theory.Access
import Coinscope.Theory.Tables
import Coinscope.Theory.Reservations
import Coinscope.Theory.SharedBlocks
import Coinscope.Shared.Socket
import Coinscope.Shared.WrappedBuffer
import Coinscope.Shared.CowBuffers
import Coinscope.Shared.CowHolders
import Coinscope.Shared.CopyOnWrite
import Coinscope.Shared.ElementBuffers
import Coinscope.Shared.ValueSemantics
import Coinscope.Shared.ReadBuffer
import Coinscope.Shared.WriteBuffer
import Coinscope.Shared.ReadQueue
import Coinscope.Shared.WriteQueue
import Coinscope.Shared.Bitcoin
import Coinscope.Shared.Varint
import Coinscope.Shared.LogFormat
import Coinscope.Shared.Logger
import Coinscope.LogServer.Collector
import Coinscope.LogServer.InputCxn
import Coinscope.LogServer.Server
import Coinscope.LogClient.Verbatim
import Coinscope.LogClient.Pipeline
import Coinscope.LogClient.ConsoleFromFile
import Coinscope.Clients.LogDecoders
import Coinscope.Clients.MessageLogs
import Coinscope.Clients.Polling
import Coinscope.Connector.BitcoinHandler
import Coinscope.Connector.Receiving
import Coinscope.Connector.Handshake
import Coinscope.Connector.PeerFraming
import Coinscope.Connector.Terminal
import Coinscope.Connector.Outgoing
import Coinscope.Connector.VersionExchange
import Coinscope.Connector.Answers
import Coinscope.Connector.TwoConnectors
import Coinscope.Connector.Completion
import Coinscope.Connector.Heights
import Coinscope.Connector.NetAddresses
import Coinscope.Control.CommandStructures
import Coinscope.Connector.MessageBounds
import Coinscope.Control.Globals
import Coinscope.Control.CommandHandler
import Coinscope.Control.ControlFraming
import Coinscope.Control.Delivery
import Coinscope.Control.ControlPlane
import Coinscope.Control.Registry
import Coinscope.Control.Handling
import Coinscope.Control.Isolation
import Coinscope.Control.Disconnection
import Coinscope.Control.CommandBounds
import Coinscope.Control.Survival
import Coinscope.Control.Addresses
import Coinscope.Control.ConnectFrames
import Coinscope.Control.Replies
import Coinscope.Control.Changes
import Coinscope.Control.Descriptors
import Coinscope.Control.Turns
import Coinscope.Connector.Endpoints
import Coinscope.Attempts.ConnectHandlers
import Coinscope.Attempts.SocksRequests
import Coinscope.Attempts.SocksReplies
import Coinscope.Attempts.RemoteAddresses
import Coinscope.Attempts.Outcomes
import Coinscope.Process.EventLoop
import Coinscope.Process.Blacklist
import Coinscope.Process.Ownership
import Coinscope.Clients.ConnectionList
import Coinscope.Clients.EasyAccessors
import Coinscope.Clients.EasyMessages
import Coinscope.Clients.AddressBook
import Coinscope.Clients.AddressOrder
import Coinscope.Clients.PythonCommands
import Coinscope.Clients.PythonConnect
import Coinscope.Clients.CxnHandler
import Coinscope.Clients.Getaddr
import Coinscope.Clients.GroundTruth
import Coinscope.Clients.Harvest
import Coinscope.Clients.CleanserPhase
import Coinscope.Clients.Orders
import Coinscope.Tools.Verbatim2pg
import Coinscope.Tools.Verbatim2sql
import Coinscope.Tools.SqlHandlers
import Coinscope.Tools.SqlRecords
import Coinscope.Tools.SqlImport
import Coinscope.Tools.SqlLogs
import Coinscope.Tools.ImportProgress
import Coinscope.Tools.MessageIds
import Coinscope.Tools.Logtruncate
import Coinscope.Tools.Logchecker
