/-
# Control.Addresses -- addresses between the channel and the sockets

A `wire_addr` has three families, a `sockaddr_storage` here two: an onion address is
kept as an IPv6 address.  On the way back every IPv6 address is an IPv6 address.

* `wireToSockaddr_inet`, `wireToSockaddr_inet6` -- where the fields go.
* `WireAddr.Canonical`, `sockaddrToWire_wireToSockaddr` -- there and back.
-/
import Coinscope.Control.CommandStructures

namespace Coinscope.Control

open Coinscope.Shared
open Coinscope.Theory.Bytes

set_option autoImplicit false

/-! ## Fields -/

theorem slice_here {off n : Nat} {a b c : List UInt8} (before : a.length = off)
    (size : b.length = n) : slice off n (a ++ b ++ c) = b := by
  rw [slice, List.append_assoc, ← before, List.drop_left, ← size, List.take_left]

theorem ofLE_family (n : Nat) (small : n < 256 ^ 2) : ofLE (le 2 n) = n := by
  rw [ofLE_le, Nat.mod_eq_of_lt small]

/-- An IPv4 address keeps its first four bytes. -/
theorem wireToSockaddr_inet {wa : WireAddr} (family : wa.family = ADDR_FAMILY_IPV4) :
    (wireToSockaddr wa).family = AF_INET ∧ (wireToSockaddr wa).port = wa.port ∧
      (wireToSockaddr wa).sinAddr = wa.addr.take 4 := by
  have four : (wa.addr.take 4).length = 4 := by rw [List.length_take, wa.addrSize]; rfl
  have bytes : (wireToSockaddr wa).bytes =
      le 2 AF_INET ++ wa.port ++ wa.addr.take 4 ++ List.replicate 120 0 := by
    rw [wireToSockaddr, if_pos family]
  refine ⟨?_, ?_, ?_⟩
  · rw [SockaddrStorage.family, bytes]
    have field : slice 0 2 (le 2 AF_INET ++ wa.port ++ wa.addr.take 4 ++ List.replicate 120 0) =
        le 2 AF_INET := by
      rw [List.append_assoc, List.append_assoc]
      exact slice_here (a := []) rfl rfl
    rw [field, ofLE_family _ (by decide)]
  · rw [SockaddrStorage.port, bytes, List.append_assoc]
    exact slice_here rfl wa.portSize
  · rw [SockaddrStorage.sinAddr, bytes]
    exact slice_here (by rw [List.length_append, wa.portSize]; rfl) four

/-- An IPv6 or an onion address keeps all sixteen, and not its family. -/
theorem wireToSockaddr_inet6 {wa : WireAddr}
    (family : wa.family = ADDR_FAMILY_IPV6 ∨ wa.family = ADDR_FAMILY_ONION) :
    (wireToSockaddr wa).family = AF_INET6 ∧ (wireToSockaddr wa).port = wa.port ∧
      (wireToSockaddr wa).sin6Addr = wa.addr := by
  have other : ¬ wa.family = ADDR_FAMILY_IPV4 := by
    rcases family with is | is
    · rw [is]; decide
    · rw [is]; decide
  have bytes : (wireToSockaddr wa).bytes =
      le 2 AF_INET6 ++ wa.port ++ List.replicate 4 0 ++ wa.addr ++ List.replicate 104 0 := by
    rw [wireToSockaddr, if_neg other, if_pos family]
  refine ⟨?_, ?_, ?_⟩
  · rw [SockaddrStorage.family, bytes]
    have field : slice 0 2 (le 2 AF_INET6 ++ wa.port ++ List.replicate 4 0 ++ wa.addr ++
        List.replicate 104 0) = le 2 AF_INET6 := by
      rw [List.append_assoc, List.append_assoc, List.append_assoc]
      exact slice_here (a := []) rfl rfl
    rw [field, ofLE_family _ (by decide)]
  · rw [SockaddrStorage.port, bytes, List.append_assoc, List.append_assoc]
    exact slice_here rfl wa.portSize
  · rw [SockaddrStorage.sin6Addr, bytes]
    exact slice_here (by simp [wa.portSize]) wa.addrSize

/-! ## There and back -/

/-- An IPv4 address padded with zeros, an IPv6 or an onion address. -/
def WireAddr.Canonical (wa : WireAddr) : Prop :=
  (wa.family = ADDR_FAMILY_IPV4 ∧ wa.addr.drop 4 = List.replicate 12 0) ∨
    wa.family = ADDR_FAMILY_IPV6 ∨ wa.family = ADDR_FAMILY_ONION

theorem WireAddr.ext {a b : WireAddr} (family : a.family = b.family) (addr : a.addr = b.addr)
    (port : a.port = b.port) : a = b := by
  cases a
  cases b
  simp only at family addr port
  subst family addr port
  rfl

/-- A canonical address comes back as it was, an onion address as an IPv6 address. -/
theorem sockaddrToWire_wireToSockaddr {wa : WireAddr} (canonical : wa.Canonical) :
    (sockaddrToWire (wireToSockaddr wa)).addr = wa.addr ∧
      (sockaddrToWire (wireToSockaddr wa)).port = wa.port ∧
      (sockaddrToWire (wireToSockaddr wa)).family =
        if wa.family = ADDR_FAMILY_ONION then ADDR_FAMILY_IPV6 else wa.family := by
  rcases canonical with ⟨inet, zeros⟩ | inet6
  · obtain ⟨family, port, addr⟩ := wireToSockaddr_inet inet
    have other : ¬ wa.family = ADDR_FAMILY_ONION := by rw [inet]; decide
    rw [sockaddrToWire, if_pos family, if_neg other]
    refine ⟨?_, port, inet.symm⟩
    show (wireToSockaddr wa).sinAddr ++ List.replicate 12 0 = wa.addr
    rw [addr, ← zeros, List.take_append_drop]
  · obtain ⟨family, port, addr⟩ := wireToSockaddr_inet6 inet6
    have other : ¬ (wireToSockaddr wa).family = AF_INET := by rw [family]; decide
    rw [sockaddrToWire, if_neg other, if_pos family]
    refine ⟨addr, port, ?_⟩
    rcases inet6 with is | is
    · rw [if_neg (by rw [is]; decide)]
      exact is.symm
    · rw [if_pos is]

/-- Every family but the onion addresses survives. -/
theorem sockaddrToWire_wireToSockaddr_iff {wa : WireAddr} (canonical : wa.Canonical) :
    sockaddrToWire (wireToSockaddr wa) = wa ↔ wa.family ≠ ADDR_FAMILY_ONION := by
  obtain ⟨addr, port, family⟩ := sockaddrToWire_wireToSockaddr canonical
  constructor
  · intro same onion
    rw [if_pos onion, same, onion] at family
    exact absurd family (by decide)
  · intro other
    rw [if_neg other] at family
    exact WireAddr.ext family addr port

end Coinscope.Control
