/-
# Clients.GroundTruth -- the network among the nodes one has

`retrieve_ground_truth_nodes` of `cleanser_phase.py` asks a list of nodes for their address and
their peers.  The extended network has an edge for everything that is reported.  The ground
truth should have those between the nodes that were asked; but an edge goes in only if the peer
is a node already, and the nodes go in one by one.  An edge that only the earlier one of two
nodes reports is lost, and a connection usually is reported by one address on one side only:
the side that was connected to sees a port of no importance.

* `GroundTruthGraph` -- nodes by address, and edges by index.
* `edge_addEdge` -- what `add_edge` adds.
* `retrieve` -- the loop over the nodes; `Reports` -- what they report.
* `retrieve_restricts_iff` -- the reports for which the ground truth is what it should be.
-/
import Coinscope.Theory.Tables
import Mathlib.Data.List.Range
import Mathlib.Data.List.Perm.Basic

namespace Coinscope.Clients

open Coinscope.Theory.Tables

set_option autoImplicit false

/-! ## Graphs -/

section Graphs

variable {α : Type} [DecidableEq α]

/-- `GroundTruthGraph`: the index of an address is its place in `node_list`, which is also the
place of its row in `adj_list`. -/
structure GroundTruthGraph (α : Type) where
  nodeList : List (α × Nat)
  adjList : List (List Nat)
  keys : (nodeList.map Prod.fst).Nodup
  indices : nodeList.map Prod.snd = List.range nodeList.length
  rows : adjList.length = nodeList.length
  ends : ∀ row ∈ adjList, ∀ i ∈ row, i < nodeList.length

namespace GroundTruthGraph

variable {g : GroundTruthGraph α} {a b x y : α} {i j : Nat}

def empty : GroundTruthGraph α where
  nodeList := []
  adjList := []
  keys := List.nodup_nil
  indices := rfl
  rows := rfl
  ends := by
    intro row member
    cases member

/-- `self.node_list.get(address)`. -/
def get (g : GroundTruthGraph α) (a : α) : Option Nat :=
  (g.nodeList.find? fun node => decide (node.1 = a)).map Prod.snd

theorem get_eq_some : g.get a = some i ↔ (a, i) ∈ g.nodeList := by
  constructor
  · intro found
    obtain ⟨node, first, rfl⟩ := Option.map_eq_some_iff.1 found
    obtain ⟨member, rfl⟩ := find?_key_some first
    exact member
  · intro member
    exact Option.map_eq_some_iff.2 ⟨(a, i), (find?_key_iff g.keys).2 ⟨member, rfl⟩, rfl⟩

theorem get_eq_none : g.get a = none ↔ a ∉ g.nodeList.map Prod.fst := by
  rw [Option.eq_none_iff_forall_ne_some, List.mem_map]
  constructor
  · rintro absent ⟨node, member, rfl⟩
    exact absent node.2 (get_eq_some.2 member)
  · intro absent i found
    exact absent ⟨(a, i), get_eq_some.1 found, rfl⟩

theorem get_lt (found : g.get a = some i) : i < g.nodeList.length := by
  have member : i ∈ g.nodeList.map Prod.snd := List.mem_map_of_mem (get_eq_some.1 found)
  rw [g.indices, List.mem_range] at member
  exact member

/-- Two addresses have two indices. -/
theorem get_inj (left : g.get a = some i) (right : g.get b = some i) : a = b := by
  have distinct : (g.nodeList.map Prod.snd).Nodup := by
    rw [g.indices]
    exact List.nodup_range
  exact congrArg Prod.fst (List.inj_on_of_nodup_map distinct (get_eq_some.1 left)
    (get_eq_some.1 right) rfl)

/-- Every index is that of an address. -/
theorem exists_get (below : i < g.nodeList.length) : ∃ a, g.get a = some i := by
  have member : i ∈ g.nodeList.map Prod.snd := by
    rw [g.indices, List.mem_range]
    exact below
  obtain ⟨node, there, rfl⟩ := List.mem_map.1 member
  exact ⟨node.1, get_eq_some.2 there⟩

/-- The `if` of `add_node`. -/
def append (g : GroundTruthGraph α) (a : α) (new : g.get a = none) : GroundTruthGraph α where
  nodeList := g.nodeList ++ [(a, g.nodeList.length)]
  adjList := g.adjList ++ [[]]
  keys := by
    rw [List.map_append, List.nodup_append]
    refine ⟨g.keys, List.nodup_singleton _, ?_⟩
    intro b old c last same
    obtain rfl := List.mem_singleton.1 last
    exact get_eq_none.1 new (same ▸ old)
  indices := by
    rw [List.map_append, g.indices, List.length_append, List.length_singleton, List.range_succ]
    rfl
  rows := by simp [g.rows]
  ends := by
    intro row member i inRow
    rw [List.length_append]
    rcases List.mem_append.1 member with old | last
    · exact Nat.lt_add_right 1 (g.ends row old i inRow)
    · rw [List.mem_singleton.1 last] at inRow
      cases inRow

/-- `add_node`. -/
def addNode (g : GroundTruthGraph α) (a : α) : Nat × GroundTruthGraph α :=
  match h : g.get a with
  | some idx => (idx, g)
  | none => (g.nodeList.length, g.append a h)

/-- The row of a node. -/
def row (g : GroundTruthGraph α) (i : Nat) : List Nat := g.adjList[i]?.getD []

omit [DecidableEq α] in
theorem row_lt (member : j ∈ g.row i) : i < g.nodeList.length ∧ j < g.nodeList.length := by
  cases found : g.adjList[i]? with
  | none =>
      rw [row, found] at member
      cases member
  | some entries =>
      rw [row, found] at member
      obtain ⟨inside, -⟩ := List.getElem?_eq_some_iff.1 found
      exact ⟨g.rows ▸ inside, g.ends entries (List.mem_of_getElem? found) j member⟩

/-- `self.adj_list[i].append(j)`. -/
def push (g : GroundTruthGraph α) (i j : Nat) (below : j < g.nodeList.length) :
    GroundTruthGraph α :=
  { g with
    adjList := g.adjList.modify i (· ++ [j])
    rows := by rw [List.length_modify, g.rows]
    ends := by
      intro entries member k inRow
      obtain ⟨n, place⟩ := List.mem_iff_getElem?.1 member
      rw [List.getElem?_modify] at place
      obtain ⟨old, there, rfl⟩ := Option.map_eq_some_iff.1 place
      have known : ∀ k ∈ old, k < g.nodeList.length := g.ends old (List.mem_of_getElem? there)
      by_cases here : i = n
      · rw [if_pos here] at inRow
        rcases List.mem_append.1 inRow with before | last
        · exact known k before
        · rw [List.mem_singleton.1 last]
          exact below
      · rw [if_neg here] at inRow
        exact known k inRow }

omit [DecidableEq α] in
theorem mem_row_push {below : j < g.nodeList.length} (inside : i < g.nodeList.length)
    (n k : Nat) : k ∈ (g.push i j below).row n ↔ k ∈ g.row n ∨ n = i ∧ k = j := by
  rw [← g.rows] at inside
  simp only [row, push, List.getElem?_modify]
  by_cases here : i = n
  · subst here
    rw [List.getElem?_eq_getElem inside]
    simp
  · have other : n ≠ i := fun same => here same.symm
    simp [here, other]

/-- An edge between two addresses. -/
def Edge (g : GroundTruthGraph α) (a b : α) : Prop :=
  ∃ i j, g.get a = some i ∧ g.get b = some j ∧ j ∈ g.row i

instance (g : GroundTruthGraph α) (a b : α) : Decidable (g.Edge a b) :=
  decidable_of_iff ((g.get a).any (fun i => (g.get b).any fun j => decide (j ∈ g.row i)) = true)
    (by simp [Edge, Option.any_eq_true])

/-- `address in graph.node_list`. -/
def Node (g : GroundTruthGraph α) (a : α) : Prop := (g.get a).isSome = true

instance (g : GroundTruthGraph α) (a : α) : Decidable (g.Node a) :=
  inferInstanceAs (Decidable ((g.get a).isSome = true))

/-! ### Nodes -/

theorem get_append (new : g.get x = none) (a : α) :
    (g.append x new).get a = if a = x then some g.nodeList.length else g.get a := by
  by_cases here : a = x
  · subst here
    rw [if_pos rfl, get_eq_some]
    exact List.mem_append_right _ List.mem_cons_self
  · rw [if_neg here]
    apply Option.ext
    intro i
    rw [get_eq_some, get_eq_some]
    simp [append, here]

theorem row_append (new : g.get x = none) (n : Nat) : (g.append x new).row n = g.row n := by
  simp only [row, append]
  by_cases inside : n < g.adjList.length
  · rw [List.getElem?_append_left inside]
  · rw [List.getElem?_append_right (Nat.le_of_not_lt inside),
      List.getElem?_eq_none (Nat.le_of_not_lt inside)]
    cases n - g.adjList.length <;> rfl

/-- `add_node` returns the index of the node, and the others keep theirs. -/
theorem get_addNode (g : GroundTruthGraph α) (x a : α) :
    (g.addNode x).2.get a = if a = x then some (g.addNode x).1 else g.get a := by
  unfold addNode
  split
  · rename_i idx found
    by_cases here : a = x
    · rw [if_pos here, here]
      exact found
    · rw [if_neg here]
  · rename_i new
    exact get_append new a

theorem row_addNode (g : GroundTruthGraph α) (x : α) (n : Nat) :
    (g.addNode x).2.row n = g.row n := by
  unfold addNode
  split
  · rfl
  · rename_i new
    exact row_append new n

theorem get_addNode_of_some (found : g.get a = some i) (x : α) :
    (g.addNode x).2.get a = some i := by
  unfold addNode
  split
  · exact found
  · rename_i new
    have other : a ≠ x := by
      rintro rfl
      rw [new] at found
      cases found
    rw [get_append new, if_neg other, found]

theorem node_addNode : (g.addNode x).2.Node a ↔ g.Node a ∨ a = x := by
  rw [Node, Node, get_addNode]
  by_cases here : a = x
  · simp [here]
  · simp [here]

/-- A node without edges adds none. -/
theorem edge_addNode : (g.addNode x).2.Edge a b ↔ g.Edge a b := by
  constructor
  · rintro ⟨i, j, left, right, member⟩
    rw [row_addNode] at member
    -- Both indices were there before.
    obtain ⟨a', before⟩ := exists_get (row_lt member).1
    obtain ⟨b', before'⟩ := exists_get (row_lt member).2
    obtain rfl : a' = a := get_inj (get_addNode_of_some before x) left
    obtain rfl : b' = b := get_inj (get_addNode_of_some before' x) right
    exact ⟨i, j, before, before', member⟩
  · rintro ⟨i, j, left, right, member⟩
    exact ⟨i, j, get_addNode_of_some left x, get_addNode_of_some right x,
      (row_addNode g x i).symm ▸ member⟩

/-! ### Edges -/

theorem edge_push {below : j < g.nodeList.length} (here : g.get x = some i)
    (there : g.get y = some j) :
    (g.push i j below).Edge a b ↔ g.Edge a b ∨ a = x ∧ b = y := by
  constructor
  · rintro ⟨n, k, left, right, member⟩
    rcases (mem_row_push (get_lt here) n k).1 member with old | ⟨rfl, rfl⟩
    · exact Or.inl ⟨n, k, left, right, old⟩
    · exact Or.inr ⟨get_inj (g := g) left here, get_inj (g := g) right there⟩
  · rintro (⟨n, k, left, right, member⟩ | ⟨rfl, rfl⟩)
    · exact ⟨n, k, left, right, (mem_row_push (get_lt here) n k).2 (Or.inl member)⟩
    · exact ⟨i, j, here, there, (mem_row_push (get_lt here) i j).2 (Or.inr ⟨rfl, rfl⟩)⟩

theorem get_addNode_self (g : GroundTruthGraph α) (x : α) :
    (g.addNode x).2.get x = some (g.addNode x).1 := by
  rw [get_addNode, if_pos rfl]

/-- `add_edge`. -/
def addEdge (g : GroundTruthGraph α) (x y : α) : GroundTruthGraph α :=
  let first := g.addNode x
  let second := first.2.addNode y
  have one : second.2.get x = some first.1 := get_addNode_of_some (get_addNode_self g x) y
  have two : second.2.get y = some second.1 := get_addNode_self first.2 y
  (second.2.push first.1 second.1 (get_lt two)).push second.1 first.1 (get_lt one)

/-- An edge goes in both ways, and nothing else does. -/
theorem edge_addEdge :
    (g.addEdge x y).Edge a b ↔ g.Edge a b ∨ (a = x ∧ b = y) ∨ (a = y ∧ b = x) := by
  have one : ((g.addNode x).2.addNode y).2.get x = some (g.addNode x).1 :=
    get_addNode_of_some (get_addNode_self g x) y
  have two := get_addNode_self (g.addNode x).2 y
  rw [addEdge]
  rw [edge_push (g := GroundTruthGraph.push _ _ _ (get_lt two)) two one, edge_push one two,
    edge_addNode, edge_addNode, or_assoc]

theorem node_addEdge : (g.addEdge x y).Node a ↔ g.Node a ∨ a = x ∨ a = y := by
  have same : (g.addEdge x y).Node a ↔ ((g.addNode x).2.addNode y).2.Node a := Iff.rfl
  rw [same, node_addNode, node_addNode, or_assoc]

theorem not_edge_empty : ¬ (empty : GroundTruthGraph α).Edge a b := by
  rintro ⟨i, j, left, -, -⟩
  cases left

end GroundTruthGraph

end Graphs

/-! ## The queries -/

/-- What the node of a data directory answers.  `none` is a `CalledProcessError`. -/
structure Queried where
  /-- The addresses and ports under `localaddresses` of `getnetworkinfo`, if any. -/
  localaddresses : Option (List (List Char × Nat))
  /-- The `addr` of the entries of `getpeerinfo`. -/
  peers : Option (List (List Char))

/-- The two graphs. -/
structure Networks where
  gt : GroundTruthGraph (List Char)
  ext : GroundTruthGraph (List Char)

namespace Queried

/-- `f"{entry['address']}:{entry['port']}"` of the first entry; `none` where the node is
passed over. -/
def nodeAddr (q : Queried) : Option (List Char) :=
  match q.localaddresses with
  | some (entry :: _) => some (entry.1 ++ ':' :: Nat.toDigits 10 entry.2)
  | _ => none

/-- The peers the loop runs over. -/
def reported (q : Queried) : List (List Char) := q.peers.getD []

end Queried

namespace Networks

/-- The body of the loop over the peers. -/
def addPeer (node : List Char) (n : Networks) (peer : List Char) : Networks :=
  { ext := n.ext.addEdge node peer
    gt := if n.gt.Node peer then n.gt.addEdge node peer else n.gt }

/-- The body of the loop over the nodes. -/
def query (n : Networks) (q : Queried) : Networks :=
  match q.nodeAddr with
  | none => n
  | some node =>
      q.reported.foldl (addPeer node) { gt := (n.gt.addNode node).2, ext := (n.ext.addNode node).2 }

end Networks

/-- `retrieve_ground_truth_nodes`, up to the files. -/
def retrieve (queries : List Queried) : Networks :=
  queries.foldl Networks.query { gt := .empty, ext := .empty }

/-! ## What the nodes report -/

section Reports

variable {a b x y : List Char}

/-- One of the nodes has the address. -/
def Asked (queries : List Queried) (a : List Char) : Prop := ∃ q ∈ queries, q.nodeAddr = some a

instance (queries : List Queried) (a : List Char) : Decidable (Asked queries a) :=
  inferInstanceAs (Decidable (∃ q ∈ queries, q.nodeAddr = some a))

/-- The node with address `a` reports the peer `b`. -/
def Reports (queries : List Queried) (a b : List Char) : Prop :=
  ∃ q ∈ queries, q.nodeAddr = some a ∧ b ∈ q.reported

/-- The node with address `a` reports the peer `b`, which is known when it does. -/
def Found (known : List Char → Prop) (queries : List Queried) (a b : List Char) : Prop :=
  ∃ before q after, queries = before ++ q :: after ∧ q.nodeAddr = some a ∧ b ∈ q.reported ∧
    (known b ∨ Asked (before ++ [q]) b)

theorem reports_cons {q : Queried} {rest : List Queried} :
    Reports (q :: rest) a b ↔ (q.nodeAddr = some a ∧ b ∈ q.reported) ∨ Reports rest a b := by
  simp [Reports]

theorem found_cons {known : List Char → Prop} {q : Queried} {rest : List Queried} :
    Found known (q :: rest) a b ↔
      (q.nodeAddr = some a ∧ b ∈ q.reported ∧ (known b ∨ q.nodeAddr = some b)) ∨
        Found (fun c => known c ∨ q.nodeAddr = some c) rest a b := by
  constructor
  · rintro ⟨before, r, after, split, addr, member, there⟩
    cases before with
    | nil =>
        cases split
        simp only [Asked, List.nil_append, List.mem_singleton, exists_eq_left] at there
        exact Or.inl ⟨addr, member, there⟩
    | cons first before =>
        cases split
        refine Or.inr ⟨before, r, after, rfl, addr, member, ?_⟩
        rcases there with known | ⟨s, inside, here⟩
        · exact Or.inl (Or.inl known)
        · rcases List.mem_cons.1 inside with rfl | later
          · exact Or.inl (Or.inr here)
          · exact Or.inr ⟨s, later, here⟩
  · rintro (⟨addr, member, there⟩ | ⟨before, r, after, rfl, addr, member, there⟩)
    · refine ⟨[], q, rest, rfl, addr, member, ?_⟩
      rcases there with known | here
      · exact Or.inl known
      · exact Or.inr ⟨q, List.mem_cons_self, here⟩
    · refine ⟨q :: before, r, after, rfl, addr, member, ?_⟩
      rcases there with (known | here) | ⟨s, inside, here⟩
      · exact Or.inl known
      · exact Or.inr ⟨q, List.mem_cons_self, here⟩
      · exact Or.inr ⟨s, List.mem_cons_of_mem q inside, here⟩

namespace Networks

theorem node_addPeer {n : Networks} {node : List Char} (there : n.gt.Node node)
    (peer c : List Char) : (n.addPeer node peer).gt.Node c ↔ n.gt.Node c := by
  rw [addPeer]
  by_cases known : n.gt.Node peer
  · rw [if_pos known, GroundTruthGraph.node_addEdge]
    constructor
    · rintro (old | rfl | rfl)
      · exact old
      · exact there
      · exact known
    · exact Or.inl
  · rw [if_neg known]

theorem edge_addPeer (n : Networks) (node peer a b : List Char) :
    (n.addPeer node peer).gt.Edge a b ↔ n.gt.Edge a b ∨
      n.gt.Node peer ∧ ((a = node ∧ b = peer) ∨ (a = peer ∧ b = node)) := by
  rw [addPeer]
  by_cases known : n.gt.Node peer
  · rw [if_pos known, GroundTruthGraph.edge_addEdge]
    exact or_congr_right (and_iff_right known).symm
  · rw [if_neg known]
    exact (or_iff_left fun new => known new.1).symm

/-- The loop over the peers of a node adds no node to the ground truth, and the edges to those
peers that are nodes. -/
theorem foldl_addPeer (node : List Char) (peers : List (List Char)) :
    ∀ n : Networks, n.gt.Node node →
      (∀ c, (peers.foldl (addPeer node) n).gt.Node c ↔ n.gt.Node c) ∧
      (∀ a b, (peers.foldl (addPeer node) n).gt.Edge a b ↔ n.gt.Edge a b ∨
        (a = node ∧ b ∈ peers ∧ n.gt.Node b) ∨ (b = node ∧ a ∈ peers ∧ n.gt.Node a)) ∧
      ∀ a b, (peers.foldl (addPeer node) n).ext.Edge a b ↔ n.ext.Edge a b ∨
        (a = node ∧ b ∈ peers) ∨ (b = node ∧ a ∈ peers) := by
  induction peers with
  | nil =>
      intro n _
      simp
  | cons peer rest ih =>
      intro n there
      obtain ⟨nodes, edges, exts⟩ := ih (n.addPeer node peer) ((node_addPeer there peer node).2 there)
      rw [List.foldl_cons]
      refine ⟨?_, ?_, ?_⟩
      · intro c
        rw [nodes, node_addPeer there]
      · intro a b
        rw [edges, edge_addPeer, node_addPeer there, node_addPeer there]
        simp only [List.mem_cons]
        constructor
        · rintro ((old | ⟨known, ⟨rfl, rfl⟩ | ⟨rfl, rfl⟩⟩) | ⟨rfl, later, known⟩ | ⟨rfl, later, known⟩)
          · exact Or.inl old
          · exact Or.inr (Or.inl ⟨rfl, Or.inl rfl, known⟩)
          · exact Or.inr (Or.inr ⟨rfl, Or.inl rfl, known⟩)
          · exact Or.inr (Or.inl ⟨rfl, Or.inr later, known⟩)
          · exact Or.inr (Or.inr ⟨rfl, Or.inr later, known⟩)
        · rintro (old | ⟨rfl, rfl | later, known⟩ | ⟨rfl, rfl | later, known⟩)
          · exact Or.inl (Or.inl old)
          · exact Or.inl (Or.inr ⟨known, Or.inl ⟨rfl, rfl⟩⟩)
          · exact Or.inr (Or.inl ⟨rfl, later, known⟩)
          · exact Or.inl (Or.inr ⟨known, Or.inr ⟨rfl, rfl⟩⟩)
          · exact Or.inr (Or.inr ⟨rfl, later, known⟩)
      · intro a b
        have first : (n.addPeer node peer).ext.Edge a b ↔
            n.ext.Edge a b ∨ (a = node ∧ b = peer) ∨ (a = peer ∧ b = node) :=
          GroundTruthGraph.edge_addEdge
        rw [exts, first, List.mem_cons, List.mem_cons, or_assoc, or_or_or_comm, ← and_or_left,
          and_comm (a := a = peer), ← and_or_left]

/-- One node: it is added, and of its peers those that are nodes by then. -/
theorem query_spec (n : Networks) (q : Queried) :
    (∀ c, (n.query q).gt.Node c ↔ n.gt.Node c ∨ q.nodeAddr = some c) ∧
    (∀ a b, (n.query q).gt.Edge a b ↔ n.gt.Edge a b ∨
      (q.nodeAddr = some a ∧ b ∈ q.reported ∧ (n.gt.Node b ∨ q.nodeAddr = some b)) ∨
      (q.nodeAddr = some b ∧ a ∈ q.reported ∧ (n.gt.Node a ∨ q.nodeAddr = some a))) ∧
    ∀ a b, (n.query q).ext.Edge a b ↔ n.ext.Edge a b ∨
      (q.nodeAddr = some a ∧ b ∈ q.reported) ∨ (q.nodeAddr = some b ∧ a ∈ q.reported) := by
  cases addr : q.nodeAddr with
  | none =>
      have skipped : n.query q = n := by
        rw [query, addr]
      simp [skipped]
  | some node =>
      obtain ⟨nodes, edges, exts⟩ := foldl_addPeer node q.reported
        { gt := (n.gt.addNode node).2, ext := (n.ext.addNode node).2 }
        (GroundTruthGraph.node_addNode.2 (Or.inr rfl))
      have asked : n.query q = q.reported.foldl (addPeer node)
          { gt := (n.gt.addNode node).2, ext := (n.ext.addNode node).2 } := by
        rw [query, addr]
      rw [asked]
      simp only [GroundTruthGraph.node_addNode, GroundTruthGraph.edge_addNode] at nodes edges exts
      simp only [Option.some.injEq]
      refine ⟨?_, ?_, ?_⟩
      · intro c
        rw [nodes, eq_comm]
      · intro a b
        rw [edges, eq_comm (a := a), eq_comm (a := b)]
      · intro a b
        rw [exts, eq_comm (a := a), eq_comm (a := b)]

/-- The loop over the nodes. -/
theorem foldl_query (queries : List Queried) :
    ∀ n : Networks,
      (∀ c, (queries.foldl query n).gt.Node c ↔ n.gt.Node c ∨ Asked queries c) ∧
      (∀ a b, (queries.foldl query n).gt.Edge a b ↔ n.gt.Edge a b ∨
        Found n.gt.Node queries a b ∨ Found n.gt.Node queries b a) ∧
      ∀ a b, (queries.foldl query n).ext.Edge a b ↔ n.ext.Edge a b ∨
        Reports queries a b ∨ Reports queries b a := by
  induction queries with
  | nil =>
      intro n
      simp [Asked, Found, Reports]
  | cons q rest ih =>
      intro n
      obtain ⟨nodes, edges, exts⟩ := ih (n.query q)
      obtain ⟨nodes', edges', exts'⟩ := query_spec n q
      rw [List.foldl_cons]
      have known : (n.query q).gt.Node = fun c => n.gt.Node c ∨ q.nodeAddr = some c :=
        funext fun c => propext (nodes' c)
      refine ⟨?_, ?_, ?_⟩
      · intro c
        rw [nodes, nodes', or_assoc]
        simp [Asked]
      · intro a b
        rw [edges, edges', known, found_cons, found_cons, or_assoc, or_or_or_comm]
      · intro a b
        rw [exts, exts', reports_cons, reports_cons, or_assoc, or_or_or_comm]

end Networks

/-! ## The ground truth -/

theorem node_retrieve (queries : List Queried) (c : List Char) :
    (retrieve queries).gt.Node c ↔ Asked queries c := by
  have nobody : ¬ (GroundTruthGraph.empty : GroundTruthGraph (List Char)).Node c := by
    rintro ⟨⟩
  rw [retrieve, (Networks.foldl_query queries _).1 c]
  exact or_iff_right nobody

theorem gt_edge_retrieve (queries : List Queried) (a b : List Char) :
    (retrieve queries).gt.Edge a b ↔
      Found (fun _ => False) queries a b ∨ Found (fun _ => False) queries b a := by
  have nobody : (GroundTruthGraph.empty : GroundTruthGraph (List Char)).Node = fun _ => False := by
    funext c
    exact eq_false (by rintro ⟨⟩)
  rw [retrieve, (Networks.foldl_query queries _).2.1 a b, nobody]
  exact or_iff_right GroundTruthGraph.not_edge_empty

theorem ext_edge_retrieve (queries : List Queried) (a b : List Char) :
    (retrieve queries).ext.Edge a b ↔ Reports queries a b ∨ Reports queries b a := by
  rw [retrieve, (Networks.foldl_query queries _).2.2 a b]
  exact or_iff_right GroundTruthGraph.not_edge_empty

theorem Reports.asked {queries : List Queried} (reports : Reports queries a b) :
    Asked queries a := by
  obtain ⟨q, member, addr, -⟩ := reports
  exact ⟨q, member, addr⟩

/-- What is found is reported, and both are nodes. -/
theorem Found.reports {queries : List Queried} (found : Found (fun _ => False) queries a b) :
    Reports queries a b ∧ Asked queries b := by
  obtain ⟨before, q, after, rfl, addr, member, none_ | ⟨r, inside, there⟩⟩ := found
  · cases none_
  · refine ⟨⟨q, by simp, addr, member⟩, r, ?_, there⟩
    rw [List.append_cons]
    exact List.mem_append_left _ inside

/-- Two nodes that report each other are found: by the one that is asked last. -/
theorem found_of_mutual {queries : List Queried} (one : Reports queries a b)
    (two : Reports queries b a) :
    Found (fun _ => False) queries a b ∨ Found (fun _ => False) queries b a := by
  obtain ⟨q, inside, addr, member⟩ := one
  obtain ⟨r, inside', addr', member'⟩ := two
  obtain ⟨before, after, rfl⟩ := List.append_of_mem inside
  rcases List.mem_append.1 inside' with early | late
  · refine Or.inl ⟨before, q, after, rfl, addr, member, Or.inr ⟨r, ?_, addr'⟩⟩
    exact List.mem_append_left _ early
  · rcases List.mem_cons.1 late with rfl | later
    · exact Or.inl ⟨before, r, after, rfl, addr, member, Or.inr ⟨r, by simp, addr'⟩⟩
    · obtain ⟨between, rest, rfl⟩ := List.append_of_mem later
      refine Or.inr ⟨before ++ q :: between, r, rest, by simp, addr', member',
        Or.inr ⟨q, by simp, addr⟩⟩

/-- The reports of the nodes among themselves go both ways. -/
def Mutual (queries : List Queried) : Prop :=
  ∀ a b, Asked queries a → Asked queries b → Reports queries a b → Reports queries b a

/-- Then the order does not matter: the edges are the reports. -/
theorem Mutual.edge_iff {queries : List Queried} (mutual_ : Mutual queries) (a b : List Char) :
    (retrieve queries).gt.Edge a b ↔
      (Asked queries a ∧ Asked queries b) ∧ (Reports queries a b ∨ Reports queries b a) := by
  rw [gt_edge_retrieve]
  constructor
  · rintro (found | found)
    · obtain ⟨reports, asked⟩ := found.reports
      exact ⟨⟨reports.asked, asked⟩, Or.inl reports⟩
    · obtain ⟨reports, asked⟩ := found.reports
      exact ⟨⟨asked, reports.asked⟩, Or.inr reports⟩
  · rintro ⟨⟨askedA, askedB⟩, reports | reports⟩
    · exact found_of_mutual reports (mutual_ a b askedA askedB reports)
    · exact found_of_mutual (mutual_ b a askedB askedA reports) reports

theorem asked_perm {queries order : List Queried} (perm : order.Perm queries) (a : List Char) :
    Asked order a ↔ Asked queries a := by
  simp only [Asked, perm.mem_iff]

theorem reports_perm {queries order : List Queried} (perm : order.Perm queries)
    (a b : List Char) : Reports order a b ↔ Reports queries a b := by
  simp only [Reports, perm.mem_iff]

theorem Mutual.perm {queries order : List Queried} (mutual_ : Mutual queries)
    (perm : order.Perm queries) : Mutual order := by
  intro a b
  rw [asked_perm perm, asked_perm perm, reports_perm perm, reports_perm perm]
  exact mutual_ a b

/-- The nodes with address `b` are asked last. -/
def askLast (b : List Char) (queries : List Queried) : List Queried :=
  queries.filter (fun q => decide (q.nodeAddr ≠ some b)) ++
    queries.filter fun q => decide (q.nodeAddr = some b)

theorem askLast_perm (b : List Char) (queries : List Queried) :
    (askLast b queries).Perm queries := by
  have other : (fun q : Queried => decide (q.nodeAddr = some b)) =
      fun q => !decide (q.nodeAddr ≠ some b) := by
    funext q
    simp
  rw [askLast, other]
  exact List.filter_append_perm _ _

/-- Who is asked before them does not find them. -/
theorem not_found_askLast (queries : List Queried) (different : a ≠ b) :
    ¬ Found (fun _ => False) (askLast b queries) a b := by
  have ordered : (askLast b queries).Pairwise
      fun r q => r.nodeAddr = some b → q.nodeAddr = some b := by
    refine List.pairwise_append.2 ⟨?_, ?_, ?_⟩
    · refine List.Pairwise.imp_of_mem (R := fun _ _ => True) ?_ (List.pairwise_of_forall (by simp))
      intro r q inside _ _ here
      have other := of_decide_eq_true (List.mem_filter.1 inside).2
      exact absurd here other
    · refine List.Pairwise.imp_of_mem (R := fun _ _ => True) ?_ (List.pairwise_of_forall (by simp))
      intro r q _ inside _ _
      exact of_decide_eq_true (List.mem_filter.1 inside).2
    · intro r _ q inside _
      exact of_decide_eq_true (List.mem_filter.1 inside).2
  rintro ⟨before, q, after, split, addr, -, none_ | ⟨r, inside, there⟩⟩
  · cases none_
  · rw [split, List.pairwise_append] at ordered
    rcases List.mem_append.1 inside with early | last
    · have same := ordered.2.2 r early q List.mem_cons_self there
      rw [addr] at same
      exact different (Option.some.inj same)
    · rw [List.mem_singleton.1 last, addr] at there
      exact different (Option.some.inj there)

/-- The ground truth is the extended network between the nodes that were asked, with no other
edges and in whatever order they are asked. -/
structure Restricts (queries : List Queried) : Prop where
  edges : ∀ a b, Asked queries a → Asked queries b →
    ((retrieve queries).gt.Edge a b ↔ (retrieve queries).ext.Edge a b)
  others : ∀ i j, j ∈ (retrieve queries).gt.row i → ∃ a b, Asked queries a ∧ Asked queries b ∧
    (retrieve queries).gt.get a = some i ∧ (retrieve queries).gt.get b = some j
  order : ∀ order, order.Perm queries → ∀ a b,
    ((retrieve order).gt.Edge a b ↔ (retrieve queries).gt.Edge a b)

/-- There are never edges to anybody else. -/
theorem retrieve_others (queries : List Queried) (i j : Nat)
    (member : j ∈ (retrieve queries).gt.row i) :
    ∃ a b, Asked queries a ∧ Asked queries b ∧
      (retrieve queries).gt.get a = some i ∧ (retrieve queries).gt.get b = some j := by
  obtain ⟨a, left⟩ := GroundTruthGraph.exists_get (GroundTruthGraph.row_lt member).1
  obtain ⟨b, right⟩ := GroundTruthGraph.exists_get (GroundTruthGraph.row_lt member).2
  refine ⟨a, b, ?_, ?_, left, right⟩
  · rw [← node_retrieve]
    exact Option.isSome_iff_exists.2 ⟨i, left⟩
  · rw [← node_retrieve]
    exact Option.isSome_iff_exists.2 ⟨j, right⟩

/-- The ground truth is what it should be exactly if any two nodes that were asked report each
other or not at all. -/
theorem retrieve_restricts_iff (queries : List Queried) :
    Restricts queries ↔
      ∀ a b, Asked queries a → Asked queries b → Reports queries a b → Reports queries b a := by
  constructor
  · intro restricts a b askedA askedB reports
    by_contra silent
    have different : a ≠ b := by
      rintro rfl
      exact silent reports
    have edge : (retrieve (askLast b queries)).gt.Edge a b := by
      rw [restricts.order _ (askLast_perm b queries), restricts.edges a b askedA askedB,
        ext_edge_retrieve]
      exact Or.inl reports
    rcases (gt_edge_retrieve _ a b).1 edge with found | found
    · exact not_found_askLast queries different found
    · exact silent ((reports_perm (askLast_perm b queries) b a).1 found.reports.1)
  · intro mutual_
    have known : Mutual queries := mutual_
    refine ⟨?_, retrieve_others queries, ?_⟩
    · intro a b askedA askedB
      rw [known.edge_iff, ext_edge_retrieve]
      exact and_iff_right ⟨askedA, askedB⟩
    · intro order perm a b
      rw [known.edge_iff, (known.perm perm).edge_iff, asked_perm perm, asked_perm perm,
        reports_perm perm, reports_perm perm]

/-- The host `10.0.0.1` or `10.0.0.2`. -/
def nodeHost (last : Char) : List Char := ['1', '0', '.', '0', '.', '0', '.', last]

def listening (last : Char) : List Char := nodeHost last ++ [':', '4', '8', '3', '3', '3']

/-- `10.0.0.1` has connected to `10.0.0.2`, which sees another port of it. -/
def connected : List Queried :=
  [⟨some [(nodeHost '1', 48333)], some [listening '2']⟩,
    ⟨some [(nodeHost '2', 48333)], some [nodeHost '1' ++ [':', '5', '1', '2', '3', '4']]⟩]

/-- The extended network has the connection, and the ground truth does not. -/
theorem retrieve_misses_edge : ¬ Restricts connected := by
  intro restricts
  have edges := restricts.edges (listening '1') (listening '2') (by decide +kernel)
    (by decide +kernel)
  exact absurd edges (by decide +kernel)

end Reports

end Coinscope.Clients
