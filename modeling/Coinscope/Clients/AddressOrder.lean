/-
# Clients.AddressOrder -- the comparisons behind the sets of addresses

`std::map` and `std::set` find their entries by a comparison, and three clients bring one for
`sockaddr_in`.  All three subtract the addresses as unsigned words, put the difference into an
`int` and ask whether it is negative; the port decides between equal addresses.

The difference of two words does not fit an `int`.  The comparison tells apart exactly what it
should, but it is an order only for addresses in one half of the circle of the 2^32 words.
`s_addr` is in network order, so on a little endian machine the last number of the dotted quad
is the highest byte: three hosts of one network are enough to go round the circle.

* `sockaddrCmp`, `KillDupes.addrCmp`, `Cycle.addrCmp` -- the three comparisons.
* `Orders` -- what the containers need of one, for the addresses it is asked about.
* `comparators_order_iff` -- the sets of addresses the comparisons order.
-/
import Coinscope.Clients.EasyMessages
import Coinscope.Theory.Circle

namespace Coinscope.Clients

open Coinscope.Theory.Bytes
open Coinscope.Theory.Circle

set_option autoImplicit false

/-! ## The comparisons -/

/-- `sin_addr.s_addr`, as a little endian machine loads it. -/
def SockaddrIn.sAddr (a : SockaddrIn) : UInt32 := UInt32.ofNat (ofLE a.sinAddr)

/-- `sin_port`, loaded the same way. -/
def SockaddrIn.sinPort (a : SockaddrIn) : UInt16 := UInt16.ofNat (ofLE a.port)

/-- The body all three comparisons have.  The addresses are subtracted as `uint32_t` and the
difference is put into an `int`; the ports are promoted to `int` first. -/
def lessByDifference (lhs rhs : SockaddrIn) : Bool :=
  let t : Int32 := (lhs.sAddr - rhs.sAddr).toInt32
  let t := if t = 0 then lhs.sinPort.toUInt32.toInt32 - rhs.sinPort.toUInt32.toInt32 else t
  decide (t < 0)

/-- `sockaddr_cmp` of `lib.hpp`. -/
def sockaddrCmp : SockaddrIn → SockaddrIn → Bool := lessByDifference

/-- `addr_cmp` of `kill_dupes.cpp`. -/
def KillDupes.addrCmp : SockaddrIn → SockaddrIn → Bool := lessByDifference

/-- `addr_cmp` of `cycle.cpp`. -/
def Cycle.addrCmp : SockaddrIn → SockaddrIn → Bool := lessByDifference

/-- What `std::map` and `std::set` need of a comparison for the addresses they compare: a strict
weak order that tells apart what differs in the address or the port. -/
structure Orders (cmp : SockaddrIn → SockaddrIn → Bool) (S : Set SockaddrIn) : Prop where
  weak : IsStrictWeakOrder S fun a b => cmp a.1 b.1 = true
  incomparable : ∀ a ∈ S, ∀ b ∈ S, (cmp a b = false ∧ cmp b a = false) ↔
    (a.sinAddr = b.sinAddr ∧ a.port = b.port)

/-- All addresses are among the 2^31 that follow some first one, where the word behind the
last is 0. -/
def InOneHalf (S : Set SockaddrIn) : Prop :=
  ∃ base : UInt32, ∀ a ∈ S, (a.sAddr - base).toNat < 2 ^ 31

/-! ## What they compare -/

namespace SockaddrIn

theorem toNat_sAddr (a : SockaddrIn) : a.sAddr.toNat = ofLE a.sinAddr := by
  have small := ofLE_lt a.sinAddr
  rw [length_sinAddr] at small
  exact Nat.mod_eq_of_lt small

theorem toNat_sinPort (a : SockaddrIn) : a.sinPort.toNat = ofLE a.port := by
  have small := ofLE_lt a.port
  rw [length_port] at small
  exact Nat.mod_eq_of_lt small

theorem sAddr_inj {a b : SockaddrIn} : a.sAddr = b.sAddr ↔ a.sinAddr = b.sinAddr := by
  rw [← UInt32.toNat_inj, toNat_sAddr, toNat_sAddr]
  exact ⟨ofLE_inj (by simp), fun same => by rw [same]⟩

theorem sinPort_inj {a b : SockaddrIn} : a.sinPort = b.sinPort ↔ a.port = b.port := by
  rw [← UInt16.toNat_inj, toNat_sinPort, toNat_sinPort]
  exact ⟨ofLE_inj (by simp), fun same => by rw [same]⟩

/-- The address as a point of the circle. -/
def word (a : SockaddrIn) : BitVec 32 := a.sAddr.toBitVec

theorem word_inj {a b : SockaddrIn} : a.word = b.word ↔ a.sAddr = b.sAddr :=
  UInt32.toBitVec_inj

end SockaddrIn

/-- Promoted ports are small, so their difference keeps its sign. -/
theorem port_difference_neg (p q : UInt16) :
    p.toUInt32.toInt32 - q.toUInt32.toInt32 < 0 ↔ p.toNat < q.toNat := by
  have promoted : ∀ r : UInt16, r.toUInt32.toInt32.toInt = (r.toNat : Int) := by
    intro r
    have small := r.toNat_lt
    change r.toUInt32.toBitVec.toInt = _
    rw [BitVec.toInt_eq_toNat_cond, if_pos (by simp; omega)]
    simp
  have hp := p.toNat_lt
  have hq := q.toNat_lt
  rw [Int32.lt_iff_toInt_lt, Int32.toInt_sub, promoted, promoted, Int.bmod_eq_of_le (by omega)
    (by omega)]
  change (_ : Int) < 0 ↔ _
  omega

theorem lessByDifference_iff (a b : SockaddrIn) : lessByDifference a b = true ↔
    Behind a.word b.word ∨ a.word = b.word ∧ a.sinPort.toNat < b.sinPort.toNat := by
  have zero : (a.sAddr - b.sAddr).toInt32 = 0 ↔ a.word = b.word := by
    rw [← Int32.toBitVec_inj]
    exact sub_eq_zero (a := a.word) (b := b.word)
  have negative : (a.sAddr - b.sAddr).toInt32 < 0 ↔ Behind a.word b.word := by
    rw [Int32.lt_iff_toInt_lt]
    rfl
  rw [lessByDifference, decide_eq_true_eq]
  by_cases same : a.word = b.word
  · rw [if_pos (zero.2 same), port_difference_neg, same]
    simp [behind_irrefl]
  · rw [if_neg (mt zero.1 same), negative]
    simp [same]

/-- Neither is less than the other exactly when address and port are equal.  This needs no
condition: a difference that is not 0 has a sign one way or the other. -/
theorem lessByDifference_incomparable (a b : SockaddrIn) :
    (lessByDifference a b = false ∧ lessByDifference b a = false) ↔
      (a.sinAddr = b.sinAddr ∧ a.port = b.port) := by
  rw [← SockaddrIn.sAddr_inj, ← SockaddrIn.sinPort_inj, ← SockaddrIn.word_inj,
    ← Bool.not_eq_true, ← Bool.not_eq_true, lessByDifference_iff, lessByDifference_iff,
    ← UInt16.toNat_inj]
  by_cases same : a.word = b.word
  · simp only [same, behind_irrefl, false_or, true_and]
    omega
  · rcases behind_total same with less | more
    · simp [less, same]
    · simp [more, same]

/-! ## When they are orders -/

theorem orders_of_inOneHalf {S : Set SockaddrIn} (half : InOneHalf S) :
    Orders lessByDifference S := by
  obtain ⟨base, within⟩ := half
  -- Within the half the comparison is the lexicographic one of distance and port.
  have less_iff : ∀ a b : S, lessByDifference a.1 b.1 = true ↔
      (a.1.sAddr - base).toNat < (b.1.sAddr - base).toNat ∨
      (a.1.sAddr - base).toNat = (b.1.sAddr - base).toNat ∧
        a.1.sinPort.toNat < b.1.sinPort.toNat := by
    intro a b
    have same : a.1.word = b.1.word ↔
        (a.1.sAddr - base).toNat = (b.1.sAddr - base).toNat := by
      rw [UInt32.toNat_inj, UInt32.sub_left_inj, SockaddrIn.word_inj]
    have behind : Behind a.1.word b.1.word ↔
        (a.1.sAddr - base).toNat < (b.1.sAddr - base).toNat :=
      behind_iff_offset (within a.1 a.2) (within b.1 b.2)
    rw [lessByDifference_iff, behind, same]
  refine ⟨?_, fun a _ b _ => lessByDifference_incomparable a b⟩
  simp only [less_iff]
  refine { irrefl := ?_, trans := ?_, incomp_trans := ?_ }
  · intro a
    omega
  · intro a b c
    omega
  · intro a b c
    omega

theorem inOneHalf_of_orders {S : Set SockaddrIn} (orders : Orders lessByDifference S) :
    InOneHalf S := by
  have weak := orders.weak
  have less_of_behind : ∀ a b : SockaddrIn, Behind a.word b.word →
      lessByDifference a b = true := by
    intro a b behind
    exact (lessByDifference_iff a b).2 (Or.inl behind)
  have order : IsStrictOrder (SockaddrIn.word '' S) fun x y => Behind x.1 y.1 := by
    refine { irrefl := fun x => behind_irrefl x.1, trans := ?_ }
    rintro ⟨_, a, ha, rfl⟩ ⟨_, b, hb, rfl⟩ ⟨_, c, hc, rfl⟩ first second
    have both : lessByDifference a c = true :=
      weak.trans ⟨a, ha⟩ ⟨b, hb⟩ ⟨c, hc⟩ (less_of_behind a b first) (less_of_behind b c second)
    -- The ports decide only where the addresses are equal, and then `a` and `b` would be each
    -- behind the other.
    rcases (lessByDifference_iff a c).1 both with behind | ⟨same, -⟩
    · exact behind
    · have back : Behind b.word a.word := same ▸ second
      exact absurd (weak.trans ⟨a, ha⟩ ⟨b, hb⟩ ⟨a, ha⟩ (less_of_behind a b first)
        (less_of_behind b a back)) (weak.irrefl ⟨a, ha⟩)
  obtain ⟨base, within⟩ := inHalf_of_strictOrder order
  exact ⟨⟨base⟩, fun a member => within a.word ⟨a, member, rfl⟩⟩

/-- The comparisons order a set of addresses exactly when it is in one half of the circle. -/
theorem comparators_order_iff (S : Set SockaddrIn) :
    (Orders sockaddrCmp S ↔ InOneHalf S) ∧ (Orders KillDupes.addrCmp S ↔ InOneHalf S) ∧
      (Orders Cycle.addrCmp S ↔ InOneHalf S) := by
  have body : Orders lessByDifference S ↔ InOneHalf S :=
    ⟨inOneHalf_of_orders, orders_of_inOneHalf⟩
  exact ⟨body, body, body⟩

/-- Port 8333 of a host of the network 1.2.3.0. -/
def hostOfNetwork (last : UInt8) : SockaddrIn :=
  ⟨[2, 0, 0x20, 0x8d, 1, 2, 3, last, 0, 0, 0, 0, 0, 0, 0, 0], rfl⟩

/-- 1.2.3.4 is less than 1.2.3.100, that is less than 1.2.3.200, and that is less than 1.2.3.4. -/
theorem hosts_round_the_circle :
    sockaddrCmp (hostOfNetwork 4) (hostOfNetwork 100) = true ∧
      sockaddrCmp (hostOfNetwork 100) (hostOfNetwork 200) = true ∧
      sockaddrCmp (hostOfNetwork 4) (hostOfNetwork 200) = false ∧
      sockaddrCmp (hostOfNetwork 200) (hostOfNetwork 4) = true ∧
      ¬ Orders sockaddrCmp Set.univ ∧ ¬ Orders KillDupes.addrCmp Set.univ ∧
      ¬ Orders Cycle.addrCmp Set.univ := by
  have not_ordered : ¬ Orders lessByDifference Set.univ := by
    intro orders
    have through := orders.weak.trans ⟨hostOfNetwork 4, trivial⟩ ⟨hostOfNetwork 100, trivial⟩
      ⟨hostOfNetwork 200, trivial⟩ (by decide) (by decide)
    exact absurd through (by decide)
  exact ⟨by decide, by decide, by decide, by decide, not_ordered, not_ordered, not_ordered⟩

end Coinscope.Clients
