/-
Inet/Proofs/Order.lean

The order of addresses and of networks.

An address is compared as one word, while equality looks at its octets.  The
two agree because the octets are the digits of the word: of two sums
`hi * b + lo` with `lo` below `b`, the larger is the one with the larger `hi`,
and `lo` decides only if these are equal (`compare_mul_add`).  So addresses are
in the lexicographic order of their octets (`Address.compare_octets`).

Networks are compared by their addresses and then by their prefix lengths, host
bits and all: over one block they are in the order of their addresses
(`Network.SameBlock.compare_eq`), whose blocks play no part.

Both orders are total, and only equal values compare equal.  The partial order
of networks is put together from those of their parts, and comes out as the
total one (`Network.partialCompare_eq`).  What a `Comparison` says besides is
then settled by `compare` alone (`Comparison.of_consistent`).
-/
import Inet.Proofs.Network.SameBlock
import Inet.Proofs.Network.Text
import Inet.Query

namespace Inet

/-! ### Total orders -/

section Laws

variable {α : Type} [Ord α]

/-- `compare` is a total order in which only equal values compare equal. -/
structure TotallyOrdered (α : Type) [Ord α] : Prop where
  eq_iff : ∀ {a b : α}, compare a b = .eq ↔ a = b
  swap : ∀ a b : α, compare b a = (compare a b).swap
  trans : ∀ {a b c : α}, (compare a b).isLE → (compare b c).isLE → (compare a c).isLE
  lt_trans : ∀ {a b c : α}, compare a b = .lt → compare b c = .lt → compare a c = .lt
  total : ∀ a b : α, (compare a b).isLE ∨ (compare b a).isLE

theorem totallyOrdered_of_lawful [Std.TransOrd α] [Std.LawfulEqOrd α] : TotallyOrdered α where
  eq_iff := Std.LawfulEqOrd.compare_eq_iff_eq
  swap _ _ := Std.OrientedCmp.eq_swap
  trans := Std.TransCmp.isLE_trans
  lt_trans := Std.TransCmp.lt_trans
  total a b := by
    rw [Std.OrientedOrd.eq_swap (a := b), Ordering.isLE_swap]
    cases compare a b <;> simp

end Laws

/-! ### Comparisons -/

section Comparison

variable {α : Type}

/-- All that a comparison of `a` and `b` says is what its order says. -/
structure Comparison.Consistent (c : Comparison α) (a b : α) : Prop where
  reverse : c.reverse = c.order.swap
  partialOrder : c.partialOrder = some c.order
  eq : c.eq = c.order.isEq
  lt : c.lt = c.order.isLT
  le : c.le = c.order.isLE
  gt : c.gt = c.order.isGT
  ge : c.ge = c.order.isGE
  min : c.min = if c.order.isLE then a else b
  max : c.max = if c.order.isLE then b else a

variable [Ord α] [PartialOrd α] [DecidableEq α] [LE α] [DecidableLE α] [Min α] [Max α]

/-- A partial order that always decides, and as the total order does. -/
theorem Comparison.of_consistent [Std.TransOrd α] [Std.LawfulEqOrd α] [Std.LawfulOrderOrd α]
    (hpartial : ∀ a b : α, partialCompare a b = some (compare a b))
    (hmin : ∀ a b : α, Min.min a b = if a ≤ b then a else b)
    (hmax : ∀ a b : α, Max.max a b = if a ≤ b then b else a) (a b : α) :
    (Comparison.of a b).Consistent a b where
  reverse := Std.OrientedOrd.eq_swap
  partialOrder := hpartial a b
  eq := by
    rw [of, Bool.eq_iff_iff, decide_eq_true_iff, Ordering.isEq_iff_eq_eq,
      Std.LawfulEqOrd.compare_eq_iff_eq]
  lt := by simp only [of, hpartial, Option.any_some]
  le := by simp only [of, hpartial, Option.any_some]
  gt := by simp only [of, hpartial, Option.any_some]
  ge := by simp only [of, hpartial, Option.any_some]
  min := by
    simp only [of, hmin, Std.isLE_compare]
  max := by
    simp only [of, hmax, Std.isLE_compare]

end Comparison

/-! ### Bytes and digits -/

theorem compare_uInt8 (a b : UInt8) : compare a b = compare a.toNat b.toNat := by
  show compareOfLessAndEq a b = compareOfLessAndEq a.toNat b.toNat
  simp only [compareOfLessAndEq, UInt8.lt_iff_toNat_lt, ← UInt8.toNat_inj]

theorem compare_uInt32 (a b : UInt32) : compare a b = compare a.toNat b.toNat := by
  show compareOfLessAndEq a b = compareOfLessAndEq a.toNat b.toNat
  simp only [compareOfLessAndEq, UInt32.lt_iff_toNat_lt, ← UInt32.toNat_inj]

/-- A number is compared by its last digit if all that stands before is equal. -/
theorem compare_mul_add {b hi hi' lo lo' : Nat} (h : lo < b) (h' : lo' < b) :
    compare (hi * b + lo) (hi' * b + lo') = (compare hi hi').then (compare lo lo') := by
  rcases Nat.lt_trichotomy hi hi' with hlt | rfl | hgt
  · have hstep : (hi + 1) * b ≤ hi' * b := Nat.mul_le_mul_right b hlt
    rw [Nat.add_one_mul] at hstep
    rw [Nat.compare_eq_lt.2 hlt, Ordering.lt_then, Nat.compare_eq_lt]
    omega
  · rw [Nat.compare_eq_eq.2 rfl, Ordering.eq_then]
    simp [Nat.compare_eq_ite_lt]
  · have hstep : (hi' + 1) * b ≤ hi * b := Nat.mul_le_mul_right b hgt
    rw [Nat.add_one_mul] at hstep
    rw [Nat.compare_eq_gt.2 hgt, Ordering.gt_then, Nat.compare_eq_gt]
    omega

namespace Address

/-- The word is compared as its octets are, from the most significant on. -/
theorem compare_octets (x y : Address) : compare x y = compare x.octets y.octets := by
  have hnumber (addr : Address) : addr.number
      = ((addr.a.toNat * 2 ^ 8 + addr.b.toNat) * 2 ^ 8 + addr.c.toNat) * 2 ^ 8 + addr.d.toNat := by
    rw [number_eq]
    omega
  calc compare x y
      = compare x.number y.number := compare_uInt32 _ _
    _ = (((compare x.a y.a).then (compare x.b y.b)).then (compare x.c y.c)).then
          (compare x.d y.d) := by
        rw [hnumber, hnumber, compare_mul_add x.d.toNat_lt y.d.toNat_lt,
          compare_mul_add x.c.toNat_lt y.c.toNat_lt, compare_mul_add x.b.toNat_lt y.b.toNat_lt]
        simp only [compare_uInt8]
    _ = compare x.octets y.octets := by
        simp only [octets, List.compare_cons_cons, List.compare_nil_nil, Ordering.then_assoc,
          Ordering.then_eq]

end Address

namespace Network

instance : Std.TransOrd Network :=
  inferInstanceAs (Std.TransCmp (compareLex (compareOn addr) (compareOn prefixLen)))

instance : Std.LawfulEqOrd Network where
  compare_self := Std.ReflCmp.compare_self
  eq_of_compare := by
    rintro ⟨x, p⟩ ⟨y, q⟩ h
    obtain ⟨haddr, hlen⟩ := Ordering.then_eq_eq.1 h
    rw [mk.injEq]
    exact ⟨Std.LawfulEqOrd.eq_of_compare haddr, Std.LawfulEqOrd.eq_of_compare hlen⟩

theorem compare_eq (m n : Network) :
    compare m n
      = (compare m.addr.octets n.addr.octets).then (compare m.prefixLen n.prefixLen) := by
  rw [← Address.compare_octets]
  rfl

theorem partialThen_some (first next : Ordering) :
    partialThen (some first) (some next) = some (first.then next) := by
  cases first <;> rfl

/-- Put together from two parts that always decide, the partial order is the total one. -/
theorem partialCompare_eq (m n : Network) : partialCompare m n = some (compare m n) :=
  partialThen_some (compare m.addr n.addr) (compare m.prefixLen n.prefixLen)

/-- Over one block, networks are in the order of their own addresses. -/
theorem SameBlock.compare_eq {m n : Network} (h : m.SameBlock n) :
    compare m n = compare m.addr n.addr := by
  show (compare m.addr n.addr).then (compare m.prefixLen n.prefixLen) = _
  rw [h.prefixLen, Std.ReflOrd.compare_self, Ordering.then_eq]

end Network

/-! ### Texts -/

section Texts

variable {s t : String}

theorem Query.compareAddresses_of_read {x y : Address} (hs : Address.read s = .ok x)
    (ht : Address.read t = .ok y) : Query.compareAddresses s t = .ok (.of x y) := by
  rw [Query.compareAddresses, Address.parse_of_read hs, Address.parse_of_read ht]
  rfl

theorem Query.compareNetworks_of_read {m n : Network} (hs : Network.read s = .ok m)
    (ht : Network.read t = .ok n) : Query.compareNetworks s t = .ok (.of m n) := by
  rw [Query.compareNetworks, Network.parse_of_read hs, Network.parse_of_read ht]
  rfl

end Texts

/-- **Addresses and networks are totally ordered by their parts.**  Addresses are compared by
their octets, most significant first; networks by their addresses and then by their prefix lengths,
whether or not they have the same block.  Both orders are total, equal in them are only equal
values, and all that a comparison says agrees with `compare`, the partial order included.  So texts
are read as values that compare equal exactly if these are written alike. -/
theorem compare_lexicographic :
    (∀ x y : Address, compare x y = compare x.bits y.bits
      ∧ compare x y = compare x.octets y.octets
      ∧ (compare x y = .eq ↔ x.octets = y.octets))
    ∧ (∀ m n : Network, compare m n = (compare m.addr n.addr).then (compare m.prefixLen n.prefixLen)
      ∧ compare m n
          = (compare m.addr.octets n.addr.octets).then (compare m.prefixLen n.prefixLen)
      ∧ (compare m n = .eq ↔ m.addr = n.addr ∧ m.prefixLen = n.prefixLen)
      ∧ (m.SameBlock n → compare m n = compare m.addr n.addr))
    ∧ TotallyOrdered Address
    ∧ TotallyOrdered Network
    ∧ (∀ x y : Address, (Comparison.of x y).order = compare x y
      ∧ (Comparison.of x y).Consistent x y)
    ∧ (∀ m n : Network, (Comparison.of m n).order = compare m n
      ∧ (Comparison.of m n).Consistent m n)
    ∧ (∀ s t x y, Address.read s = .ok x → Address.read t = .ok y →
        Query.compareAddresses s t = .ok (.of x y) ∧ (compare x y = .eq ↔ x.text = y.text))
    ∧ (∀ s t m n, Network.read s = .ok m → Network.read t = .ok n →
        Query.compareNetworks s t = .ok (.of m n) ∧ (compare m n = .eq ↔ m.text = n.text)) := by
  refine ⟨?_, ?_, totallyOrdered_of_lawful, totallyOrdered_of_lawful, ?_, ?_, ?_, ?_⟩
  · intro x y
    refine ⟨rfl, Address.compare_octets x y, ?_⟩
    rw [Address.compare_octets, Std.LawfulEqOrd.compare_eq_iff_eq]
  · intro m n
    refine ⟨rfl, Network.compare_eq m n, ?_, Network.SameBlock.compare_eq⟩
    rw [Std.LawfulEqOrd.compare_eq_iff_eq, Network.mk.injEq]
  · intro x y
    have hpartial : ∀ x y : Address, partialCompare x y = some (compare x y) := fun _ _ => rfl
    exact ⟨rfl, Comparison.of_consistent hpartial (fun _ _ => rfl) (fun _ _ => rfl) x y⟩
  · intro m n
    exact ⟨rfl, Comparison.of_consistent Network.partialCompare_eq (fun _ _ => rfl)
      (fun _ _ => rfl) m n⟩
  · intro s t x y hs ht
    refine ⟨Query.compareAddresses_of_read hs ht, ?_⟩
    rw [Std.LawfulEqOrd.compare_eq_iff_eq, Address.text_inj]
  · intro s t m n hs ht
    refine ⟨Query.compareNetworks_of_read hs ht, ?_⟩
    rw [Std.LawfulEqOrd.compare_eq_iff_eq,
      Network.text_inj (Network.valid_of_read hs) (Network.valid_of_read ht)]

/-- Two networks over one block, addresses around the top bit, and a text with more zeros. -/
theorem compare_lexicographic_topBit :
    let m : Network := ⟨⟨10, 0, 0, 255⟩, 8⟩
    let n : Network := ⟨⟨10, 200, 0, 0⟩, 8⟩
    m.SameBlock n ∧ compare m n = compare m.addr n.addr ∧ compare m n = .lt
    ∧ Address.read "127.255.255.255" = .ok ⟨127, 255, 255, 255⟩
    ∧ Address.read "128.0.0.0" = .ok ⟨128, 0, 0, 0⟩
    ∧ Query.compareAddresses "127.255.255.255" "128.0.0.0"
      = .ok (.of ⟨127, 255, 255, 255⟩ ⟨128, 0, 0, 0⟩)
    ∧ Network.read "10.0.0.255/8" = .ok m ∧ Network.read "010.0.0.255/08" = .ok m
    ∧ Query.compareNetworks "10.0.0.255/8" "010.0.0.255/08" = .ok (.of m m) := by
  intro m n
  obtain ⟨-, hnetworks, -, -, -, -, haddrs, htexts⟩ := compare_lexicographic
  have hsame : m.SameBlock n := Network.sameBlock_iff.2 ⟨rfl, by decide⟩
  have hx : Address.read "127.255.255.255" = .ok ⟨127, 255, 255, 255⟩ := by
    rw [Address.read_eq]
    decide
  have hy : Address.read "128.0.0.0" = .ok ⟨128, 0, 0, 0⟩ := by
    rw [Address.read_eq]
    decide
  have hm : Network.read "10.0.0.255/8" = .ok m := by
    rw [Network.read_eq]
    decide
  have hm' : Network.read "010.0.0.255/08" = .ok m := by
    rw [Network.read_eq]
    decide
  have horder := (hnetworks m n).2.2.2 hsame
  refine ⟨hsame, horder, ?_, hx, hy, (haddrs _ _ _ _ hx hy).1, hm, hm', (htexts _ _ _ _ hm hm').1⟩
  rw [horder]
  decide

end Inet
