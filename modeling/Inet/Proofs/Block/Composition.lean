/-
Inet/Proofs/Block/Composition.lean

Ends of blocks of ends of blocks.

Two addresses that have their first `q` bits in common share the shorter
prefixes too, so they are in the same blocks of these.  The ends of the longer
prefix's block are addresses of it, and lead to the same shorter block as any
other,

    networkAddr (networkAddr addr q) p    =  networkAddr addr p
    networkAddr (broadcastAddr addr q) p  =  networkAddr addr p      if p ≤ q

and the longer prefix's block lies within the shorter one's.  Conversely an end
of a block is where the blocks of all longer prefixes end that contain it.
Either way the shorter prefix decides.
-/
import Inet.Proofs.Block.Alignment

namespace Inet.Block

open Address

variable {p q : UInt8} {x y addr : Address}

/-! ### Addresses of one block -/

theorem networkAddr_eq_iff :
    networkAddr x p = networkAddr y p ↔ x.bits &&& mask p = y.bits &&& mask p := by
  constructor
  · intro h
    rw [← bits_ofBits (x.bits &&& mask p), ← bits_ofBits (y.bits &&& mask p)]
    exact congrArg bits h
  · intro h
    rw [networkAddr, h]
    rfl

/-- A block ends where it ends for all its addresses. -/
theorem broadcastAddr_eq_of_networkAddr_eq (h : networkAddr x p = networkAddr y p) :
    broadcastAddr x p = broadcastAddr y p := by
  rw [← number_inj, number_broadcastAddr, number_broadcastAddr, h]

/-- Addresses of one block are in one block of any shorter prefix. -/
theorem networkAddr_eq_of_le (h : p ≤ q) (hxy : networkAddr x q = networkAddr y q) :
    networkAddr x p = networkAddr y p := by
  rw [networkAddr_eq_iff] at hxy ⊢
  exact and_mask_eq_of_le h hxy

theorem networkAddr_networkAddr_self : networkAddr (networkAddr addr q) q = networkAddr addr q := by
  rw [networkAddr_eq_iff, and_mask_eq_iff]
  exact ⟨Nat.le_refl _, Nat.lt_add_of_pos_right (size_pos q)⟩

theorem networkAddr_broadcastAddr_self :
    networkAddr (broadcastAddr addr q) q = networkAddr addr q := by
  have hpos := size_pos q
  rw [networkAddr_eq_iff, and_mask_eq_iff, number_broadcastAddr]
  omega

/-! ### The ends of a longer prefix's block -/

theorem networkAddr_networkAddr_of_le (h : p ≤ q) :
    networkAddr (networkAddr addr q) p = networkAddr addr p :=
  networkAddr_eq_of_le h networkAddr_networkAddr_self

theorem networkAddr_broadcastAddr_of_le (h : p ≤ q) :
    networkAddr (broadcastAddr addr q) p = networkAddr addr p :=
  networkAddr_eq_of_le h networkAddr_broadcastAddr_self

theorem broadcastAddr_networkAddr_of_le (h : p ≤ q) :
    broadcastAddr (networkAddr addr q) p = broadcastAddr addr p :=
  broadcastAddr_eq_of_networkAddr_eq (networkAddr_networkAddr_of_le h)

theorem broadcastAddr_broadcastAddr_of_le (h : p ≤ q) :
    broadcastAddr (broadcastAddr addr q) p = broadcastAddr addr p :=
  broadcastAddr_eq_of_networkAddr_eq (networkAddr_broadcastAddr_of_le h)

theorem networkAddr_le_networkAddr_of_le (h : p ≤ q) : networkAddr addr p ≤ networkAddr addr q :=
  calc networkAddr addr p = networkAddr (networkAddr addr q) p :=
      (networkAddr_networkAddr_of_le h).symm
    _ ≤ networkAddr addr q := networkAddr_le_self

theorem broadcastAddr_le_broadcastAddr_of_le (h : p ≤ q) :
    broadcastAddr addr q ≤ broadcastAddr addr p :=
  calc broadcastAddr addr q ≤ broadcastAddr (broadcastAddr addr q) p := le_broadcastAddr
    _ = broadcastAddr addr p := broadcastAddr_broadcastAddr_of_le h

/-- The longer prefix's block lies within the shorter one's. -/
theorem interval_subset_of_le (h : p ≤ q) :
    interval (networkAddr addr q) (broadcastAddr addr q)
      ⊆ interval (networkAddr addr p) (broadcastAddr addr p) := by
  intro x hx
  rw [mem_interval] at hx ⊢
  exact ⟨Std.le_trans (networkAddr_le_networkAddr_of_le h) hx.1,
    Std.le_trans hx.2 (broadcastAddr_le_broadcastAddr_of_le h)⟩

/-! ### The ends of a shorter prefix's block -/

/-- The lowest address of a block is the lowest of each smaller block around it. -/
theorem networkAddr_networkAddr_of_ge (h : p ≤ q) :
    networkAddr (networkAddr addr p) q = networkAddr addr p := by
  apply Std.le_antisymm networkAddr_le_self
  calc networkAddr addr p = networkAddr (networkAddr addr p) p := networkAddr_networkAddr_self.symm
    _ ≤ networkAddr (networkAddr addr p) q := networkAddr_le_networkAddr_of_le h

theorem broadcastAddr_broadcastAddr_of_ge (h : p ≤ q) :
    broadcastAddr (broadcastAddr addr p) q = broadcastAddr addr p := by
  refine Std.le_antisymm ?_ le_broadcastAddr
  calc broadcastAddr (broadcastAddr addr p) q
      ≤ broadcastAddr (broadcastAddr addr p) p := broadcastAddr_le_broadcastAddr_of_le h
    _ = broadcastAddr addr p := broadcastAddr_broadcastAddr_of_le (UInt8.le_refl p)

theorem networkAddr_networkAddr (addr : Address) (p q : UInt8) :
    networkAddr (networkAddr addr p) q = networkAddr addr (min p q) := by
  show _ = networkAddr addr (if p ≤ q then p else q)
  by_cases h : p ≤ q
  · rw [if_pos h]
    exact networkAddr_networkAddr_of_ge h
  · rw [if_neg h]
    exact networkAddr_networkAddr_of_le (UInt8.le_of_lt (UInt8.not_le.1 h))

theorem broadcastAddr_broadcastAddr (addr : Address) (p q : UInt8) :
    broadcastAddr (broadcastAddr addr p) q = broadcastAddr addr (min p q) := by
  show _ = broadcastAddr addr (if p ≤ q then p else q)
  by_cases h : p ≤ q
  · rw [if_pos h]
    exact broadcastAddr_broadcastAddr_of_ge h
  · rw [if_neg h]
    exact broadcastAddr_broadcastAddr_of_le (UInt8.le_of_lt (UInt8.not_le.1 h))

/-! ### Order -/

theorem networkAddr_mono (h : x ≤ y) : networkAddr x p ≤ networkAddr y p := by
  rw [le_iff_number_le] at h ⊢
  rw [number_networkAddr, number_networkAddr]
  exact Nat.mul_le_mul_right _ (Nat.div_le_div_right h)

theorem broadcastAddr_mono (h : x ≤ y) : broadcastAddr x p ≤ broadcastAddr y p := by
  have hlow := le_iff_number_le.1 (networkAddr_mono (p := p) h)
  rw [le_iff_number_le, number_broadcastAddr, number_broadcastAddr]
  exact Nat.add_le_add_right hlow _

/-- **Of two prefixes the shorter decides.**  The ends of the block of an end are those of the
shorter prefix, so that taking them again changes nothing and the order of two prefixes does not
matter.  The block of the longer prefix lies within that of the shorter, and both its ends lead to
the ends of this.  Larger addresses have no smaller ends. -/
theorem ends_compose (addr : Address) (p q : UInt8) :
    networkAddr (networkAddr addr p) q = networkAddr addr (min p q)
    ∧ broadcastAddr (broadcastAddr addr p) q = broadcastAddr addr (min p q)
    ∧ networkAddr (networkAddr addr p) p = networkAddr addr p
    ∧ broadcastAddr (broadcastAddr addr p) p = broadcastAddr addr p
    ∧ networkAddr (networkAddr addr p) q = networkAddr (networkAddr addr q) p
    ∧ broadcastAddr (broadcastAddr addr p) q = broadcastAddr (broadcastAddr addr q) p
    ∧ (p ≤ q →
        interval (networkAddr addr q) (broadcastAddr addr q)
          ⊆ interval (networkAddr addr p) (broadcastAddr addr p)
        ∧ networkAddr addr p ≤ networkAddr addr q ∧ networkAddr addr q ≤ addr
        ∧ addr ≤ broadcastAddr addr q ∧ broadcastAddr addr q ≤ broadcastAddr addr p
        ∧ networkAddr (broadcastAddr addr q) p = networkAddr addr p
        ∧ broadcastAddr (networkAddr addr q) p = broadcastAddr addr p)
    ∧ (∀ other, addr ≤ other →
        networkAddr addr p ≤ networkAddr other p
        ∧ broadcastAddr addr p ≤ broadcastAddr other p) := by
  have hcomm : min p q = min q p := Std.Commutative.comm p q
  refine ⟨networkAddr_networkAddr addr p q, broadcastAddr_broadcastAddr addr p q,
    networkAddr_networkAddr_self, broadcastAddr_broadcastAddr_of_le (UInt8.le_refl p), ?_, ?_, ?_,
    ?_⟩
  · rw [networkAddr_networkAddr, networkAddr_networkAddr, hcomm]
  · rw [broadcastAddr_broadcastAddr, broadcastAddr_broadcastAddr, hcomm]
  · intro h
    exact ⟨interval_subset_of_le h, networkAddr_le_networkAddr_of_le h, networkAddr_le_self,
      le_broadcastAddr, broadcastAddr_le_broadcastAddr_of_le h, networkAddr_broadcastAddr_of_le h,
      broadcastAddr_networkAddr_of_le h⟩
  · intro other h
    exact ⟨networkAddr_mono h, broadcastAddr_mono h⟩

/-- The last four addresses within the whole address space, and the address before them. -/
theorem ends_compose_lastFour :
    let addr : Address := ⟨255, 255, 255, 251⟩
    (0 : UInt8) ≤ 30 ∧ addr ≤ .broadcast
    ∧ networkAddr (broadcastAddr .broadcast 30) 0 = networkAddr .broadcast 0
    ∧ interval (networkAddr .broadcast 30) (broadcastAddr .broadcast 30)
      ⊆ interval (networkAddr .broadcast 0) (broadcastAddr .broadcast 0)
    ∧ broadcastAddr addr 30 ≤ broadcastAddr .broadcast 30 := by
  intro addr
  have hlen : (0 : UInt8) ≤ 30 := by decide
  have haddr : addr ≤ .broadcast := by decide
  obtain ⟨-, -, -, -, -, -, hnested, -⟩ := ends_compose .broadcast 0 30
  obtain ⟨hsubset, -, -, -, -, hlow, -⟩ := hnested hlen
  obtain ⟨-, -, -, -, -, -, -, hmono⟩ := ends_compose addr 30 30
  exact ⟨hlen, haddr, hlow, hsubset, (hmono _ haddr).2⟩

end Inet.Block
