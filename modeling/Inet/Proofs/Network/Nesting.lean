/-
Inet/Proofs/Network/Nesting.lean

Blocks of two networks.

A prefix length looks at the first bits of an address, and a shorter one looks
at fewer of them.  So a network with the shorter prefix cannot tell the
addresses of the other's block apart:

    a.contains addr  =  a.contains b.addr     for all addr in the block of b

(`contains_eq_of_contains`).  One answer decides whether `a` covers the whole
block of `b` or none of it, and any two blocks are nested or apart.  A block
determines its lowest address and its size, hence the prefix length of the
valid networks that have it (`forall_contains_eq_iff`).
-/
import Inet.Proofs.Network.Indexing

namespace Inet.Network

open Address

variable {a b n : Network}

/-- All addresses in the block of `b` are in that of `a`. -/
def Covers (a b : Network) : Prop := ∀ addr, b.contains addr → a.contains addr

/-- No address is in both blocks. -/
def Apart (a b : Network) : Prop := ∀ addr, ¬ (a.contains addr ∧ b.contains addr)

/-! ### Addresses that a block is sure to contain -/

theorem contains_addr : n.contains n.addr := by
  rw [contains, decide_eq_true_iff]

theorem contains_networkAddr : n.contains n.networkAddr :=
  (get?_eq_some_iff_contains.1 get?_zero).1

theorem contains_broadcastAddr : n.contains n.broadcastAddr :=
  (get?_eq_some_iff_contains.1 get?_size_sub_one).1

/-! ### The shorter prefix -/

/-- A network gives one answer for all addresses of a block with a longer prefix. -/
theorem contains_eq_of_contains (h : a.prefixLen ≤ b.prefixLen) {addr : Address}
    (haddr : b.contains addr) : a.contains addr = a.contains b.addr := by
  rw [contains, decide_eq_true_iff] at haddr
  rw [contains, contains, Block.and_mask_eq_of_le h haddr]

theorem contains_iff_covers (h : a.prefixLen ≤ b.prefixLen) : a.contains b.addr ↔ a.Covers b := by
  constructor
  · intro hb addr haddr
    exact (contains_eq_of_contains h haddr).trans hb
  · intro hcovers
    exact hcovers b.addr contains_addr

theorem not_contains_iff_apart (h : a.prefixLen ≤ b.prefixLen) :
    ¬ a.contains b.addr ↔ a.Apart b := by
  constructor
  · rintro hb addr ⟨ha, haddr⟩
    rw [contains_eq_of_contains h haddr] at ha
    exact hb ha
  · intro hapart hb
    exact hapart b.addr ⟨hb, contains_addr⟩

/-- Two blocks are nested or have nothing in common. -/
theorem nested_or_apart (a b : Network) : a.Covers b ∨ b.Covers a ∨ a.Apart b := by
  rcases UInt8.le_total a.prefixLen b.prefixLen with h | h
  · by_cases hb : a.contains b.addr
    · exact .inl ((contains_iff_covers h).1 hb)
    · exact .inr (.inr ((not_contains_iff_apart h).1 hb))
  · by_cases ha : b.contains a.addr
    · exact .inr (.inl ((contains_iff_covers h).1 ha))
    · refine .inr (.inr ?_)
      rintro addr ⟨haddr, haddr'⟩
      exact (not_contains_iff_apart h).1 ha addr ⟨haddr', haddr⟩

/-! ### Equal blocks -/

theorem size_eq_iff (ha : a.Valid) (hb : b.Valid) :
    a.size = b.size ↔ a.prefixLen = b.prefixLen := by
  constructor
  · intro h
    have hpow : 2 ^ (32 - a.prefixLen.toNat) = 2 ^ (32 - b.prefixLen.toNat) := by
      rw [← Block.toNat_size, ← Block.toNat_size]
      exact congrArg UInt64.toNat h
    have hbits := Nat.pow_right_injective (Nat.le_refl 2) hpow
    have hale := UInt8.le_iff_toNat_le.1 ha
    have hble := UInt8.le_iff_toNat_le.1 hb
    have hwidth : Address.width.toNat = 32 := rfl
    rw [← UInt8.toNat_inj]
    omega
  · intro h
    rw [size, size, h]

/-- The ends of a block that is covered lie between the ends of the other. -/
theorem Covers.ends (h : a.Covers b) :
    a.networkAddr.number ≤ b.networkAddr.number
      ∧ b.networkAddr.number + b.size.toNat ≤ a.networkAddr.number + a.size.toNat := by
  have hsize := size_pos (n := b)
  have hlow := contains_iff.1 (h _ contains_networkAddr)
  have hhigh := contains_iff.1 (h _ contains_broadcastAddr)
  rw [number_broadcastAddr] at hhigh
  omega

/-- Valid networks have the same block exactly if they agree in prefix length and lowest address. -/
theorem forall_contains_eq_iff (ha : a.Valid) (hb : b.Valid) :
    (∀ addr, a.contains addr = b.contains addr)
      ↔ a.prefixLen = b.prefixLen ∧ a.networkAddr = b.networkAddr := by
  constructor
  · intro h
    have hab : a.Covers b := fun addr haddr => (h addr).trans haddr
    have hba : b.Covers a := fun addr haddr => (h addr).symm.trans haddr
    have hends := hab.ends
    have hends' := hba.ends
    rw [← size_eq_iff ha hb, ← UInt64.toNat_inj, ← number_inj]
    omega
  · rintro ⟨hlen, hlow⟩ addr
    have hsize := (size_eq_iff ha hb).2 hlen
    rw [Bool.eq_iff_iff, contains_iff, contains_iff, hsize, hlow]

/-- **The blocks of networks form a laminar family.**  Whether a network contains the address of
one with a prefix at least as long decides between covering its block and having nothing in common
with it, and the ends of the block get the same answer.  So two blocks are nested or apart, and
they are equal exactly if the prefix lengths and the lowest addresses are. -/
theorem blocks_laminar (a b : Network) (ha : a.Valid) (hb : b.Valid) :
    (a.prefixLen ≤ b.prefixLen →
      (a.contains b.addr ↔ a.Covers b)
      ∧ (¬ a.contains b.addr ↔ a.Apart b)
      ∧ a.contains b.networkAddr = a.contains b.addr
      ∧ a.contains b.broadcastAddr = a.contains b.addr)
    ∧ (a.Covers b ∨ b.Covers a ∨ a.Apart b)
    ∧ ((∀ addr, a.contains addr = b.contains addr)
        ↔ a.prefixLen = b.prefixLen ∧ a.networkAddr = b.networkAddr) := by
  refine ⟨?_, nested_or_apart a b, forall_contains_eq_iff ha hb⟩
  intro h
  exact ⟨contains_iff_covers h, not_contains_iff_apart h,
    contains_eq_of_contains h contains_networkAddr,
    contains_eq_of_contains h contains_broadcastAddr⟩

/-- The last block of four addresses lies in the last block of 256, and is not the one before it. -/
theorem blocks_laminar_lastFour :
    let a : Network := ⟨⟨255, 255, 255, 0⟩, 24⟩
    let b : Network := ⟨⟨255, 255, 255, 253⟩, 30⟩
    let c : Network := ⟨⟨255, 255, 255, 251⟩, 30⟩
    a.Valid ∧ b.Valid ∧ c.Valid ∧ a.prefixLen ≤ b.prefixLen ∧ b.prefixLen ≤ c.prefixLen
    ∧ a.Covers b ∧ b.Apart c
    ∧ ¬ ∀ addr, a.contains addr = b.contains addr := by
  intro a b c
  have ha : a.Valid := by decide
  have hb : b.Valid := by decide
  have hc : c.Valid := by decide
  have hab : a.prefixLen ≤ b.prefixLen := by decide
  have hbc : b.prefixLen ≤ c.prefixLen := by decide
  obtain ⟨hnest, -, heq⟩ := blocks_laminar a b ha hb
  obtain ⟨happart, -, -⟩ := blocks_laminar b c hb hc
  refine ⟨ha, hb, hc, hab, hbc, (hnest hab).1.1 (by decide), (happart hbc).2.1.1 (by decide), ?_⟩
  intro h
  exact absurd (heq.1 h).1 (by decide)

end Inet.Network
