/-
Inet/Proofs/Block/Alignment.lean

The words of a block as the numbers that they stand for.

A block is an aligned interval: with `s` addresses it starts at a multiple of
`s`, the greatest one that is not above its addresses, and ends right before
the next.  This holds for every prefix length that a byte can name.  One above
32 leaves no host bits, just as 32 does, and so is not told apart from it
(`mask_of_le`, `size_of_le`).
-/
import Inet.Proofs.Block
import Mathlib.Order.Bounds.Defs

namespace Inet.Block

open Address

variable {p : UInt8} {addr : Address}

/-! ### The multiple below an address -/

theorem size_dvd_networkAddr : (size p).toNat ∣ (networkAddr addr p).number := by
  rw [number_networkAddr]
  exact Nat.dvd_mul_left _ _

/-- A block starts at the greatest multiple of its size that is not above its addresses. -/
theorem isGreatest_networkAddr :
    IsGreatest {m | (size p).toNat ∣ m ∧ m ≤ addr.number} (networkAddr addr p).number := by
  refine ⟨⟨size_dvd_networkAddr, networkAddr_le p addr⟩, ?_⟩
  rintro m ⟨hdvd, hle⟩
  calc m = m / (size p).toNat * (size p).toNat := (Nat.div_mul_cancel hdvd).symm
    _ ≤ addr.number / (size p).toNat * (size p).toNat :=
      Nat.mul_le_mul_right _ (Nat.div_le_div_right hle)
    _ = (networkAddr addr p).number := (number_networkAddr p addr).symm

theorem networkAddr_le_self : networkAddr addr p ≤ addr :=
  le_iff_number_le.2 (networkAddr_le p addr)

theorem le_broadcastAddr : addr ≤ broadcastAddr addr p := by
  have hlt := lt_networkAddr_add_size p addr
  rw [le_iff_number_le, number_broadcastAddr]
  omega

/-! ### Prefix lengths above the width -/

theorem hostBits_of_le (h : 32 ≤ p) : hostBits p = 0 := by
  have hle : 32 ≤ p.toNat := UInt8.le_iff_toNat_le.1 h
  rw [← UInt8.toNat_inj, toNat_hostBits, Nat.sub_eq_zero_of_le hle]
  rfl

theorem mask_of_le (h : 32 ≤ p) : mask p = mask 32 := by
  have hp : p ≠ 0 := by
    rintro rfl
    exact absurd h (by decide)
  rw [mask, if_neg hp, hostBits_of_le h]
  rfl

theorem size_of_le (h : 32 ≤ p) : size p = size 32 := by
  rw [size, hostBits_of_le h]
  rfl

/-- **A block is the aligned interval of its size around an address**, for every prefix length that
a byte can name: its size is the power of two that the host bits leave, the mask is the rest of
the address space, it starts at the greatest multiple of its size that is not above the address,
and ends before the next one.  No prefix length above 32 differs from 32. -/
theorem block_aligned (addr : Address) (p : UInt8) :
    let s := 2 ^ (32 - min p.toNat 32)
    (size p).toNat = s
    ∧ (mask p).toNat = 2 ^ 32 - s
    ∧ IsGreatest {m | s ∣ m ∧ m ≤ addr.number} (networkAddr addr p).number
    ∧ (broadcastAddr addr p).number = (networkAddr addr p).number + s - 1
    ∧ (networkAddr addr p).number + s ≤ 2 ^ 32
    ∧ networkAddr addr p ≤ addr ∧ addr ≤ broadcastAddr addr p
    ∧ (mask 0 = 0 ∧ (size 0).toNat = 2 ^ 32)
    ∧ (32 < p → size p = size 32 ∧ mask p = mask 32
        ∧ networkAddr addr p = networkAddr addr 32
        ∧ broadcastAddr addr p = broadcastAddr addr 32) := by
  intro s
  have hs : (size p).toNat = s := by
    rw [toNat_size]
    show 2 ^ (32 - p.toNat) = 2 ^ (32 - min p.toNat 32)
    congr 1
    omega
  rw [← hs]
  refine ⟨rfl, toNat_mask p, isGreatest_networkAddr, ?_, networkAddr_add_size_le p addr,
    networkAddr_le_self, le_broadcastAddr, ⟨rfl, rfl⟩, ?_⟩
  · have hpos := size_pos p
    rw [number_broadcastAddr]
    omega
  · intro h
    have hle := UInt8.le_of_lt h
    have hmask := mask_of_le hle
    refine ⟨size_of_le hle, hmask, ?_, ?_⟩
    · rw [networkAddr, networkAddr, hmask]
    · rw [broadcastAddr, broadcastAddr, hmask]

/-- The longest prefix that a byte can name, at the top of the address space. -/
theorem block_aligned_longest :
    (32 : UInt8) < 255
    ∧ size 255 = size 32 ∧ mask 255 = mask 32
    ∧ networkAddr .broadcast 255 = networkAddr .broadcast 32
    ∧ broadcastAddr .broadcast 255 = broadcastAddr .broadcast 32 := by
  have h : (32 : UInt8) < 255 := by decide
  obtain ⟨-, -, -, -, -, -, -, -, hlong⟩ := block_aligned .broadcast 255
  exact ⟨h, hlong h⟩

end Inet.Block
