/-
Inet/Proofs/Block.lean

Blocks as intervals of numbers.

Let `s` be the number of addresses in a block, `2 ^ (32 - p)` for the prefix
length `p` and 1 for any `p` above 32.  The mask is `2 ^ 32 - s`, and masking
a word rounds it down to a multiple of `s`:

    word &&& mask       =  word / s * s
    word ||| ~~~ mask   =  word / s * s + (s - 1)

So the block of an address starts at the multiple of `s` below it, and holds
the `s` numbers from there on.  Since `s` divides `2 ^ 32`, it ends before
`2 ^ 32` (`networkAddr_add_size_le`).
-/
import Inet.Block
import Inet.Proofs.Address.Word

namespace Inet.Block

variable (p : UInt8)

/-! ### Size and mask -/

theorem toNat_hostBits : (hostBits p).toNat = 32 - p.toNat := by
  have hwidth : Address.width.toNat = 32 := rfl
  unfold hostBits
  split
  · rename_i h
    rw [UInt8.toNat_sub_of_le _ _ h, hwidth]
  · rename_i h
    rw [UInt8.le_iff_toNat_le, hwidth] at h
    rw [Nat.sub_eq_zero_of_le (by omega)]
    rfl

variable {p} in
/-- Where some network bit is set, the mask shifts by less than the whole width. -/
theorem toNat_hostBits_lt (h : p ≠ 0) : (hostBits p).toNat < 32 := by
  have hp : p.toNat ≠ 0 := fun e => h (UInt8.toNat_inj.1 e)
  rw [toNat_hostBits]
  omega

theorem toNat_size : (size p).toNat = 2 ^ (32 - p.toNat) := by
  have hlt : 2 ^ (32 - p.toNat) < 2 ^ 64 := Nat.pow_lt_pow_right Nat.one_lt_two (by omega)
  rw [size, UInt64.toNat_shiftLeft, UInt8.toNat_toUInt64, toNat_hostBits,
    Nat.mod_eq_of_lt (by omega : 32 - p.toNat < 64), Nat.shiftLeft_eq]
  simpa using hlt

theorem size_pos : 0 < (size p).toNat := by
  rw [toNat_size]
  exact Nat.two_pow_pos _

/-- The whole address space is made up of blocks. -/
theorem size_dvd : (size p).toNat ∣ 2 ^ 32 := by
  rw [toNat_size]
  exact Nat.pow_dvd_pow 2 (Nat.sub_le _ _)

theorem size_le : (size p).toNat ≤ 2 ^ 32 :=
  Nat.le_of_dvd (Nat.two_pow_pos 32) (size_dvd p)

theorem toNat_mask : (mask p).toNat = 2 ^ 32 - (size p).toNat := by
  unfold mask
  split
  · rename_i h
    subst h
    rfl
  · rename_i h
    have hlt := toNat_hostBits_lt h
    rw [toNat_hostBits] at hlt
    have hpos : 0 < 2 ^ (32 - p.toNat) := Nat.two_pow_pos _
    have hle : 2 ^ (32 - p.toNat) ≤ 2 ^ 31 := Nat.pow_le_pow_right Nat.two_pos (by omega)
    rw [toNat_size, UInt32.toNat_shiftLeft, UInt8.toNat_toUInt32, toNat_hostBits,
      Nat.mod_eq_of_lt hlt, Nat.shiftLeft_eq]
    simp only [UInt32.reduceToNat]
    omega

/-! ### Masking rounds -/

variable (word : UInt32)

/-- The network bits of a word are the multiple of the size below it. -/
theorem toNat_and_mask :
    (word &&& mask p).toNat = word.toNat / (size p).toNat * (size p).toNat := by
  have hword := word.toNat_lt
  obtain ⟨k, hk⟩ : ∃ k, k = 32 - p.toNat := ⟨_, rfl⟩
  have hmask : 2 ^ 32 - 2 ^ k = (2 ^ (32 - k) - 1) <<< k := by
    rw [Nat.shiftLeft_eq, Nat.sub_mul, ← Nat.pow_add, Nat.one_mul]
    congr 2
    omega
  rw [UInt32.toNat_and, toNat_mask, toNat_size, ← hk, hmask, ← Nat.shiftRight_eq_div_pow,
    ← Nat.shiftLeft_eq]
  -- below bit `k` the mask is clear, and from bit 32 on the word is
  apply Nat.eq_of_testBit_eq
  intro i
  simp only [Nat.testBit_and, Nat.testBit_shiftLeft, Nat.testBit_two_pow_sub_one,
    Nat.testBit_shiftRight]
  by_cases hki : k ≤ i
  · by_cases hi : i < 32
    · simp [hki, show k + (i - k) = i by omega, show i - k < 32 - k by omega]
    · have hbit : word.toNat.testBit i = false :=
        Nat.testBit_lt_two_pow
          (Nat.lt_of_lt_of_le hword (Nat.pow_le_pow_right Nat.two_pos (by omega)))
      simp [hbit, show k + (i - k) = i by omega]
  · simp [hki]

theorem toNat_or_not_mask :
    (word ||| ~~~mask p).toNat
      = word.toNat / (size p).toNat * (size p).toNat + ((size p).toNat - 1) := by
  have hle := size_le p
  have hpos := size_pos p
  have hnot : (~~~mask p).toNat = (size p).toNat - 1 := by
    rw [UInt32.toNat_not, toNat_mask, UInt32.size]
    omega
  rw [UInt32.toNat_or, hnot, toNat_size]
  generalize 32 - p.toNat = k
  have hlow : 2 ^ k - 1 < 2 ^ k := Nat.sub_lt (Nat.two_pow_pos k) Nat.one_pos
  rw [Nat.mul_comm (word.toNat / 2 ^ k), Nat.two_pow_add_eq_or_of_lt hlow,
    Nat.mul_comm (2 ^ k), ← Nat.shiftRight_eq_div_pow, ← Nat.shiftLeft_eq]
  -- below bit `k` all bits are set on both sides, from it on they are those of the word
  apply Nat.eq_of_testBit_eq
  intro i
  simp only [Nat.testBit_or, Nat.testBit_shiftLeft, Nat.testBit_two_pow_sub_one,
    Nat.testBit_shiftRight]
  by_cases hki : k ≤ i
  · simp [hki, show k + (i - k) = i by omega, show ¬ i < k by omega]
  · simp [hki, show i < k by omega]

/-! ### The network bits -/

theorem getMsbD_eq_testBit {i : Nat} (hi : i < 32) :
    word.toBitVec.getMsbD i = word.toNat.testBit (31 - i) := by
  rw [BitVec.getMsbD_eq_getLsbD, decide_eq_true hi, Bool.true_and, ← BitVec.testBit_toNat]
  rfl

variable {p} in
/-- Two words agree behind the mask exactly if their first `p` bits do. -/
theorem and_mask_eq_iff_getMsbD {x y : UInt32} :
    x &&& mask p = y &&& mask p
      ↔ ∀ i < p.toNat, x.toBitVec.getMsbD i = y.toBitVec.getMsbD i := by
  have hx := x.toNat_lt
  have hy := y.toNat_lt
  rw [← UInt32.toNat_inj, toNat_and_mask, toNat_and_mask,
    Nat.mul_left_inj (Nat.ne_of_gt (size_pos p)), toNat_size, ← Nat.shiftRight_eq_div_pow,
    ← Nat.shiftRight_eq_div_pow]
  constructor
  · intro h i hi
    by_cases hwidth : i < 32
    · have hbit := congrArg (Nat.testBit · (31 - i - (32 - p.toNat))) h
      simp only [Nat.testBit_shiftRight, Nat.add_sub_cancel' (by omega : 32 - p.toNat ≤ 31 - i)]
        at hbit
      rw [getMsbD_eq_testBit _ hwidth, getMsbD_eq_testBit _ hwidth, hbit]
    · rw [BitVec.getMsbD_of_ge _ _ (by omega), BitVec.getMsbD_of_ge _ _ (by omega)]
  · intro h
    apply Nat.eq_of_testBit_eq
    intro j
    rw [Nat.testBit_shiftRight, Nat.testBit_shiftRight]
    by_cases hwidth : 32 - p.toNat + j < 32
    · have hbit := h (31 - (32 - p.toNat + j)) (by omega)
      rwa [getMsbD_eq_testBit _ (by omega), getMsbD_eq_testBit _ (by omega),
        Nat.sub_sub_self (by omega)] at hbit
    · -- words have no bits from 32 on
      have hle : 2 ^ 32 ≤ 2 ^ (32 - p.toNat + j) := Nat.pow_le_pow_right Nat.two_pos (by omega)
      rw [Nat.testBit_lt_two_pow (Nat.lt_of_lt_of_le hx hle),
        Nat.testBit_lt_two_pow (Nat.lt_of_lt_of_le hy hle)]

/-- A shorter prefix sees fewer bits. -/
theorem and_mask_eq_of_le {p q : UInt8} (h : p ≤ q) {x y : UInt32}
    (hxy : x &&& mask q = y &&& mask q) : x &&& mask p = y &&& mask p := by
  rw [and_mask_eq_iff_getMsbD] at hxy ⊢
  intro i hi
  exact hxy i (Nat.lt_of_lt_of_le hi (UInt8.le_iff_toNat_le.1 h))

/-! ### The ends of a block -/

variable (addr : Address)

/-- A block starts at the multiple of its size below each of its addresses. -/
theorem number_networkAddr :
    (networkAddr addr p).number = addr.number / (size p).toNat * (size p).toNat := by
  rw [networkAddr, Address.number_ofBits, toNat_and_mask]
  rfl

theorem number_broadcastAddr :
    (broadcastAddr addr p).number = (networkAddr addr p).number + ((size p).toNat - 1) := by
  rw [broadcastAddr, Address.number_ofBits, toNat_or_not_mask, number_networkAddr]
  rfl

theorem networkAddr_le : (networkAddr addr p).number ≤ addr.number := by
  rw [number_networkAddr]
  exact Nat.div_mul_le_self _ _

theorem lt_networkAddr_add_size : addr.number < (networkAddr addr p).number + (size p).toNat := by
  rw [number_networkAddr]
  exact Nat.lt_div_mul_add (size_pos p)

/-- A block does not run past the last address. -/
theorem networkAddr_add_size_le : (networkAddr addr p).number + (size p).toNat ≤ 2 ^ 32 := by
  -- the address space is `q` blocks, and this is one of them
  obtain ⟨q, hq⟩ := size_dvd p
  have hlt : addr.number / (size p).toNat < q := by
    rw [Nat.div_lt_iff_lt_mul (size_pos p), Nat.mul_comm, ← hq]
    exact addr.number_lt
  calc (networkAddr addr p).number + (size p).toNat
      = (addr.number / (size p).toNat + 1) * (size p).toNat := by
        rw [number_networkAddr, Nat.add_one_mul]
    _ ≤ q * (size p).toNat := Nat.mul_le_mul_right _ hlt
    _ = 2 ^ 32 := by rw [Nat.mul_comm, ← hq]

/-- Two addresses have the same network bits exactly if they round down to the same number. -/
theorem and_mask_eq_iff {x y : Address} :
    x.bits &&& mask p = y.bits &&& mask p
      ↔ (networkAddr y p).number ≤ x.number
        ∧ x.number < (networkAddr y p).number + (size p).toNat := by
  have hpos := size_pos p
  rw [← UInt32.toNat_inj, toNat_and_mask, toNat_and_mask, number_networkAddr]
  show x.number / (size p).toNat * (size p).toNat = y.number / (size p).toNat * (size p).toNat ↔ _
  rw [Nat.mul_left_inj (Nat.ne_of_gt hpos), Nat.div_eq_iff hpos]
  omega

end Inet.Block
