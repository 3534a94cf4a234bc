/-
Inet/Proofs/Text/Overflow.lean

Decimal numbers, read digit by digit with checked arithmetic.

The bytes may be any bytes, and as many as they like.  Reading keeps a word, and
for each digit multiplies it by ten and adds the digit; each of the two
operations reports on its own that its result does not fit a word (`Overflow`).
Wherever the loop stands, its word is the value of the digits before it,

    word  =  value (bytes.take pos),

and with one digit more the value is at least as large.  So a digit at which the
value does not fit is one from which on it never will, whatever follows, and
stopping there is as good as reading on (`not_isDecimalOf_of_overflow`).  Since
zeros in front add nothing to the value, no number of them is too large.

Main statements:
  * `reaches_iff`: the states that the loop reaches;
  * `overflows_iff`: an operation overflows exactly if the digits up to some
    place have a value beyond all words;
  * `read?_exact`: what is read, and why anything else is not.
-/
import Inet.Proofs.Text.Rounds
import Mathlib.Data.Nat.Digits.Defs

namespace Inet.Text.Decimal

open StateTransition (Reaches)

/-! ### Digits and their value -/

/-- The byte of a digit `0` to `9`. -/
def IsDigit (byte : UInt8) : Prop :=
  48 ≤ byte.toNat ∧ byte.toNat ≤ 57

instance (byte : UInt8) : Decidable (IsDigit byte) :=
  inferInstanceAs (Decidable (_ ∧ _))

/-- The number that digits denote in base ten, the last of them being the units. -/
def value (digits : List UInt8) : Nat :=
  Nat.ofDigits 10 (digits.map fun byte => byte.toNat - 48).reverse

/-- The bytes are digits, at least one, and denote `n`. -/
structure IsDecimalOf (bytes : ByteArray) (n : Nat) : Prop where
  nonempty : bytes.size ≠ 0
  digits : ∀ byte ∈ bytes.data.toList, IsDigit byte
  value_eq : value bytes.data.toList = n

variable {digits more : List UInt8} {bytes : ByteArray} {byte : UInt8} {n m : UInt32} {pos : Nat}

theorem value_append :
    value (digits ++ more) = 10 ^ more.length * value digits + value more := by
  rw [value, List.map_append, List.reverse_append, Nat.ofDigits_append, Nat.add_comm]
  simp [value]

theorem value_append_singleton :
    value (digits ++ [byte]) = 10 * value digits + (byte.toNat - 48) := by
  rw [value_append]
  simp [value]

/-- Digits behind a number do not make it smaller. -/
theorem value_le_value_append : value digits ≤ value (digits ++ more) := by
  have hpow : 1 ≤ 10 ^ more.length := Nat.one_le_pow _ _ (by decide)
  calc value digits
      ≤ 10 ^ more.length * value digits := Nat.le_mul_of_pos_left _ hpow
    _ ≤ 10 ^ more.length * value digits + value more := Nat.le_add_right _ _
    _ = value (digits ++ more) := value_append.symm

/-- Zeros in front of a number leave it as it is. -/
theorem value_replicate_append (k : Nat) :
    value (List.replicate k 48 ++ digits) = value digits := by
  have hzeros : value (List.replicate k 48) = 0 := by
    rw [value, List.map_replicate, List.reverse_replicate]
    exact Nat.ofDigits_replicate_zero
  rw [value_append, hzeros, Nat.mul_zero, Nat.zero_add]

/-! ### Checked operations -/

/-- Numbers below `2 ^ 32` are those of words. -/
theorem exists_toNat_eq {k : Nat} (h : k < 2 ^ 32) : ∃ word : UInt32, word.toNat = k :=
  ⟨UInt32.ofNat k, UInt32.toNat_ofNat_of_lt' h⟩

theorem digit?_eq_some_iff : digit? byte = some m ↔ IsDigit byte ∧ m.toNat = byte.toNat - 48 := by
  by_cases h : IsDigit byte
  · have hdigit : digit? byte = some (byte - 48).toUInt32 := by
      simpa [digit?, UInt8.le_iff_toNat_le, IsDigit] using h
    have hvalue : (byte - 48).toUInt32.toNat = byte.toNat - 48 :=
      (UInt8.toNat_toUInt32 _).trans (UInt8.toNat_sub_of_le _ _ (UInt8.le_iff_toNat_le.2 h.1))
    rw [hdigit, Option.some.injEq, ← UInt32.toNat_inj, hvalue, and_iff_right h, eq_comm]
  · simp [digit?_eq_none h, h]

theorem mul?_eq_some_iff {a b c : UInt32} : mul? a b = some c ↔ c.toNat = a.toNat * b.toNat := by
  have hc := c.toNat_lt
  rw [mul?, UInt32.size]
  split_ifs with h
  · rw [Option.some.injEq, ← UInt32.toNat_inj, UInt32.toNat_mul, Nat.mod_eq_of_lt h, eq_comm]
  · simp only [false_iff]
    omega

theorem mul?_eq_none_iff {a b : UInt32} : mul? a b = none ↔ 2 ^ 32 ≤ a.toNat * b.toNat := by
  rw [mul?, UInt32.size]
  split_ifs with h <;> simp <;> omega

theorem add?_eq_some_iff {a b c : UInt32} : add? a b = some c ↔ c.toNat = a.toNat + b.toNat := by
  have hc := c.toNat_lt
  rw [add?, UInt32.size]
  split_ifs with h
  · rw [Option.some.injEq, ← UInt32.toNat_inj, UInt32.toNat_add, Nat.mod_eq_of_lt h, eq_comm]
  · simp only [false_iff]
    omega

theorem add?_eq_none_iff {a b : UInt32} : add? a b = none ↔ 2 ^ 32 ≤ a.toNat + b.toNat := by
  rw [add?, UInt32.size]
  split_ifs with h <;> simp <;> omega

/-- All that one digit does. -/
theorem push?_eq_some_iff :
    push? n byte = some m ↔ IsDigit byte ∧ m.toNat = 10 * n.toNat + (byte.toNat - 48) := by
  simp only [push?, Option.bind_eq_bind, Option.bind_eq_some_iff, digit?_eq_some_iff,
    mul?_eq_some_iff, add?_eq_some_iff]
  constructor
  · rintro ⟨digit, ⟨hdigit, hvalue⟩, shifted, hshifted, hm⟩
    rw [hm, hshifted, hvalue, Nat.mul_comm]
    exact ⟨hdigit, rfl⟩
  · rintro ⟨hdigit, hm⟩
    have hlt := m.toNat_lt
    -- what is added up to a word fits a word itself
    obtain ⟨digit, hvalue⟩ := exists_toNat_eq (k := byte.toNat - 48) (by omega)
    obtain ⟨shifted, hshifted⟩ := exists_toNat_eq (k := n.toNat * 10) (by omega)
    refine ⟨digit, ⟨hdigit, hvalue⟩, shifted, hshifted, ?_⟩
    rw [hm, hvalue, hshifted, Nat.mul_comm]

/-- At the digit `byte` behind `n`, the product or the sum is reported not to fit a word. -/
inductive Overflow (n : UInt32) (byte : UInt8) : Prop where
  | product (hdigit : IsDigit byte) (hmul : mul? n 10 = none)
  | sum (digit shifted : UInt32) (hdigit : digit? byte = some digit)
    (hmul : mul? n 10 = some shifted) (hadd : add? shifted digit = none)

/-- Between them the two operations miss nothing. -/
theorem overflow_iff :
    Overflow n byte ↔ IsDigit byte ∧ 2 ^ 32 ≤ 10 * n.toNat + (byte.toNat - 48) := by
  constructor
  · rintro (⟨hdigit, hmul⟩ | ⟨digit, shifted, hdigit, hmul, hadd⟩)
    · have hproduct : 2 ^ 32 ≤ n.toNat * 10 := mul?_eq_none_iff.1 hmul
      exact ⟨hdigit, by omega⟩
    · obtain ⟨hdigit, hvalue⟩ := digit?_eq_some_iff.1 hdigit
      have hproduct : shifted.toNat = n.toNat * 10 := mul?_eq_some_iff.1 hmul
      have hsum := add?_eq_none_iff.1 hadd
      exact ⟨hdigit, by omega⟩
  · rintro ⟨hdigit, hsum⟩
    rcases hmul : mul? n 10 with - | shifted
    · exact .product hdigit hmul
    · have hproduct : shifted.toNat = n.toNat * 10 := mul?_eq_some_iff.1 hmul
      have hlt := byte.toNat_lt
      obtain ⟨digit, hvalue⟩ := exists_toNat_eq (k := byte.toNat - 48) (by omega)
      refine .sum digit shifted (digit?_eq_some_iff.2 ⟨hdigit, hvalue⟩) hmul
        (add?_eq_none_iff.2 ?_)
      rw [hvalue, hproduct]
      omega

/-- One digit ends the reading in one of three ways. -/
theorem push?_eq_none_iff : push? n byte = none ↔ ¬ IsDigit byte ∨ Overflow n byte := by
  rw [overflow_iff]
  by_cases hdigit : IsDigit byte
  · simp only [hdigit, not_true_eq_false, false_or, true_and]
    constructor
    · intro h
      by_contra hfit
      obtain ⟨word, hword⟩ := exists_toNat_eq (Nat.lt_of_not_le hfit)
      rw [push?_eq_some_iff.2 ⟨hdigit, hword⟩] at h
      contradiction
    · intro hlarge
      rw [Option.eq_none_iff_forall_ne_some]
      intro m hm
      have hlt := m.toNat_lt
      have hvalue := (push?_eq_some_iff.1 hm).2
      omega
  · simp [push?, digit?_eq_none hdigit, hdigit]

/-! ### The loop -/

/-- The fold over some bytes goes through if they are digits whose value fits a word. -/
theorem foldlM_push?_eq_some_iff :
    digits.foldlM push? 0 = some n ↔ (∀ byte ∈ digits, IsDigit byte) ∧ value digits = n.toNat := by
  -- on the last digit, which is the one that is pushed
  induction digits using List.reverseRecOn generalizing n with
  | nil =>
    simp [value, ← UInt32.toNat_inj]
  | append_singleton digits byte ih =>
    rw [List.foldlM_append, value_append_singleton]
    simp only [List.foldlM_cons, List.foldlM_nil, bind_pure, Option.bind_eq_bind,
      Option.bind_eq_some_iff, ih, push?_eq_some_iff, List.forall_mem_append,
      List.forall_mem_singleton]
    constructor
    · rintro ⟨word, ⟨hdigits, hvalue⟩, hbyte, hn⟩
      rw [hvalue, hn]
      exact ⟨⟨hdigits, hbyte⟩, rfl⟩
    · rintro ⟨⟨hdigits, hbyte⟩, hn⟩
      have hlt := n.toNat_lt
      obtain ⟨word, hword⟩ := exists_toNat_eq (k := value digits) (by omega)
      exact ⟨word, ⟨hdigits, hword.symm⟩, hbyte, by rw [hword, hn]⟩

/-- The word of the loop is the value of the digits that it has visited. -/
theorem reaches_iff (hpos : pos ≤ bytes.size) :
    Reaches (round bytes push?) (0, 0) (pos, n)
      ↔ (∀ byte ∈ bytes.data.toList.take pos, IsDigit byte)
        ∧ value (bytes.data.toList.take pos) = n.toNat := by
  rw [← foldlM_take_eq_some_iff hpos, foldlM_push?_eq_some_iff]

/-- Some operation overflows in the course of the loop. -/
def Overflows (bytes : ByteArray) : Prop :=
  ∃ pos n byte, Reaches (round bytes push?) (0, 0) (pos, n) ∧ readAt bytes pos = .ok byte
    ∧ Overflow n byte

/-- Up to where an operation overflows there are digits, of a value beyond all words. -/
theorem value_take_of_overflow (hreach : Reaches (round bytes push?) (0, 0) (pos, n))
    (hread : readAt bytes pos = .ok byte) (h : Overflow n byte) :
    (∀ b ∈ bytes.data.toList.take (pos + 1), IsDigit b)
    ∧ 2 ^ 32 ≤ value (bytes.data.toList.take (pos + 1)) := by
  obtain ⟨hdigits, hvalue⟩ := (reaches_iff (le_size_of_reaches hreach)).1 hreach
  obtain ⟨hbyte, hsum⟩ := overflow_iff.1 h
  rw [take_succ_of_readAt hread, value_append_singleton, hvalue]
  refine ⟨?_, hsum⟩
  rw [List.forall_mem_append, List.forall_mem_singleton]
  exact ⟨hdigits, hbyte⟩

theorem overflows_iff :
    Overflows bytes ↔ ∃ pos ≤ bytes.size, (∀ byte ∈ bytes.data.toList.take pos, IsDigit byte)
      ∧ 2 ^ 32 ≤ value (bytes.data.toList.take pos) := by
  constructor
  · rintro ⟨pos, n, byte, hreach, hread, h⟩
    exact ⟨pos + 1, lt_size_of_readAt hread, value_take_of_overflow hreach hread h⟩
  · rintro ⟨pos, hpos, hdigits, hlarge⟩
    -- back to the first digit that makes the value too large
    induction pos with
    | zero => exact absurd hlarge (by simp [value])
    | succ pos ih =>
      obtain ⟨byte, hread⟩ := exists_readAt hpos
      rw [take_succ_of_readAt hread] at hdigits hlarge
      rw [List.forall_mem_append, List.forall_mem_singleton] at hdigits
      by_cases hbefore : 2 ^ 32 ≤ value (bytes.data.toList.take pos)
      · exact ih (Nat.le_of_lt hpos) hdigits.1 hbefore
      · obtain ⟨word, hword⟩ := exists_toNat_eq (Nat.lt_of_not_le hbefore)
        have hreach := (reaches_iff (Nat.le_of_lt hpos)).2 ⟨hdigits.1, hword.symm⟩
        refine ⟨pos, word, byte, hreach, hread, ?_⟩
        rw [overflow_iff, hword, ← value_append_singleton]
        exact ⟨hdigits.2, hlarge⟩

/-! ### What is read -/

/-- What is read is the number that the bytes denote. -/
theorem read?_eq_some_iff_isDecimalOf :
    read? bytes = .ok (some n) ↔ IsDecimalOf bytes n.toNat := by
  have hall : bytes.data.toList.take bytes.size = bytes.data.toList :=
    List.take_of_length_le (by simp)
  rw [read?_eq_some_iff, reaches_iff (Nat.le_refl _), hall]
  exact ⟨fun ⟨hsize, hdigits, hvalue⟩ => ⟨hsize, hdigits, hvalue⟩,
    fun h => ⟨h.nonempty, h.digits, h.value_eq⟩⟩

theorem exists_read?_eq_some_iff {k : Nat} :
    (∃ n, read? bytes = .ok (some n) ∧ n.toNat = k) ↔ IsDecimalOf bytes k ∧ k ≤ 4294967295 := by
  simp only [read?_eq_some_iff_isDecimalOf]
  constructor
  · rintro ⟨word, h, rfl⟩
    exact ⟨h, Nat.le_of_lt_succ word.toNat_lt⟩
  · rintro ⟨h, hk⟩
    obtain ⟨word, rfl⟩ := exists_toNat_eq (Nat.lt_succ_of_le hk)
    exact ⟨word, h, rfl⟩

/-- Reading always answers, and so it answers nothing if it answers no number. -/
theorem read?_eq_none_iff_forall : read? bytes = .ok none ↔ ∀ n, read? bytes ≠ .ok (some n) := by
  obtain ⟨value?, hread⟩ := exists_read? bytes
  rw [hread]
  rcases value? with - | word <;> simp

theorem read?_eq_none_iff :
    read? bytes = .ok none ↔ ¬ ∃ k ≤ 4294967295, IsDecimalOf bytes k := by
  rw [read?_eq_none_iff_forall]
  constructor
  · rintro h ⟨k, hk, hdecimal⟩
    obtain ⟨n, hn, -⟩ := exists_read?_eq_some_iff.2 ⟨hdecimal, hk⟩
    exact h n hn
  · intro h n hn
    obtain ⟨hdecimal, hk⟩ := exists_read?_eq_some_iff.1 ⟨n, hn, rfl⟩
    exact h ⟨n.toNat, hk, hdecimal⟩

/-- Of numbers, those overflow that are beyond all words. -/
theorem IsDecimalOf.overflows_iff {k : Nat} (h : IsDecimalOf bytes k) :
    Overflows bytes ↔ 4294967295 < k := by
  rw [Decimal.overflows_iff, ← h.value_eq]
  constructor
  · rintro ⟨pos, -, -, hlarge⟩
    calc 4294967295
        < value (bytes.data.toList.take pos) := hlarge
      _ ≤ value (bytes.data.toList.take pos ++ bytes.data.toList.drop pos) := value_le_value_append
      _ = value bytes.data.toList := by rw [List.take_append_drop]
  · intro hlarge
    refine ⟨bytes.size, Nat.le_refl _, ?_⟩
    rw [List.take_of_length_le (by simp)]
    exact ⟨h.digits, hlarge⟩

/-! ### Zeros in front -/

/-- As many zeros, as bytes. -/
def zeros (k : Nat) : ByteArray := (List.replicate k 48).toByteArray

theorem toList_zeros_append (k : Nat) :
    (zeros k ++ bytes).data.toList = List.replicate k 48 ++ bytes.data.toList := by
  rw [zeros, ByteArray.toList_data_append, List.toList_data_toByteArray]

theorem forall_isDigit_replicate_append {k : Nat} :
    (∀ byte ∈ List.replicate k 48 ++ digits, IsDigit byte) ↔ ∀ byte ∈ digits, IsDigit byte := by
  have hzeros : ∀ byte ∈ List.replicate k 48, IsDigit byte := by
    intro byte hbyte
    rw [List.eq_of_mem_replicate hbyte]
    decide
  rw [List.forall_mem_append, and_iff_right hzeros]

theorem overflows_zeros_append (k : Nat) : Overflows (zeros k ++ bytes) ↔ Overflows bytes := by
  have hsize : (zeros k ++ bytes).size = k + bytes.size := by
    rw [ByteArray.size_append, zeros, List.size_toByteArray, List.length_replicate]
  simp only [overflows_iff, toList_zeros_append, hsize]
  constructor
  · rintro ⟨pos, hpos, hdigits, hlarge⟩
    rw [List.take_append, List.take_replicate, List.length_replicate] at hdigits hlarge
    rw [value_replicate_append] at hlarge
    exact ⟨pos - k, by omega, forall_isDigit_replicate_append.1 hdigits, hlarge⟩
  · rintro ⟨pos, hpos, hdigits, hlarge⟩
    refine ⟨k + pos, by omega, ?_⟩
    rw [List.take_append, List.take_of_length_le (by simp), List.length_replicate,
      Nat.add_sub_cancel_left, value_replicate_append]
    exact ⟨forall_isDigit_replicate_append.2 hdigits, hlarge⟩

theorem read?_zeros_append (h : bytes.size ≠ 0) (k : Nat) :
    read? (zeros k ++ bytes) = read? bytes := by
  have hsize : (zeros k ++ bytes).size ≠ 0 := by
    rw [ByteArray.size_append]
    omega
  have hsame : ∀ n, read? (zeros k ++ bytes) = .ok (some n) ↔ read? bytes = .ok (some n) := by
    intro n
    rw [read?_eq_some_iff_isDecimalOf, read?_eq_some_iff_isDecimalOf]
    constructor
    · rintro ⟨-, hdigits, hvalue⟩
      rw [toList_zeros_append] at hdigits hvalue
      exact ⟨h, forall_isDigit_replicate_append.1 hdigits,
        by rw [← hvalue, value_replicate_append]⟩
    · rintro ⟨-, hdigits, hvalue⟩
      refine ⟨hsize, ?_, ?_⟩ <;> rw [toList_zeros_append]
      · exact forall_isDigit_replicate_append.2 hdigits
      · rw [value_replicate_append, hvalue]
  obtain ⟨value?, hread⟩ := exists_read? bytes
  obtain ⟨value?', hread'⟩ := exists_read? (zeros k ++ bytes)
  simp only [hread, hread', Except.ok.injEq] at hsame ⊢
  exact Option.ext hsame

/-! ### Stopping early -/

/-- No number begins with what was seen when an operation overflows, however it goes on. -/
theorem not_isDecimalOf_of_overflow (hreach : Reaches (round bytes push?) (0, 0) (pos, n))
    (hread : readAt bytes pos = .ok byte) (h : Overflow n byte) (rest : ByteArray) :
    ¬ ∃ k ≤ 4294967295, IsDecimalOf (bytes.extract 0 (pos + 1) ++ rest) k := by
  rintro ⟨k, hk, hdecimal⟩
  obtain ⟨-, hlarge⟩ := value_take_of_overflow hreach hread h
  have hseen : (bytes.extract 0 (pos + 1) ++ rest).data.toList
      = bytes.data.toList.take (pos + 1) ++ rest.data.toList := by
    rw [ByteArray.toList_data_append, ByteArray.data_extract, Array.toList_extract]
    simp [List.extract]
  have hle : 2 ^ 32 ≤ k := by
    calc 2 ^ 32
        ≤ value (bytes.data.toList.take (pos + 1)) := hlarge
      _ ≤ value (bytes.data.toList.take (pos + 1) ++ rest.data.toList) := value_le_value_append
      _ = k := by rw [← hseen, hdecimal.value_eq]
  omega

/-- **Reading is exact up to the largest word.**  Bytes are read as a number exactly if they are
digits, at least one, that denote it, and it fits a word; anything else is not read.  A byte ends
the reading by being no digit, or by an overflow of the product or of the sum; and on digits one of
these overflows exactly if the number that all of them denote is beyond all words.  Zeros in front
make no difference, however many; and where an operation overflows, no number that could be read
begins with what was seen. -/
theorem read?_exact (bytes : ByteArray) :
    (∀ k, (∃ n, read? bytes = .ok (some n) ∧ n.toNat = k)
      ↔ IsDecimalOf bytes k ∧ k ≤ 4294967295)
    ∧ (read? bytes = .ok none ↔ ¬ ∃ k ≤ 4294967295, IsDecimalOf bytes k)
    ∧ (∀ n byte, push? n byte = none ↔ ¬ IsDigit byte ∨ Overflow n byte)
    ∧ (∀ k, IsDecimalOf bytes k → (Overflows bytes ↔ 4294967295 < k))
    ∧ (∀ k, (Overflows (zeros k ++ bytes) ↔ Overflows bytes)
      ∧ (bytes.size ≠ 0 → read? (zeros k ++ bytes) = read? bytes))
    ∧ (∀ pos n byte, Reaches (round bytes push?) (0, 0) (pos, n) → readAt bytes pos = .ok byte →
        Overflow n byte → ∀ rest,
        read? (bytes.extract 0 (pos + 1) ++ rest) = .ok none
        ∧ ¬ ∃ k ≤ 4294967295, IsDecimalOf (bytes.extract 0 (pos + 1) ++ rest) k) := by
  refine ⟨fun _ => exists_read?_eq_some_iff, read?_eq_none_iff, fun _ _ => push?_eq_none_iff,
    fun _ h => h.overflows_iff, ?_, ?_⟩
  · intro k
    exact ⟨overflows_zeros_append k, fun h => read?_zeros_append h k⟩
  · intro pos n byte hreach hread h rest
    have hnot := not_isDecimalOf_of_overflow hreach hread h rest
    exact ⟨read?_eq_none_iff.2 hnot, hnot⟩

/-- One more than the largest word: the last digit is what is too much, and the sum reports it. -/
theorem read?_exact_nextToLargest :
    let bytes := "4294967296".toUTF8
    IsDecimalOf bytes 4294967296 ∧ Overflows bytes
    ∧ bytes.size ≠ 0 ∧ read? (zeros 20 ++ bytes) = read? bytes
    ∧ Reaches (round bytes push?) (0, 0) (9, 429496729) ∧ readAt bytes 9 = .ok 54
    ∧ Overflow 429496729 54
    ∧ read? (bytes.extract 0 10 ++ "é".toUTF8) = .ok none := by
  intro bytes
  obtain ⟨-, -, -, hoverflows, hzeros, hstop⟩ := read?_exact bytes
  have hdecimal : IsDecimalOf bytes 4294967296 :=
    ⟨by decide, by decide +kernel, by decide⟩
  have hreach : Reaches (round bytes push?) (0, 0) (9, 429496729) :=
    (foldlM_take_eq_some_iff (by decide)).1 (by decide)
  have hread : readAt bytes 9 = .ok 54 := by decide
  have hoverflow : Overflow 429496729 54 := .sum 6 4294967290 (by decide) (by decide) (by decide)
  exact ⟨hdecimal, (hoverflows _ hdecimal).2 (by decide), hdecimal.nonempty,
    (hzeros 20).2 hdecimal.nonempty, hreach, hread, hoverflow,
    (hstop 9 _ _ hreach hread hoverflow _).1⟩

end Inet.Text.Decimal
