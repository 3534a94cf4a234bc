/-
Inet/Text/Decimal.lean

Decimal numbers of at most 32 bits.

A number is written as a nonempty run of ASCII digits, most significant first,
with any number of leading zeros: no sign, no blank, no separator.  `number?`
says which natural number a run of characters denotes.  `read?` reads bytes one
after the other into a 32-bit word, and stops as soon as a byte is no digit or
the word would overflow.  Its accesses are checked ones, and none goes wrong.
The two agree (`read?_utf8Encode`): the bytes of `chars` are read as `n` exactly
when `chars` denotes `n` and `n` fits.
-/
import Inet.Text.Ascii
import Inet.Text.Bytes

namespace Inet.Text.Decimal

/-! ### Reading into a word -/

/-- The product, if it fits a word. -/
def mul? (a b : UInt32) : Option UInt32 :=
  if a.toNat * b.toNat < UInt32.size then some (a * b) else none

/-- The sum, if it fits a word. -/
def add? (a b : UInt32) : Option UInt32 :=
  if a.toNat + b.toNat < UInt32.size then some (a + b) else none

/-- The value of the byte of a digit `0` to `9`. -/
def digit? (byte : UInt8) : Option UInt32 :=
  if 48 ≤ byte ∧ byte ≤ 57 then some (byte - 48).toUInt32 else none

/-- The number whose digits are those of `n` and then `byte`. -/
def push? (n : UInt32) (byte : UInt8) : Option UInt32 := do
  let digit ← digit? byte
  let shifted ← mul? n 10
  add? shifted digit

/-- The number whose digits are those of `n` and then the bytes from `pos` on. -/
def readFrom (bytes : ByteArray) (pos : Nat) (n : UInt32) : Except Fault (Option UInt32) :=
  if pos < bytes.size then do
    let byte ← readAt bytes pos
    match push? n byte with
    | some n' => readFrom bytes (pos + 1) n'
    | none => return none
  else .ok (some n)
termination_by bytes.size - pos

/-- The number that bytes spell in decimal, if they are digits and it fits a word. -/
def read? (bytes : ByteArray) : Except Fault (Option UInt32) :=
  if bytes.size = 0 then .ok none else readFrom bytes 0 0

variable {bytes : ByteArray}

/-- Reading on is the fold over the bytes that are left. -/
theorem readFrom_eq_ok (pos : Nat) (n : UInt32) :
    readFrom bytes pos n = .ok ((bytes.data.toList.drop pos).foldlM push? n) := by
  fun_induction readFrom bytes pos n with
  | case1 pos n h ih =>
    have hlt : pos < bytes.data.toList.length := by simpa using h
    rw [readAt_eq_ok (List.drop_eq_getElem_cons hlt), List.drop_eq_getElem_cons hlt,
      List.foldlM_cons]
    generalize bytes.data.toList[pos] = byte
    rcases hpush : push? n byte with - | n'
    · simp [hpush, bind, Except.bind, pure, Except.pure]
    · simpa [hpush, bind, Except.bind] using ih n'
  | case2 pos n h =>
    rw [List.drop_eq_nil_of_le (by simpa using Nat.le_of_not_lt h)]
    rfl

theorem read?_of_size_ne_zero (h : bytes.size ≠ 0) :
    read? bytes = .ok (bytes.data.toList.foldlM push? 0) := by
  rw [read?, if_neg h, readFrom_eq_ok, List.drop_zero]

/-- No access goes wrong. -/
theorem exists_read? (bytes : ByteArray) : ∃ result, read? bytes = .ok result := by
  by_cases h : bytes.size = 0
  · exact ⟨none, if_pos h⟩
  · exact ⟨_, read?_of_size_ne_zero h⟩

/-! ### The number that characters denote -/

/-- The number that a nonempty run of digits denotes. -/
def number? (chars : List Char) : Option Nat :=
  if !chars.isEmpty && chars.all Char.isDigit then some (Nat.ofDigitChars 10 chars 0) else none

/-- A number cut down to a word, if it fits. -/
def word? (n : Nat) : Option UInt32 :=
  if n < UInt32.size then some (UInt32.ofNat n) else none

theorem isDigit_iff {c : Char} : c.isDigit ↔ 48 ≤ c.toNat ∧ c.toNat ≤ 57 := by
  simp only [Char.isDigit, Bool.and_eq_true, decide_eq_true_eq, ge_iff_le, UInt32.le_iff_toNat_le]
  rfl

theorem digit?_eq_none {byte : UInt8} (h : ¬ (48 ≤ byte.toNat ∧ byte.toNat ≤ 57)) :
    digit? byte = none := by
  simpa [digit?, UInt8.le_iff_toNat_le] using h

theorem digit?_asciiByte {c : Char} (h : c.isDigit) :
    digit? (asciiByte c) = some (UInt32.ofNat (c.toNat - 48)) := by
  obtain ⟨h₁, h₂⟩ := isDigit_iff.1 h
  have hb : (asciiByte c).toNat = c.toNat := asciiByte_toNat (by omega)
  simp only [digit?, UInt8.le_iff_toNat_le, hb, UInt8.reduceToNat, h₁, h₂, and_self, ↓reduceIte,
    Option.some.injEq]
  rw [← UInt32.toNat_inj, UInt8.toNat_toUInt32, UInt8.toNat_sub, hb]
  simp
  omega

/-- Pushing a digit is exact: it multiplies by ten and adds, or reports that the sum of the two
does not fit a word. -/
theorem push?_asciiByte (n : UInt32) {c : Char} (h : c.isDigit) :
    push? n (asciiByte c) = word? (10 * n.toNat + (c.toNat - 48)) := by
  obtain ⟨h₁, h₂⟩ := isDigit_iff.1 h
  have hn := n.toNat_lt
  simp only [push?, digit?_asciiByte h, Option.bind_eq_bind, Option.bind_some, mul?, add?, word?,
    UInt32.size, UInt32.reduceToNat]
  by_cases hm : n.toNat * 10 < 4294967296
  · have hmul : (n * 10).toNat = n.toNat * 10 := by
      rw [UInt32.toNat_mul]
      exact Nat.mod_eq_of_lt hm
    have hd : (UInt32.ofNat (c.toNat - 48)).toNat = c.toNat - 48 := by
      rw [UInt32.toNat_ofNat']
      omega
    simp only [hm, ↓reduceIte, Option.bind_some, hmul, hd, Nat.mul_comm 10]
    split
    · rw [Option.some.injEq, ← UInt32.toNat_inj, UInt32.toNat_add, hmul, hd, UInt32.toNat_ofNat']
    · rfl
  · rw [if_neg hm, if_neg (by omega)]
    rfl

/-- A character that is no digit begins with a byte that is none. -/
theorem exists_digit?_eq_none {c : Char} (h : ¬ c.isDigit) :
    ∃ byte rest, String.utf8EncodeChar c = byte :: rest ∧ digit? byte = none := by
  by_cases hascii : c.toNat < 128
  · refine ⟨_, _, utf8EncodeChar_of_ascii hascii, digit?_eq_none ?_⟩
    rwa [asciiByte_toNat hascii, ← isDigit_iff]
  · rcases hbytes : String.utf8EncodeChar c with - | ⟨byte, rest⟩
    · exact absurd hbytes String.utf8EncodeChar_ne_nil
    · refine ⟨byte, rest, rfl, digit?_eq_none fun hdigit => ?_⟩
      have hle := mem_utf8EncodeChar hascii (b := byte) (by simp [hbytes])
      omega

theorem le_ofDigitChars (chars : List Char) (n : Nat) : n ≤ Nat.ofDigitChars 10 chars n := by
  rw [Nat.ofDigitChars_eq_ofDigitChars_zero]
  have h : 1 ≤ 10 ^ chars.length := Nat.one_le_pow _ _ (by decide)
  exact Nat.le_trans (Nat.le_mul_of_pos_left n h) (Nat.le_add_right _ _)

/-- Digits can be appended in words, since a number that does not fit never fits again. -/
theorem word?_bind_ofDigitChars (chars : List Char) (n : Nat) :
    ((word? n).bind fun w => word? (Nat.ofDigitChars 10 chars w.toNat))
      = word? (Nat.ofDigitChars 10 chars n) := by
  by_cases hfit : n < UInt32.size
  · rw [word?, if_pos hfit, Option.bind_some, UInt32.toNat_ofNat', Nat.mod_eq_of_lt]
    exact hfit
  · have hover : ¬ Nat.ofDigitChars 10 chars n < UInt32.size :=
      fun h => hfit (Nat.lt_of_le_of_lt (le_ofDigitChars _ _) h)
    rw [word?, if_neg hfit, word?, if_neg hover]
    rfl

theorem foldlM_push? (chars : List Char) (n : UInt32) :
    (utf8Bytes chars).foldlM push? n
      = if chars.all Char.isDigit then word? (Nat.ofDigitChars 10 chars n.toNat) else none := by
  induction chars generalizing n with
  | nil => simp [word?, n.toNat_lt, UInt32.size]
  | cons c chars ih =>
    by_cases hc : c.isDigit
    · have hascii : c.toNat < 128 := Nat.lt_of_le_of_lt (isDigit_iff.1 hc).2 (by decide)
      have hcons : Nat.ofDigitChars 10 (c :: chars) n.toNat
          = Nat.ofDigitChars 10 chars (10 * n.toNat + (c.toNat - 48)) :=
        Nat.ofDigitChars_cons
      rw [utf8Bytes_cons, utf8EncodeChar_of_ascii hascii, List.singleton_append, List.foldlM_cons,
        push?_asciiByte n hc, Option.bind_eq_bind, hcons, ← word?_bind_ofDigitChars]
      simp only [ih, List.all_cons, hc, Bool.true_and]
      split
      · rfl
      · exact Option.bind_fun_none _
    · obtain ⟨byte, rest, hbytes, hdigit⟩ := exists_digit?_eq_none hc
      simp [hbytes, push?, hdigit, hc]

/-- Reading the bytes of a text gives the number that the text denotes, if it fits a word. -/
theorem read?_utf8Encode (chars : List Char) :
    read? chars.utf8Encode = .ok ((number? chars).bind word?) := by
  cases chars with
  | nil => rfl
  | cons c chars =>
    have hsize : (c :: chars).utf8Encode.size ≠ 0 := by
      rw [ne_eq, ByteArray.size_eq_zero_iff, List.utf8Encode_eq_empty]
      exact List.cons_ne_nil _ _
    rw [read?_of_size_ne_zero hsize, toList_data_utf8Encode, foldlM_push?, number?,
      List.isEmpty_cons, Bool.not_false, Bool.true_and]
    cases (c :: chars).all Char.isDigit <;> rfl

end Inet.Text.Decimal
