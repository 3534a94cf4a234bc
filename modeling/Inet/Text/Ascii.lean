/-
Inet/Text/Ascii.lean

ASCII characters inside the UTF-8 bytes of a text.  An ASCII character is
encoded by the one byte that is its code point, and every byte of any other
character is 128 or more (`mem_utf8EncodeChar`).  So a byte below 128 never
lies inside the encoding of another character, and cutting the bytes of a text
around it is cutting the characters of the text:

    splitOn b (bytes of chars)  =  (splitOn c chars).map bytes

where `b` is the byte of the ASCII character `c` (`splitOn_utf8Bytes`).  Each
piece between two such bytes is therefore the encoding of a text again.
-/

namespace Inet.Text

/-- The UTF-8 bytes of characters, as a list. -/
def utf8Bytes (chars : List Char) : List UInt8 :=
  chars.flatMap String.utf8EncodeChar

/-- The byte of an ASCII character. -/
def asciiByte (c : Char) : UInt8 :=
  UInt8.ofNat c.toNat

@[simp]
theorem utf8Bytes_nil : utf8Bytes [] = [] := rfl

@[simp]
theorem utf8Bytes_cons (c : Char) (chars : List Char) :
    utf8Bytes (c :: chars) = String.utf8EncodeChar c ++ utf8Bytes chars := rfl

@[simp]
theorem utf8Bytes_append (chars rest : List Char) :
    utf8Bytes (chars ++ rest) = utf8Bytes chars ++ utf8Bytes rest :=
  List.flatMap_append

theorem toList_data_utf8Encode (chars : List Char) :
    chars.utf8Encode.data.toList = utf8Bytes chars :=
  List.toList_data_toByteArray

theorem utf8Encode_eq {chars : List Char} {bytes : ByteArray}
    (h : bytes.data.toList = utf8Bytes chars) : bytes = chars.utf8Encode := by
  apply ByteArray.ext
  rw [← Array.toList_inj, h, toList_data_utf8Encode]

/-- The bytes of a text are the bytes of its characters. -/
theorem toUTF8_eq (text : String) : text.toUTF8 = text.toList.utf8Encode := by
  conv => lhs; rw [← String.ofList_toList (s := text)]
  rfl

theorem size_toUTF8_eq_zero {text : String} : text.toUTF8.size = 0 ↔ text = "" := by
  rw [toUTF8_eq, ByteArray.size_eq_zero_iff, List.utf8Encode_eq_empty, String.toList_eq_nil_iff]

/-! ### ASCII and the rest -/

theorem utf8EncodeChar_of_ascii {c : Char} (h : c.toNat < 128) :
    String.utf8EncodeChar c = [asciiByte c] := by
  have hv : c.val.toNat ≤ 0x7f := by
    have : c.toNat = c.val.toNat := rfl
    omega
  unfold String.utf8EncodeChar
  rw [if_pos hv]
  rfl

/-- No byte of a character outside ASCII is an ASCII byte. -/
theorem mem_utf8EncodeChar {c : Char} (h : ¬ c.toNat < 128) {b : UInt8}
    (hb : b ∈ String.utf8EncodeChar c) : 128 ≤ b.toNat := by
  have hv : ¬ c.val.toNat ≤ 0x7f := by
    have : c.toNat = c.val.toNat := rfl
    omega
  simp only [String.utf8EncodeChar, hv, ↓reduceIte] at hb
  split at hb
  · simp only [List.mem_cons, List.not_mem_nil, or_false] at hb
    rcases hb with rfl | rfl <;> simp <;> omega
  · split at hb
    · simp only [List.mem_cons, List.not_mem_nil, or_false] at hb
      rcases hb with rfl | rfl | rfl <;> simp <;> omega
    · simp only [List.mem_cons, List.not_mem_nil, or_false] at hb
      rcases hb with rfl | rfl | rfl | rfl <;> simp <;> omega

theorem asciiByte_toNat {c : Char} (h : c.toNat < 128) : (asciiByte c).toNat = c.toNat := by
  simp [asciiByte]
  omega

theorem asciiByte_inj {c d : Char} (hc : c.toNat < 128) (hd : d.toNat < 128)
    (h : asciiByte c = asciiByte d) : c = d := by
  have : c.toNat = d.toNat := by rw [← asciiByte_toNat hc, ← asciiByte_toNat hd, h]
  rw [← Char.ofNat_toNat c, this, Char.ofNat_toNat]

/-- The byte of an ASCII character occurs in the bytes of a text exactly where the character
occurs in the text. -/
theorem asciiByte_mem_utf8Bytes {c : Char} (hc : c.toNat < 128) {chars : List Char} :
    asciiByte c ∈ utf8Bytes chars ↔ c ∈ chars := by
  induction chars with
  | nil => simp
  | cons d chars ih =>
    rw [utf8Bytes_cons, List.mem_append, ih, List.mem_cons]
    refine or_congr_left ?_
    by_cases hd : d.toNat < 128
    · rw [utf8EncodeChar_of_ascii hd, List.mem_singleton]
      exact ⟨asciiByte_inj hc hd, fun e => by rw [e]⟩
    · constructor
      · intro hm
        have := mem_utf8EncodeChar hd hm
        rw [asciiByte_toNat hc] at this
        omega
      · rintro rfl
        exact absurd hc hd

theorem asciiByte_not_mem_utf8EncodeChar {c d : Char} (hc : c.toNat < 128) (h : d ≠ c) :
    asciiByte c ∉ String.utf8EncodeChar d := by
  intro hm
  have hmem : c ∈ [d] := (asciiByte_mem_utf8Bytes hc).1 (by simpa using hm)
  exact h (List.mem_singleton.1 hmem).symm

/-- The byte of an ASCII character occurs as often as the character. -/
theorem count_asciiByte {c : Char} (hc : c.toNat < 128) (chars : List Char) :
    (utf8Bytes chars).count (asciiByte c) = chars.count c := by
  induction chars with
  | nil => rfl
  | cons d chars ih =>
    rw [utf8Bytes_cons, List.count_append, ih, List.count_cons]
    by_cases hd : d.toNat < 128
    · rw [utf8EncodeChar_of_ascii hd, List.count_singleton, Nat.add_comm]
      congr 2
      rw [beq_iff_eq, beq_iff_eq]
      exact propext ⟨asciiByte_inj hd hc, fun e => by rw [e]⟩
    · have hne : (d == c) = false := by
        rw [beq_eq_false_iff_ne]
        rintro rfl
        exact hd hc
      rw [List.count_eq_zero_of_not_mem, hne]
      · simp
      · intro hm
        have := mem_utf8EncodeChar hd hm
        rw [asciiByte_toNat hc] at this
        omega

/-! ### Cutting around an ASCII character -/

theorem splitOn_append_of_not_mem {α : Type} [BEq α] [LawfulBEq α] {x : α} {left : List α}
    (h : x ∉ left) (right : List α) :
    (left ++ right).splitOn x = (right.splitOn x).modifyHead (left ++ ·) := by
  induction left with
  | nil => rw [List.nil_append]; cases right.splitOn x <;> rfl
  | cons y left ih =>
    have hy : (y == x) = false := by
      rw [beq_eq_false_iff_ne]
      exact fun e => h (by simp [e])
    rw [List.cons_append, List.splitOn_cons_eq_if_modifyHead, hy,
      ih (fun hm => h (List.mem_cons_of_mem _ hm))]
    cases right.splitOn x <;> rfl

/-- There is one piece more than there are cuts. -/
theorem length_splitOn {α : Type} [BEq α] (x : α) (list : List α) :
    (list.splitOn x).length = list.count x + 1 := by
  induction list with
  | nil => rfl
  | cons y list ih =>
    rw [List.splitOn_cons_eq_if_modifyHead, List.count_cons]
    cases y == x <;> simp [ih]

/-- Cutting the bytes of a text around an ASCII byte cuts the text around the character. -/
theorem splitOn_utf8Bytes {c : Char} (hc : c.toNat < 128) (chars : List Char) :
    (utf8Bytes chars).splitOn (asciiByte c) = (chars.splitOn c).map utf8Bytes := by
  induction chars with
  | nil => rfl
  | cons d chars ih =>
    rw [utf8Bytes_cons, List.splitOn_cons_eq_if_modifyHead]
    by_cases h : d = c
    · subst h
      rw [utf8EncodeChar_of_ascii hc, List.singleton_append, List.splitOn_cons_eq_if_modifyHead]
      simp [ih]
    · rw [splitOn_append_of_not_mem (asciiByte_not_mem_utf8EncodeChar hc h), ih]
      cases e : chars.splitOn c <;> simp [h]

end Inet.Text
