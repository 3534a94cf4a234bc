/-
Inet/Proofs/Text/Numeral.lean

What texts spell, apart from how they are read: numerals, and the pieces
between the occurrences of a character.

A numeral is a nonempty run of ASCII digits.  Its value is the number that the
digits denote in base ten; neither its length nor its leading zeros matter.
The pieces of a text are what stands between the occurrences of a character,
one more than there are of these, and some of them may be empty.

Main statements:
  * `number?_toList`: characters denote a number exactly if they make up a
    numeral, and then its value;
  * `intercalate_pieces`, `pieces_intercalate`: cutting a text into pieces and
    joining pieces undo each other.
-/
import Inet.Text.Decimal
import Mathlib.Data.Nat.Digits.Defs

namespace Inet.Text

/-! ### Numerals -/

/-- A nonempty run of ASCII digits. -/
def IsNumeral (text : String) : Prop :=
  text ≠ "" ∧ ∀ c ∈ text.toList, c.isDigit

instance (text : String) : Decidable (IsNumeral text) :=
  inferInstanceAs (Decidable (_ ∧ _))

/-- The number that digits denote in base ten, the last of them being the units. -/
def numeralValue (text : String) : Nat :=
  Nat.ofDigits 10 (text.toList.map fun c => c.toNat - '0'.toNat).reverse

theorem ofDigitChars_eq_ofDigits (chars : List Char) :
    Nat.ofDigitChars 10 chars 0
      = Nat.ofDigits 10 (chars.map fun c => c.toNat - '0'.toNat).reverse := by
  rw [Nat.ofDigitChars_eq_foldl, Nat.ofDigits_eq_foldr, List.foldr_reverse, List.foldl_map]
  congr 1
  funext n c
  exact Nat.add_comm _ _

/-- Characters denote a number exactly if they make up a numeral. -/
theorem number?_toList (text : String) :
    Decimal.number? text.toList
      = if IsNumeral text then some (numeralValue text) else none := by
  have hiff : (!text.toList.isEmpty && text.toList.all Char.isDigit) = true ↔ IsNumeral text := by
    simp [IsNumeral, String.toList_eq_nil_iff]
  rw [Decimal.number?, numeralValue, ← ofDigitChars_eq_ofDigits]
  by_cases h : IsNumeral text
  · rw [if_pos h, if_pos (hiff.2 h)]
  · rw [if_neg h, if_neg (mt hiff.1 h)]

/-! ### Pieces -/

/-- What stands between the occurrences of `c`. -/
def pieces (c : Char) (text : String) : List String :=
  (text.toList.splitOn c).map String.ofList

variable {c : Char} {text : String}

theorem map_toList_pieces : (pieces c text).map String.toList = text.toList.splitOn c := by
  simp [pieces]

theorem length_pieces : (pieces c text).length = text.toList.count c + 1 := by
  rw [pieces, List.length_map, length_splitOn]

theorem not_mem_of_mem_splitOn {α : Type} [BEq α] [LawfulBEq α] {x : α} {list part : List α}
    (h : part ∈ list.splitOn x) : x ∉ part := by
  induction list generalizing part with
  | nil =>
    obtain rfl : part = [] := by simpa using h
    exact List.not_mem_nil
  | cons y list ih =>
    rw [List.splitOn_cons_eq_if_modifyHead] at h
    -- a separator opens a new first piece, any other element joins the first piece there is
    by_cases hy : y = x
    · rw [if_pos (by simpa using hy)] at h
      rcases List.mem_cons.1 h with rfl | h
      · exact List.not_mem_nil
      · exact ih h
    · rw [if_neg (by simpa using hy)] at h
      rcases e : list.splitOn x with - | ⟨first, rest⟩
      · exact absurd e (List.splitOn_ne_nil x list)
      · rw [e, List.modifyHead_cons] at h
        rcases List.mem_cons.1 h with rfl | h
        · rw [List.mem_cons, not_or]
          exact ⟨Ne.symm hy, ih (by simp [e])⟩
        · exact ih (by simp [e, h])

/-- No piece contains the character. -/
theorem not_mem_of_mem_pieces {piece : String} (h : piece ∈ pieces c text) : c ∉ piece.toList := by
  obtain ⟨chars, hchars, rfl⟩ := List.mem_map.1 h
  rw [String.toList_ofList]
  exact not_mem_of_mem_splitOn hchars

theorem toList_intercalate_singleton (texts : List String) :
    (String.intercalate (String.singleton c) texts).toList
      = [c].intercalate (texts.map String.toList) := by
  rw [String.toList_intercalate, String.toList_singleton]

/-- What neither the pieces nor the character between them hold is not in the text either. -/
theorem not_mem_intercalate {d : Char} (hd : d ≠ c) {texts : List String}
    (h : ∀ t ∈ texts, d ∉ t.toList) :
    d ∉ (String.intercalate (String.singleton c) texts).toList := by
  induction texts with
  | nil => simp
  | cons t texts ih =>
    have ht : d ∉ t.toList := h t List.mem_cons_self
    rcases texts with - | ⟨next, texts⟩
    · rwa [String.intercalate_singleton]
    · have hrest := ih fun u hu => h u (List.mem_cons_of_mem _ hu)
      rw [String.intercalate_cons_cons, String.toList_append, String.toList_append,
        String.toList_singleton, List.mem_append, List.mem_append, List.mem_singleton]
      rintro ((hmem | hmem) | hmem)
      · exact ht hmem
      · exact hd hmem
      · exact hrest hmem

/-- The pieces with the character between them make up the text. -/
theorem intercalate_pieces : String.intercalate (String.singleton c) (pieces c text) = text := by
  apply String.toList_inj.1
  rw [toList_intercalate_singleton, map_toList_pieces, List.intercalate_splitOn]

theorem pieces_inj {text' : String} : pieces c text = pieces c text' ↔ text = text' := by
  constructor
  · intro h
    calc text
        = String.intercalate (String.singleton c) (pieces c text) := intercalate_pieces.symm
      _ = String.intercalate (String.singleton c) (pieces c text') := by rw [h]
      _ = text' := intercalate_pieces
  · rintro rfl
    rfl

/-- Texts without the character are the pieces of the text that they make up. -/
theorem pieces_intercalate {texts : List String} (hne : texts ≠ [])
    (hc : ∀ t ∈ texts, c ∉ t.toList) :
    pieces c (String.intercalate (String.singleton c) texts) = texts := by
  have hmem : ∀ chars ∈ texts.map String.toList, c ∉ chars := by
    intro chars h
    obtain ⟨t, ht, rfl⟩ := List.mem_map.1 h
    exact hc t ht
  rw [pieces, toList_intercalate_singleton,
    List.splitOn_intercalate c hmem (by simpa using hne)]
  simp

end Inet.Text
