/-
Inet/Proofs/Json/Wording.lean

What the decoders rely on in the words of an error.

A message is handed on as it is, unless it ends in words that could be those of
a place; what happens to these is not relied on.  A value of the wrong type is
reported in one fixed form, and the name of a type can be told from whatever
stands behind it (`Wording.Lawful`).  The wording that messages are answered in
is one of these (`Wording.lawful_standard`).
-/
import Inet.Json.Message
import Inet.Proofs.Json.Place

namespace Inet.Json

open Place (EndsIn)

namespace Wording

/-- The laws of a wording. -/
structure Lawful (w : Wording) : Prop where
  custom_of_not_endsIn : ∀ message, (∀ reason place, ¬ EndsIn message reason place) →
    w.custom message = message
  invalidType_eq : ∀ found expected,
    w.invalidType found expected
      = w.custom ("invalid type: " ++ found ++ ", expected " ++ expected)
  /-- No type is called by the beginning of the name of another. -/
  typeName_append : ∀ kind kind' rest rest',
    w.typeName kind ++ rest = w.typeName kind' ++ rest' → kind = kind'

variable {w : Wording} {message expected : String}

/-- A message that ends in what was expected, and not in a digit, is handed on. -/
theorem Lawful.invalidType_of_getLast? (hw : w.Lawful) (found : String) {c : Char}
    (hlast : expected.toList.getLast? = some c) (hc : ¬ c.isDigit) :
    w.invalidType found expected = "invalid type: " ++ found ++ ", expected " ++ expected := by
  have hne : expected.toList ≠ [] := by
    intro hnil
    simp [hnil] at hlast
  rw [hw.invalidType_eq]
  apply hw.custom_of_not_endsIn
  apply Place.not_endsIn_of_getLast? _ hc
  rw [String.toList_append, List.getLast?_append_of_ne_nil _ hne, hlast]

/-! ### The wording of answers -/

/-- The names differ in one of their first two letters. -/
theorem name_append_inj {kind kind' : Kind} {rest rest' : String}
    (h : kind.name ++ rest = kind'.name ++ rest') : kind = kind' := by
  have hinj : ∀ kind kind' : Kind, kind.name.toList.take 2 = kind'.name.toList.take 2 →
      kind = kind' := by
    intro kind kind'
    cases kind <;> cases kind' <;> decide
  have htake : ∀ (kind : Kind) (rest : String),
      (kind.name ++ rest).toList.take 2 = kind.name.toList.take 2 := by
    intro kind rest
    cases kind <;> simp [Kind.name]
  apply hinj
  rw [← htake kind rest, h, htake]

theorem lawful_standard : standard.Lawful where
  custom_of_not_endsIn _ h := Place.restate_of_not_endsIn h
  invalidType_eq _ _ := rfl
  typeName_append _ _ _ _ := name_append_inj

end Wording

end Inet.Json
