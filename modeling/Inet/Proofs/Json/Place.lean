/-
Inet/Proofs/Json/Place.lean

Messages that end in a place.

A place is read from the end of a message, character by character.  What is
found is what stands there: a message ends in a place exactly if it is some
reason, the words of a line, a numeral, the words of a column and a numeral
(`EndsIn`), both numbers being of 64 bits.  The words have a blank on either
side, which is no digit, so that there is one way to cut a message like this.

A message that ends in a place comes out of `restate` as the reason, and behind
it the place as it is written, or nothing if the line is 0; any other message
comes out as it is.
-/
import Inet.Json.Place
import Inet.Proofs.Text.Canonical
import Mathlib.Data.List.Basic

namespace Inet.Json.Place

open Text

variable {message reason words : String} {chars rest : List Char} {n : Nat} {place : Place}

/-! ### Numbers at the end -/

/-- The text is a numeral, with any zeros in front, for a number of 64 bits. -/
structure Denotes (text : String) (n : Nat) : Prop where
  isNumeral : IsNumeral text
  value : numeralValue text = n
  lt_size : n < UInt64.size

theorem denotes_repr (h : n < UInt64.size) : Denotes n.repr n :=
  ⟨isNumeral_repr n, numeralValue_repr n, h⟩

theorem number?_eq_some_iff {text : String} :
    Decimal.number? text.toList = some n ↔ IsNumeral text ∧ numeralValue text = n := by
  rw [number?_toList]
  split <;> simp_all

/-- The two parts of what `takeNumber?` looks at, when they are told apart by a blank. -/
theorem takeWhile_digits (behind : List Char) {digits : List Char}
    (hdigits : ∀ c ∈ digits, c.isDigit) :
    (digits ++ ' ' :: behind).takeWhile Char.isDigit = digits
    ∧ (digits ++ ' ' :: behind).dropWhile Char.isDigit = ' ' :: behind := by
  have hblank : ¬ (' ').isDigit := by decide
  constructor
  · rw [List.takeWhile_append_of_pos hdigits, List.takeWhile_cons_of_neg hblank, List.append_nil]
  · rw [List.dropWhile_append_of_pos hdigits, List.dropWhile_cons_of_neg hblank]

/-- Behind words that end in a blank, the number taken is the whole numeral. -/
theorem takeNumber?_eq_some_iff (hwords : words.toList.getLast? = some ' ') :
    takeNumber? words chars.reverse = some (n, rest)
      ↔ ∃ text, chars = rest.reverse ++ words.toList ++ text.toList ∧ Denotes text n := by
  obtain ⟨front, hfront⟩ := List.getLast?_eq_some_iff.1 hwords
  have htake : takeNumber? words chars.reverse = some (n, rest)
      ↔ Decimal.number? (chars.reverse.takeWhile Char.isDigit).reverse = some n
        ∧ words.toList.reverse ++ rest = chars.reverse.dropWhile Char.isDigit
        ∧ n < UInt64.size := by
    simp only [takeNumber?, Option.bind_eq_bind, Option.bind_eq_some_iff,
      List.isPrefixOf?_eq_some_iff_append_eq, Option.ite_none_right_eq_some, Option.some.injEq,
      Prod.mk.injEq]
    constructor
    · rintro ⟨_, hnumber, _, hdrop, hlt, rfl, rfl⟩
      exact ⟨hnumber, hdrop, hlt⟩
    · rintro ⟨hnumber, hdrop, hlt⟩
      exact ⟨n, hnumber, rest, hdrop, hlt, rfl, rfl⟩
  rw [htake]
  constructor
  · rintro ⟨hnumber, hdrop, hlt⟩
    have htext := String.toList_ofList (l := (chars.reverse.takeWhile Char.isDigit).reverse)
    rw [← htext, number?_eq_some_iff] at hnumber
    refine ⟨_, ?_, hnumber.1, hnumber.2, hlt⟩
    rw [htext, ← List.reverse_inj]
    simp [hdrop, List.takeWhile_append_dropWhile]
  · rintro ⟨text, rfl, hnum, hvalue, hlt⟩
    have hdigits : ∀ c ∈ text.toList.reverse, c.isDigit := by
      intro c hc
      exact hnum.2 c (List.mem_reverse.1 hc)
    have hsplit : (rest.reverse ++ words.toList ++ text.toList).reverse
        = text.toList.reverse ++ ' ' :: (front.reverse ++ rest) := by
      simp [hfront]
    obtain ⟨htake, hdrop⟩ := takeWhile_digits (front.reverse ++ rest) hdigits
    rw [hsplit, htake, hdrop, List.reverse_reverse, number?_eq_some_iff]
    exact ⟨⟨hnum, hvalue⟩, by simp [hfront], hlt⟩

/-! ### Places at the end -/

/-- The message is the reason and behind it the words of the place, with any zeros in front of the
two numbers. -/
def EndsIn (message reason : String) (place : Place) : Prop :=
  ∃ line column, message = reason ++ lineWords ++ line ++ columnWords ++ column
    ∧ Denotes line place.line ∧ Denotes column place.column

/-- A place is written in the words that it is read from. -/
theorem endsIn_append_text (hline : place.line < UInt64.size)
    (hcolumn : place.column < UInt64.size) : EndsIn (reason ++ place.text) reason place := by
  refine ⟨place.line.repr, place.column.repr, ?_, denotes_repr hline, denotes_repr hcolumn⟩
  rw [text]
  simp only [String.append_assoc]

/-- What is read off the end of a message is what stands there. -/
theorem split?_eq_some_iff :
    split? message = some (reason, place) ↔ EndsIn message reason place := by
  simp only [split?, Option.bind_eq_bind, Option.bind_eq_some_iff, Prod.exists, Option.pure_def,
    Option.some.injEq, Prod.mk.injEq]
  constructor
  · rintro ⟨column, before, hcolumn, line, start, hline, rfl, rfl⟩
    rw [← List.reverse_reverse before] at hline
    obtain ⟨columnText, hmessage, hdenotes⟩ := (takeNumber?_eq_some_iff (by decide)).1 hcolumn
    obtain ⟨lineText, hbefore, hdenotes'⟩ := (takeNumber?_eq_some_iff (by decide)).1 hline
    refine ⟨lineText, columnText, ?_, hdenotes', hdenotes⟩
    apply String.toList_inj.1
    rw [hmessage, hbefore]
    simp
  · rintro ⟨line, column, rfl, hline, hcolumn⟩
    refine ⟨place.column, (reason ++ lineWords ++ line).toList.reverse, ?_, place.line,
      reason.toList.reverse, ?_, ?_, rfl⟩
    · exact (takeNumber?_eq_some_iff (by decide)).2 ⟨column, by simp, hcolumn⟩
    · exact (takeNumber?_eq_some_iff (by decide)).2 ⟨line, by simp, hline⟩
    · simp

theorem restate_of_endsIn (h : EndsIn message reason place) :
    restate message = if place.line = 0 then reason else reason ++ place.text := by
  rw [restate, split?_eq_some_iff.2 h]

/-- A place that is written out is left as it is written, unless it stands for none. -/
theorem restate_append_text (hline : place.line < UInt64.size)
    (hcolumn : place.column < UInt64.size) :
    restate (reason ++ place.text) = if place.line = 0 then reason else reason ++ place.text :=
  restate_of_endsIn (endsIn_append_text hline hcolumn)

example : restate "invalid address part: x at line 0 column 3" = "invalid address part: x" := by
  decide

theorem restate_of_not_endsIn (h : ∀ reason place, ¬ EndsIn message reason place) :
    restate message = message := by
  rw [restate]
  split
  · rfl
  · rename_i reason place hsplit
    exact absurd (split?_eq_some_iff.1 hsplit) (h reason place)

/-- A message whose last character is no digit ends in no place. -/
theorem not_endsIn_of_getLast? {c : Char} (hlast : message.toList.getLast? = some c)
    (hc : ¬ c.isDigit) (reason : String) (place : Place) : ¬ EndsIn message reason place := by
  rintro ⟨line, column, rfl, -, hcolumn⟩
  have hne : column.toList ≠ [] := mt String.toList_eq_nil_iff.1 hcolumn.isNumeral.1
  rw [String.toList_append, List.getLast?_append_of_ne_nil _ hne] at hlast
  exact hc (hcolumn.isNumeral.2 c (List.mem_of_getLast? hlast))

end Inet.Json.Place
