/-
Inet/Json/Place.lean

Places in a JSON text, and messages that end in one.

A message that ends in ` at line 3 column 7` is taken to name the place of an
error.  The place is read off the end of the message and written behind it
again, with numbers that have no leading zeros.  Line 0 stands for an unknown
place, and nothing is written for it.
-/
import Inet.Text.Decimal

namespace Inet.Json

/-- A line and a column, both of 64 bits.  Line 0 is no place. -/
structure Place where
  line : Nat
  column : Nat
  deriving Repr, DecidableEq

namespace Place

def lineWords : String := " at line "

def columnWords : String := " column "

def text (place : Place) : String :=
  lineWords ++ place.line.repr ++ columnWords ++ place.column.repr

/-! ### Reading from the end -/

/-- The number of 64 bits at the end of characters that are in reverse, and what is left in front
of the number and the words before it. -/
def takeNumber? (words : String) (reversed : List Char) : Option (Nat × List Char) := do
  let n ← Text.Decimal.number? (reversed.takeWhile Char.isDigit).reverse
  let rest ← words.toList.reverse.isPrefixOf? (reversed.dropWhile Char.isDigit)
  if n < UInt64.size then some (n, rest) else none

/-- A message that ends in a place, cut in front of it. -/
def split? (message : String) : Option (String × Place) := do
  let (column, rest) ← takeNumber? columnWords message.toList.reverse
  let (line, rest) ← takeNumber? lineWords rest
  return (String.ofList rest.reverse, ⟨line, column⟩)

/-- A message with the place that it ends in written anew. -/
def restate (message : String) : String :=
  match split? message with
  | none => message
  | some (reason, place) => if place.line = 0 then reason else reason ++ place.text

end Place

end Inet.Json
