/-
Inet/Json/Wording.lean

The part of an error message that is not the library's own.

What is wrong is found out by the decoders, and what they expect is named by
them.  The sentence is made by the reader of JSON that they are called from: it
hands on what an error says of itself, and it knows what to call a value that
was not expected.
-/
import Inet.Json.Value

namespace Inet.Json

/-- How a reader of JSON words its errors. -/
structure Wording where
  /-- An error that says itself what is wrong. -/
  custom : String → String
  typeName : Kind → String
  /-- Which value of its type it is, to stand behind the name of the type. -/
  detail : Value → String
  /-- What was found, in place of what was expected. -/
  invalidType : String → String → String
  /-- A value that is no list, in place of a list of any length. -/
  notList : Value → String
  /-- A value that is no list of two, in place of a pair. -/
  notPair : Value → String

/-- What a value is. -/
def Wording.describe (w : Wording) (value : Value) : String :=
  w.typeName value.kind ++ w.detail value

end Inet.Json
