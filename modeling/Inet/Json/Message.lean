/-
Inet/Json/Message.lean

The wording of errors that the library is used with.

A value is called by the name of its type, and a scalar is quoted behind it.
A message that names a place at its end is not handed on as it is: the place is
written anew.
-/
import Inet.Json.Codec
import Inet.Json.Place
import Inet.Text.Quoted
import Inet.Text.Shortest

namespace Inet.Json

def Kind.name : Kind → String
  | null => "null"
  | bool => "boolean"
  | integer => "integer"
  | float => "floating point"
  | string => "string"
  | array => "sequence"
  | object => "map"

/-- A scalar, between marks. -/
def Value.mark : Value → String
  | bool value => " `" ++ (if value then "true" else "false") ++ "`"
  | integer value => " `" ++ value.repr ++ "`"
  | float value => " `" ++ Text.Shortest.text value ++ "`"
  | string text => " " ++ Text.quoted text
  | null | array _ | object _ => ""

namespace Wording

def invalidTypeText (found expected : String) : String :=
  "invalid type: " ++ found ++ ", expected " ++ expected

def unexpected (value : Value) (expected : String) : String :=
  invalidTypeText (value.kind.name ++ value.mark) expected

/-- A list of the wrong length is called too short or too long for a pair, and anything else is
called by its type. -/
def notPairText : Value → String
  | .array items =>
    "invalid length " ++ items.length.repr ++ ", expected "
      ++ if items.length < 2 then "a tuple of size 2" else "fewer elements in array"
  | value => unexpected value "a tuple of size 2"

/-- The words in which messages are answered. -/
def standard : Wording where
  custom := Place.restate
  typeName := Kind.name
  detail := Value.mark
  invalidType found expected := Place.restate (invalidTypeText found expected)
  notList value := Place.restate (unexpected value "a sequence")
  notPair value := Place.restate (notPairText value)

end Wording

/-- The message of an error, as it is answered. -/
def DecodeError.message (error : DecodeError) : String := error.messageIn .standard

end Inet.Json
