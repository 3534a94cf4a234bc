/-
Inet/Json/Value.lean

JSON values and their types.

A number is an integer if it is written as one and fits 64 bits; any other is a
floating-point number.
-/
import Inet.Json.Number

namespace Inet.Json

inductive Value where
  | null
  | bool (value : Bool)
  | integer (value : Int)
  | float (value : Float)
  | string (text : String)
  | array (items : List Value)
  | object (members : List (String × Value))
  deriving Inhabited

/-- The value of a number as it is written. -/
def Value.ofNumeral? (numeral : Numeral) : Option Value :=
  match numeral.integer? with
  | some value => some (.integer value)
  | none => numeral.float?.map .float

/-- The types of values. -/
inductive Kind where
  | null
  | bool
  | integer
  | float
  | string
  | array
  | object
  deriving Repr, DecidableEq

def Value.kind : Value → Kind
  | null => .null
  | bool _ => .bool
  | integer _ => .integer
  | float _ => .float
  | string _ => .string
  | array _ => .array
  | object _ => .object

end Inet.Json
