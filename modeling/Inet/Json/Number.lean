/-
Inet/Json/Number.lean

Numbers in JSON, and what a numeral denotes.

The digits of a numeral are gathered into a 64-bit significand.  Digits that do
not fit are dropped, those before the point each count one into the exponent.
The significand is then multiplied or divided by one power of ten.  A numeral
is an integer if it has neither point nor exponent and drops no digit; a
negative one has to reach down no further than `-2 ^ 63`, and `-0` is the
negative zero of the floating-point numbers.
-/

namespace Inet.Json

/-- A number as it is written: sign, digits before and after the point, power of ten. -/
structure Numeral where
  negative : Bool
  whole : List Nat
  fraction : Option (List Nat)
  exponent : Option Int
  deriving Repr, DecidableEq

namespace Number

/-- Appends digits as long as the significand fits 64 bits, and counts them. -/
def gather (significand taken : Nat) : List Nat → Nat × Nat
  | [] => (significand, taken)
  | digit :: digits =>
    if significand * 10 + digit < UInt64.size then
      gather (significand * 10 + digit) (taken + 1) digits
    else (significand, taken)

/-- The power of ten, up to `10 ^ 308`. -/
def powerOfTen (k : Nat) : Float := Float.ofScientific 1 false k

/-- The product `x * 10 ^ e`, if it is not too large.  Powers beyond `10 ^ 308` are divided by step
by step. -/
def scale (x : Float) (e : Int) : Option Float :=
  if 308 < e then
    if x == 0 then some x else none
  else if 0 ≤ e then
    let y := x * powerOfTen e.toNat
    if y.isInf then none else some y
  else if -308 ≤ e then some (x / powerOfTen (-e).toNat)
  else if x == 0 then some x
  else scale (x / powerOfTen 308) (e + 308)
termination_by (-e).toNat

/-- The absolute value of the least integer of 64 bits. -/
def lowest : Nat := UInt64.size / 2

end Number

namespace Numeral

/-- The integer that a numeral denotes, if it is one of 64 bits. -/
def integer? (numeral : Numeral) : Option Int :=
  let (significand, taken) := Number.gather 0 0 numeral.whole
  if numeral.fraction.isSome ∨ numeral.exponent.isSome ∨ taken ≠ numeral.whole.length then none
  else if !numeral.negative then some significand
  else if 0 < significand ∧ significand ≤ Number.lowest then some (-significand)
  else none

/-- The floating-point number that a numeral denotes, if it is not too large. -/
def float? (numeral : Numeral) : Option Float :=
  let (significand, taken) := Number.gather 0 0 numeral.whole
  let dropped := numeral.whole.length - taken
  let (significand, places) := Number.gather significand 0 (numeral.fraction.getD [])
  let exponent : Int := dropped - places + numeral.exponent.getD 0
  let magnitude := Number.scale significand.toUInt64.toFloat exponent
  magnitude.map fun x => if numeral.negative then -x else x

end Numeral

end Inet.Json
