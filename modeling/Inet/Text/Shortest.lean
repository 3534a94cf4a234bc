/-
Inet/Text/Shortest.lean

The shortest decimal that reads back as a given binary number, and how it is
written.

A positive floating-point number is `m * 2 ^ q`, and all reals nearer to it
than to its neighbours are read as this number, the two reals halfway between
them only if `m` is even.  Among the decimals `d * 10 ^ k` of that interval
those with the fewest digits are taken, and of them the nearest; of two equally
near ones the even one.  It is enough to try, for 1, 2, ... 17 digits, the two
decimals of so many digits next to the number.

All comparisons are of natural numbers: both sides are multiplied by the powers
of two and ten that their exponents lack.
-/

namespace Inet.Text.Shortest

/-- The positive number `significand * 2 ^ exponent`. -/
structure Dyadic where
  significand : Nat
  exponent : Int
  /-- Whether the neighbour below is only half as far away as the one above. -/
  nearBelow : Bool

/-- The first bit of a significand, `2 ^ 52`, which is not stored. -/
def hiddenBit : Nat := 0x10000000000000

/-- The absolute value of a finite floating-point number. -/
def Dyadic.ofFloat (x : Float) : Dyadic :=
  let bits : Nat := x.toBits.toNat
  let fraction : Nat := bits % hiddenBit
  let biased : Nat := bits / hiddenBit % 2048
  if biased = 0 then ⟨fraction, -1074, false⟩
  else ⟨hiddenBit + fraction, (biased : Int) - 1075, fraction = 0 ∧ 1 < biased⟩

/-- The decimal number `digits * 10 ^ exponent`. -/
structure Decimal where
  digits : Nat
  exponent : Int
  deriving Repr, DecidableEq

variable (v : Dyadic)

/-- So many quarters of the last place of `v`, as a multiple of the unit in which decimals of
exponent `k` are whole. -/
def scale (k : Int) (quarters : Nat) : Nat :=
  quarters * Nat.pow 2 (v.exponent - 2).toNat * Nat.pow 10 (-k).toNat

/-- The step of the decimals of exponent `k`, in the same unit. -/
def step (k : Int) : Nat :=
  Nat.pow 10 k.toNat * Nat.pow 2 (2 - v.exponent).toNat

/-- Whether `digits * 10 ^ k` is read back as `v`. -/
def readsBack (k : Int) (digits : Nat) : Bool :=
  let here := digits * step v k
  let low := scale v k (4 * v.significand - if v.nearBelow then 1 else 2)
  let high := scale v k (4 * v.significand + 2)
  if v.significand % 2 = 0 then low ≤ here ∧ here ≤ high else low < here ∧ here < high

/-- The decimal of exponent `k` next to `v`, among the two that reads back and is nearer. -/
def nearest? (k : Int) : Option Decimal :=
  let exact := scale v k (4 * v.significand)
  let below := exact / step v k
  let twice := 2 * (exact % step v k)
  match readsBack v k below, readsBack v k (below + 1) with
  | true, true =>
    if twice < step v k ∨ twice = step v k ∧ below % 2 = 0 then some ⟨below, k⟩
    else some ⟨below + 1, k⟩
  | true, false => some ⟨below, k⟩
  | false, true => some ⟨below + 1, k⟩
  | false, false => none

/-- The number of digits of `v` before the decimal point, or minus the number of zeros after it. -/
def magnitude : Int :=
  let places := (List.range 640).map fun i : Nat => (i : Int) - 330
  (places.find? fun k => scale v k (4 * v.significand) < step v k).getD 310

/-- Moves the zeros at the end into the exponent. -/
def trim : Nat → Decimal → Decimal
  | 0, d => d
  | fuel + 1, d =>
    if d.digits ≠ 0 ∧ d.digits % 10 = 0 then trim fuel ⟨d.digits / 10, d.exponent + 1⟩ else d

/-- The shortest decimal that reads back as `v`, without zeros at its end. -/
def shortest : Decimal :=
  let top := magnitude v
  let found := (List.range 17).findSome? fun n : Nat => nearest? v (top - (n : Int) - 1)
  trim 20 (found.getD ⟨0, 0⟩)

/-! ### Layout -/

def zeros (n : Int) : String := String.ofList (List.replicate n.toNat '0')

/-- A power of ten behind the digits that it multiplies, always with a sign. -/
def exponentText (e : Int) : String :=
  "e" ++ (if e < 0 then "-" else "+") ++ e.natAbs.repr

/-- The text of a positive decimal.  Its point is written, with zeros up to it, if it stands
behind at most 16 digits or before at most four zeros; anything larger or smaller has one digit
before the point and a power of ten behind. -/
def Decimal.text (decimal : Decimal) : String :=
  let digits := decimal.digits.repr
  let length : Int := digits.length
  let point := length + decimal.exponent
  if 0 ≤ decimal.exponent ∧ point ≤ 16 then digits ++ zeros decimal.exponent ++ ".0"
  else if 0 < point ∧ point ≤ 16 then
    String.ofList (digits.toList.take point.toNat) ++ "."
      ++ String.ofList (digits.toList.drop point.toNat)
  else if -5 < point ∧ point ≤ 0 then "0." ++ zeros (-point) ++ digits
  else if length = 1 then digits ++ exponentText (point - 1)
  else
    String.ofList (digits.toList.take 1) ++ "." ++ String.ofList (digits.toList.drop 1)
      ++ exponentText (point - 1)

/-- The bit of a negative number, `2 ^ 63`. -/
def signBit : UInt64 := 0x8000000000000000

/-- The text of a finite floating-point number. -/
def text (x : Float) : String :=
  let sign := if x.toBits < signBit then "" else "-"
  if x == 0 then sign ++ "0.0"
  else sign ++ (shortest (.ofFloat x)).text

end Inet.Text.Shortest
