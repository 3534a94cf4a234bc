/-
Inet/Address/Octets.lean

Addresses from lists of integers.  A list makes an address when it has exactly
four elements and each of them is an octet, 0 to 255.  The length is looked at
first; of several elements that are no octets the first is reported.
-/
import Inet.Address.Basic

namespace Inet

/-- Why a list of integers makes no address. -/
inductive OctetsError where
  /-- The list has `length` elements, not four. -/
  | length (length : Nat)
  /-- The element `value` at `idx` is no octet. -/
  | overflow (idx : Nat) (value : Int)
  deriving Repr, DecidableEq

namespace OctetsError

def message : OctetsError → String
  | length n => "invalid octets for address: expected 4 but got " ++ n.repr
  | overflow idx value =>
    "invalid octets for address: '" ++ value.repr ++ "' at idx=" ++ idx.repr
      ++ " is outside of 0..=255"

/-- The error with its inner structure shown. -/
def debugText : OctetsError → String
  | length n => "InvalidLength(" ++ n.repr ++ ")"
  | overflow idx value =>
    "Overflow \x7b idx: " ++ idx.repr ++ ", value: " ++ value.repr ++ " \x7d"

end OctetsError

namespace Address

/-- The octet that the element `value` at `idx` is. -/
def octetAt (idx : Nat) (value : Int) : Except OctetsError UInt8 :=
  if 0 ≤ value ∧ value ≤ 255 then .ok (UInt8.ofNat value.toNat) else .error (.overflow idx value)

/-- The address whose octets the integers are. -/
def ofIntegers : List Int → Except OctetsError Address
  | [a, b, c, d] => do
    let a ← octetAt 0 a
    let b ← octetAt 1 b
    let c ← octetAt 2 c
    let d ← octetAt 3 d
    return ⟨a, b, c, d⟩
  | values => .error (.length values.length)

end Address

end Inet
