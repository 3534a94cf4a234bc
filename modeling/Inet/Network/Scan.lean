/-
Inet/Network/Scan.lean

Reading a network in CIDR notation from the bytes of a text.

The slashes are counted first, and there has to be exactly one.  What stands
before it is read as an address; only then is what stands after it looked at,
which has to be a decimal number of at most 32.  The address is kept as it is
written.

As for addresses, all accesses are checked ones.
-/
import Inet.Address.Scan
import Inet.Network.Basic

namespace Inet

/-- Why a text, or an address and a number, make no network. -/
inductive NetworkError where
  /-- The text is empty. -/
  | missing
  /-- The slashes separate `found` parts, not two. -/
  | separatorCount (found : Nat)
  /-- The part before the slash is no address. -/
  | address (error : AddressError)
  /-- The part after the slash is empty. -/
  | missingPrefix
  /-- The part after the slash is no decimal number, or none of 32 bits. -/
  | malformedPrefix (part : String)
  /-- The prefix length is greater than 32. -/
  | prefixOverflow (prefixLen : UInt32)
  deriving Repr, DecidableEq

/-- A bad address is reported in its own words. -/
def NetworkError.message : NetworkError → String
  | missing => "invalid network string"
  | separatorCount _ => "invalid network string"
  | address error => error.message
  | missingPrefix => "invalid prefix"
  | malformedPrefix _ => "invalid prefix"
  | prefixOverflow _ => "invalid prefix"

namespace Network

open Text

/-- The byte between address and prefix length. -/
def slash : UInt8 := asciiByte '/'

/-- Reads the prefix length that goes with `addr`. -/
def scanPrefix (addr : Address) (part : ByteArray) : Except Fault (Except NetworkError Network) :=
  if part.size = 0 then .ok (.error .missingPrefix)
  else do
    match ← Decimal.read? part with
    | some length =>
      if length ≤ Address.width.toUInt32 then return .ok ⟨addr, length.toUInt8⟩
      else return .error (.prefixOverflow length)
    | none =>
      let part ← decode part
      return .error (.malformedPrefix part)

section Prefix

variable {addr : Address} {part : ByteArray}

theorem scanPrefix_of_some {length : UInt32} (hsize : part.size ≠ 0)
    (h : Decimal.read? part = .ok (some length)) :
    scanPrefix addr part
      = .ok (if length ≤ Address.width.toUInt32 then .ok ⟨addr, length.toUInt8⟩
          else .error (.prefixOverflow length)) := by
  rw [scanPrefix, if_neg hsize, h]
  by_cases hle : length ≤ Address.width.toUInt32 <;>
    simp [hle, bind, Except.bind, pure, Except.pure]

theorem scanPrefix_of_none (hsize : part.size ≠ 0) (h : Decimal.read? part = .ok none) :
    scanPrefix addr part = (decode part).map fun text => .error (.malformedPrefix text) := by
  rw [scanPrefix, if_neg hsize, h]
  rfl

end Prefix

/-- The network whose CIDR notation the bytes are. -/
def scan (bytes : ByteArray) : Except Fault (Except NetworkError Network) := do
  if bytes.size = 0 then
    return .error .missing
  let slashes ← count bytes slash
  if slashes + 1 ≠ 2 then
    return .error (.separatorCount (slashes + 1))
  let pos ← find bytes slash
  let left ← cut bytes 0 pos
  let left ← decode left
  match ← Address.scan left.toUTF8 with
  | .error error => return .error (.address error)
  | .ok addr =>
    let right ← cut bytes (pos + 1) bytes.size
    scanPrefix addr right

/-- What is left of the scan once the bytes are cut at their one slash. -/
theorem scan_of_cut {bytes left right : ByteArray} {pos : Nat}
    (hcount : count bytes slash = .ok 1) (hfind : find bytes slash = .ok pos)
    (hleft : cut bytes 0 pos = .ok left) (hright : cut bytes (pos + 1) bytes.size = .ok right) :
    scan bytes = (do
      let text ← decode left
      match ← Address.scan text.toUTF8 with
      | .error error => return .error (.address error)
      | .ok addr => scanPrefix addr right) := by
  have hsize : bytes.size ≠ 0 := by
    intro hzero
    simp [cut, hzero] at hright
  rw [scan, if_neg hsize, hcount]
  simp only [bind, Except.bind, hfind, hleft, hright]
  rfl

end Network

end Inet
