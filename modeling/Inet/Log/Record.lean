/-
Inet/Log/Record.lean

What is written to the log: one record for each input that is refused, with
the input as it was given and the reason.
-/
import Inet.Address.Octets
import Inet.Network.Scan

namespace Inet.Log

/-- One refused input. -/
inductive Record where
  /-- The text was read as an address. -/
  | address (text : String) (error : AddressError)
  /-- The values were taken for the octets of an address. -/
  | octets (values : List Int) (error : OctetsError)
  /-- The text was read as a network. -/
  | network (text : String) (error : NetworkError)
  /-- The prefix length was to be that of a network around `addr`. -/
  | prefixLen (addr : Address) (prefixLen : UInt8)
  deriving Repr, DecidableEq

namespace Record

def message : Record → String
  | address text error => "Rejected address '" ++ text ++ "': " ++ error.message
  | octets values error =>
    "Rejected octets [" ++ ", ".intercalate (values.map Int.repr) ++ "]: " ++ error.message
  | network text error => "Rejected network '" ++ text ++ "': " ++ error.message
  | prefixLen addr length =>
    "Rejected network " ++ addr.text ++ "/" ++ length.toNat.repr ++ ": prefix is greater than "
      ++ Address.width.toNat.repr

/-- The line of the log: all records are of the lowest level that is written. -/
def line (record : Record) : String :=
  "DEBUG " ++ record.message

end Record

end Inet.Log
