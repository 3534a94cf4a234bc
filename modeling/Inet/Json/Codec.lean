/-
Inet/Json/Codec.lean

Addresses and networks as JSON.

Both are written as the string that is their text, and read back from a string
by parsing it; no other value is read.  A list of pairs is read pair by pair,
the address of a pair before its network, up to the first error.  The words for
an error are left to a `Wording`, which is told the parser's message, or what
was expected.
-/
import Inet.Json.Wording
import Inet.Log.Intake

namespace Inet.Json

/-- What the decoder of a text expects to find. -/
inductive Expected where
  | address
  | network
  deriving Repr, DecidableEq

def Expected.description : Expected → String
  | address => "IPv4 address in dotted-quad notation"
  | network => "IPv4 network in address/prefix notation"

/-- Why a value is not read. -/
inductive DecodeError where
  /-- A string that is no address. -/
  | address (error : AddressError)
  /-- A string that is no network. -/
  | network (error : NetworkError)
  /-- A value of the wrong type, in place of a text. -/
  | type (found : Value) (expected : Expected)
  /-- A value in place of a list. -/
  | list (found : Value)
  /-- A value in place of a list of two. -/
  | pair (found : Value)

/-- The message of an error.  A string that does not parse is reported with the parser's message,
a value of the wrong type with what was expected in its stead. -/
def DecodeError.messageIn (w : Wording) : DecodeError → String
  | address error => w.custom error.message
  | network error => w.custom error.message
  | type found expected => w.invalidType (w.describe found) expected.description
  | list found => w.notList found
  | pair found => w.notPair found

/-! ### Single values -/

def encodeAddress (addr : Address) : Value := .string addr.text

def encodeNetwork (n : Network) : Value := .string n.text

def decodeAddress : Value → Attempt DecodeError Address
  | .string text => (Address.parse text).mapError .address
  | value => .error (.type value .address)

def decodeNetwork : Value → Attempt DecodeError Network
  | .string text => (Network.parse text).mapError .network
  | value => .error (.type value .network)

/-! ### Pairs -/

/-- An address and a network, in a list of exactly these two. -/
def decodePair : Value → Attempt DecodeError (Address × Network)
  | .array [addr] => do
    let _ ← decodeAddress addr
    .error (.pair (.array [addr]))
  | .array (addr :: network :: rest) => do
    let a ← decodeAddress addr
    let n ← decodeNetwork network
    if rest.isEmpty then return (a, n) else .error (.pair (.array (addr :: network :: rest)))
  | value => .error (.pair value)

def decodePairs : Value → Attempt DecodeError (List (Address × Network))
  | .array items => items.mapM decodePair
  | value => .error (.list value)

end Inet.Json
