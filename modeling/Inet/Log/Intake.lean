/-
Inet/Log/Intake.lean

Addresses and networks from the outside, with a record of what is refused.

Each function here decides as the reader or check that it is built on, and
writes one record if and only if it refuses its input.  A network with a bad
address is one refused network.
-/
import Inet.Address.Reader
import Inet.Log.Attempt
import Inet.Network.Reader

namespace Inet

namespace Address

/-- Reads an address from its dotted quad. -/
def parse (text : String) : Attempt AddressError Address :=
  .recording (read text) (.address text)

theorem result_parse (text : String) : (parse text).result = read text :=
  Attempt.result_recording _ _

theorem parse_of_read {text : String} {addr : Address} (h : read text = .ok addr) :
    parse text = .ok addr := by
  rw [parse, h]
  rfl

/-- Reads several addresses, up to the first that is none. -/
def parseAll (texts : List String) : Attempt AddressError (List Address) :=
  texts.mapM parse

/-- The address whose octets the integers are. -/
def fromIntegers (values : List Int) : Attempt OctetsError Address :=
  .recording (ofIntegers values) (.octets values)

end Address

namespace Network

/-- Reads a network from its CIDR notation. -/
def parse (text : String) : Attempt NetworkError Network :=
  .recording (read text) (.network text)

theorem result_parse (text : String) : (parse text).result = read text :=
  Attempt.result_recording _ _

theorem parse_of_read {text : String} {n : Network} (h : read text = .ok n) :
    parse text = .ok n := by
  rw [parse, h]
  rfl

/-- Reads several networks, up to the first that is none. -/
def parseAll (texts : List String) : Attempt NetworkError (List Network) :=
  texts.mapM parse

/-- The network of an address and a prefix length, if this is at most 32. -/
def ofAddress (addr : Address) (prefixLen : UInt8) : Except NetworkError Network :=
  if prefixLen > Address.width then .error (.prefixOverflow prefixLen.toUInt32)
  else .ok ⟨addr, prefixLen⟩

/-- The network of an address and a prefix length. -/
def build (addr : Address) (prefixLen : UInt8) : Attempt NetworkError Network :=
  .recording (ofAddress addr prefixLen) fun _ => .prefixLen addr prefixLen

theorem result_build (addr : Address) (prefixLen : UInt8) :
    (build addr prefixLen).result = ofAddress addr prefixLen :=
  Attempt.result_recording _ _

/-- What is built is what was asked for, and valid. -/
theorem ofAddress_eq_ok_iff {addr : Address} {prefixLen : UInt8} {n : Network} :
    ofAddress addr prefixLen = .ok n ↔ n = ⟨addr, prefixLen⟩ ∧ n.Valid := by
  by_cases h : prefixLen > Address.width
  · rw [ofAddress, if_pos h]
    simp only [reduceCtorEq, false_iff, not_and]
    rintro rfl
    exact UInt8.not_le.2 h
  · rw [ofAddress, if_neg h, Except.ok.injEq]
    constructor
    · rintro rfl
      exact ⟨rfl, UInt8.not_lt.1 h⟩
    · rintro ⟨rfl, -⟩
      rfl

end Network

end Inet
