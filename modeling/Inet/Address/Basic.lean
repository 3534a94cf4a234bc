/-
Inet/Address/Basic.lean

IPv4 addresses: four octets, most significant first.

An address is also one 32-bit word, its octets in big-endian order (`bits`,
`ofBits`).  The word is what addresses are ordered by and what blocks are
computed on.  Two addresses are equal when their octets are.  The text of an
address is its dotted quad, octets in decimal without leading zeros.
-/
import Inet.Order
import Std.Net.Addr

namespace Inet

/-- An IPv4 address `a.b.c.d`. -/
structure Address where
  a : UInt8
  b : UInt8
  c : UInt8
  d : UInt8
  deriving Repr, DecidableEq, Inhabited

namespace Address

/-- The lowest address, `0.0.0.0`. -/
def unspecified : Address := ⟨0, 0, 0, 0⟩

/-- The highest address, `255.255.255.255`. -/
def broadcast : Address := ⟨255, 255, 255, 255⟩

/-- The number of bits of an address. -/
def width : UInt8 := 32

/-! ### The octets in other shapes -/

/-- The octets, most significant first. -/
def octets (addr : Address) : List UInt8 := [addr.a, addr.b, addr.c, addr.d]

/-- The octets as one word, most significant first. -/
def bits (addr : Address) : UInt32 :=
  addr.a.toUInt32 <<< 24 ||| addr.b.toUInt32 <<< 16 ||| addr.c.toUInt32 <<< 8 ||| addr.d.toUInt32

/-- The address whose octets make up a word. -/
def ofBits (word : UInt32) : Address :=
  ⟨(word >>> 24).toUInt8, (word >>> 16).toUInt8, (word >>> 8).toUInt8, word.toUInt8⟩

def toVector (addr : Address) : Vector UInt8 4 := #v[addr.a, addr.b, addr.c, addr.d]

def ofVector (octets : Vector UInt8 4) : Address := ⟨octets[0], octets[1], octets[2], octets[3]⟩

/-- The address as a value of the standard library's type. -/
def toStandard (addr : Address) : Std.Net.IPv4Addr := ⟨addr.toVector⟩

def ofStandard (addr : Std.Net.IPv4Addr) : Address := ofVector addr.octets

/-! ### Text -/

/-- Octets in decimal, with `separator` between them. -/
def joinOctets (separator : String) (octets : List UInt8) : String :=
  separator.intercalate (octets.map fun octet => octet.toNat.repr)

/-- The dotted quad. -/
def text (addr : Address) : String := joinOctets "." addr.octets

instance : ToString Address := ⟨text⟩

/-- The address with its inner structure shown. -/
def debugText (addr : Address) : String :=
  "Address([" ++ joinOctets ", " addr.octets ++ "])"

/-! ### Order -/

/-- Addresses are ordered as the words that they are. -/
instance : Ord Address := ⟨fun x y => compare x.bits y.bits⟩

instance : PartialOrd Address := ⟨fun x y => some (compare x y)⟩

instance : LT Address := ltOfOrd

instance : LE Address := leOfOrd

instance : Min Address := minOfLe

instance : Max Address := maxOfLe

end Address

end Inet
