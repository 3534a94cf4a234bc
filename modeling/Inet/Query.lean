/-
Inet/Query.lean

What can be asked about addresses and networks that are given as texts.

A query reads its texts in the order in which they are given, and answers with
the first failure if there is one.
-/
import Inet.HostRange.Walk
import Inet.Order
import Inet.Session

namespace Inet.Query

/-! ### Reading -/

/-- Reads an address.  What is refused is answered and not recorded. -/
def readAddress (text : String) : Attempt AddressError Address :=
  .ofExcept (Address.read text)

/-- Reads a network, in the same way. -/
def readNetwork (text : String) : Attempt NetworkError Network :=
  .ofExcept (Network.read text)

/-! ### Order -/

def compareAddresses (a b : String) : Attempt Failure (Comparison Address) := do
  let a ← Address.parse a
  let b ← Address.parse b
  return .of a b

def compareNetworks (a b : String) : Attempt Failure (Comparison Network) := do
  let a ← Network.parse a
  let b ← Network.parse b
  return .of a b

def sortAddresses (items : List String) : Attempt Failure (Sorted Address) := do
  let addrs ← Address.parseAll items
  return .ofList addrs

def sortNetworks (items : List String) : Attempt Failure (Sorted Network) := do
  let networks ← Network.parseAll items
  return .ofList networks

/-! ### Networks and blocks -/

/-- The network of an address and a prefix length. -/
def network (addr : String) (prefixLen : UInt8) : Attempt Failure Network := do
  let addr ← Address.parse addr
  Network.build addr prefixLen

/-- Which addresses a network contains. -/
def contains (network : String) (addrs : List String) : Attempt Failure (List Bool) := do
  let n ← Network.parse network
  let addrs ← Address.parseAll addrs
  return addrs.map n.contains

/-- The addresses at some indices of a network's block. -/
def addressesAt (network : String) (indices : List UInt64) :
    Attempt Failure (List (Option Address)) := do
  let n ← Network.parse network
  return indices.map n.get?

/-- The block around an address. -/
structure BlockFacts where
  mask : UInt32
  network : Address
  broadcast : Address
  size : UInt64

/-- The block around an address, for any prefix length. -/
def block (addr : String) (prefixLen : UInt8) : Attempt Failure BlockFacts := do
  let addr ← Address.parse addr
  return {
    mask := Block.mask prefixLen
    network := Block.networkAddr addr prefixLen
    broadcast := Block.broadcastAddr addr prefixLen
    size := Block.size prefixLen }

/-! ### Walks and sessions -/

/-- A walk over the hosts of a network.  The records of its steps are those of the query. -/
def hosts (network : String) (steps : List Walk.Step) : Attempt Failure (List Walk.Outcome) := do
  let n ← Network.parse network
  let outcomes := (Walk.start n).run steps
  ⟨.ok outcomes, outcomes.flatMap (·.records)⟩

/-- A session that begins with a network.  Its steps keep their records. -/
def session (network : String) (steps : List Session.Step) :
    Attempt Failure (List Session.Outcome) := do
  let n ← Network.parse network
  return Session.run n steps

/-! ### Other forms of an address -/

/-- An address in the forms that it can be made from and turned into. -/
structure Conversions where
  addr : Address
  bits : UInt32
  /-- The dotted quad of the standard library's address. -/
  standard : String
  /-- Whether the address is the one made from four octets, from a vector of them, from the word,
  and from the standard library's address. -/
  same : List Bool

/-- The address of a word, turned into each other form and made from it again. -/
def conversions (bits : UInt32) : Conversions :=
  let addr := Address.ofBits bits
  { addr
    bits := addr.bits
    standard := Address.joinOctets "." addr.toStandard.octets.toList
    same := [
      addr == ⟨addr.a, addr.b, addr.c, addr.d⟩,
      addr == .ofVector addr.toVector,
      addr == .ofBits addr.bits,
      addr == .ofStandard addr.toStandard] }

/-! ### JSON -/

def serializeAddress (text : String) : Attempt Failure Json.Value := do
  let addr ← Address.parse text
  return Json.encodeAddress addr

def serializeNetwork (text : String) : Attempt Failure Json.Value := do
  let n ← Network.parse text
  return Json.encodeNetwork n

/-- Pairs of an address and a network, and whether the network contains the address. -/
def loadPairs (value : Json.Value) : Attempt Failure (List (Address × Network × Bool)) := do
  let pairs ← Json.decodePairs value
  return pairs.map fun (addr, n) => (addr, n, n.contains addr)

end Inet.Query
