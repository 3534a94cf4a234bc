/-
Inet/Network/Basic.lean

Networks in CIDR notation: an address and a prefix length.

The address is kept as it was given, with its host bits; two networks over the
same block are different if their addresses are.  Everything else is derived
from the two: the mask, the ends of the block, the usable hosts, membership,
indexing.

`Network.Valid` says that the prefix length is at most 32.  The ways to obtain
a network establish it, and the derived values are meant for such networks.
-/
import Inet.Block

namespace Inet

/-- A network `addr/prefixLen`. -/
structure Network where
  addr : Address
  prefixLen : UInt8
  deriving Repr, DecidableEq, Inhabited

namespace Network

variable (n : Network)

/-- The prefix length is one of an address. -/
def Valid : Prop := n.prefixLen ≤ Address.width

instance : Decidable n.Valid := inferInstanceAs (Decidable (_ ≤ _))

/-! ### The block -/

def netmask : Address := .ofBits (Block.mask n.prefixLen)

/-- The lowest address of the block. -/
def networkAddr : Address := Block.networkAddr n.addr n.prefixLen

/-- The highest address of the block. -/
def broadcastAddr : Address := Block.broadcastAddr n.addr n.prefixLen

/-- The number of addresses in the block. -/
def size : UInt64 := Block.size n.prefixLen

/-- Whether an address has the network bits of `n`. -/
def contains (addr : Address) : Bool :=
  addr.bits &&& Block.mask n.prefixLen = n.addr.bits &&& Block.mask n.prefixLen

/-- The address at `index` of the block, counted from its lowest address. -/
def get? (index : UInt64) : Option Address :=
  if index ≥ n.size then none else some (.ofBits (n.networkAddr.bits + index.toUInt32))

/-! ### Usable hosts

A block of one address or of two sets none apart: each is a usable host.  Any
larger block keeps its lowest address for the network and its highest for
broadcast. -/

/-- Whether all addresses of the block are usable hosts. -/
def allUsable : Bool := n.prefixLen = 31 || n.prefixLen = 32

/-- The lowest usable host. -/
def minHost : Address :=
  if n.allUsable then n.networkAddr else .ofBits (n.networkAddr.bits + 1)

/-- The highest usable host. -/
def maxHost : Address :=
  if n.allUsable then n.broadcastAddr else .ofBits (n.broadcastAddr.bits - 1)

/-- The number of usable hosts. -/
def hostCount : UInt64 :=
  if n.allUsable then n.size else n.size - 2

/-! ### Where the own address lies -/

def isNetworkAddr : Bool := n.addr.bits = n.networkAddr.bits

def isBroadcastAddr : Bool := n.addr.bits = n.broadcastAddr.bits

def isMinHost : Bool := n.addr.bits = n.minHost.bits

def isMaxHost : Bool := n.addr.bits = n.maxHost.bits

/-! ### Text and order -/

/-- The network in CIDR notation. -/
def text : String := n.addr.text ++ "/" ++ n.prefixLen.toNat.repr

instance : ToString Network := ⟨text⟩

/-- The network with its inner structure shown. -/
def debugText : String :=
  "Network \x7b addr: " ++ n.addr.debugText ++ ", prefix: " ++ n.prefixLen.toNat.repr ++ " \x7d"

/-- Networks are ordered by address, and those of one address by prefix length. -/
instance : Ord Network :=
  ⟨fun m n => (compare m.addr n.addr).then (compare m.prefixLen n.prefixLen)⟩

/-- So they are in the partial order, part by part. -/
instance : PartialOrd Network where
  partialCompare m n :=
    partialThen (partialCompare m.addr n.addr) (partialCompare m.prefixLen n.prefixLen)

instance : LT Network := ltOfOrd

instance : LE Network := leOfOrd

instance : Min Network := minOfLe

instance : Max Network := maxOfLe

end Network

end Inet
