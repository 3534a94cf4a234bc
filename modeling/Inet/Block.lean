/-
Inet/Block.lean

The block of addresses that share their first bits.

A prefix length `p` divides the 32 bits of an address into `p` network bits and
the host bits after them.  The addresses with the network bits of `addr` form
its block: `networkAddr` is the lowest of them, with all host bits clear, and
`broadcastAddr` the highest, with all host bits set.

Nothing here asks whether `p` is at most 32.  A larger length leaves no host
bits, just as 32 does.
-/
import Inet.Address.Basic

namespace Inet.Block

/-- The number of host bits that a prefix length leaves. -/
def hostBits (prefixLen : UInt8) : UInt8 :=
  if prefixLen ≤ Address.width then Address.width - prefixLen else 0

/-- The word whose set bits are the network bits.  A shift by all 32 bits is none that a word can
take, so the empty mask stands apart. -/
def mask (prefixLen : UInt8) : UInt32 :=
  if prefixLen = 0 then 0 else 0xFFFFFFFF <<< (hostBits prefixLen).toUInt32

/-- The lowest address of the block. -/
def networkAddr (addr : Address) (prefixLen : UInt8) : Address :=
  .ofBits (addr.bits &&& mask prefixLen)

/-- The highest address of the block. -/
def broadcastAddr (addr : Address) (prefixLen : UInt8) : Address :=
  .ofBits (addr.bits ||| ~~~mask prefixLen)

/-- The number of addresses in the block, which is `2 ^ 32` for the whole address space. -/
def size (prefixLen : UInt8) : UInt64 :=
  1 <<< (hostBits prefixLen).toUInt64

end Inet.Block
