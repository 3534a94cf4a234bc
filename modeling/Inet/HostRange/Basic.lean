/-
Inet/HostRange/Basic.lean

The usable hosts of a network that are still to be visited.

The hosts of a network follow each other without a gap, so what is left of
them is a half-open range of words, from `next` up to `stop`.  Hosts are taken
from both ends.  The words have 64 bits, since the end of a range that reaches
`255.255.255.255` is `2 ^ 32`.

`popFirst?` and `popLast?` take one host; they are `none` when the ends have
met.  Whatever else visits hosts is put together from these two.
-/
import Inet.Network.Basic

namespace Inet

/-- The addresses from `next` up to `stop`, which is not included. -/
structure HostRange where
  next : UInt64
  stop : UInt64
  deriving Repr, DecidableEq, Inhabited

/-- All usable hosts of a network. -/
def Network.hosts (n : Network) : HostRange :=
  ⟨n.minHost.bits.toUInt64, n.maxHost.bits.toUInt64 + 1⟩

namespace HostRange

/-- How many hosts are left. -/
def remaining (r : HostRange) : UInt64 :=
  if r.next ≤ r.stop then r.stop - r.next else 0

/-- Bounds on the number of hosts left: they are exact. -/
def sizeHint (r : HostRange) : UInt64 × Option UInt64 :=
  (r.remaining, some r.remaining)

/-- Takes the lowest host. -/
@[inline]
def popFirst? (r : HostRange) : Option (Address × HostRange) :=
  if r.next < r.stop then
    some (.ofBits r.next.toUInt32, { r with next := r.next + 1 })
  else none

/-- Takes the highest host. -/
@[inline]
def popLast? (r : HostRange) : Option (Address × HostRange) :=
  if r.next < r.stop then
    some (.ofBits (r.stop - 1).toUInt32, { r with stop := r.stop - 1 })
  else none

/-- The range with its inner structure shown. -/
def debugText (r : HostRange) : String :=
  "Hosts \x7b next: " ++ r.next.toNat.repr ++ ", end: " ++ r.stop.toNat.repr ++ " \x7d"

/-! ### Progress

Below another word a word has a successor, and above another word it has a predecessor, so that
neither end of a range runs over. -/

theorem toNat_add_one_of_lt {i j : UInt64} (h : i < j) : (i + 1).toNat = i.toNat + 1 := by
  have hj := j.toNat_lt
  rw [UInt64.lt_iff_toNat_lt] at h
  rw [UInt64.toNat_add]
  show (i.toNat + 1) % 2 ^ 64 = i.toNat + 1
  omega

theorem toNat_sub_one_of_lt {i j : UInt64} (h : i < j) : (j - 1).toNat = j.toNat - 1 := by
  have hle : (1 : UInt64) ≤ j := by
    rw [UInt64.lt_iff_toNat_lt] at h
    rw [UInt64.le_iff_toNat_le]
    show 1 ≤ j.toNat
    omega
  rw [UInt64.toNat_sub_of_le _ _ hle]
  rfl

/-- The number of hosts left, which every visit lowers. -/
def extent (r : HostRange) : Nat := r.stop.toNat - r.next.toNat

theorem extent_of_popFirst? {r r' : HostRange} {addr : Address}
    (h : r.popFirst? = some (addr, r')) : r'.extent < r.extent := by
  unfold popFirst? at h
  split at h
  · obtain ⟨-, rfl⟩ := Prod.mk.inj (Option.some.inj h)
    have hlt : r.next.toNat < r.stop.toNat := UInt64.lt_iff_toNat_lt.1 ‹_›
    simp only [extent, toNat_add_one_of_lt ‹r.next < r.stop›]
    omega
  · contradiction

theorem extent_of_popLast? {r r' : HostRange} {addr : Address}
    (h : r.popLast? = some (addr, r')) : r'.extent < r.extent := by
  unfold popLast? at h
  split at h
  · obtain ⟨-, rfl⟩ := Prod.mk.inj (Option.some.inj h)
    have hlt : r.next.toNat < r.stop.toNat := UInt64.lt_iff_toNat_lt.1 ‹_›
    simp only [extent, toNat_sub_one_of_lt ‹r.next < r.stop›]
    omega
  · contradiction

end HostRange

end Inet
