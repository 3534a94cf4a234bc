/-
Inet/HostRange/Visit.lean

Visits of several hosts, each put together from `popFirst?` or `popLast?`.

A visit answers with what it found and the range that is left.  One that runs
out of hosts leaves an empty range, whose ends have met on the far side.

  * `popFirst`, `popNth`, `takeFirst`, `findFirst` and `position` come from the
    front, `popLast`, `popNthLast`, `takeLast` and `findLast` from the back;
  * `fold` and what is computed with it (`toList`, `count`, `last?`, `min?`,
    `max?`) visits all hosts from the front, and leaves nothing.
-/
import Inet.HostRange.Basic

namespace Inet.HostRange

/-! ### One host -/

/-- Takes the lowest host, if there is one. -/
def popFirst (r : HostRange) : Option Address × HostRange :=
  match r.popFirst? with
  | some (addr, r') => (some addr, r')
  | none => (none, r)

/-- Takes the highest host, if there is one. -/
def popLast (r : HostRange) : Option Address × HostRange :=
  match r.popLast? with
  | some (addr, r') => (some addr, r')
  | none => (none, r)

/-! ### Skipping and taking -/

/-- Takes up to `n` hosts from the front and forgets them. -/
def skipFirst : Nat → HostRange → HostRange
  | 0, r => r
  | n + 1, r =>
    match r.popFirst? with
    | some (_, r') => skipFirst n r'
    | none => r

/-- Takes up to `n` hosts from the back and forgets them. -/
def skipLast : Nat → HostRange → HostRange
  | 0, r => r
  | n + 1, r =>
    match r.popLast? with
    | some (_, r') => skipLast n r'
    | none => r

/-- Skips `n` hosts from the front and takes the next one. -/
def popNth (n : Nat) (r : HostRange) : Option Address × HostRange :=
  (r.skipFirst n).popFirst

/-- Skips `n` hosts from the back and takes the next one. -/
def popNthLast (n : Nat) (r : HostRange) : Option Address × HostRange :=
  (r.skipLast n).popLast

/-- Takes up to `n` hosts from the front, lowest first. -/
def takeFirst : Nat → HostRange → List Address × HostRange
  | 0, r => ([], r)
  | n + 1, r =>
    match r.popFirst? with
    | some (addr, r') =>
      let (addrs, r'') := takeFirst n r'
      (addr :: addrs, r'')
    | none => ([], r)

/-- Takes up to `n` hosts from the back, highest first. -/
def takeLast : Nat → HostRange → List Address × HostRange
  | 0, r => ([], r)
  | n + 1, r =>
    match r.popLast? with
    | some (addr, r') =>
      let (addrs, r'') := takeLast n r'
      (addr :: addrs, r'')
    | none => ([], r)

/-! ### Searching -/

/-- Takes hosts from the front up to the first with `p`, which is the answer. -/
@[specialize]
def findFirst (p : Address → Bool) (r : HostRange) : Option Address × HostRange :=
  match _h : r.popFirst? with
  | some (addr, r') => if p addr then (some addr, r') else findFirst p r'
  | none => (none, r)
termination_by r.extent
decreasing_by exact extent_of_popFirst? _h

/-- Takes hosts from the back up to the first with `p`, which is the answer. -/
@[specialize]
def findLast (p : Address → Bool) (r : HostRange) : Option Address × HostRange :=
  match _h : r.popLast? with
  | some (addr, r') => if p addr then (some addr, r') else findLast p r'
  | none => (none, r)
termination_by r.extent
decreasing_by exact extent_of_popLast? _h

/-- The lowest host that is not in `used`. -/
def findFree (used : List Address) (r : HostRange) : Option Address × HostRange :=
  r.findFirst fun addr => !used.contains addr

/-- The highest host that is not in `used`. -/
def findFreeLast (used : List Address) (r : HostRange) : Option Address × HostRange :=
  r.findLast fun addr => !used.contains addr

/-- Takes hosts from the front up to `target`.  The answer is the number of hosts before it,
counted from `seen`. -/
def positionFrom (target : Address) (seen : Nat) (r : HostRange) : Option Nat × HostRange :=
  match _h : r.popFirst? with
  | some (addr, r') =>
    if addr = target then (some seen, r') else positionFrom target (seen + 1) r'
  | none => (none, r)
termination_by r.extent
decreasing_by exact extent_of_popFirst? _h

/-- Takes hosts from the front up to `target`.  The answer is the number of hosts before it. -/
def position (target : Address) (r : HostRange) : Option Nat × HostRange :=
  r.positionFrom target 0

/-! ### Visiting all hosts -/

/-- Goes through all hosts, lowest first. -/
@[specialize]
def fold {α : Type} (f : α → Address → α) (acc : α) (r : HostRange) : α :=
  match _h : r.popFirst? with
  | some (addr, r') => fold f (f acc addr) r'
  | none => acc
termination_by r.extent
decreasing_by exact extent_of_popFirst? _h

/-- The hosts, lowest first. -/
def toList (r : HostRange) : List Address :=
  (r.fold (fun addrs addr => addr :: addrs) []).reverse

/-- The number of hosts. -/
def count (r : HostRange) : Nat :=
  r.fold (fun n _ => n + 1) 0

/-- The host that is visited last. -/
def last? (r : HostRange) : Option Address :=
  r.fold (fun _ addr => some addr) none

/-- The least host in the order of addresses. -/
def min? (r : HostRange) : Option Address :=
  r.fold (fun least addr => some (least.elim addr (min · addr))) none

/-- The greatest host in the order of addresses. -/
def max? (r : HostRange) : Option Address :=
  r.fold (fun greatest addr => some (greatest.elim addr (max · addr))) none

end Inet.HostRange
