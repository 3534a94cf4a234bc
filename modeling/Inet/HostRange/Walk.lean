/-
Inet/HostRange/Walk.lean

Walks over the hosts of a network, step by step.

A walk holds the range of hosts that are left and a stack of ranges saved
before.  A step asks something of the range, most of them by taking hosts from
it.  Steps that are given addresses read them first; one that cannot read them
is rejected, and the walk stays as it was.
-/
import Inet.HostRange.Visit
import Inet.Log.Intake

namespace Inet

/-- The hosts that are left, and the ranges that were saved, the latest first. -/
structure Walk where
  range : HostRange
  saved : List HostRange
  deriving Repr, DecidableEq

namespace Walk

inductive Step where
  | next
  | nextBack
  | nth (n : Nat)
  | nthBack (n : Nat)
  | take (n : Nat)
  | takeBack (n : Nat)
  | sizeHint
  | len
  | count
  | last
  | minMax
  | findFree (used : List String)
  | findFreeBack (used : List String)
  | position (target : String)
  | push
  | pop
  deriving Repr, DecidableEq

inductive Answer where
  /-- The host that was found. -/
  | host (addr : Option Address)
  /-- The hosts that were taken, in this order. -/
  | hosts (addrs : List Address)
  /-- Bounds on the number of hosts that are left. -/
  | bounds (lower : UInt64) (upper : Option UInt64)
  /-- A number of hosts, or of saved ranges. -/
  | number (n : Nat)
  /-- The lowest and the highest host. -/
  | ends (min max : Option Address)
  /-- The number of hosts before the one that was looked for. -/
  | position (n : Option Nat)
  /-- Whether there was a saved range to go back to. -/
  | restored (found : Bool)
  deriving Repr, DecidableEq

/-- The walk over all hosts of a network, before its first step. -/
def start (n : Network) : Walk := ⟨n.hosts, []⟩

/-- An answer, and the walk that goes on with `found.2`. -/
def moved {α : Type} (w : Walk) (answer : α → Answer) (found : α × HostRange) : Answer × Walk :=
  (answer found.1, { w with range := found.2 })

/-- What a step answers, and the walk after it. -/
def apply (w : Walk) : Step → Attempt AddressError (Answer × Walk)
  | .next => return w.moved .host w.range.popFirst
  | .nextBack => return w.moved .host w.range.popLast
  | .nth n => return w.moved .host (w.range.popNth n)
  | .nthBack n => return w.moved .host (w.range.popNthLast n)
  | .take n => return w.moved .hosts (w.range.takeFirst n)
  | .takeBack n => return w.moved .hosts (w.range.takeLast n)
  | .sizeHint => return (.bounds w.range.sizeHint.1 w.range.sizeHint.2, w)
  | .len => return (.number w.range.remaining.toNat, w)
  | .count => return (.number w.range.count, w)
  | .last => return (.host w.range.last?, w)
  | .minMax => return (.ends w.range.min? w.range.max?, w)
  | .findFree used => do
    let used ← Address.parseAll used
    return w.moved .host (w.range.findFree used)
  | .findFreeBack used => do
    let used ← Address.parseAll used
    return w.moved .host (w.range.findFreeLast used)
  | .position target => do
    let target ← Address.parse target
    return w.moved .position (w.range.position target)
  | .push => return (.number (w.saved.length + 1), { w with saved := w.range :: w.saved })
  | .pop =>
    match w.saved with
    | [] => return (.restored false, w)
    | range :: saved => return (.restored true, ⟨range, saved⟩)

/-- What came of a step. -/
structure Outcome where
  answer : Except AddressError Answer
  /-- The walk after the step. -/
  after : Walk
  records : List Log.Record

/-- Carries out a step; a rejected one changes nothing. -/
def perform (w : Walk) (step : Step) : Outcome :=
  let attempt := w.apply step
  match attempt.result with
  | .ok (answer, after) => ⟨.ok answer, after, attempt.records⟩
  | .error error => ⟨.error error, w, attempt.records⟩

/-- Carries out steps one after the other. -/
def run (w : Walk) : List Step → List Outcome
  | [] => []
  | step :: steps =>
    let outcome := w.perform step
    outcome :: run outcome.after steps

end Walk

end Inet
