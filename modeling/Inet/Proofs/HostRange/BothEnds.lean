/-
Inet/Proofs/HostRange/BothEnds.lean

Taking hosts from both ends in any order.

A host that is taken leaves the list of the range at the end at which it is
taken (`popAt_cases`).  Over any sequence of such steps the hosts taken from
the front, the hosts that are left, and the hosts taken from the back in
reverse make up the list that the range began with:

    taken at the front  ++  left  ++  (taken at the back).reverse  =  addrs r

Nothing is lost or taken twice, whatever the order of the ends
(`popEach_partition`).  A range without hosts answers nothing and stays as it
is, at both ends and forever (`popEach_of_exhausted`).
-/
import Inet.Proofs.HostRange.View

namespace Inet.HostRange

open Address

/-- An end of a range. -/
inductive End where
  | front
  | back
  deriving Repr, DecidableEq

/-- Takes the host at an end, if there is one. -/
def popAt : End → HostRange → Option Address × HostRange
  | .front, r => r.popFirst
  | .back, r => r.popLast

/-- Takes hosts at one end after the other.  Each answer comes with its end. -/
def popEach : List End → HostRange → List (End × Option Address) × HostRange
  | [], r => ([], r)
  | e :: ends, r =>
    let (answer, r') := r.popAt e
    let (answers, r'') := popEach ends r'
    ((e, answer) :: answers, r'')

/-- The hosts that were taken at an end, in this order. -/
def takenAt (e : End) (answers : List (End × Option Address)) : List Address :=
  answers.filterMap fun (e', answer) => if e' = e then answer else none

/-- A list with one more element at an end. -/
def End.put {α : Type} : End → α → List α → List α
  | .front, x, list => x :: list
  | .back, x, list => list ++ [x]

variable {r : HostRange} {e : End} {ends : List End}

/-! ### One step -/

/-- A step takes a host off its end of the list, or finds the list empty and changes nothing. -/
theorem popAt_cases (e : End) (r : HostRange) :
    (r.addrs = [] ∧ r.popAt e = (none, r))
    ∨ ∃ addr r', r.popAt e = (some addr, r') ∧ r.addrs = e.put addr r'.addrs := by
  cases e with
  | front =>
    rcases h : r.popFirst? with - | ⟨addr, r'⟩
    · exact .inl ⟨popFirst?_eq_none_iff.1 h, by rw [popAt, popFirst, h]⟩
    · exact .inr ⟨addr, r', by rw [popAt, popFirst, h], addrs_of_popFirst? h⟩
  | back =>
    rcases h : r.popLast? with - | ⟨addr, r'⟩
    · exact .inl ⟨popLast?_eq_none_iff.1 h, by rw [popAt, popLast, h]⟩
    · exact .inr ⟨addr, r', by rw [popAt, popLast, h], addrs_of_popLast? h⟩

theorem popAt_of_exhausted (h : r.addrs = []) : r.popAt e = (none, r) := by
  rcases popAt_cases e r with ⟨-, hpop⟩ | ⟨addr, r', -, haddrs⟩
  · exact hpop
  · rw [h] at haddrs
    cases e <;> simp [End.put] at haddrs

theorem addrs_eq_nil_of_popAt (h : (r.popAt e).1 = none) : r.addrs = [] := by
  rcases popAt_cases e r with ⟨hnil, -⟩ | ⟨addr, r', hpop, -⟩
  · exact hnil
  · rw [hpop] at h
    contradiction

/-! ### Any number of steps -/

/-- What was taken from the front, what is left and what was taken from the back is what there
was. -/
theorem popEach_partition (ends : List End) (r : HostRange) :
    takenAt .front (popEach ends r).1 ++ (popEach ends r).2.addrs
        ++ (takenAt .back (popEach ends r).1).reverse
      = r.addrs := by
  -- the steps after the first start from the range that it leaves
  induction ends generalizing r with
  | nil => simp [popEach, takenAt]
  | cons e ends ih =>
    rcases popAt_cases e r with ⟨-, hpop⟩ | ⟨addr, r', hpop, haddrs⟩
    · simp only [popEach, hpop]
      simpa [takenAt] using ih r
    · simp only [popEach, hpop, haddrs, ← ih r']
      -- the new host is the first of those at its end
      cases e <;> simp [takenAt, End.put]

/-- Without hosts nothing is taken, and the range stays as it is. -/
theorem popEach_of_exhausted (h : r.addrs = []) (ends : List End) :
    (popEach ends r).2 = r ∧ ∀ answer ∈ (popEach ends r).1, answer.2 = none := by
  induction ends with
  | nil => simp [popEach]
  | cons e ends ih =>
    simp only [popEach, popAt_of_exhausted h]
    refine ⟨ih.1, ?_⟩
    intro answer hanswer
    rcases List.mem_cons.1 hanswer with rfl | hanswer
    · rfl
    · exact ih.2 answer hanswer

/-- **Taking the hosts of a network from both ends**, in any order, gives each of them once: those
from the front ascend from the lowest, those from the back descend from the highest, and the range
holds those between.  It knows their number, and once it has none it answers nothing at either end
and stays as it is. -/
theorem popEach_hosts (n : Network) (hn : n.Valid) (ends : List End) :
    let answers := (popEach ends n.hosts).1
    let rest := (popEach ends n.hosts).2
    takenAt .front answers ++ rest.toList ++ (takenAt .back answers).reverse
        = interval n.minHost n.maxHost
    ∧ rest.remaining.toNat = rest.toList.length
    ∧ rest.sizeHint.1.toNat = rest.toList.length
    ∧ rest.sizeHint.2 = some rest.sizeHint.1
    ∧ rest.toList.length + (takenAt .front answers).length + (takenAt .back answers).length
        = n.hostCount.toNat
    ∧ ∀ e, (rest.popAt e).1 = none →
        ∀ more, (popEach more rest).2 = rest
          ∧ ∀ answer ∈ (popEach more rest).1, answer.2 = none := by
  intro answers rest
  have hpartition : takenAt .front answers ++ rest.toList ++ (takenAt .back answers).reverse
      = interval n.minHost n.maxHost := by
    rw [toList_eq_addrs, ← addrs_hosts]
    exact popEach_partition ends n.hosts
  have hremaining : rest.remaining.toNat = rest.toList.length := by
    rw [toNat_remaining, toList_eq_addrs, length_addrs]
  refine ⟨hpartition, hremaining, hremaining, rfl, ?_, ?_⟩
  · have hlength := congrArg List.length hpartition
    rw [Network.interval_minHost_maxHost hn, length_consecutive] at hlength
    simp only [List.length_append, List.length_reverse] at hlength
    omega
  · intro e he more
    exact popEach_of_exhausted (addrs_eq_nil_of_popAt he) more

/-- The two hosts of the last block of all, whose range ends at `2 ^ 32`. -/
theorem popEach_hosts_lastPair :
    let n : Network := ⟨⟨255, 255, 255, 254⟩, 31⟩
    let answers := (popEach [.back, .front] n.hosts).1
    let rest := (popEach [.back, .front] n.hosts).2
    n.Valid ∧ (rest.popAt .back).1 = none
    ∧ takenAt .front answers ++ rest.toList ++ (takenAt .back answers).reverse
      = interval n.minHost n.maxHost
    ∧ (popEach [.front, .back] rest).2 = rest := by
  have hn : Network.Valid ⟨⟨255, 255, 255, 254⟩, 31⟩ := by decide
  obtain ⟨hpartition, -, -, -, -, hexhausted⟩ := popEach_hosts _ hn [.back, .front]
  refine ⟨hn, by decide, hpartition, (hexhausted .back (by decide) [.front, .back]).1⟩

end Inet.HostRange
