/-
Inet/Proofs/HostRange/Queries.lean

What a range says of itself, against what its ends say.

Counting the hosts, looking for the last, the least and the greatest of them,
and looking for a given address all go through the hosts one by one.  The list
of a range ascends without a gap, so that each has a short form:

    count         =  stop - next
    min?          =  what popFirst takes
    max?,  last?  =  what popLast takes
    position x    =  x - next

Looking for an address is skipping as many hosts as its index in the list
(`positionFrom_eq`), and the index of an address that is not there is their
number.
-/
import Inet.Proofs.HostRange.Jump
import Inet.Proofs.HostRange.Members
import Inet.Proofs.HostRange.Walk
import Mathlib.Data.List.Basic

namespace Inet.HostRange

open Address

variable {r r' : HostRange} {addr : Address}

/-! ### The outermost hosts -/

theorem popFirst_eq (r : HostRange) :
    r.popFirst = (r.addrs.head?, r.dropAt .front (min 1 r.extent)) :=
  popAt_eq .front r

theorem popLast_eq (r : HostRange) :
    r.popLast = (r.addrs.getLast?, r.dropAt .back (min 1 r.extent)) := by
  rw [← List.head?_reverse]
  exact popAt_eq .back r

theorem count_eq (r : HostRange) : r.count = r.extent := by
  have hfold (hosts : List Address) (n : Nat) :
      hosts.foldl (fun n _ => n + 1) n = n + hosts.length := by
    induction hosts generalizing n with
    | nil => rfl
    | cons host hosts ih =>
      rw [List.foldl_cons, ih, List.length_cons]
      omega
  rw [count, fold_eq_foldl, hfold, Nat.zero_add, length_addrs]

theorem last?_eq (r : HostRange) : r.last? = r.addrs.getLast? := by
  rw [last?, fold_eq_foldl]
  induction r.addrs using List.reverseRecOn with
  | nil => rfl
  | append_singleton hosts host ih => rw [List.foldl_append, List.getLast?_concat]; rfl

/-- A fold that begins with nothing takes the first element as it is. -/
theorem foldl_elim {α : Type} (f : α → α → α) (x : α) (xs : List α) :
    xs.foldl (fun best y => some (best.elim y (f · y))) (some x) = some (xs.foldl f x) := by
  induction xs generalizing x with
  | nil => rfl
  | cons y ys ih => exact ih (f x y)

theorem min?_eq (r : HostRange) : r.min? = r.addrs.min? := by
  rw [min?, fold_eq_foldl]
  rcases r.addrs with - | ⟨host, hosts⟩
  · rfl
  · rw [List.min?_cons']
    exact foldl_elim min host hosts

theorem max?_eq (r : HostRange) : r.max? = r.addrs.max? := by
  rw [max?, fold_eq_foldl]
  rcases r.addrs with - | ⟨host, hosts⟩
  · rfl
  · rw [List.max?_cons']
    exact foldl_elim max host hosts

/-- The host that is visited last is the one that is taken first from the back. -/
theorem last?_eq_popLast (r : HostRange) : r.last? = r.popLast.1 := by
  rw [last?_eq, popLast_eq]

namespace Proper

theorem min?_eq_popFirst (h : r.Proper) : r.min? = r.popFirst.1 := by
  rw [min?_eq, popFirst_eq]
  apply List.min?_eq_head?
  refine h.pairwise_addrs.imp ?_
  intro x y hlt
  exact Std.LawfulOrderLeftLeaningMin.min_eq_left x y (Address.le_of_lt hlt)

theorem max?_eq_popLast (h : r.Proper) : r.max? = r.popLast.1 := by
  rw [max?_eq, popLast_eq]
  rcases hlast : r.addrs.getLast? with - | high
  · rw [List.getLast?_eq_none_iff.1 hlast, List.max?_nil]
  · obtain ⟨hosts, haddrs⟩ := List.getLast?_eq_some_iff.1 hlast
    have hsorted := h.pairwise_addrs
    rw [haddrs, List.pairwise_append] at hsorted
    rw [haddrs, List.max?_eq_some_iff]
    refine ⟨by simp, ?_⟩
    intro x hx
    rcases List.mem_append.1 hx with hx | hx
    · exact Address.le_of_lt (hsorted.2.2 x hx high List.mem_cons_self)
    · rw [List.mem_singleton.1 hx]
      exact Std.le_refl _

end Proper

/-! ### Looking for an address -/

theorem popNth_succ (h : r.popFirst? = some (addr, r')) (n : Nat) :
    r.popNth (n + 1) = r'.popNth n := by
  rw [popNth, skipFirst, h]
  rfl

/-- To look for an address is to skip as many hosts as its index. -/
theorem positionFrom_eq (target : Address) (seen : Nat) (r : HostRange) :
    r.positionFrom target seen
      = ((r.popNth (r.addrs.idxOf target)).1.map fun _ => seen + r.addrs.idxOf target,
        (r.popNth (r.addrs.idxOf target)).2) := by
  fun_induction positionFrom target seen r with
  | case1 seen r r' hpop =>
    rw [addrs_of_popFirst? hpop, List.idxOf_cons_self, popNth, skipFirst, popFirst, hpop]
    rfl
  | case2 seen r addr r' hpop hne ih =>
    rw [addrs_of_popFirst? hpop, List.idxOf_cons_ne _ hne, popNth_succ hpop, ih, Nat.add_assoc,
      Nat.add_comm 1]
  | case3 seen r hpop =>
    rw [popFirst?_eq_none_iff.1 hpop, List.idxOf_nil, popNth, skipFirst, popFirst, hpop]
    rfl

namespace Proper

/-- In a range the index of an address is its distance from the first. -/
theorem idxOf_addrs (h : r.Proper) (hle : r.next.toNat ≤ addr.number)
    (hlt : addr.number < r.stop.toNat) : r.addrs.idxOf addr = addr.number - r.next.toNat := by
  have hextent := h.next_add_extent
  have hget : r.addrs[addr.number - r.next.toNat]? = some addr := by
    rw [addrs, getElem?_consecutive (by omega), Nat.add_sub_cancel' hle, ofNumber_number]
  obtain ⟨hindex, heq⟩ := List.getElem?_eq_some_iff.1 hget
  calc r.addrs.idxOf addr
      = r.addrs.idxOf r.addrs[addr.number - r.next.toNat] := by rw [heq]
    _ = addr.number - r.next.toNat := h.nodup_addrs.idxOf_getElem _ hindex

theorem position_of_mem (h : r.Proper) (hle : r.next.toNat ≤ addr.number)
    (hlt : addr.number < r.stop.toNat) :
    ∃ rest, r.position addr = (some (addr.number - r.next.toNat), rest)
      ∧ rest.next.toNat = addr.number + 1 ∧ rest.stop = r.stop := by
  have hextent := h.next_add_extent
  obtain ⟨found, rest, hpop, -, hnext, hstop⟩ :=
    h.popNth_of_lt (by omega : addr.number - r.next.toNat < r.extent)
  refine ⟨rest, ?_, by omega, hstop⟩
  rw [position, positionFrom_eq, h.idxOf_addrs hle hlt, hpop, Nat.zero_add]
  rfl

theorem position_of_not_mem (h : r.Proper)
    (hmem : ¬ (r.next.toNat ≤ addr.number ∧ addr.number < r.stop.toNat)) :
    r.position addr = (none, ⟨r.stop, r.stop⟩) := by
  rw [← h.mem_addrs_iff] at hmem
  rw [position, positionFrom_eq, List.idxOf_eq_length_iff.2 hmem, length_addrs,
    h.popNth_of_le (Nat.le_refl _)]
  rfl

theorem position_ne_none_iff (h : r.Proper) : (r.position addr).1 ≠ none ↔ addr ∈ r.addrs := by
  rw [h.mem_addrs_iff]
  by_cases hmem : r.next.toNat ≤ addr.number ∧ addr.number < r.stop.toNat
  · obtain ⟨rest, hposition, -⟩ := h.position_of_mem hmem.1 hmem.2
    rw [hposition]
    exact iff_of_true (Option.some_ne_none _) hmem
  · rw [h.position_of_not_mem hmem]
    exact iff_of_false (fun hne => hne rfl) hmem

end Proper

/-! ### Ranges of a walk -/

/-- **A range answers by its ends.**  Wherever a walk over the hosts of a network has come, counting
gives the number that the range states; the least and the greatest host, and the one visited last,
are those that would be taken at the ends, and there are none exactly if no hosts are left.  Looking
for an address that is left gives its distance from the lowest host, and the range goes on just past
it; looking for any other leaves nothing.  Of all hosts of the network, those are found that are
usable. -/
theorem queries_agree (n : Network) (hn : n.Valid) (steps : List Walk.Step) :
    let r := (Walk.reached (Walk.start n) steps).range
    (r.count = r.remaining.toNat ∧ r.sizeHint.1.toNat = r.count
      ∧ r.sizeHint.2 = some r.sizeHint.1)
    ∧ (r.min? = r.popFirst.1 ∧ r.max? = r.popLast.1 ∧ r.last? = r.popLast.1)
    ∧ (0 < r.remaining.toNat → ∃ low high, r.min? = some low ∧ low.number = r.next.toNat
      ∧ r.max? = some high ∧ r.last? = some high ∧ high.number = r.stop.toNat - 1)
    ∧ ((r.min? = none ↔ r.remaining = 0) ∧ (r.max? = none ↔ r.remaining = 0)
      ∧ (r.last? = none ↔ r.remaining = 0))
    ∧ (∀ addr, r.next.toNat ≤ addr.number ∧ addr.number < r.stop.toNat →
      ∃ rest, r.position addr = (some (addr.number - r.next.toNat), rest)
        ∧ rest.next.toNat = addr.number + 1 ∧ rest.stop = r.stop)
    ∧ (∀ addr, ¬ (r.next.toNat ≤ addr.number ∧ addr.number < r.stop.toNat) →
      r.position addr = (none, ⟨r.stop, r.stop⟩))
    ∧ ∀ addr,
      ((n.hosts.position addr).1 ≠ none ↔ n.minHost ≤ addr ∧ addr ≤ n.maxHost)
      ∧ ((n.hosts.position addr).1 ≠ none
        ↔ n.contains addr
          ∧ ((n.prefixLen = 31 ∨ n.prefixLen = 32)
            ∨ addr ≠ n.networkAddr ∧ addr ≠ n.broadcastAddr)) := by
  intro r
  have h : r.Proper := (Walk.within_reached_start hn steps).proper
  have hmin := h.min?_eq_popFirst
  have hmax := h.max?_eq_popLast
  have hlast := r.last?_eq_popLast
  have hcount : r.count = r.remaining.toNat := by rw [count_eq, toNat_remaining]
  refine ⟨⟨hcount, hcount.symm, rfl⟩, ⟨hmin, hmax, hlast⟩, ?_, ?_, ?_, ?_, ?_⟩
  · intro hpos
    rw [toNat_remaining] at hpos
    obtain ⟨low, _, hlow, hnext, -⟩ := h.popNth_of_lt hpos
    obtain ⟨high, _, hhigh, hstop, -⟩ := h.popNthLast_of_lt hpos
    -- to skip no host and take one is to take one
    have hlow : r.popFirst.1 = some low := congrArg Prod.fst hlow
    have hhigh : r.popLast.1 = some high := congrArg Prod.fst hhigh
    exact ⟨low, high, hmin.trans hlow, hnext, hmax.trans hhigh, hlast.trans hhigh, hstop⟩
  · have hnil : r.remaining = 0 ↔ r.addrs = [] := by
      rw [← UInt64.toNat_inj, toNat_remaining, ← length_addrs, List.length_eq_zero_iff.symm]
      rfl
    rw [min?_eq, max?_eq, last?_eq, List.min?_eq_none_iff, List.max?_eq_none_iff,
      List.getLast?_eq_none_iff, hnil]
    exact ⟨.rfl, .rfl, .rfl⟩
  · rintro addr ⟨hle, hlt⟩
    exact h.position_of_mem hle hlt
  · intro addr
    exact h.position_of_not_mem
  · intro addr
    rw [(within_hosts hn).proper.position_ne_none_iff, ← Network.allUsable_iff]
    constructor
    · rw [addrs_hosts, mem_interval]
    · rw [← toList_eq_addrs]
      exact mem_toList_hosts hn

/-- The last address of all, which is the one host left of two. -/
theorem queries_agree_lastOfAll :
    let n : Network := ⟨⟨255, 255, 255, 254⟩, 31⟩
    let r := (Walk.reached (Walk.start n) [.next]).range
    n.Valid ∧ 0 < r.remaining.toNat ∧ r.min? = r.popFirst.1 ∧ r.max? = r.popLast.1
    ∧ (r.next.toNat ≤ broadcast.number ∧ broadcast.number < r.stop.toNat)
    ∧ (∃ rest, r.position broadcast = (some (broadcast.number - r.next.toNat), rest)
      ∧ rest.next.toNat = broadcast.number + 1 ∧ rest.stop = r.stop)
    ∧ r.position ⟨255, 255, 255, 254⟩ = (none, ⟨r.stop, r.stop⟩) := by
  intro n r
  have hn : n.Valid := by decide
  have hmem : r.next.toNat ≤ broadcast.number ∧ broadcast.number < r.stop.toNat := by decide
  obtain ⟨-, ⟨hmin, hmax, -⟩, -, -, hfound, hmissing, -⟩ := queries_agree n hn [.next]
  exact ⟨hn, by decide, hmin, hmax, hmem, hfound _ hmem, hmissing _ (by decide)⟩

end Inet.HostRange
