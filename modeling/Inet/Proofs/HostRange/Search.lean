/-
Inet/Proofs/HostRange/Search.lean

Searching for a host that is free.

A search takes hosts at an end up to the first that it is after, and forgets
those before it; if there is none, it leaves nothing (`findAt_cases`).  Hosts
are met in order, so what a search for a free host gives is the least or the
greatest of the free ones, whichever end it comes from
(`Proper.findFree_eq_some`, `Proper.findFreeLast_eq_some`).

Over any sequence of such searches, each with addresses in use of its own,

    found at the front  ++  left  ++  (found at the back).reverse

is a part of the list that the range began with, in its order
(`findFreeEach_sublist`).  So no host is handed out twice.
-/
import Inet.Proofs.HostRange.Jump
import Inet.Proofs.HostRange.Walk
import Mathlib.Data.List.Dedup
import Mathlib.Order.Bounds.Defs

namespace Inet.HostRange

open Address

variable {r r' : HostRange} {e : End} {addr : Address} {used before after : List Address}

/-! ### Searching at an end -/

/-- Takes hosts at an end up to the first with `p`, which is the answer. -/
def findAt : End → (Address → Bool) → HostRange → Option Address × HostRange
  | .front => findFirst
  | .back => findLast

theorem findAt_def (e : End) (p : Address → Bool) (r : HostRange) :
    r.findAt e p = match r.popAt? e with
      | some (addr, r') => if p addr then (some addr, r') else r'.findAt e p
      | none => (none, r) := by
  cases e with
  | front =>
    rw [findAt, findFirst, popAt?]
    split <;> simp only [*]
  | back =>
    rw [findAt, findLast, popAt?]
    split <;> simp only [*]

/-- All that a search can do: it stops at the first host with `p` that it meets, or meets none and
leaves nothing. -/
theorem findAt_cases (e : End) (p : Address → Bool) (r : HostRange) :
    ((∀ x ∈ r.hostsFrom e, ¬ p x) ∧ r.findAt e p = (none, r.dropAt e r.extent))
    ∨ ∃ before addr after, r.hostsFrom e = before ++ addr :: after
        ∧ (∀ x ∈ before, ¬ p x) ∧ p addr
        ∧ r.findAt e p = (some addr, r.dropAt e (before.length + 1)) := by
  induction hextent : r.extent generalizing r with
  | zero =>
    rcases popAt?_cases e r with ⟨hnil, hpop⟩ | ⟨addr, hcons, -⟩
    · refine .inl ⟨?_, ?_⟩
      · rw [hnil]
        exact List.forall_mem_nil _
      · rw [findAt_def, hpop, dropAt_zero]
    · have := extent_eq_succ hcons
      omega
  | succ n ih =>
    rcases popAt?_cases e r with ⟨hnil, -⟩ | ⟨addr, hcons, hpop⟩
    · have := extent_eq_zero hnil
      omega
    · rw [findAt_def, hpop]
      dsimp only
      by_cases hp : p addr
      · rw [if_pos hp]
        exact .inr ⟨[], addr, _, hcons, List.forall_mem_nil _, hp, rfl⟩
      · rw [if_neg hp, hcons]
        have hrest : (r.dropAt e 1).extent = n := by
          have := extent_eq_succ hcons
          omega
        rcases ih (r.dropAt e 1) hrest with
          ⟨hnone, hfind⟩ | ⟨before, found, after, hhosts, hbefore, hfound, hfind⟩
        · refine .inl ⟨List.forall_mem_cons.2 ⟨hp, hnone⟩, ?_⟩
          rw [hfind, dropAt_dropAt, Nat.add_comm]
        · have hbefore' : ∀ x ∈ addr :: before, ¬ p x :=
            List.forall_mem_cons.2 ⟨hp, hbefore⟩
          refine .inr ⟨addr :: before, found, after, ?_, hbefore', hfound, ?_⟩
          · rw [hhosts, List.cons_append]
          · rw [hfind, dropAt_dropAt, Nat.add_comm, List.length_cons]

/-! ### The order in which hosts are met -/

/-- Whether `x` is met before `y` from an end. -/
def End.Meets : End → Address → Address → Prop
  | .front, x, y => x < y
  | .back, x, y => y < x

theorem mem_of_hostsFrom (h : r.hostsFrom e = before ++ addr :: after) : addr ∈ r.addrs := by
  rw [← mem_hostsFrom (e := e), h]
  exact List.mem_append_right _ List.mem_cons_self

theorem extent_of_hostsFrom (h : r.hostsFrom e = before ++ addr :: after) :
    r.extent = before.length + 1 + after.length := by
  rw [← length_hostsFrom (e := e), h, List.length_append, List.length_cons]
  omega

namespace Proper

theorem pairwise_hostsFrom (h : r.Proper) (e : End) : (r.hostsFrom e).Pairwise e.Meets := by
  cases e with
  | front => exact h.pairwise_addrs
  | back => exact List.pairwise_reverse.2 h.pairwise_addrs

/-- A host is as many numbers from `next` as there are hosts below it. -/
theorem number_eq (h : r.Proper) (haddrs : r.addrs = before ++ addr :: after) :
    addr.number = r.next.toNat + before.length := by
  have hend := h.end_le
  have hextent : r.extent = before.length + 1 + after.length :=
    extent_of_hostsFrom (e := .front) haddrs
  have haddr := congrArg (·[before.length]?) haddrs
  simp only [addrs, getElem?_consecutive (by omega : before.length < r.extent),
    List.getElem?_append_right (Nat.le_refl _), Nat.sub_self, List.getElem?_cons_zero] at haddr
  obtain rfl := Option.some.inj haddr
  exact number_ofNumber (by omega)

/-- The front end stops just past the host that is found. -/
theorem next_of_found (h : r.Proper) (hhosts : r.hostsFrom .front = before ++ addr :: after) :
    (r.dropAt .front (before.length + 1)).next.toNat = addr.number + 1 := by
  have hextent := extent_of_hostsFrom hhosts
  rw [toNat_next_dropAt (by omega), h.number_eq hhosts, Nat.add_assoc]

/-- The back end stops at the host that is found. -/
theorem stop_of_found (h : r.Proper) (hhosts : r.hostsFrom .back = before ++ addr :: after) :
    (r.dropAt .back (before.length + 1)).stop.toNat = addr.number := by
  have hend := h.next_add_extent
  have hextent := extent_of_hostsFrom hhosts
  have haddrs : r.addrs = after.reverse ++ addr :: before.reverse := by
    rw [List.reverse_eq_iff.1 hhosts, List.reverse_append, List.reverse_cons, List.append_assoc]
    rfl
  rw [toNat_stop_dropAt, h.number_eq haddrs, List.length_reverse]
  omega

end Proper

/-! ### Free hosts -/

/-- The first host that is met from an end and is not in `used`. -/
def findFreeAt : End → List Address → HostRange → Option Address × HostRange
  | .front => findFree
  | .back => findFreeLast

theorem findFreeAt_cases (e : End) (used : List Address) (r : HostRange) :
    ((∀ x ∈ r.addrs, x ∈ used) ∧ r.findFreeAt e used = (none, r.dropAt e r.extent))
    ∨ ∃ before addr after, r.hostsFrom e = before ++ addr :: after
        ∧ (∀ x ∈ before, x ∈ used) ∧ addr ∉ used
        ∧ r.findFreeAt e used = (some addr, r.dropAt e (before.length + 1)) := by
  have hfind : r.findFreeAt e used = r.findAt e fun addr => !used.contains addr := by
    cases e <;> rfl
  have hcases := findAt_cases e (fun addr => !used.contains addr) r
  simpa [hfind, mem_hostsFrom] using hcases

/-- A search finds nothing exactly if all hosts are in use. -/
theorem findFreeAt_eq_none_iff : (r.findFreeAt e used).1 = none ↔ ∀ x ∈ r.addrs, x ∈ used := by
  rcases findFreeAt_cases e used r with ⟨hall, hfind⟩ | ⟨_, addr, _, hhosts, -, haddr, hfind⟩
  · rw [hfind]
    exact iff_of_true rfl hall
  · rw [hfind]
    refine iff_of_false (Option.some_ne_none addr) ?_
    intro hall
    exact haddr (hall addr (mem_of_hostsFrom hhosts))

theorem findFreeAt_of_none (h : (r.findFreeAt e used).1 = none) :
    r.findFreeAt e used = (none, r.dropAt e r.extent) := by
  rcases findFreeAt_cases e used r with ⟨-, hfind⟩ | ⟨_, addr, _, -, -, -, hfind⟩
  · exact hfind
  · rw [hfind] at h
    contradiction

/-- A search finds a free host, and all others are behind it. -/
theorem Proper.findFreeAt_eq_some (h : r.Proper) (hfind : r.findFreeAt e used = (some addr, r')) :
    ∃ before after, r.hostsFrom e = before ++ addr :: after ∧ addr ∉ used
      ∧ (∀ x ∈ r.addrs, x ∉ used → x = addr ∨ e.Meets addr x)
      ∧ r' = r.dropAt e (before.length + 1) := by
  rcases findFreeAt_cases e used r with
    ⟨-, hnone⟩ | ⟨before, found, after, hhosts, hbefore, hfree, hsome⟩
  · cases hfind.symm.trans hnone
  · obtain ⟨haddr, rfl⟩ := Prod.mk.inj (hfind.symm.trans hsome)
    obtain rfl := Option.some.inj haddr
    refine ⟨before, after, hhosts, hfree, ?_, rfl⟩
    intro x hx hx'
    have hsorted := h.pairwise_hostsFrom e
    rw [hhosts, List.pairwise_append, List.pairwise_cons] at hsorted
    rw [← mem_hostsFrom (e := e), hhosts, List.mem_append, List.mem_cons] at hx
    rcases hx with hx | rfl | hx
    · exact absurd (hbefore x hx) hx'
    · exact .inl rfl
    · exact .inr (hsorted.2.1.1 x hx)

theorem Proper.findFree_eq_some (h : r.Proper) (hfind : r.findFree used = (some addr, r')) :
    IsLeast {x | x ∈ r.addrs ∧ x ∉ used} addr
      ∧ r'.next.toNat = addr.number + 1 ∧ r'.stop = r.stop := by
  obtain ⟨before, after, hhosts, hfree, hfirst, rfl⟩ := h.findFreeAt_eq_some (e := .front) hfind
  refine ⟨⟨⟨mem_of_hostsFrom hhosts, hfree⟩, ?_⟩, h.next_of_found hhosts, rfl⟩
  rintro x ⟨hx, hx'⟩
  rcases hfirst x hx hx' with rfl | hlt
  · exact Std.le_refl _
  · exact Address.le_of_lt hlt

theorem Proper.findFreeLast_eq_some (h : r.Proper)
    (hfind : r.findFreeLast used = (some addr, r')) :
    IsGreatest {x | x ∈ r.addrs ∧ x ∉ used} addr
      ∧ r'.next = r.next ∧ r'.stop.toNat = addr.number := by
  obtain ⟨before, after, hhosts, hfree, hfirst, rfl⟩ := h.findFreeAt_eq_some (e := .back) hfind
  refine ⟨⟨⟨mem_of_hostsFrom hhosts, hfree⟩, ?_⟩, rfl, h.stop_of_found hhosts⟩
  rintro x ⟨hx, hx'⟩
  rcases hfirst x hx hx' with rfl | hlt
  · exact Std.le_refl _
  · exact Address.le_of_lt hlt

/-- Fewer addresses in use than there are hosts cannot be all of them. -/
theorem Proper.findFreeAt_ne_none (h : r.Proper) (hused : used.dedup.length < r.extent) (e : End) :
    (r.findFreeAt e used).1 ≠ none := by
  intro hnone
  have hsubset : r.addrs ⊆ used.dedup := fun x hx =>
    List.mem_dedup.2 (findFreeAt_eq_none_iff.1 hnone x hx)
  have hle := h.nodup_addrs.length_le_of_subset hsubset
  rw [length_addrs] at hle
  omega

/-! ### Any number of searches -/

/-- Searches for free hosts one after the other, each at an end and with addresses in use of its
own.  Each answer comes with its end. -/
def findFreeEach : List (End × List Address) → HostRange → List (End × Option Address) × HostRange
  | [], r => ([], r)
  | (e, used) :: searches, r =>
    let (answer, r') := r.findFreeAt e used
    let (answers, r'') := findFreeEach searches r'
    ((e, answer) :: answers, r'')

/-- A search takes what it finds off its end, and may take more. -/
theorem findFreeAt_sublist (e : End) (used : List Address) (r : HostRange) :
    (∃ r', r.findFreeAt e used = (none, r') ∧ r'.addrs.Sublist r.addrs)
    ∨ ∃ addr r', r.findFreeAt e used = (some addr, r')
        ∧ (e.put addr r'.addrs).Sublist r.addrs := by
  rcases findFreeAt_cases e used r with ⟨-, hfind⟩ | ⟨before, addr, after, hhosts, -, -, hfind⟩
  · refine .inl ⟨_, hfind, ?_⟩
    have hnil : (r.dropAt e r.extent).addrs = [] := by
      rw [← List.length_eq_zero_iff, length_addrs, extent_dropAt e (Nat.le_refl _), Nat.sub_self]
    rw [hnil]
    exact List.nil_sublist _
  · refine .inr ⟨addr, _, hfind, ?_⟩
    have hextent := extent_of_hostsFrom hhosts
    have hrest : (r.dropAt e (before.length + 1)).hostsFrom e = after := by
      rw [hostsFrom_dropAt e (by omega), hhosts]
      simp
    have hsublist :
        (addr :: (r.dropAt e (before.length + 1)).hostsFrom e).Sublist (r.hostsFrom e) := by
      rw [hrest, hhosts]
      exact List.sublist_append_right ..
    cases e with
    | front => exact hsublist
    | back =>
      -- what is met first from the back is the last of the list
      rw [← List.reverse_sublist, End.put, List.reverse_append]
      exact hsublist

theorem takenAt_cons_none (e e' : End) (answers : List (End × Option Address)) :
    takenAt e ((e', none) :: answers) = takenAt e answers := by
  simp [takenAt]

/-- What was found from the front, what is left and what was found from the back is a part of what
there was, in its order. -/
theorem findFreeEach_sublist (searches : List (End × List Address)) (r : HostRange) :
    (takenAt .front (findFreeEach searches r).1 ++ (findFreeEach searches r).2.addrs
        ++ (takenAt .back (findFreeEach searches r).1).reverse).Sublist r.addrs := by
  induction searches generalizing r with
  | nil => simp [findFreeEach, takenAt]
  | cons search searches ih =>
    obtain ⟨e, used⟩ := search
    rcases findFreeAt_sublist e used r with ⟨r', hfind, hrest⟩ | ⟨addr, r', hfind, hrest⟩
    · simp only [findFreeEach, hfind, takenAt_cons_none]
      exact (ih r').trans hrest
    · simp only [findFreeEach, hfind]
      refine List.Sublist.trans ?_ hrest
      cases e with
      | front => exact (ih r').cons_cons addr
      | back =>
        have happend := (ih r').append (List.Sublist.refl [addr])
        simpa [takenAt, End.put] using happend

/-- Each answer is one of those from the front or one of those from the back. -/
theorem filterMap_perm (answers : List (End × Option Address)) :
    (answers.filterMap Prod.snd).Perm (takenAt .front answers ++ takenAt .back answers) := by
  induction answers with
  | nil => exact .nil
  | cons answer answers ih =>
    obtain ⟨e, _ | addr⟩ := answer
    · rw [takenAt_cons_none, takenAt_cons_none]
      exact ih
    · cases e with
      | front => exact ih.cons addr
      | back => exact (ih.cons addr).trans List.perm_middle.symm

/-- No host is found twice, at whichever ends. -/
theorem Proper.nodup_findFreeEach (h : r.Proper) (searches : List (End × List Address)) :
    ((findFreeEach searches r).1.filterMap Prod.snd).Nodup := by
  have hnodup := (findFreeEach_sublist searches r).nodup h.nodup_addrs
  rw [List.append_assoc] at hnodup
  have hends := hnodup.sublist (List.Sublist.append_left (List.sublist_append_right _ _) _)
  refine (filterMap_perm _).nodup_iff.2 (List.Perm.nodup_iff ?_ |>.1 hends)
  exact (List.reverse_perm _).append_left _

theorem mem_addrs_of_findFreeEach {searches : List (End × List Address)}
    (haddr : addr ∈ (findFreeEach searches r).1.filterMap Prod.snd) : addr ∈ r.addrs := by
  apply (findFreeEach_sublist searches r).subset
  have hmem := (filterMap_perm _).mem_iff.1 haddr
  rw [List.mem_append] at hmem
  simp only [List.mem_append, List.mem_reverse]
  tauto

theorem Proper.pairwise_front (h : r.Proper) (searches : List (End × List Address)) :
    (takenAt .front (findFreeEach searches r).1).Pairwise (· < ·) := by
  refine h.pairwise_addrs.sublist (List.Sublist.trans ?_ (findFreeEach_sublist searches r))
  rw [List.append_assoc]
  exact List.sublist_append_left ..

theorem Proper.pairwise_back (h : r.Proper) (searches : List (End × List Address)) :
    (takenAt .back (findFreeEach searches r).1).Pairwise (· > ·) := by
  have hsublist := (List.sublist_append_right _ _).trans (findFreeEach_sublist searches r)
  exact List.pairwise_reverse.1 (h.pairwise_addrs.sublist hsublist)

/-- **Free hosts are handed out once.**  Wherever a walk over the hosts of a network has come, a
search for a free host gives the least of the free hosts that are left, and the range goes on just
past it; from the back it gives the greatest, and the range ends at it.  It finds nothing exactly if
no host is free, and then nothing is left; there is one if fewer addresses are in use than hosts are
left.  Searches may follow each other from both ends and with any addresses in use: they never give
a host twice, those from the front ascend and those from the back descend. -/
theorem findFree_hands_out_once (n : Network) (hn : n.Valid) (steps : List Walk.Step) :
    let r := (Walk.reached (Walk.start n) steps).range
    (∀ used : List Address,
      (∀ addr rest, r.findFree used = (some addr, rest) →
        IsLeast {x | x ∈ r.toList ∧ x ∉ used} addr
        ∧ rest.next.toNat = addr.number + 1 ∧ rest.stop = r.stop)
      ∧ (∀ addr rest, r.findFreeLast used = (some addr, rest) →
        IsGreatest {x | x ∈ r.toList ∧ x ∉ used} addr
        ∧ rest.next = r.next ∧ rest.stop.toNat = addr.number)
      ∧ ((r.findFree used).1 = none ↔ ∀ x ∈ r.toList, x ∈ used)
      ∧ ((r.findFreeLast used).1 = none ↔ ∀ x ∈ r.toList, x ∈ used)
      ∧ ((r.findFree used).1 = none → (r.findFree used).2 = ⟨r.stop, r.stop⟩)
      ∧ ((r.findFreeLast used).1 = none → (r.findFreeLast used).2 = ⟨r.next, r.next⟩)
      ∧ (used.dedup.length < r.remaining.toNat →
        (r.findFree used).1 ≠ none ∧ (r.findFreeLast used).1 ≠ none))
    ∧ ∀ searches : List (End × List Address),
      let answers := (findFreeEach searches r).1
      (answers.filterMap Prod.snd).Nodup
      ∧ (∀ addr ∈ answers.filterMap Prod.snd, addr ∈ r.toList ∧ addr ∈ n.hosts.toList)
      ∧ (takenAt .front answers).Pairwise (· < ·)
      ∧ (takenAt .back answers).Pairwise (· > ·) := by
  intro r
  have hwithin : r.Within n := Walk.within_reached_start hn steps
  have h : r.Proper := hwithin.proper
  simp only [toList_eq_addrs, toNat_remaining]
  refine ⟨?_, ?_⟩
  · intro used
    refine ⟨fun _ _ => h.findFree_eq_some, fun _ _ => h.findFreeLast_eq_some,
      findFreeAt_eq_none_iff (e := .front), findFreeAt_eq_none_iff (e := .back), ?_, ?_, ?_⟩
    · intro hnone
      rw [← dropAt_front_extent h.next_le_stop]
      exact congrArg Prod.snd (findFreeAt_of_none (e := .front) hnone)
    · intro hnone
      rw [← dropAt_back_extent h.next_le_stop]
      exact congrArg Prod.snd (findFreeAt_of_none (e := .back) hnone)
    · intro hused
      exact ⟨h.findFreeAt_ne_none hused .front, h.findFreeAt_ne_none hused .back⟩
  · intro searches
    refine ⟨h.nodup_findFreeEach searches, ?_, h.pairwise_front searches, h.pairwise_back searches⟩
    intro addr haddr
    have hmem := mem_addrs_of_findFreeEach haddr
    exact ⟨hmem, hwithin.mem_hosts hn hmem⟩

/-- Two of the six hosts of a block are in use, one of them named twice, and the lowest was taken
before. -/
theorem findFree_hands_out_once_oneTaken :
    let n : Network := ⟨⟨10, 0, 0, 1⟩, 29⟩
    let used : List Address := [⟨10, 0, 0, 6⟩, ⟨10, 0, 0, 2⟩, ⟨10, 0, 0, 6⟩, ⟨192, 168, 0, 1⟩]
    let r := (Walk.reached (Walk.start n) [.next]).range
    let searches := [(.back, used), (.front, used), (.front, [])]
    n.Valid ∧ used.dedup.length < r.remaining.toNat
    ∧ (r.findFree used).1 ≠ none ∧ (r.findFreeLast used).1 ≠ none
    ∧ ((findFreeEach searches r).1.filterMap Prod.snd).Nodup := by
  intro n used r searches
  have hn : n.Valid := by decide
  have hused : used.dedup.length < r.remaining.toNat := by decide
  obtain ⟨hsearch, hsearches⟩ := findFree_hands_out_once n hn [.next]
  obtain ⟨-, -, -, -, -, -, hfound⟩ := hsearch used
  exact ⟨hn, hused, (hfound hused).1, (hfound hused).2, (hsearches searches).1⟩

end Inet.HostRange
