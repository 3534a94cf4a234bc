/-
Inet/Proofs/HostRange/Jump.lean

Skipping and taking hosts in one jump.

Hosts are skipped and taken one after the other, but all that comes of it is
that one end moves.  `dropAt e k r` is `r` with its end `e` moved inwards by
`k`, and `hostsFrom e r` are the hosts in the order in which they are met
there.  With `len` for the number of hosts, at either end and for every `n`,

    skipAt e n r    =  dropAt e (min n len) r
    takeAt e n r    =  ((hostsFrom e r).take n, dropAt e (min n len) r)
    popNthAt e n r  =  ((hostsFrom e r)[n]?, dropAt e (min (n + 1) len) r)

So a visit that finds hosts enough moves the end by as many as it takes, and
any other makes the ends meet (`visits_jump`).  No sum in this is one of words.
-/
import Inet.Proofs.HostRange.Part

namespace Inet.HostRange

open Address

variable {r r' : HostRange} {e : End} {n k : Nat}

/-! ### Moving an end -/

/-- The range whose end `e` has moved inwards by `k`. -/
def dropAt : End → Nat → HostRange → HostRange
  | .front, k, r => { r with next := .ofNat (r.next.toNat + k) }
  | .back, k, r => { r with stop := .ofNat (r.stop.toNat - k) }

/-- The hosts in the order in which they are met from an end. -/
def hostsFrom : End → HostRange → List Address
  | .front, r => r.addrs
  | .back, r => r.addrs.reverse

theorem eq_of_toNat (hnext : r.next.toNat = r'.next.toNat) (hstop : r.stop.toNat = r'.stop.toNat) :
    r = r' := by
  obtain ⟨next, stop⟩ := r
  obtain ⟨next', stop'⟩ := r'
  obtain rfl : next = next' := UInt64.toNat_inj.1 hnext
  obtain rfl : stop = stop' := UInt64.toNat_inj.1 hstop
  rfl

@[simp]
theorem length_hostsFrom : (r.hostsFrom e).length = r.extent := by
  cases e <;> simp [hostsFrom]

theorem mem_hostsFrom {addr : Address} : addr ∈ r.hostsFrom e ↔ addr ∈ r.addrs := by
  cases e <;> simp [hostsFrom]

theorem toNat_next_dropAt (h : k ≤ r.extent) :
    (r.dropAt .front k).next.toNat = r.next.toNat + k := by
  have hnext := r.next.toNat_lt
  have hstop := r.stop.toNat_lt
  rw [extent] at h
  rw [dropAt, UInt64.toNat_ofNat']
  omega

theorem toNat_stop_dropAt (k : Nat) (r : HostRange) :
    (r.dropAt .back k).stop.toNat = r.stop.toNat - k := by
  have hstop := r.stop.toNat_lt
  rw [dropAt, UInt64.toNat_ofNat']
  omega

theorem dropAt_zero (e : End) (r : HostRange) : r.dropAt e 0 = r := by
  cases e <;> simp [dropAt]

theorem dropAt_dropAt (e : End) (j k : Nat) (r : HostRange) :
    (r.dropAt e j).dropAt e k = r.dropAt e (j + k) := by
  cases e with
  | front =>
    apply eq_of_toNat
    · simp only [dropAt, UInt64.toNat_ofNat']
      omega
    · rfl
  | back =>
    apply eq_of_toNat
    · rfl
    · simp only [toNat_stop_dropAt, Nat.sub_sub]

theorem extent_dropAt (e : End) (h : k ≤ r.extent) : (r.dropAt e k).extent = r.extent - k := by
  cases e with
  | front =>
    rw [extent, toNat_next_dropAt h, extent]
    exact Nat.sub_add_eq ..
  | back =>
    rw [extent, toNat_stop_dropAt, extent]
    exact Nat.sub_right_comm ..

/-- The hosts that an end passes over are the first ones to be met there. -/
theorem hostsFrom_dropAt (e : End) (h : k ≤ r.extent) :
    (r.dropAt e k).hostsFrom e = (r.hostsFrom e).drop k := by
  cases e with
  | front =>
    rw [hostsFrom, hostsFrom, addrs, addrs, extent_dropAt _ h, toNat_next_dropAt h,
      drop_consecutive]
  | back =>
    rw [hostsFrom, hostsFrom, List.drop_reverse, length_addrs, addrs, addrs, extent_dropAt _ h,
      take_consecutive (Nat.sub_le ..)]
    rfl

/-- Moved past all hosts, the front end meets the other. -/
theorem dropAt_front_extent (h : r.next ≤ r.stop) :
    r.dropAt .front r.extent = ⟨r.stop, r.stop⟩ := by
  rw [UInt64.le_iff_toNat_le] at h
  apply eq_of_toNat
  · rw [toNat_next_dropAt (Nat.le_refl _), extent]
    exact Nat.add_sub_cancel' h
  · rfl

theorem dropAt_back_extent (h : r.next ≤ r.stop) : r.dropAt .back r.extent = ⟨r.next, r.next⟩ := by
  rw [UInt64.le_iff_toNat_le] at h
  apply eq_of_toNat
  · rfl
  · rw [toNat_stop_dropAt, extent]
    exact Nat.sub_sub_self h

/-! ### One host -/

/-- Takes the host at an end. -/
def popAt? : End → HostRange → Option (Address × HostRange)
  | .front => popFirst?
  | .back => popLast?

theorem eq_dropAt_of_popFirst? {addr : Address} (h : r.popFirst? = some (addr, r')) :
    r' = r.dropAt .front 1 := by
  obtain ⟨hlt, -, hnext, hstop⟩ := popFirst?_eq_some h
  apply eq_of_toNat
  · rw [hnext, toNat_next_dropAt (extent_pos_iff.2 hlt)]
  · rw [hstop]
    rfl

theorem eq_dropAt_of_popLast? {addr : Address} (h : r.popLast? = some (addr, r')) :
    r' = r.dropAt .back 1 := by
  obtain ⟨-, -, hnext, hstop⟩ := popLast?_eq_some h
  apply eq_of_toNat
  · rw [hnext]
    rfl
  · rw [toNat_stop_dropAt, ← hstop, Nat.add_sub_cancel]

/-- An end moves past the host that is taken there, if there is one. -/
theorem popAt?_cases (e : End) (r : HostRange) :
    (r.hostsFrom e = [] ∧ r.popAt? e = none)
    ∨ ∃ addr, r.hostsFrom e = addr :: (r.dropAt e 1).hostsFrom e
        ∧ r.popAt? e = some (addr, r.dropAt e 1) := by
  cases e with
  | front =>
    rcases hpop : r.popFirst? with - | ⟨addr, r'⟩
    · exact .inl ⟨popFirst?_eq_none_iff.1 hpop, hpop⟩
    · obtain rfl := eq_dropAt_of_popFirst? hpop
      exact .inr ⟨addr, addrs_of_popFirst? hpop, hpop⟩
  | back =>
    rcases hpop : r.popLast? with - | ⟨addr, r'⟩
    · exact .inl ⟨List.reverse_eq_nil_iff.2 (popLast?_eq_none_iff.1 hpop), hpop⟩
    · obtain rfl := eq_dropAt_of_popLast? hpop
      refine .inr ⟨addr, ?_, hpop⟩
      rw [hostsFrom, addrs_of_popLast? hpop, List.reverse_concat]
      rfl

theorem extent_eq_zero (h : r.hostsFrom e = []) : r.extent = 0 := by
  rw [← length_hostsFrom (e := e), h, List.length_nil]

theorem extent_eq_succ {addr : Address} (h : r.hostsFrom e = addr :: (r.dropAt e 1).hostsFrom e) :
    r.extent = (r.dropAt e 1).extent + 1 := by
  rw [← length_hostsFrom (e := e), h, List.length_cons, length_hostsFrom]

theorem popAt_def (e : End) (r : HostRange) :
    r.popAt e = match r.popAt? e with
      | some (addr, r') => (some addr, r')
      | none => (none, r) := by
  cases e <;> rfl

theorem popAt_eq (e : End) (r : HostRange) :
    r.popAt e = ((r.hostsFrom e).head?, r.dropAt e (min 1 r.extent)) := by
  rcases popAt?_cases e r with ⟨hnil, hpop⟩ | ⟨addr, hcons, hpop⟩
  · rw [popAt_def, hpop, hnil, extent_eq_zero hnil, Nat.min_zero, dropAt_zero, List.head?_nil]
  · rw [popAt_def, hpop, hcons, extent_eq_succ hcons, Nat.min_eq_left (Nat.le_add_left ..),
      List.head?_cons]

/-! ### Skipping -/

/-- Takes up to `n` hosts at an end and forgets them. -/
def skipAt : End → Nat → HostRange → HostRange
  | .front => skipFirst
  | .back => skipLast

theorem skipAt_zero (e : End) (r : HostRange) : r.skipAt e 0 = r := by
  cases e <;> rfl

theorem skipAt_succ (e : End) (n : Nat) (r : HostRange) :
    r.skipAt e (n + 1) = match r.popAt? e with
      | some (_, r') => r'.skipAt e n
      | none => r := by
  cases e <;> rfl

/-- Skipping is one jump, which ends at the other end if there are too few hosts. -/
theorem skipAt_eq (e : End) (n : Nat) (r : HostRange) :
    r.skipAt e n = r.dropAt e (min n r.extent) := by
  induction n generalizing r with
  | zero => rw [skipAt_zero, Nat.zero_min, dropAt_zero]
  | succ n ih =>
    rcases popAt?_cases e r with ⟨hnil, hpop⟩ | ⟨addr, hcons, hpop⟩
    · rw [skipAt_succ, hpop, extent_eq_zero hnil, Nat.min_zero, dropAt_zero]
    · rw [skipAt_succ, hpop, extent_eq_succ hcons, Nat.add_min_add_right, Nat.add_comm,
        ← dropAt_dropAt]
      exact ih _

/-- Skips `n` hosts at an end and takes the next one. -/
def popNthAt : End → Nat → HostRange → Option Address × HostRange
  | .front => popNth
  | .back => popNthLast

theorem popNthAt_def (e : End) (n : Nat) (r : HostRange) :
    r.popNthAt e n = (r.skipAt e n).popAt e := by
  cases e <;> rfl

theorem popNthAt_eq (e : End) (n : Nat) (r : HostRange) :
    r.popNthAt e n = ((r.hostsFrom e)[n]?, r.dropAt e (min (n + 1) r.extent)) := by
  have hmin : min n r.extent ≤ r.extent := Nat.min_le_right ..
  have hend : min n r.extent + min 1 (r.extent - min n r.extent) = min (n + 1) r.extent := by omega
  rw [popNthAt_def, skipAt_eq, popAt_eq, dropAt_dropAt, extent_dropAt e hmin, hend,
    hostsFrom_dropAt e hmin, List.head?_drop]
  congr 1
  by_cases h : n < r.extent
  · rw [Nat.min_eq_left (Nat.le_of_lt h)]
  · -- there is no host to take, whichever the index past the last
    rw [List.getElem?_eq_none, List.getElem?_eq_none] <;> rw [length_hostsFrom] <;> omega

/-! ### Taking -/

/-- Takes up to `n` hosts at an end. -/
def takeAt : End → Nat → HostRange → List Address × HostRange
  | .front => takeFirst
  | .back => takeLast

theorem takeAt_zero (e : End) (r : HostRange) : r.takeAt e 0 = ([], r) := by
  cases e <;> rfl

theorem takeAt_succ (e : End) (n : Nat) (r : HostRange) :
    r.takeAt e (n + 1) = match r.popAt? e with
      | some (addr, r') => (addr :: (r'.takeAt e n).1, (r'.takeAt e n).2)
      | none => ([], r) := by
  cases e <;> rfl

theorem takeAt_eq (e : End) (n : Nat) (r : HostRange) :
    r.takeAt e n = ((r.hostsFrom e).take n, r.dropAt e (min n r.extent)) := by
  induction n generalizing r with
  | zero => rw [takeAt_zero, List.take_zero, Nat.zero_min, dropAt_zero]
  | succ n ih =>
    rcases popAt?_cases e r with ⟨hnil, hpop⟩ | ⟨addr, hcons, hpop⟩
    · rw [takeAt_succ, hpop, hnil, extent_eq_zero hnil, Nat.min_zero, dropAt_zero, List.take_nil]
    · rw [takeAt_succ, hpop, hcons, extent_eq_succ hcons, List.take_succ_cons,
        Nat.add_min_add_right, Nat.add_comm _ 1, ← dropAt_dropAt]
      simp only [ih]

/-- Taking twice is taking once as many. -/
theorem takeAt_add (e : End) (m n : Nat) (r : HostRange) :
    r.takeAt e (m + n)
      = ((r.takeAt e m).1 ++ ((r.takeAt e m).2.takeAt e n).1, ((r.takeAt e m).2.takeAt e n).2) := by
  have hmin : min m r.extent ≤ r.extent := Nat.min_le_right ..
  have hdrop : (r.hostsFrom e).drop (min m r.extent) = (r.hostsFrom e).drop m := by
    rw [List.drop_eq_drop_iff, length_hostsFrom, Nat.min_assoc, Nat.min_self]
  have hend : min m r.extent + min n (r.extent - min m r.extent) = min (m + n) r.extent := by omega
  simp only [takeAt_eq]
  rw [hostsFrom_dropAt e hmin, hdrop, ← List.take_add, extent_dropAt e hmin, dropAt_dropAt, hend]

theorem rest_takeFirst (n : Nat) (r : HostRange) :
    (r.takeFirst n).2 = r.dropAt .front (min n r.extent) :=
  congrArg Prod.snd (takeAt_eq .front n r)

theorem rest_takeLast (n : Nat) (r : HostRange) :
    (r.takeLast n).2 = r.dropAt .back (min n r.extent) :=
  congrArg Prod.snd (takeAt_eq .back n r)

/-! ### Ranges of addresses -/

namespace Proper

theorem popNth_of_lt (h : r.Proper) (hn : n < r.extent) :
    ∃ addr rest, r.popNth n = (some addr, rest) ∧ addr.number = r.next.toNat + n
      ∧ rest.next.toNat = r.next.toNat + n + 1 ∧ rest.stop = r.stop := by
  have hend := h.end_le
  have hpop := popNthAt_eq .front n r
  rw [hostsFrom, addrs, getElem?_consecutive hn, Nat.min_eq_left hn] at hpop
  exact ⟨_, _, hpop, number_ofNumber (by omega), toNat_next_dropAt hn, rfl⟩

theorem popNth_of_le (h : r.Proper) (hn : r.extent ≤ n) :
    r.popNth n = (none, ⟨r.stop, r.stop⟩) := by
  have hpop := popNthAt_eq .front n r
  rwa [List.getElem?_eq_none (by rwa [length_hostsFrom]), Nat.min_eq_right (Nat.le_succ_of_le hn),
    dropAt_front_extent h.next_le_stop] at hpop

theorem popNthLast_of_lt (h : r.Proper) (hn : n < r.extent) :
    ∃ addr rest, r.popNthLast n = (some addr, rest) ∧ addr.number = r.stop.toNat - 1 - n
      ∧ rest.next = r.next ∧ rest.stop.toNat = r.stop.toNat - 1 - n := by
  have hend := h.next_add_extent
  have hstop := h.stop_le
  have hpop := popNthAt_eq .back n r
  rw [hostsFrom, List.getElem?_reverse (by rwa [length_addrs]), length_addrs, addrs,
    getElem?_consecutive (by omega), Nat.min_eq_left hn] at hpop
  refine ⟨_, _, hpop, ?_, rfl, ?_⟩
  · rw [number_ofNumber (by omega)]
    omega
  · rw [toNat_stop_dropAt]
    omega

theorem popNthLast_of_le (h : r.Proper) (hn : r.extent ≤ n) :
    r.popNthLast n = (none, ⟨r.next, r.next⟩) := by
  have hpop := popNthAt_eq .back n r
  rwa [List.getElem?_eq_none (by rwa [length_hostsFrom]), Nat.min_eq_right (Nat.le_succ_of_le hn),
    dropAt_back_extent h.next_le_stop] at hpop

/-- The hosts that are taken at the front are those from `next` on. -/
theorem map_number_takeFirst (h : r.Proper) (n : Nat) :
    (r.takeFirst n).1.map number = List.range' r.next.toNat (min n r.extent) := by
  have htake := congrArg Prod.fst (takeAt_eq .front n r)
  rw [List.take_eq_take_min, length_hostsFrom, hostsFrom, addrs,
    take_consecutive (Nat.min_le_right ..)] at htake
  have hend := h.end_le
  show (r.takeAt .front n).1.map number = _
  rw [htake, map_number_consecutive (by omega)]

/-- The hosts that are taken at the back are those up to `stop`, the highest first. -/
theorem map_number_takeLast (h : r.Proper) (n : Nat) :
    (r.takeLast n).1.map number
      = (List.range' (r.stop.toNat - min n r.extent) (min n r.extent)).reverse := by
  have htake := congrArg Prod.fst (takeAt_eq .back n r)
  rw [hostsFrom, List.take_reverse, length_addrs, addrs, drop_consecutive] at htake
  have hend := h.next_add_extent
  have hstop := h.stop_le
  have hfirst : r.next.toNat + (r.extent - n) = r.stop.toNat - min n r.extent := by omega
  have hcount : r.extent - (r.extent - n) = min n r.extent := by omega
  show (r.takeAt .back n).1.map number = _
  rw [htake, List.map_reverse, hfirst, hcount, map_number_consecutive (by omega)]

end Proper

/-- **Skipping and taking hosts is one jump.**  Where there are more than `n` hosts left, skipping
`n` and taking one gives the one at that distance from its end, and the end moves just past it;
where there are not, it gives none, and the end meets the other, which never moves.  Taking `n`
gives as many as there are of the first `n`, in the order in which they are met; to take in two goes
is to take at once. -/
theorem visits_jump (r : HostRange) (hr : r.next ≤ r.stop) (hstop : r.stop.toNat ≤ 2 ^ 32) :
    (∀ n, n < r.stop.toNat - r.next.toNat →
      ∃ addr rest, r.popNth n = (some addr, rest) ∧ addr.number = r.next.toNat + n
        ∧ rest.next.toNat = r.next.toNat + n + 1 ∧ rest.stop = r.stop)
    ∧ (∀ n, ¬ n < r.stop.toNat - r.next.toNat → r.popNth n = (none, ⟨r.stop, r.stop⟩))
    ∧ (∀ n, n < r.stop.toNat - r.next.toNat →
      ∃ addr rest, r.popNthLast n = (some addr, rest) ∧ addr.number = r.stop.toNat - 1 - n
        ∧ rest.next = r.next ∧ rest.stop.toNat = r.stop.toNat - 1 - n)
    ∧ (∀ n, ¬ n < r.stop.toNat - r.next.toNat → r.popNthLast n = (none, ⟨r.next, r.next⟩))
    ∧ (∀ n,
      let count := min n r.remaining.toNat
      (r.takeFirst n).1.map number = List.range' r.next.toNat count
      ∧ (r.takeFirst n).2.next.toNat = r.next.toNat + count ∧ (r.takeFirst n).2.stop = r.stop)
    ∧ (∀ n,
      let count := min n r.remaining.toNat
      (r.takeLast n).1.map number = (List.range' (r.stop.toNat - count) count).reverse
      ∧ (r.takeLast n).2.next = r.next ∧ (r.takeLast n).2.stop.toNat = r.stop.toNat - count)
    ∧ (∀ m n,
      let (first, rest) := r.takeFirst m
      let (more, rest') := rest.takeFirst n
      r.takeFirst (m + n) = (first ++ more, rest'))
    ∧ (∀ m n,
      let (first, rest) := r.takeLast m
      let (more, rest') := rest.takeLast n
      r.takeLast (m + n) = (first ++ more, rest')) := by
  have h : r.Proper := ⟨hr, hstop⟩
  refine ⟨fun _ => h.popNth_of_lt, ?_, fun _ => h.popNthLast_of_lt, ?_, ?_, ?_,
    fun m n => takeAt_add .front m n r, fun m n => takeAt_add .back m n r⟩
  · intro n hn
    exact h.popNth_of_le (Nat.le_of_not_lt hn)
  · intro n hn
    exact h.popNthLast_of_le (Nat.le_of_not_lt hn)
  · intro n count
    have hcount : count = min n r.extent := by rw [← toNat_remaining]
    rw [hcount, rest_takeFirst]
    exact ⟨h.map_number_takeFirst n, toNat_next_dropAt (Nat.min_le_right ..), rfl⟩
  · intro n count
    have hcount : count = min n r.extent := by rw [← toNat_remaining]
    rw [hcount, rest_takeLast]
    exact ⟨h.map_number_takeLast n, rfl, toNat_stop_dropAt ..⟩

/-- The last four addresses of all, asked for the largest number of them that a word can hold. -/
theorem visits_jump_lastFour :
    let r : HostRange := ⟨4294967292, 4294967296⟩
    r.next ≤ r.stop ∧ r.stop.toNat ≤ 2 ^ 32
    ∧ (∃ addr rest, r.popNth 3 = (some addr, rest) ∧ addr.number = 4294967295
      ∧ rest.next.toNat = 4294967296 ∧ rest.stop = r.stop)
    ∧ r.popNth 18446744073709551615 = (none, ⟨r.stop, r.stop⟩)
    ∧ r.popNthLast 18446744073709551615 = (none, ⟨r.next, r.next⟩) := by
  intro r
  have hr : r.next ≤ r.stop := by decide
  have hstop : r.stop.toNat ≤ 2 ^ 32 := by decide
  obtain ⟨hlt, hle, -, hle', -⟩ := visits_jump r hr hstop
  exact ⟨hr, hstop, hlt 3 (by decide), hle _ (by decide), hle' _ (by decide)⟩

end Inet.HostRange
