/-
Inet/Proofs/HostRange/Visited.lean

What a visit of several hosts can do to a range.

A visit takes one host after the other, at one of the ends, as long as there
are any.  So it answers with hosts of the range that it began with, and it
leaves a part of this range; and ends that have not passed each other do not
pass each other (`Visited`).  This is shown of taking one host, and of one
visit after another (`Visited.trans`); for each kind of visit it follows along
its recursion.
-/
import Inet.Proofs.HostRange.Part
import Mathlib.Data.List.Induction

namespace Inet.HostRange

open Address

variable {r r' r'' : HostRange} {addr : Address} {found found' : List Address}

/-- A visit of `r` that answered with the hosts `found` and left `r'`. -/
structure Visited (r : HostRange) (found : List Address) (r' : HostRange) : Prop where
  isPartOf : r'.IsPartOf r
  next_le_stop : r.next ≤ r.stop → r'.next ≤ r'.stop
  mem_addrs : ∀ addr ∈ found, addr ∈ r.addrs

/-- The hosts of a part are hosts of the range. -/
theorem IsPartOf.mem_addrs (h : r'.IsPartOf r) (haddr : addr ∈ r'.addrs) : addr ∈ r.addrs := by
  have hnext := UInt64.le_iff_toNat_le.1 h.next_le
  have hstop := UInt64.le_iff_toNat_le.1 h.stop_le
  obtain ⟨number, hnumber, rfl⟩ := List.mem_map.1 haddr
  refine List.mem_map.2 ⟨number, ?_, rfl⟩
  rw [List.mem_range'_1, extent] at hnumber ⊢
  omega

namespace Visited

protected theorem refl (r : HostRange) : r.Visited [] r :=
  ⟨.refl r, id, by simp⟩

protected theorem trans (h : r.Visited found r') (h' : r'.Visited found' r'') :
    r.Visited (found ++ found') r'' where
  isPartOf := h'.isPartOf.trans h.isPartOf
  next_le_stop := h'.next_le_stop ∘ h.next_le_stop
  mem_addrs addr haddr := by
    rcases List.mem_append.1 haddr with haddr | haddr
    · exact h.mem_addrs addr haddr
    · exact h.isPartOf.mem_addrs (h'.mem_addrs addr haddr)

/-- A visit need not answer with all hosts that it takes. -/
theorem mono (h : r.Visited found r') (hsubset : ∀ addr ∈ found', addr ∈ found) :
    r.Visited found' r' :=
  { h with mem_addrs := fun addr haddr => h.mem_addrs addr (hsubset addr haddr) }

/-- A visit that goes on from where the first one ended, and whose answer alone is given. -/
theorem trans_right (h : r.Visited found r') (h' : r'.Visited found' r'') :
    r.Visited found' r'' :=
  (h.trans h').mono fun _ => List.mem_append_right _

/-! ### One host -/

theorem of_popFirst? (h : r.popFirst? = some (addr, r')) : r.Visited [addr] r' where
  isPartOf := isPartOf_of_popFirst? h
  next_le_stop _ := by
    obtain ⟨hlt, -, hnext, hstop⟩ := popFirst?_eq_some h
    rw [UInt64.le_iff_toNat_le, hnext, hstop]
    exact UInt64.lt_iff_toNat_lt.1 hlt
  mem_addrs := by simp [addrs_of_popFirst? h]

theorem of_popLast? (h : r.popLast? = some (addr, r')) : r.Visited [addr] r' where
  isPartOf := isPartOf_of_popLast? h
  next_le_stop _ := by
    obtain ⟨hlt, -, hnext, hstop⟩ := popLast?_eq_some h
    rw [UInt64.lt_iff_toNat_lt] at hlt
    rw [UInt64.le_iff_toNat_le, hnext]
    omega
  mem_addrs := by simp [addrs_of_popLast? h]

end Visited

theorem visited_popFirst (r : HostRange) : r.Visited r.popFirst.1.toList r.popFirst.2 := by
  unfold popFirst
  split
  · exact .of_popFirst? ‹_›
  · exact .refl r

theorem visited_popLast (r : HostRange) : r.Visited r.popLast.1.toList r.popLast.2 := by
  unfold popLast
  split
  · exact .of_popLast? ‹_›
  · exact .refl r

/-! ### Skipping and taking -/

theorem visited_skipFirst (n : Nat) (r : HostRange) : r.Visited [] (r.skipFirst n) := by
  fun_induction skipFirst n r with
  | case1 r => exact .refl r
  | case2 n r addr r' hpop ih => exact (Visited.of_popFirst? hpop).trans_right ih
  | case3 n r hpop => exact .refl r

theorem visited_skipLast (n : Nat) (r : HostRange) : r.Visited [] (r.skipLast n) := by
  fun_induction skipLast n r with
  | case1 r => exact .refl r
  | case2 n r addr r' hpop ih => exact (Visited.of_popLast? hpop).trans_right ih
  | case3 n r hpop => exact .refl r

theorem visited_popNth (n : Nat) (r : HostRange) :
    r.Visited (r.popNth n).1.toList (r.popNth n).2 :=
  (visited_skipFirst n r).trans (visited_popFirst _)

theorem visited_popNthLast (n : Nat) (r : HostRange) :
    r.Visited (r.popNthLast n).1.toList (r.popNthLast n).2 :=
  (visited_skipLast n r).trans (visited_popLast _)

theorem visited_takeFirst (n : Nat) (r : HostRange) :
    r.Visited (r.takeFirst n).1 (r.takeFirst n).2 := by
  fun_induction takeFirst n r with
  | case1 r => exact .refl r
  | case2 n r addr r' hpop addrs r'' htake ih =>
    rw [htake] at ih
    exact (Visited.of_popFirst? hpop).trans ih
  | case3 n r hpop => exact .refl r

theorem visited_takeLast (n : Nat) (r : HostRange) :
    r.Visited (r.takeLast n).1 (r.takeLast n).2 := by
  fun_induction takeLast n r with
  | case1 r => exact .refl r
  | case2 n r addr r' hpop addrs r'' htake ih =>
    rw [htake] at ih
    exact (Visited.of_popLast? hpop).trans ih
  | case3 n r hpop => exact .refl r

/-! ### Searching -/

theorem visited_findFirst (p : Address → Bool) (r : HostRange) :
    r.Visited (r.findFirst p).1.toList (r.findFirst p).2 := by
  fun_induction findFirst p r with
  | case1 r addr r' hpop hp => exact .of_popFirst? hpop
  | case2 r addr r' hpop hp ih =>
    -- a host that is passed over is taken, and not answered
    exact (Visited.of_popFirst? hpop).trans_right ih
  | case3 r hpop => exact .refl r

theorem visited_findLast (p : Address → Bool) (r : HostRange) :
    r.Visited (r.findLast p).1.toList (r.findLast p).2 := by
  fun_induction findLast p r with
  | case1 r addr r' hpop hp => exact .of_popLast? hpop
  | case2 r addr r' hpop hp ih => exact (Visited.of_popLast? hpop).trans_right ih
  | case3 r hpop => exact .refl r

theorem visited_positionFrom (target : Address) (seen : Nat) (r : HostRange) :
    r.Visited [] (r.positionFrom target seen).2 := by
  fun_induction positionFrom target seen r with
  | case1 seen r r' hpop => exact (Visited.of_popFirst? hpop).mono (by simp)
  | case2 seen r addr r' hpop hne ih => exact (Visited.of_popFirst? hpop).trans_right ih
  | case3 seen r hpop => exact .refl r

/-! ### Choosing among all hosts -/

/-- A fold that keeps what it has or goes over to the present host ends with a host, if with
anything. -/
theorem mem_addrs_of_fold {f : Option Address → Address → Option Address}
    (hf : ∀ best addr, f best addr = best ∨ f best addr = some addr)
    (h : r.fold f none = some addr) : addr ∈ r.addrs := by
  rw [fold_eq_foldl] at h
  generalize r.addrs = hosts at h ⊢
  -- from the last host backwards, since it is the one that the fold decides about last
  induction hosts using List.reverseRecOn with
  | nil => contradiction
  | append_singleton hosts host ih =>
    rw [List.foldl_append] at h
    rcases hf (hosts.foldl f none) host with hkeep | htake
    · exact List.mem_append_left _ (ih (hkeep.symm.trans h))
    · obtain rfl := Option.some.inj (htake.symm.trans h)
      simp

theorem visited_of_fold {f : Option Address → Address → Option Address}
    (hf : ∀ best addr, f best addr = best ∨ f best addr = some addr) (r : HostRange) :
    r.Visited (r.fold f none).toList r :=
  { Visited.refl r with
    mem_addrs := fun _ haddr => mem_addrs_of_fold hf (Option.mem_toList.1 haddr) }

theorem visited_last? (r : HostRange) : r.Visited r.last?.toList r :=
  visited_of_fold (fun _ _ => .inr rfl) r

theorem visited_min? (r : HostRange) : r.Visited r.min?.toList r := by
  refine visited_of_fold ?_ r
  rintro (_ | least) addr
  · exact .inr rfl
  · rw [Option.elim_some, Option.some_inj, Option.some_inj]
    exact min_eq_or least addr

theorem visited_max? (r : HostRange) : r.Visited r.max?.toList r := by
  refine visited_of_fold ?_ r
  rintro (_ | greatest) addr
  · exact .inr rfl
  · rw [Option.elim_some, Option.some_inj, Option.some_inj]
    exact max_eq_or greatest addr

end Inet.HostRange
