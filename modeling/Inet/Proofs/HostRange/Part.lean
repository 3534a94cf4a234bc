/-
Inet/Proofs/HostRange/Part.lean

Parts of a range, and the words in them.

Whatever is taken from a range, at whichever end, what is left lies between
the ends that it had (`popEach_isPartOf`).  So no range that is left of a
network's hosts reaches past `2 ^ 32`: a host that is taken there is cut down
to a 32-bit word without loss, and an end that moves by one does not run over
(`exact_popEach_hosts`).
-/
import Inet.Proofs.HostRange.BothEnds

namespace Inet.HostRange

open Address

/-- The range lies between the ends of `r`. -/
structure IsPartOf (r' r : HostRange) : Prop where
  next_le : r.next ≤ r'.next
  stop_le : r'.stop ≤ r.stop

variable {r r' r'' : HostRange} {addr : Address}

theorem IsPartOf.refl (r : HostRange) : r.IsPartOf r :=
  ⟨UInt64.le_refl _, UInt64.le_refl _⟩

theorem IsPartOf.trans (h : r''.IsPartOf r') (h' : r'.IsPartOf r) : r''.IsPartOf r :=
  ⟨UInt64.le_trans h'.next_le h.next_le, UInt64.le_trans h.stop_le h'.stop_le⟩

/-! ### Taking hosts leaves a part -/

theorem isPartOf_of_popFirst? (h : r.popFirst? = some (addr, r')) : r'.IsPartOf r := by
  obtain ⟨-, -, hnext, hstop⟩ := popFirst?_eq_some h
  constructor
  · rw [UInt64.le_iff_toNat_le, hnext]
    exact Nat.le_succ _
  · rw [hstop]
    exact UInt64.le_refl _

theorem isPartOf_of_popLast? (h : r.popLast? = some (addr, r')) : r'.IsPartOf r := by
  obtain ⟨-, -, hnext, hstop⟩ := popLast?_eq_some h
  constructor
  · rw [hnext]
    exact UInt64.le_refl _
  · rw [UInt64.le_iff_toNat_le, ← hstop]
    exact Nat.le_succ _

theorem popAt_isPartOf (e : End) (r : HostRange) : (r.popAt e).2.IsPartOf r := by
  cases e with
  | front =>
    rcases h : r.popFirst? with - | ⟨addr, r'⟩
    · rw [popAt, popFirst, h]
      exact .refl r
    · rw [popAt, popFirst, h]
      exact isPartOf_of_popFirst? h
  | back =>
    rcases h : r.popLast? with - | ⟨addr, r'⟩
    · rw [popAt, popLast, h]
      exact .refl r
    · rw [popAt, popLast, h]
      exact isPartOf_of_popLast? h

theorem popEach_isPartOf (ends : List End) (r : HostRange) : (popEach ends r).2.IsPartOf r := by
  induction ends generalizing r with
  | nil => exact .refl r
  | cons e ends ih => exact (ih (r.popAt e).2).trans (popAt_isPartOf e r)

/-! ### Words -/

/-- While hosts are left, one can be taken at either end.  It is the word that stands there, and the
end moves by one: no bit is cut off, and no word runs over. -/
structure Exact (r : HostRange) : Prop where
  first : r.next < r.stop →
    r.next.toUInt32.toNat = r.next.toNat
    ∧ ∃ addr r', r.popFirst? = some (addr, r')
      ∧ addr.number = r.next.toNat ∧ r'.next.toNat = r.next.toNat + 1
  last : r.next < r.stop →
    (r.stop - 1).toNat + 1 = r.stop.toNat
    ∧ (r.stop - 1).toUInt32.toNat = (r.stop - 1).toNat
    ∧ ∃ addr r', r.popLast? = some (addr, r')
      ∧ addr.number + 1 = r.stop.toNat ∧ r'.stop.toNat + 1 = r.stop.toNat

theorem toNat_toUInt32_of_lt {word : UInt64} (h : word.toNat < 2 ^ 32) :
    word.toUInt32.toNat = word.toNat := by
  rw [UInt64.toNat_toUInt32, Nat.mod_eq_of_lt h]

/-- A range is exact if it does not reach past the last address of all. -/
theorem exact_of_stop_le (h : r.stop.toNat ≤ 2 ^ 32) : r.Exact where
  first hlt := by
    rcases hpop : r.popFirst? with - | ⟨addr, r'⟩
    · exact absurd hlt (addrs_eq_nil_iff.1 (popFirst?_eq_none_iff.1 hpop))
    · obtain ⟨-, rfl, hnext, -⟩ := popFirst?_eq_some hpop
      rw [UInt64.lt_iff_toNat_lt] at hlt
      have hword : r.next.toNat < 2 ^ 32 := Nat.lt_of_lt_of_le hlt h
      exact ⟨toNat_toUInt32_of_lt hword, _, r', rfl, number_ofNumber hword, hnext⟩
  last hlt := by
    rcases hpop : r.popLast? with - | ⟨addr, r'⟩
    · exact absurd hlt (addrs_eq_nil_iff.1 (popLast?_eq_none_iff.1 hpop))
    · obtain ⟨-, rfl, -, hstop⟩ := popLast?_eq_some hpop
      have hsub := toNat_sub_one_of_lt hlt
      have hword : r.stop.toNat - 1 < 2 ^ 32 := by omega
      refine ⟨by omega, toNat_toUInt32_of_lt (by omega), _, r', rfl, ?_, hstop⟩
      rw [number_ofNumber hword]
      omega

/-- However hosts of a network are taken, the range that is left is exact. -/
theorem exact_popEach_hosts (n : Network) (ends : List End) : (popEach ends n.hosts).2.Exact := by
  apply exact_of_stop_le
  calc (popEach ends n.hosts).2.stop.toNat
      ≤ n.hosts.stop.toNat := UInt64.le_iff_toNat_le.1 (popEach_isPartOf ends n.hosts).stop_le
    _ = n.maxHost.number + 1 := toNat_stop_hosts n
    _ ≤ 2 ^ 32 := n.maxHost.number_lt

end Inet.HostRange
