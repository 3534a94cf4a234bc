/-
Inet/Proofs/HostRange/View.lean

A range of hosts as the list of the addresses in it.

`addrs r` are the addresses from `next` on, as many as the range has hosts
left.  All that is said of a range is said of this list:

    popFirst? r = some (addr, r')   then   addrs r = addr :: addrs r'
    popLast? r  = some (addr, r')   then   addrs r = addrs r' ++ [addr]
    either is none                  iff    addrs r = []

These hold of any two words `next` and `stop`.  Where the ends are in order and
`stop` is at most `2 ^ 32`, the list holds the addresses between them and
ascends (`Proper`).  For the range of all usable hosts of a valid network it is
the interval from the lowest to the highest host (`addrs_hosts`).
-/
import Inet.HostRange.Visit
import Inet.Proofs.Network.Hosts

namespace Inet.HostRange

open Address

/-- The addresses in the range, lowest first. -/
def addrs (r : HostRange) : List Address := consecutive r.next.toNat r.extent

variable {r r' : HostRange} {addr : Address}

@[simp]
theorem length_addrs : r.addrs.length = r.extent := length_consecutive

theorem extent_pos_iff : 0 < r.extent ↔ r.next < r.stop := by
  rw [extent, UInt64.lt_iff_toNat_lt]
  omega

theorem addrs_eq_nil_iff : r.addrs = [] ↔ ¬ r.next < r.stop := by
  rw [← List.length_eq_zero_iff, length_addrs, ← extent_pos_iff]
  omega

theorem ofBits_toUInt32 (word : UInt64) : ofBits word.toUInt32 = ofNumber word.toNat := rfl

/-! ### Taking a host -/

/-- All that taking the lowest host does. -/
theorem popFirst?_eq_some (h : r.popFirst? = some (addr, r')) :
    r.next < r.stop ∧ addr = ofNumber r.next.toNat
      ∧ r'.next.toNat = r.next.toNat + 1 ∧ r'.stop = r.stop := by
  unfold popFirst? at h
  split at h
  · rename_i hlt
    obtain ⟨rfl, rfl⟩ := Prod.mk.inj (Option.some.inj h)
    exact ⟨hlt, ofBits_toUInt32 _, toNat_add_one_of_lt hlt, rfl⟩
  · contradiction

/-- All that taking the highest host does. -/
theorem popLast?_eq_some (h : r.popLast? = some (addr, r')) :
    r.next < r.stop ∧ addr = ofNumber (r.stop.toNat - 1)
      ∧ r'.next = r.next ∧ r'.stop.toNat + 1 = r.stop.toNat := by
  unfold popLast? at h
  split at h
  · rename_i hlt
    obtain ⟨rfl, rfl⟩ := Prod.mk.inj (Option.some.inj h)
    have hstop := toNat_sub_one_of_lt hlt
    refine ⟨hlt, ?_, rfl, ?_⟩
    · rw [ofBits_toUInt32, hstop]
    · rw [UInt64.lt_iff_toNat_lt] at hlt
      show (r.stop - 1).toNat + 1 = r.stop.toNat
      omega
  · contradiction

theorem popFirst?_eq_none_iff : r.popFirst? = none ↔ r.addrs = [] := by
  rw [addrs_eq_nil_iff, popFirst?]
  split <;> simp [*]

theorem popLast?_eq_none_iff : r.popLast? = none ↔ r.addrs = [] := by
  rw [addrs_eq_nil_iff, popLast?]
  split <;> simp [*]

/-- The lowest host is taken off the front. -/
theorem addrs_of_popFirst? (h : r.popFirst? = some (addr, r')) : r.addrs = addr :: r'.addrs := by
  obtain ⟨hlt, rfl, hnext, hstop⟩ := popFirst?_eq_some h
  have hextent : r.extent = r'.extent + 1 := by
    rw [UInt64.lt_iff_toNat_lt] at hlt
    rw [extent, extent, hnext, hstop]
    omega
  rw [addrs, addrs, hextent, consecutive_succ, hnext]

/-- The highest host is taken off the back. -/
theorem addrs_of_popLast? (h : r.popLast? = some (addr, r')) : r.addrs = r'.addrs ++ [addr] := by
  obtain ⟨hlt, rfl, hnext, hstop⟩ := popLast?_eq_some h
  have hextent : r.extent = r'.extent + 1 := by
    rw [UInt64.lt_iff_toNat_lt] at hlt
    rw [extent, extent, hnext]
    omega
  have hlast : r'.next.toNat + r'.extent = r.stop.toNat - 1 := by
    rw [UInt64.lt_iff_toNat_lt] at hlt
    rw [extent, hnext]
    omega
  rw [addrs, addrs, hextent, consecutive_succ_last, ← hnext, hlast]

/-! ### Visiting all hosts -/

theorem fold_eq_foldl {α : Type} (f : α → Address → α) (acc : α) (r : HostRange) :
    r.fold f acc = r.addrs.foldl f acc := by
  fun_induction fold f acc r with
  | case1 acc r addr r' h ih => rw [addrs_of_popFirst? h, List.foldl_cons, ih]
  | case2 acc r h => rw [popFirst?_eq_none_iff.1 h, List.foldl_nil]

/-- Taking the lowest host again and again gives the list. -/
theorem toList_eq_addrs (r : HostRange) : r.toList = r.addrs := by
  -- the fold collects the hosts in reverse
  rw [toList, fold_eq_foldl, List.foldl_flip_cons_eq_append', List.append_nil, List.reverse_reverse]

/-! ### Counting the hosts that are left -/

theorem toNat_remaining (r : HostRange) : r.remaining.toNat = r.extent := by
  unfold remaining extent
  split
  · rw [UInt64.toNat_sub_of_le _ _ ‹_›]
  · rename_i h
    rw [UInt64.le_iff_toNat_le] at h
    rw [Nat.sub_eq_zero_of_le (by omega)]
    rfl

/-! ### Ranges of addresses -/

/-- The ends have not passed each other, and all between them are numbers of addresses. -/
structure Proper (r : HostRange) : Prop where
  next_le_stop : r.next ≤ r.stop
  stop_le : r.stop.toNat ≤ 2 ^ 32

namespace Proper

theorem next_add_extent (h : r.Proper) : r.next.toNat + r.extent = r.stop.toNat :=
  Nat.add_sub_cancel' (UInt64.le_iff_toNat_le.1 h.next_le_stop)

theorem end_le (h : r.Proper) : r.next.toNat + r.extent ≤ 2 ^ 32 :=
  h.next_add_extent ▸ h.stop_le

/-- The hosts are the addresses between the ends. -/
theorem mem_addrs_iff (h : r.Proper) :
    addr ∈ r.addrs ↔ r.next.toNat ≤ addr.number ∧ addr.number < r.stop.toNat := by
  rw [addrs, mem_consecutive h.end_le, h.next_add_extent]

theorem pairwise_addrs (h : r.Proper) : r.addrs.Pairwise (· < ·) :=
  pairwise_consecutive h.end_le

theorem nodup_addrs (h : r.Proper) : r.addrs.Nodup := by
  refine h.pairwise_addrs.imp ?_
  rintro x y hlt rfl
  exact Nat.lt_irrefl _ (lt_iff_number_lt.1 hlt)

end Proper

/-! ### The hosts of a network -/

theorem toNat_next_hosts (n : Network) : n.hosts.next.toNat = n.minHost.number := by
  rw [Network.hosts, UInt32.toNat_toUInt64]
  rfl

theorem toNat_stop_hosts (n : Network) : n.hosts.stop.toNat = n.maxHost.number + 1 := by
  have hlt := n.maxHost.number_lt
  rw [Network.hosts, UInt64.toNat_add, UInt32.toNat_toUInt64]
  -- the end may be `2 ^ 32`, which is why it is a wider word
  show (n.maxHost.number + 1) % 2 ^ 64 = n.maxHost.number + 1
  omega

/-- The range of all hosts is the interval from the lowest to the highest. -/
theorem addrs_hosts (n : Network) : n.hosts.addrs = interval n.minHost n.maxHost := by
  rw [addrs, extent, toNat_next_hosts, toNat_stop_hosts, interval]

end Inet.HostRange
