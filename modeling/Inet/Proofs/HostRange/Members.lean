/-
Inet/Proofs/HostRange/Members.lean

The hosts of a network, seen from all sides.

A network describes its usable hosts five times: as the range that one walks
through, by the test whether an address is in the block, by the address at an
index, by the two outermost hosts, and by their number.  For a valid network
the walk gives

    networkAddr + r,  networkAddr + r + 1,  …,  networkAddr + size - 1 - r

with the number `r` of reserved addresses (`toList_hosts`), and each of the
other descriptions is read off this list.
-/
import Inet.Proofs.HostRange.View

namespace Inet.HostRange

open Address

variable {n : Network}

/-- The walk goes through consecutive addresses. -/
theorem toList_hosts (hn : n.Valid) :
    n.hosts.toList
      = consecutive (n.networkAddr.number + n.reserved) n.hostCount.toNat := by
  rw [toList_eq_addrs, addrs_hosts, Network.interval_minHost_maxHost hn]

/-- The walk does not run past the last address of all. -/
theorem end_toList_hosts_le (hn : n.Valid) :
    n.networkAddr.number + n.reserved + n.hostCount.toNat ≤ 2 ^ 32 := by
  have hend := n.networkAddr_add_size_le
  have hreserved := Network.two_mul_reserved_lt_size hn
  rw [Network.toNat_hostCount hn]
  omega

/-! ### The block and its ends -/

/-- The walk leaves out the reserved addresses of the block, and no others. -/
theorem mem_toList_hosts (hn : n.Valid) {addr : Address} :
    addr ∈ n.hosts.toList
      ↔ n.contains addr
        ∧ (n.allUsable ∨ addr ≠ n.networkAddr ∧ addr ≠ n.broadcastAddr) := by
  have hbroadcast := n.number_broadcastAddr
  rw [toList_hosts hn, mem_consecutive (end_toList_hosts_le hn), Network.toNat_hostCount hn,
    Network.contains_iff]
  by_cases h : n.allUsable
  · rw [Network.reserved_of_allUsable h]
    simp only [h, true_or, and_true]
    omega
  · have hsize := Network.four_le_size hn h
    rw [Network.reserved_of_not_allUsable h, or_iff_right h, Ne, Ne, ← number_inj, ← number_inj,
      hbroadcast]
    -- in the block, not to be one of its ends is to be strictly between them
    omega

/-- The walk ascends. -/
theorem pairwise_toList_hosts (hn : n.Valid) : n.hosts.toList.Pairwise (· < ·) := by
  rw [toList_hosts hn]
  exact pairwise_consecutive (end_toList_hosts_le hn)

/-! ### The outermost hosts -/

theorem head?_toList_hosts (hn : n.Valid) : n.hosts.toList.head? = some n.minHost := by
  rw [toList_hosts hn, head?_consecutive (Network.hostCount_pos hn), ← Network.number_minHost hn,
    ofNumber_number]

theorem getLast?_toList_hosts (hn : n.Valid) : n.hosts.toList.getLast? = some n.maxHost := by
  have hreserved := Network.two_mul_reserved_lt_size hn
  have hlast : n.networkAddr.number + n.reserved + (n.hostCount.toNat - 1) = n.maxHost.number := by
    rw [Network.number_maxHost hn, Network.toNat_hostCount hn]
    omega
  rw [toList_hosts hn, getLast?_consecutive (Network.hostCount_pos hn), hlast, ofNumber_number]

/-! ### Hosts at an index -/

/-- The index in the walk lags behind that in the block by the reserved addresses. -/
theorem getElem?_toList_hosts (hn : n.Valid) {i index : UInt64} (hi : i < n.hostCount)
    (hindex : index.toNat = i.toNat + n.reserved) :
    n.hosts.toList[i.toNat]? = n.get? index := by
  have hreserved := Network.two_mul_reserved_lt_size hn
  have hcount := Network.toNat_hostCount hn
  rw [UInt64.lt_iff_toNat_lt] at hi
  rw [toList_hosts hn, getElem?_consecutive hi, Network.get?_of_lt (by omega), hindex]
  congr 2
  omega

/-- **The descriptions of the usable hosts agree.**  The walk meets the addresses of the block that
are not reserved; it ascends from the lowest host to the highest, meets as many as are counted and
at least one, and each where indexing finds it. -/
theorem toList_hosts_agrees (n : Network) (hn : n.Valid) :
    (∀ addr, addr ∈ n.hosts.toList
      ↔ n.contains addr
        ∧ ((n.prefixLen = 31 ∨ n.prefixLen = 32)
          ∨ addr ≠ n.networkAddr ∧ addr ≠ n.broadcastAddr))
    ∧ n.hosts.toList.Pairwise (· < ·)
    ∧ n.hosts.toList.head? = some n.minHost
    ∧ n.hosts.toList.getLast? = some n.maxHost
    ∧ n.hosts.toList.length = n.hostCount.toNat
    ∧ 0 < n.hostCount.toNat
    ∧ ∀ i < n.hostCount,
        (n.prefixLen ≤ 30 → n.hosts.toList[i.toNat]? = n.get? (i + 1))
        ∧ (n.prefixLen = 31 ∨ n.prefixLen = 32 → n.hosts.toList[i.toNat]? = n.get? i) := by
  refine ⟨?_, pairwise_toList_hosts hn, head?_toList_hosts hn, getLast?_toList_hosts hn, ?_,
    Network.hostCount_pos hn, ?_⟩
  · intro addr
    rw [← Network.allUsable_iff]
    exact mem_toList_hosts hn
  · rw [toList_hosts hn, length_consecutive]
  · intro i hi
    constructor
    · intro hlen
      have h : ¬ n.allUsable := (Network.not_allUsable_iff hn).2 hlen
      apply getElem?_toList_hosts hn hi
      rw [Network.reserved_of_not_allUsable h, toNat_add_one_of_lt hi]
    · intro hlen
      have h : n.allUsable := Network.allUsable_iff.2 hlen
      apply getElem?_toList_hosts hn hi
      rw [Network.reserved_of_allUsable h, Nat.add_zero]

/-- The last block of four addresses, which ends with the last address of all. -/
theorem toList_hosts_agrees_lastFour :
    let n : Network := ⟨⟨255, 255, 255, 252⟩, 30⟩
    n.Valid ∧ n.hosts.toList.getLast? = some ⟨255, 255, 255, 254⟩
    ∧ (1 : UInt64) < n.hostCount
    ∧ n.hosts.toList[1]? = n.get? (1 + 1) := by
  have hn : Network.Valid ⟨⟨255, 255, 255, 252⟩, 30⟩ := by decide
  have hi : (1 : UInt64) < Network.hostCount ⟨⟨255, 255, 255, 252⟩, 30⟩ := by decide
  obtain ⟨-, -, -, hlast, -, -, hindex⟩ := toList_hosts_agrees _ hn
  exact ⟨hn, hlast, hi, (hindex 1 hi).1 (by decide)⟩

end Inet.HostRange
