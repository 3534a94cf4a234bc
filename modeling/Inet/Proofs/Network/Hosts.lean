/-
Inet/Proofs/Network/Hosts.lean

The block of a network, and its usable hosts, as numbers.

A valid network has `size` consecutive addresses, from its network address on.
A block of at least four addresses sets one apart at each end, a smaller one
none; with `r` for this number of `reserved` addresses,

    minHost    =  networkAddr + r
    maxHost    =  networkAddr + size - 1 - r
    hostCount  =  size - 2 * r

and in none of these does a word overflow or fall below zero.  The usable
hosts are therefore consecutive, and there is at least one
(`interval_minHost_maxHost`, `hostCount_pos`).
-/
import Inet.Network.Basic
import Inet.Proofs.Block

namespace Inet.Network

open Address

variable {n : Network}

/-! ### The block -/

theorem networkAddr_add_size_le : n.networkAddr.number + n.size.toNat ≤ 2 ^ 32 :=
  Block.networkAddr_add_size_le ..

theorem number_broadcastAddr :
    n.broadcastAddr.number = n.networkAddr.number + (n.size.toNat - 1) :=
  Block.number_broadcastAddr ..

theorem size_pos : 0 < n.size.toNat := Block.size_pos _

theorem contains_iff {addr : Address} :
    n.contains addr ↔ n.networkAddr.number ≤ addr.number
      ∧ addr.number < n.networkAddr.number + n.size.toNat := by
  rw [contains, decide_eq_true_iff]
  exact Block.and_mask_eq_iff n.prefixLen

/-- An index counts the addresses of the block from its lowest one. -/
theorem get?_of_lt {index : UInt64} (h : index.toNat < n.size.toNat) :
    n.get? index = some (ofNumber (n.networkAddr.number + index.toNat)) := by
  have hend := networkAddr_add_size_le (n := n)
  have hge : ¬ index ≥ n.size := by
    rw [ge_iff_le, UInt64.le_iff_toNat_le]
    omega
  -- cutting the index down to a 32-bit word does no more than adding does
  have hword : n.networkAddr.bits + index.toUInt32
      = UInt32.ofNat (n.networkAddr.number + index.toNat) := by
    rw [← UInt32.toNat_inj, UInt32.toNat_add, UInt64.toNat_toUInt32, UInt32.toNat_ofNat',
      Nat.add_mod_mod]
    rfl
  rw [get?, if_neg hge, hword]
  rfl

/-! ### Addresses that are set apart -/

/-- The number of addresses that are set apart at each end of the block. -/
def reserved (n : Network) : Nat := if n.allUsable then 0 else 1

theorem allUsable_iff : n.allUsable ↔ n.prefixLen = 31 ∨ n.prefixLen = 32 := by
  simp [allUsable]

theorem reserved_of_allUsable (h : n.allUsable) : n.reserved = 0 := if_pos h

theorem reserved_of_not_allUsable (h : ¬ n.allUsable) : n.reserved = 1 := if_neg h

/-- Among valid networks those with short prefixes set addresses apart. -/
theorem not_allUsable_iff (hn : n.Valid) : ¬ n.allUsable ↔ n.prefixLen ≤ 30 := by
  have hwidth : Address.width.toNat = 32 := rfl
  have h30 : (30 : UInt8).toNat = 30 := rfl
  have h31 : (31 : UInt8).toNat = 31 := rfl
  have h32 : (32 : UInt8).toNat = 32 := rfl
  rw [Valid, UInt8.le_iff_toNat_le] at hn
  rw [allUsable_iff, not_or, ← UInt8.toNat_inj, ← UInt8.toNat_inj, UInt8.le_iff_toNat_le]
  omega

/-- A block that sets addresses apart has at least two others. -/
theorem four_le_size (hn : n.Valid) (h : ¬ n.allUsable) : 4 ≤ n.size.toNat := by
  have hlen : n.prefixLen.toNat ≤ 30 := UInt8.le_iff_toNat_le.1 ((not_allUsable_iff hn).1 h)
  calc 4 = 2 ^ 2 := rfl
    _ ≤ 2 ^ (32 - n.prefixLen.toNat) := Nat.pow_le_pow_right Nat.two_pos (by omega)
    _ = n.size.toNat := (Block.toNat_size _).symm

theorem two_mul_reserved_lt_size (hn : n.Valid) : 2 * n.reserved < n.size.toNat := by
  by_cases h : n.allUsable
  · rw [reserved_of_allUsable h]
    exact size_pos
  · have := four_le_size hn h
    rw [reserved_of_not_allUsable h]
    omega

theorem number_minHost (hn : n.Valid) :
    n.minHost.number = n.networkAddr.number + n.reserved := by
  by_cases h : n.allUsable
  · rw [minHost, if_pos h, reserved_of_allUsable h]
    rfl
  · have hsize := four_le_size hn h
    have hend := networkAddr_add_size_le (n := n)
    rw [minHost, if_neg h, reserved_of_not_allUsable h, number_ofBits, UInt32.toNat_add]
    show (n.networkAddr.number + 1) % 2 ^ 32 = n.networkAddr.number + 1
    omega

theorem number_maxHost (hn : n.Valid) :
    n.maxHost.number = n.networkAddr.number + (n.size.toNat - 1 - n.reserved) := by
  have hbroadcast := number_broadcastAddr (n := n)
  by_cases h : n.allUsable
  · rw [maxHost, if_pos h, reserved_of_allUsable h, hbroadcast]
    rfl
  · have hsize := four_le_size hn h
    have hle : (1 : UInt32) ≤ n.broadcastAddr.bits := by
      rw [UInt32.le_iff_toNat_le]
      show 1 ≤ n.broadcastAddr.number
      omega
    rw [maxHost, if_neg h, reserved_of_not_allUsable h, number_ofBits,
      UInt32.toNat_sub_of_le _ _ hle]
    show n.broadcastAddr.number - 1 = n.networkAddr.number + (n.size.toNat - 1 - 1)
    omega

theorem toNat_hostCount (hn : n.Valid) :
    n.hostCount.toNat = n.size.toNat - 2 * n.reserved := by
  by_cases h : n.allUsable
  · rw [hostCount, if_pos h, reserved_of_allUsable h]
    rfl
  · have hle : (2 : UInt64) ≤ n.size := by
      have hsize := four_le_size hn h
      rw [UInt64.le_iff_toNat_le]
      show 2 ≤ n.size.toNat
      omega
    rw [hostCount, if_neg h, reserved_of_not_allUsable h, UInt64.toNat_sub_of_le _ _ hle]
    rfl

/-- There is always a usable host. -/
theorem hostCount_pos (hn : n.Valid) : 0 < n.hostCount.toNat := by
  have := two_mul_reserved_lt_size hn
  rw [toNat_hostCount hn]
  omega

/-- The usable hosts are consecutive. -/
theorem interval_minHost_maxHost (hn : n.Valid) :
    interval n.minHost n.maxHost
      = consecutive (n.networkAddr.number + n.reserved) n.hostCount.toNat := by
  have := two_mul_reserved_lt_size hn
  rw [interval, number_minHost hn, number_maxHost hn, toNat_hostCount hn]
  congr 1
  omega

end Inet.Network
