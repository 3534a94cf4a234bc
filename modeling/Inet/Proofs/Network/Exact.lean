/-
Inet/Proofs/Network/Exact.lean

Words that do not run over.

What is derived from a network is computed on words of 8, 32 and 64 bits: the
shifts of the mask and of the size, the steps from the ends of the block to
the outermost hosts, the two addresses that are set apart, the sum of the
network address and an index.  `Exact` says of each of these that its result
is that of the same computation on numbers.

A valid network is exact (`Valid.exact`).  With a prefix length above 32 it need
not be: the block of `255.255.255.255/33` is one address, but it is treated as
one that sets two apart, and its lowest host would be `0.0.0.0`.
-/
import Inet.Proofs.HostRange.Part

namespace Inet.Network

variable {n : Network}

/-- No step of what is derived from a network overflows, underflows or loses bits. -/
structure Exact (n : Network) : Prop where
  /-- The bits of an address are network bits and host bits: no difference is cut off at zero. -/
  hostBits : n.prefixLen.toNat + (Block.hostBits n.prefixLen).toNat = 32
  /-- The mask shifts by less than the width of its word, or not at all. -/
  maskShift : n.prefixLen ≠ 0 → (Block.hostBits n.prefixLen).toUInt32 < 32
  mask : (Block.mask n.prefixLen).toNat + n.size.toNat = 2 ^ 32
  sizeShift : (Block.hostBits n.prefixLen).toUInt64 < 64
  size : n.size.toNat = 2 ^ (32 - n.prefixLen.toNat)
  minHost : n.prefixLen ≤ 30 →
    n.networkAddr.number + 1 < 2 ^ 32 ∧ n.minHost.number = n.networkAddr.number + 1
  maxHost : n.prefixLen ≤ 30 →
    1 ≤ n.broadcastAddr.number ∧ n.maxHost.number = n.broadcastAddr.number - 1
  hostCount : n.prefixLen ≤ 30 →
    2 ≤ n.size.toNat ∧ n.hostCount.toNat = n.size.toNat - 2
  /-- An index in the block is one of 32 bits, and its address is at this distance. -/
  index : ∀ index < n.size,
    index.toUInt32.toNat = index.toNat
    ∧ n.networkAddr.number + index.toNat < 2 ^ 32
    ∧ ∃ addr, n.get? index = some addr ∧ addr.number = n.networkAddr.number + index.toNat
  /-- The range of hosts ends past the highest of them, which may be `255.255.255.255`. -/
  hosts : n.hosts.next.toNat = n.minHost.number ∧ n.hosts.stop.toNat = n.maxHost.number + 1

/-! ### Short prefixes

A prefix of at most 30 bits leaves four addresses or more. -/

theorem reserved_of_le (hn : n.Valid) (h : n.prefixLen ≤ 30) : n.reserved = 1 :=
  reserved_of_not_allUsable ((not_allUsable_iff hn).2 h)

theorem four_le_size_of_le (hn : n.Valid) (h : n.prefixLen ≤ 30) : 4 ≤ n.size.toNat :=
  four_le_size hn ((not_allUsable_iff hn).2 h)

theorem number_minHost_of_le (hn : n.Valid) (h : n.prefixLen ≤ 30) :
    n.minHost.number = n.networkAddr.number + 1 := by
  rw [number_minHost hn, reserved_of_le hn h]

theorem number_maxHost_of_le (hn : n.Valid) (h : n.prefixLen ≤ 30) :
    n.maxHost.number = n.broadcastAddr.number - 1 := by
  have hsize := four_le_size_of_le hn h
  rw [number_maxHost hn, number_broadcastAddr, reserved_of_le hn h]
  omega

/-! ### Valid networks are exact -/

theorem toNat_prefixLen_le (hn : n.Valid) : n.prefixLen.toNat ≤ 32 :=
  UInt8.le_iff_toNat_le.1 hn

/-- The address at an index is at this distance from the lowest of the block. -/
theorem number_get? {index : UInt64} (h : index.toNat < n.size.toNat) :
    ∃ addr, n.get? index = some addr ∧ addr.number = n.networkAddr.number + index.toNat := by
  have hend := networkAddr_add_size_le (n := n)
  exact ⟨_, get?_of_lt h, Address.number_ofNumber (by omega)⟩

/-- Nothing that is derived from a valid network runs over. -/
theorem Valid.exact (hn : n.Valid) : n.Exact where
  hostBits := by
    rw [Block.toNat_hostBits]
    exact Nat.add_sub_cancel' (toNat_prefixLen_le hn)
  maskShift h := by
    rw [UInt32.lt_iff_toNat_lt, UInt8.toNat_toUInt32]
    exact Block.toNat_hostBits_lt h
  mask := by
    rw [Block.toNat_mask]
    exact Nat.sub_add_cancel (Block.size_le n.prefixLen)
  sizeShift := by
    rw [UInt64.lt_iff_toNat_lt, UInt8.toNat_toUInt64, Block.toNat_hostBits]
    show 32 - n.prefixLen.toNat < 64
    omega
  size := Block.toNat_size n.prefixLen
  minHost h := by
    have hnumber := number_minHost_of_le hn h
    exact ⟨hnumber ▸ n.minHost.number_lt, hnumber⟩
  maxHost h := by
    have hsize := four_le_size_of_le hn h
    refine ⟨?_, number_maxHost_of_le hn h⟩
    rw [number_broadcastAddr]
    omega
  hostCount h := by
    have hsize := four_le_size_of_le hn h
    refine ⟨by omega, ?_⟩
    rw [toNat_hostCount hn, reserved_of_le hn h]
  index index h := by
    have hlt := UInt64.lt_iff_toNat_lt.1 h
    have hend := networkAddr_add_size_le (n := n)
    exact ⟨HostRange.toNat_toUInt32_of_lt (by omega), by omega, number_get? hlt⟩
  hosts := ⟨HostRange.toNat_next_hosts n, HostRange.toNat_stop_hosts n⟩

example : minHost ⟨.broadcast, 33⟩ = .unspecified := by decide

end Inet.Network
