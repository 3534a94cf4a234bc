/-
Inet/Proofs/Network/SameBlock.lean

Networks with the same block.

All that is derived from a network, except where its own address lies, is
derived from its block: the mask and the ends, the numbers, the usable hosts,
membership, indexing.  Two networks share all of it as soon as they have the
same prefix length and one of them contains the address of the other
(`sameBlock_iff`).  So a network keeps its block when its address is moved to
another one that it contains (`sameBlock_moved`), and it contains the derived
ones: its ends, its outermost hosts, the addresses at its indices.
-/
import Inet.Proofs.HostRange.View
import Inet.Proofs.Network.Nesting

namespace Inet.Network

variable {m n : Network} {addr : Address}

/-- The networks agree in all that is derived from them, where the own address lies apart. -/
structure SameBlock (m n : Network) : Prop where
  prefixLen : m.prefixLen = n.prefixLen
  networkAddr : m.networkAddr = n.networkAddr
  broadcastAddr : m.broadcastAddr = n.broadcastAddr
  minHost : m.minHost = n.minHost
  maxHost : m.maxHost = n.maxHost
  netmask : m.netmask = n.netmask
  size : m.size = n.size
  hostCount : m.hostCount = n.hostCount
  hosts : m.hosts = n.hosts
  contains : ∀ addr, m.contains addr = n.contains addr
  get? : ∀ index, m.get? index = n.get? index

/-- Network bits and prefix length settle all the rest. -/
theorem sameBlock_iff : m.SameBlock n ↔ m.prefixLen = n.prefixLen ∧ n.contains m.addr := by
  constructor
  · intro h
    exact ⟨h.prefixLen, (h.contains m.addr).symm.trans contains_addr⟩
  · obtain ⟨x, p⟩ := m
    obtain ⟨y, q⟩ := n
    rintro ⟨rfl : p = q, h⟩
    have hbits : x.bits &&& Block.mask p = y.bits &&& Block.mask p := of_decide_eq_true h
    have hlow : networkAddr ⟨x, p⟩ = networkAddr ⟨y, p⟩ := congrArg Address.ofBits hbits
    have hhigh : broadcastAddr ⟨x, p⟩ = broadcastAddr ⟨y, p⟩ := by
      rw [← Address.number_inj, number_broadcastAddr, number_broadcastAddr, hlow]
      rfl
    have hmin : minHost ⟨x, p⟩ = minHost ⟨y, p⟩ := by
      rw [minHost, minHost, hlow]
      rfl
    have hmax : maxHost ⟨x, p⟩ = maxHost ⟨y, p⟩ := by
      rw [maxHost, maxHost, hhigh]
      rfl
    refine ⟨rfl, hlow, hhigh, hmin, hmax, rfl, rfl, rfl, ?_, ?_, ?_⟩
    · rw [hosts, hosts, hmin, hmax]
    · intro addr
      rw [contains, contains, hbits]
    · intro index
      rw [get?, get?, hlow]
      rfl

theorem SameBlock.refl (n : Network) : n.SameBlock n :=
  sameBlock_iff.2 ⟨rfl, contains_addr⟩

/-- Moved to an address in its block, a network keeps the block. -/
theorem sameBlock_moved (h : n.contains addr) : SameBlock ⟨addr, n.prefixLen⟩ n :=
  sameBlock_iff.2 ⟨rfl, h⟩

/-! ### Addresses to move to -/

theorem contains_minHost (hn : n.Valid) : n.contains n.minHost := by
  have hreserved := two_mul_reserved_lt_size hn
  rw [contains_iff, number_minHost hn]
  omega

theorem contains_maxHost (hn : n.Valid) : n.contains n.maxHost := by
  have hreserved := two_mul_reserved_lt_size hn
  rw [contains_iff, number_maxHost hn]
  omega

end Inet.Network
