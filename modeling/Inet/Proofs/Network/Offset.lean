/-
Inet/Proofs/Network/Offset.lean

Where the own address of a network lies in its block.

The own address is `offset` numbers above the lowest address of its block.  The
four questions asked about it compare this number with those of four others:
with `s` for the size of the block and `r` for the number of addresses that are
set apart at each end,

    isNetworkAddr    ↔  offset = 0
    isMinHost        ↔  offset = r
    isMaxHost        ↔  offset = s - 1 - r
    isBroadcastAddr  ↔  offset = s - 1

If addresses are set apart these are four different numbers, so that at most
one answer is yes (`count_marks_le_one`).  If none are, they are two pairs, and
in a block of one address they are all the same.
-/
import Inet.Proofs.Network.Exact
import Mathlib.Data.List.Nodup

namespace Inet.Network

variable {n : Network}

/-- How far the own address is above the lowest of its block. -/
def offset (n : Network) : Nat := n.addr.number - n.networkAddr.number

theorem networkAddr_add_offset (n : Network) :
    n.networkAddr.number + n.offset = n.addr.number :=
  Nat.add_sub_cancel' (Block.networkAddr_le ..)

theorem offset_lt_size (n : Network) : n.offset < n.size.toNat := by
  have hoffset := n.networkAddr_add_offset
  have hlt : n.addr.number < n.networkAddr.number + n.size.toNat :=
    Block.lt_networkAddr_add_size ..
  omega

/-! ### Comparing with an address of the block -/

/-- The own address is the one at distance `k` exactly if this is its offset. -/
theorem bits_eq_iff {addr : Address} {k : Nat} (h : addr.number = n.networkAddr.number + k) :
    n.addr.bits = addr.bits ↔ n.offset = k := by
  have hoffset := n.networkAddr_add_offset
  rw [← UInt32.toNat_inj]
  show n.addr.number = addr.number ↔ n.offset = k
  omega

theorem isNetworkAddr_eq (n : Network) : n.isNetworkAddr = decide (n.offset = 0) :=
  decide_eq_decide.2 (bits_eq_iff rfl)

theorem isBroadcastAddr_eq (n : Network) :
    n.isBroadcastAddr = decide (n.offset = n.size.toNat - 1) :=
  decide_eq_decide.2 (bits_eq_iff number_broadcastAddr)

theorem isMinHost_eq (hn : n.Valid) : n.isMinHost = decide (n.offset = n.reserved) :=
  decide_eq_decide.2 (bits_eq_iff (number_minHost hn))

theorem isMaxHost_eq (hn : n.Valid) :
    n.isMaxHost = decide (n.offset = n.size.toNat - 1 - n.reserved) :=
  decide_eq_decide.2 (bits_eq_iff (number_maxHost hn))

/-! ### Short prefixes -/

/-- The four questions ask after four places of the block. -/
theorem marks_of_le (hn : n.Valid) (h : n.prefixLen ≤ 30) :
    [n.isNetworkAddr, n.isBroadcastAddr, n.isMinHost, n.isMaxHost]
      = [0, n.size.toNat - 1, 1, n.size.toNat - 2].map fun k => decide (k = n.offset) := by
  simp only [isNetworkAddr_eq, isBroadcastAddr_eq, isMinHost_eq hn, isMaxHost_eq hn,
    reserved_of_le hn h, eq_comm (a := n.offset)]
  rfl

/-- The four places are different, even where they are the whole block. -/
theorem count_marks_le_one (hn : n.Valid) (h : n.prefixLen ≤ 30) :
    [n.isNetworkAddr, n.isBroadcastAddr, n.isMinHost, n.isMaxHost].count true ≤ 1 := by
  have hsize := four_le_size_of_le hn h
  have hnodup : [0, n.size.toNat - 1, 1, n.size.toNat - 2].Nodup := by
    simp only [List.nodup_cons, List.nodup_nil, List.mem_cons, List.not_mem_nil, or_false,
      not_false_iff, and_true]
    omega
  calc [n.isNetworkAddr, n.isBroadcastAddr, n.isMinHost, n.isMaxHost].count true
      = [0, n.size.toNat - 1, 1, n.size.toNat - 2].count n.offset := by
        rw [marks_of_le hn h, List.count_eq_countP, List.countP_map, List.count_eq_countP]
        apply List.countP_congr
        intro k _
        simp
    _ ≤ 1 := List.nodup_iff_count_le_one.1 hnodup n.offset

/-! ### Prefixes that leave all addresses usable -/

theorem isMinHost_of_allUsable (hn : n.Valid) (h : n.allUsable) :
    n.isMinHost = n.isNetworkAddr := by
  rw [isMinHost_eq hn, isNetworkAddr_eq, reserved_of_allUsable h]

theorem isMaxHost_of_allUsable (hn : n.Valid) (h : n.allUsable) :
    n.isMaxHost = n.isBroadcastAddr := by
  rw [isMaxHost_eq hn, isBroadcastAddr_eq, reserved_of_allUsable h, Nat.sub_zero]

/-- An address of two is the one or the other. -/
theorem isBroadcastAddr_of_pair (h : n.size.toNat = 2) :
    n.isBroadcastAddr = !n.isNetworkAddr := by
  have hlt := n.offset_lt_size
  rw [isBroadcastAddr_eq, isNetworkAddr_eq, ← decide_not, decide_eq_decide]
  omega

/-- A single address is the lowest and the highest. -/
theorem isNetworkAddr_of_single (h : n.size.toNat = 1) : n.isNetworkAddr ∧ n.isBroadcastAddr := by
  have hlt := n.offset_lt_size
  rw [isBroadcastAddr_eq, isNetworkAddr_eq, decide_eq_true_iff, decide_eq_true_iff]
  omega

theorem size_of_31 (h : n.prefixLen = 31) : n.size.toNat = 2 := by
  rw [size, h]
  rfl

theorem size_of_32 (h : n.prefixLen = 32) : n.size.toNat = 1 := by
  rw [size, h]
  rfl

end Inet.Network
