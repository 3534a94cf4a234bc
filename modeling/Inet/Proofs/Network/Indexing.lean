/-
Inet/Proofs/Network/Indexing.lean

The addresses of a block, by their bits, by their order and by their index.

A network contains the addresses that have its first `prefixLen` bits.  They
are also those from the network address to the broadcast address, and those
that stand at an index:

    get? index = some addr   iff   index < size  and  addr = networkAddr + index

(`get?_eq_some_iff`).  So the index of an address is its distance from the
network address, and indices and addresses are in the same order.  None of this
asks for a prefix length of at most 32.
-/
import Inet.Proofs.Network.Hosts
import Mathlib.Logic.ExistsUnique
import Mathlib.Tactic.TFAE

namespace Inet.Network

open Address

variable {n : Network} {addr : Address} {index : UInt64}

/-! ### Membership -/

theorem contains_iff_mem_interval :
    n.contains addr ↔ n.networkAddr ≤ addr ∧ addr ≤ n.broadcastAddr := by
  have hsize := size_pos (n := n)
  rw [contains_iff, le_iff_number_le, le_iff_number_le, number_broadcastAddr]
  omega

theorem contains_iff_getMsbD :
    n.contains addr
      ↔ ∀ i < n.prefixLen.toNat,
        addr.bits.toBitVec.getMsbD i = n.addr.bits.toBitVec.getMsbD i := by
  rw [contains, decide_eq_true_iff]
  exact Block.and_mask_eq_iff_getMsbD

/-! ### Indices -/

theorem get?_eq_none_iff : n.get? index = none ↔ n.size ≤ index := by
  rw [get?]
  split <;> simp_all

/-- The addresses at the indices are consecutive. -/
theorem get?_eq_some_iff :
    n.get? index = some addr
      ↔ index.toNat < n.size.toNat ∧ addr.number = n.networkAddr.number + index.toNat := by
  have hend := networkAddr_add_size_le (n := n)
  by_cases hlt : index.toNat < n.size.toNat
  · rw [get?_of_lt hlt, Option.some.injEq, and_iff_right hlt, ← number_inj,
      number_ofNumber (by omega)]
    exact eq_comm
  · have hnone : n.get? index = none := by
      rw [get?_eq_none_iff, UInt64.le_iff_toNat_le]
      omega
    simp [hnone, hlt]

/-- The index of an address is its distance from the network address. -/
theorem get?_eq_some_iff_contains :
    n.get? index = some addr
      ↔ n.contains addr ∧ index.toNat = addr.number - n.networkAddr.number := by
  rw [get?_eq_some_iff, contains_iff]
  omega

theorem get?_injective {index' : UInt64} (h : n.get? index = some addr)
    (h' : n.get? index' = some addr) : index = index' := by
  rw [get?_eq_some_iff] at h h'
  rw [← UInt64.toNat_inj]
  omega

/-- Every member has an index. -/
theorem exists_get?_of_contains (h : n.contains addr) : ∃ index, n.get? index = some addr := by
  have haddr := addr.number_lt
  have hindex : (UInt64.ofNat (addr.number - n.networkAddr.number)).toNat
      = addr.number - n.networkAddr.number :=
    UInt64.toNat_ofNat_of_lt' (by simp only [UInt64.size]; omega)
  exact ⟨_, get?_eq_some_iff_contains.2 ⟨h, hindex⟩⟩

/-- Indices and addresses are in the same order. -/
theorem get?_lt_get?_iff {i j : UInt64} {x y : Address} (hx : n.get? i = some x)
    (hy : n.get? j = some y) : x < y ↔ i < j := by
  rw [get?_eq_some_iff] at hx hy
  rw [lt_iff_number_lt, UInt64.lt_iff_toNat_lt]
  omega

theorem get?_zero : n.get? 0 = some n.networkAddr := by
  rw [get?_eq_some_iff]
  exact ⟨size_pos, rfl⟩

theorem get?_size_sub_one : n.get? (n.size - 1) = some n.broadcastAddr := by
  have hsize := size_pos (n := n)
  have hone : (1 : UInt64).toNat = 1 := rfl
  have hlast : (n.size - 1).toNat = n.size.toNat - 1 :=
    UInt64.toNat_sub_of_le _ _ (UInt64.le_iff_toNat_le.2 (by rw [hone]; exact hsize))
  rw [get?_eq_some_iff, number_broadcastAddr, hlast]
  omega

/-- **Membership, the interval between the ends of the block, the network bits and the index
coincide.**  Indices run from the network address to the broadcast address in the order of
addresses, and there is none from the size on. -/
theorem tfae_contains (n : Network) :
    (∀ addr, [n.contains addr = true,
      n.networkAddr ≤ addr ∧ addr ≤ n.broadcastAddr,
      ∀ i < n.prefixLen.toNat, addr.bits.toBitVec.getMsbD i = n.addr.bits.toBitVec.getMsbD i,
      ∃ index, n.get? index = some addr,
      ∃! index, n.get? index = some addr].TFAE)
    ∧ (∀ addr index, n.get? index = some addr
        ↔ n.contains addr ∧ index.toNat = addr.number - n.networkAddr.number)
    ∧ (∀ index, n.get? index = none ↔ n.size ≤ index)
    ∧ (∀ i j, i < j → j < n.size →
        ∃ x y, n.get? i = some x ∧ n.get? j = some y ∧ x < y)
    ∧ n.get? 0 = some n.networkAddr
    ∧ n.get? (n.size - 1) = some n.broadcastAddr := by
  refine ⟨?_, fun _ _ => get?_eq_some_iff_contains, fun _ => get?_eq_none_iff, ?_, get?_zero,
    get?_size_sub_one⟩
  · intro addr
    tfae_have 1 ↔ 2 := contains_iff_mem_interval
    tfae_have 1 ↔ 3 := contains_iff_getMsbD
    tfae_have 1 → 4 := exists_get?_of_contains
    tfae_have 4 → 5 := by
      rintro ⟨index, h⟩
      exact ⟨index, h, fun index' h' => get?_injective h' h⟩
    tfae_have 5 → 1 := by
      rintro ⟨index, h, -⟩
      exact (get?_eq_some_iff_contains.1 h).1
    tfae_finish
  · intro i j hij hj
    have hi : i.toNat < n.size.toNat :=
      Nat.lt_trans (UInt64.lt_iff_toNat_lt.1 hij) (UInt64.lt_iff_toNat_lt.1 hj)
    have hx := get?_of_lt hi
    have hy := get?_of_lt (UInt64.lt_iff_toNat_lt.1 hj)
    exact ⟨_, _, hx, hy, (get?_lt_get?_iff hx hy).2 hij⟩

/-- The last block of four addresses, and an index past it whose low 32 bits are those of 0. -/
theorem tfae_contains_lastFour :
    let n : Network := ⟨⟨255, 255, 255, 253⟩, 30⟩
    n.get? 4294967296 = none
    ∧ (1 : UInt64) < 3 ∧ (3 : UInt64) < n.size
    ∧ ∃ x y, n.get? 1 = some x ∧ n.get? 3 = some y ∧ x < y := by
  intro n
  obtain ⟨-, -, hnone, hmono, -, -⟩ := tfae_contains n
  have hij : (1 : UInt64) < 3 := by decide
  have hj : (3 : UInt64) < n.size := by decide
  exact ⟨(hnone _).2 (by decide), hij, hj, hmono 1 3 hij hj⟩

end Inet.Network
