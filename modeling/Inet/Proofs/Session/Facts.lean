/-
Inet/Proofs/Session/Facts.lean

What a session says of the own address of its network.

After each step a session writes four digits: whether the own address is the
network address, the broadcast address, the lowest and the highest usable
host.  Each is decided by the offset of the own address in its block, and so
of the sixteen words of four digits only these are written:

    0000, 1000, 0100, 0010, 0001    for a prefix of at most 30 bits
    1010, 0101                      for one of 31 bits
    1111                            for one of 32 bits

The networks of a session are valid (`valid_of_mem_run`), so that there is no
prefix of more bits.
-/
import Inet.Proofs.Network.Offset
import Inet.Proofs.Session.Run

namespace Inet.Session

variable {n : Network}

/-! ### Digits -/

/-- Four answers, each as one digit. -/
def digits (network broadcast min max : Bool) : String :=
  let digit (fact : Bool) : Char := if fact then '1' else '0'
  String.ofList [digit network, digit broadcast, digit min, digit max]

theorem facts_eq (n : Network) :
    facts n = digits n.isNetworkAddr n.isBroadcastAddr n.isMinHost n.isMaxHost := rfl

theorem digits_of_count_le_one : ∀ a b c d : Bool, [a, b, c, d].count true ≤ 1 →
    digits a b c d ∈ ["0000", "1000", "0100", "0010", "0001"] := by
  decide

theorem digits_of_not : ∀ a : Bool, digits a (!a) a (!a) ∈ ["1010", "0101"] := by
  decide

theorem facts_of_le (hn : n.Valid) (h : n.prefixLen ≤ 30) :
    facts n ∈ ["0000", "1000", "0100", "0010", "0001"] :=
  digits_of_count_le_one _ _ _ _ (Network.count_marks_le_one hn h)

theorem facts_of_31 (hn : n.Valid) (h : n.prefixLen = 31) : facts n ∈ ["1010", "0101"] := by
  have hall : n.allUsable := Network.allUsable_iff.2 (.inl h)
  rw [facts_eq, Network.isMinHost_of_allUsable hn hall, Network.isMaxHost_of_allUsable hn hall,
    Network.isBroadcastAddr_of_pair (Network.size_of_31 h)]
  exact digits_of_not _

theorem facts_of_32 (hn : n.Valid) (h : n.prefixLen = 32) : facts n = "1111" := by
  have hall : n.allUsable := Network.allUsable_iff.2 (.inr h)
  obtain ⟨hnetwork, hbroadcast⟩ := Network.isNetworkAddr_of_single (Network.size_of_32 h)
  rw [facts_eq, Network.isMinHost_of_allUsable hn hall, Network.isMaxHost_of_allUsable hn hall,
    hnetwork, hbroadcast]
  rfl

/-! ### All steps of a session -/

theorem valid_of_mem_run (hn : n.Valid) {steps : List Step} {outcome : Outcome}
    (h : outcome ∈ run n steps) : outcome.after.Valid := by
  obtain ⟨before, -, hafter⟩ := after_eq_reached h
  rw [hafter]
  exact reached_valid hn before

/-- **The offset of the own address decides what is said of it.**  In a block that sets addresses
apart the four answers are those to whether the offset is 0, 1, the last but one and the last, and
at most one of them is yes.  The two addresses of a prefix of 31 bits are the one the network
address and the lowest host, the other the broadcast address and the highest; the one address of a
prefix of 32 bits is all four.  In a session therefore no other digits occur. -/
theorem facts_by_offset (n : Network) (hn : n.Valid) (steps : List Step) :
    n.networkAddr.number + n.offset = n.addr.number
    ∧ (n.prefixLen ≤ 30 →
      (n.isNetworkAddr ↔ n.offset = 0) ∧ (n.isMinHost ↔ n.offset = 1)
      ∧ (n.isMaxHost ↔ n.offset = n.size.toNat - 2)
      ∧ (n.isBroadcastAddr ↔ n.offset = n.size.toNat - 1)
      ∧ [n.isNetworkAddr, n.isBroadcastAddr, n.isMinHost, n.isMaxHost].count true ≤ 1)
    ∧ (n.prefixLen = 31 →
      n.isNetworkAddr = n.isMinHost ∧ n.isBroadcastAddr = n.isMaxHost
      ∧ n.isBroadcastAddr = !n.isNetworkAddr)
    ∧ (n.prefixLen = 32 →
      n.isNetworkAddr ∧ n.isMinHost ∧ n.isBroadcastAddr ∧ n.isMaxHost)
    ∧ ∀ outcome ∈ run n steps, outcome.after.Valid
      ∧ (outcome.after.prefixLen ≤ 30 →
        facts outcome.after ∈ ["0000", "1000", "0100", "0010", "0001"])
      ∧ (outcome.after.prefixLen = 31 → facts outcome.after ∈ ["1010", "0101"])
      ∧ (outcome.after.prefixLen = 32 → facts outcome.after = "1111") := by
  refine ⟨n.networkAddr_add_offset, ?_, ?_, ?_, ?_⟩
  · intro h
    refine ⟨?_, ?_, ?_, ?_, Network.count_marks_le_one hn h⟩
    · rw [Network.isNetworkAddr_eq, decide_eq_true_iff]
    · rw [Network.isMinHost_eq hn, decide_eq_true_iff, Network.reserved_of_le hn h]
    · rw [Network.isMaxHost_eq hn, decide_eq_true_iff, Network.reserved_of_le hn h]
      rfl
    · rw [Network.isBroadcastAddr_eq, decide_eq_true_iff]
  · intro h
    have hall : n.allUsable := Network.allUsable_iff.2 (.inl h)
    exact ⟨(Network.isMinHost_of_allUsable hn hall).symm,
      (Network.isMaxHost_of_allUsable hn hall).symm,
      Network.isBroadcastAddr_of_pair (Network.size_of_31 h)⟩
  · intro h
    have hall : n.allUsable := Network.allUsable_iff.2 (.inr h)
    obtain ⟨hnetwork, hbroadcast⟩ := Network.isNetworkAddr_of_single (Network.size_of_32 h)
    rw [Network.isMinHost_of_allUsable hn hall, Network.isMaxHost_of_allUsable hn hall]
    exact ⟨hnetwork, hnetwork, hbroadcast, hbroadcast⟩
  · intro outcome houtcome
    have hafter := valid_of_mem_run hn houtcome
    exact ⟨hafter, facts_of_le hafter, facts_of_31 hafter, facts_of_32 hafter⟩

/-- The highest host of four addresses, then one of two, then alone. -/
theorem facts_by_offset_narrowing :
    let n : Network := ⟨⟨10, 0, 0, 2⟩, 30⟩
    let pair := perform n (.setPrefix 31)
    let single := perform pair.after (.setPrefix 32)
    n.Valid ∧ (n.prefixLen ≤ 30 ∧ n.offset = 2 ∧ n.isMaxHost)
    ∧ pair ∈ run n [.setPrefix 31, .setPrefix 32]
    ∧ (pair.after.prefixLen = 31 ∧ facts pair.after ∈ ["1010", "0101"])
    ∧ single ∈ run n [.setPrefix 31, .setPrefix 32]
    ∧ (single.after.prefixLen = 32 ∧ facts single.after = "1111") := by
  intro n pair single
  have hn : n.Valid := by decide
  obtain ⟨-, hlong, -, -, hsession⟩ := facts_by_offset n hn [.setPrefix 31, .setPrefix 32]
  have hpair : pair ∈ run n [.setPrefix 31, .setPrefix 32] := List.mem_cons_self
  have hsingle : single ∈ run n [.setPrefix 31, .setPrefix 32] :=
    List.mem_cons_of_mem _ List.mem_cons_self
  obtain ⟨-, -, hpairFacts, -⟩ := hsession pair hpair
  obtain ⟨-, -, -, hsingleFacts⟩ := hsession single hsingle
  obtain ⟨-, -, hmax, -⟩ := hlong (by decide)
  exact ⟨hn, ⟨by decide, by decide, hmax.2 (by decide)⟩, hpair,
    ⟨by decide, hpairFacts (by decide)⟩, hsingle, ⟨by decide, hsingleFacts (by decide)⟩⟩

end Inet.Session
