/-
Inet/Proofs/Session/Moves.lean

Sessions that move within a block.

A move takes the address of a network to one that is derived from it: an end of
the block, an outermost host, the address at an index.  All of these are in the
block, so that a move keeps the block and can be followed by any other.  What a
move leads to depends on the block alone (`goal?_eq_of_sameBlock`), not on the
address that the network has by then.  Hence after any number of moves

    reached n steps  =  what the last move leads to that led anywhere, or n

(`reached_of_isMove`).
-/
import Inet.Proofs.Network.SameBlock
import Inet.Proofs.Session.Effect

namespace Inet.Session

open Network

variable {m n : Network} {step : Step} {steps : List Step}

/-- The step moves the address within the block. -/
def Step.isMove : Step → Bool
  | .toNetwork | .toBroadcast | .toMin | .toMax | .toIndex _ => true
  | _ => false

/-- The network that a move leads to, unless it looks for an address at an index that there is
not. -/
def Step.goal? (n : Network) : Step → Option Network
  | .toNetwork => some { n with addr := n.networkAddr }
  | .toBroadcast => some { n with addr := n.broadcastAddr }
  | .toMin => some { n with addr := n.minHost }
  | .toMax => some { n with addr := n.maxHost }
  | .toIndex index => (n.get? index).map fun addr => { n with addr }
  | _ => none

/-! ### One move -/

theorem goal?_eq_of_sameBlock (h : m.SameBlock n) (step : Step) : step.goal? m = step.goal? n := by
  cases step with
  | toNetwork => rw [Step.goal?, Step.goal?, h.networkAddr, h.prefixLen]
  | toBroadcast => rw [Step.goal?, Step.goal?, h.broadcastAddr, h.prefixLen]
  | toMin => rw [Step.goal?, Step.goal?, h.minHost, h.prefixLen]
  | toMax => rw [Step.goal?, Step.goal?, h.maxHost, h.prefixLen]
  | toIndex index => rw [Step.goal?, Step.goal?, h.get? index, h.prefixLen]
  | _ => rfl

/-- A move leads to a network with the same block. -/
theorem sameBlock_of_goal? (hn : n.Valid) (h : step.goal? n = some m) : m.SameBlock n := by
  cases step with
  | toNetwork =>
    obtain rfl := Option.some.inj h
    exact sameBlock_moved contains_networkAddr
  | toBroadcast =>
    obtain rfl := Option.some.inj h
    exact sameBlock_moved contains_broadcastAddr
  | toMin =>
    obtain rfl := Option.some.inj h
    exact sameBlock_moved (contains_minHost hn)
  | toMax =>
    obtain rfl := Option.some.inj h
    exact sameBlock_moved (contains_maxHost hn)
  | toIndex index =>
    obtain ⟨addr, haddr, rfl⟩ := Option.map_eq_some_iff.1 h
    exact sameBlock_moved (get?_eq_some_iff_contains.1 haddr).1
  | _ => contradiction

/-- All that a move does. -/
theorem perform_of_isMove (hn : n.Valid) (h : step.isMove) :
    perform n step
      = ⟨.ok (if (step.goal? n).isSome then .done else .absent), (step.goal? n).getD n, []⟩ := by
  cases step with
  | toNetwork | toBroadcast | toMin | toMax => exact perform_of_moveTo hn rfl
  | toIndex index =>
    rw [perform_toIndex hn, Step.goal?]
    cases n.get? index <;> rfl
  | _ => exact absurd h Bool.false_ne_true

/-! ### Any number of moves -/

/-- A move in a network with the block of `n` leads where it leads in `n`. -/
theorem after_of_isMove (hm : m.Valid) (hmn : m.SameBlock n) (h : step.isMove) :
    (perform m step).after = (step.goal? n).getD m := by
  rw [perform_of_isMove hm h, goal?_eq_of_sameBlock hmn]

theorem sameBlock_after (hn : n.Valid) (hm : m.Valid) (hmn : m.SameBlock n) (h : step.isMove) :
    (perform m step).after.SameBlock n := by
  rw [after_of_isMove hm hmn h]
  rcases hgoal : step.goal? n with - | m'
  · exact hmn
  · exact sameBlock_of_goal? hn hgoal

/-- Moves keep the block. -/
theorem sameBlock_reached (hn : n.Valid) (h : ∀ step ∈ steps, step.isMove) :
    (reached n steps).SameBlock n := by
  have hboth : (reached n steps).Valid ∧ (reached n steps).SameBlock n := by
    apply reached_induction (P := fun m => m.Valid ∧ m.SameBlock n) ?_ ⟨hn, .refl n⟩
    rintro m step hstep ⟨hm, hmn⟩
    exact ⟨perform_valid hm step, sameBlock_after hn hm hmn (h step hstep)⟩
  exact hboth.2

/-- The last move that leads anywhere decides, and leads where it would have led at once. -/
theorem reached_of_isMove (hn : n.Valid) (hm : m.Valid) (hmn : m.SameBlock n)
    (h : ∀ step ∈ steps, step.isMove) :
    reached m steps = (steps.filterMap (Step.goal? n)).getLast?.getD m := by
  induction steps generalizing m with
  | nil => rfl
  | cons step steps ih =>
    have hstep : step.isMove := h step List.mem_cons_self
    have hrest : ∀ s ∈ steps, s.isMove := fun s hs => h s (List.mem_cons_of_mem _ hs)
    rw [reached, ih (perform_valid hm step) (sameBlock_after hn hm hmn hstep) hrest,
      after_of_isMove hm hmn hstep, getLast?_filterMap_cons]

/-- **Moving the address within a block never changes the block.**  Every move succeeds without a
record, but for one to an index out of range, which changes nothing.  All networks on the way have
the block of the first and own addresses in it.  The last move that led anywhere decides where the
moves end, and it leads there from any network with this block. -/
theorem moves_keep_block (n : Network) (hn : n.Valid) (steps : List Step)
    (h : ∀ step ∈ steps, step.isMove) :
    (∀ step outcome, (step, outcome) ∈ trace n steps →
      outcome.answer = .ok (if (step.goal? n).isSome then .done else .absent)
      ∧ outcome.records = []
      ∧ outcome.after.SameBlock n
      ∧ n.contains outcome.after.addr)
    ∧ reached n steps = (steps.filterMap (Step.goal? n)).getLast?.getD n
    ∧ ∀ m : Network, m.Valid → (∀ addr, m.contains addr = n.contains addr) →
        steps.filterMap (Step.goal? n) ≠ [] → reached m steps = reached n steps := by
  refine ⟨?_, reached_of_isMove hn hn (.refl n) h, ?_⟩
  · intro step outcome hmem
    obtain ⟨before, after, rfl, rfl⟩ := mem_trace_iff.1 hmem
    have hstep : step.isMove := h step (by simp)
    have hbefore : (reached n before).SameBlock n :=
      sameBlock_reached hn fun s hs => h s (by simp [hs])
    have hvalid := reached_valid hn before
    have hafter := sameBlock_after hn hvalid hbefore hstep
    rw [perform_of_isMove hvalid hstep, goal?_eq_of_sameBlock hbefore] at hafter ⊢
    exact ⟨rfl, rfl, hafter, (sameBlock_iff.1 hafter).2⟩
  · intro m hm hmn hne
    obtain ⟨hlen, -⟩ := (forall_contains_eq_iff hm hn).1 hmn
    have hblock : m.SameBlock n := sameBlock_iff.2 ⟨hlen, (hmn m.addr).symm.trans contains_addr⟩
    -- the last goal is there, so that neither start is left over
    rw [reached_of_isMove hn hm hblock h, reached_of_isMove hn hn (.refl n) h,
      List.getLast?_eq_some_getLast hne]
    rfl

/-- The last block of four addresses, with moves to indices out of range around one to its lowest
host. -/
theorem moves_keep_block_lastFour :
    let n : Network := ⟨⟨255, 255, 255, 254⟩, 30⟩
    let m : Network := ⟨.broadcast, 30⟩
    let steps : List Step := [.toIndex 4, .toMin, .toIndex 4294967296]
    n.Valid ∧ m.Valid ∧ (∀ step ∈ steps, step.isMove)
    ∧ (∀ addr, m.contains addr = n.contains addr)
    ∧ (perform (reached n [.toIndex 4]) .toMin).after.SameBlock n
    ∧ reached n steps = ⟨⟨255, 255, 255, 253⟩, 30⟩
    ∧ reached m steps = reached n steps := by
  intro n m steps
  have hn : n.Valid := by decide
  have hm : m.Valid := by decide
  have hsteps : ∀ step ∈ steps, step.isMove := by decide
  have hmn : ∀ addr, m.contains addr = n.contains addr :=
    (sameBlock_iff.2 ⟨rfl, by decide⟩ : m.SameBlock n).contains
  have hmem : (.toMin, perform (reached n [.toIndex 4]) .toMin) ∈ trace n steps :=
    mem_trace_iff.2 ⟨[.toIndex 4], [.toIndex 4294967296], rfl, rfl⟩
  have hgoals : steps.filterMap (Step.goal? n) = [⟨⟨255, 255, 255, 253⟩, 30⟩] := by decide
  obtain ⟨htrace, hreached, hblock⟩ := moves_keep_block n hn steps hsteps
  refine ⟨hn, hm, hsteps, hmn, (htrace _ _ hmem).2.2.1, ?_, hblock m hm hmn (by simp [hgoals])⟩
  rw [hreached, hgoals]
  rfl

end Inet.Session
