/-
Inet/Proofs/HostRange/Walk.lean

What a walk over the hosts of a network can do, step after step.

A step saves the range that is left, goes back to the range saved last, finds
none saved, or visits hosts and leaves the saved ranges alone (`Leads`).  From
this one case analysis follows what all steps keep:

  * the range and each saved one lie among the hosts of the network, with
    their ends in order (`Within`);
  * only going back undoes what the steps before it took.

Saving and going back are brackets.  Steps between a bracket and its partner
are `Balanced`, whatever else they do, and leave the stack as it was; so the
step that goes back restores the walk that came to the bracket
(`Balanced.reached_bracket`).  That each saved range has such a bracket is an
invariant of the stack (`Opened`).
-/
import Inet.HostRange.Walk
import Inet.Proofs.HostRange.Visited
import Inet.Proofs.Network.Hosts

namespace Inet

open Address

/-- The range lies among the usable hosts of `n`, and its ends have not passed each other. -/
structure HostRange.Within (n : Network) (r : HostRange) : Prop where
  minHost_le : n.minHost.number ≤ r.next.toNat
  next_le_stop : r.next.toNat ≤ r.stop.toNat
  stop_le : r.stop.toNat ≤ n.maxHost.number + 1

namespace HostRange

variable {n : Network} {r r' : HostRange}

theorem within_hosts (hn : n.Valid) : n.hosts.Within n := by
  have hreserved := Network.two_mul_reserved_lt_size hn
  have hmin := Network.number_minHost hn
  have hmax := Network.number_maxHost hn
  constructor
  · rw [toNat_next_hosts]
  · rw [toNat_next_hosts, toNat_stop_hosts]
    omega
  · rw [toNat_stop_hosts]

/-- Visits do not lead out of the hosts. -/
theorem Within.of_visited {found : List Address} (h : r.Within n) (hvisit : r.Visited found r') :
    r'.Within n where
  minHost_le := Nat.le_trans h.minHost_le (UInt64.le_iff_toNat_le.1 hvisit.isPartOf.next_le)
  next_le_stop :=
    UInt64.le_iff_toNat_le.1 (hvisit.next_le_stop (UInt64.le_iff_toNat_le.2 h.next_le_stop))
  stop_le := Nat.le_trans (UInt64.le_iff_toNat_le.1 hvisit.isPartOf.stop_le) h.stop_le

theorem Within.proper (h : r.Within n) : r.Proper where
  next_le_stop := UInt64.le_iff_toNat_le.2 h.next_le_stop
  stop_le := Nat.le_trans h.stop_le n.maxHost.number_lt

/-- The hosts of a range among those of a network are the addresses between its ends. -/
theorem Within.mem_addrs_iff (h : r.Within n) {addr : Address} :
    addr ∈ r.addrs ↔ r.next.toNat ≤ addr.number ∧ addr.number < r.stop.toNat :=
  h.proper.mem_addrs_iff

/-- Hosts of a range among those of a network are hosts of it. -/
theorem Within.mem_hosts (hn : n.Valid) (h : r.Within n) {addr : Address}
    (haddr : addr ∈ r.addrs) : addr ∈ n.hosts.addrs := by
  have hmin := h.minHost_le
  have hmax := h.stop_le
  rw [h.mem_addrs_iff] at haddr
  rw [(within_hosts hn).mem_addrs_iff, toNat_next_hosts, toNat_stop_hosts]
  omega

end HostRange

namespace Walk

variable {n : Network} {w w' : Walk} {step : Step} {steps more : List Step}
  {found : List Address}

/-! ### One step -/

/-- The hosts in an answer. -/
def Answer.addrs : Answer → List Address
  | .host addr => addr.toList
  | .hosts addrs => addrs
  | .ends min max => min.toList ++ max.toList
  | .bounds .. | .number _ | .position _ | .restored _ => []

/-- The hosts in the answer of a step; a step that is rejected answers with none. -/
def Outcome.addrs (outcome : Outcome) : List Address :=
  match outcome.answer with
  | .ok answer => answer.addrs
  | .error _ => []

/-- A step that neither saves a range nor goes back to one. -/
def Step.IsVisit (step : Step) : Prop := step ≠ .push ∧ step ≠ .pop

/-- All that a step can do: the hosts that it answers with, and the walk after it. -/
inductive Leads (w : Walk) : Step → List Address → Walk → Prop where
  | save : Leads w .push [] ⟨w.range, w.range :: w.saved⟩
  | restore {range : HostRange} {saved : List HostRange} :
      w.saved = range :: saved → Leads w .pop [] ⟨range, saved⟩
  | nothing : w.saved = [] → Leads w .pop [] w
  | visit {step : Step} {found : List Address} {range : HostRange} :
      step.IsVisit → w.range.Visited found range → Leads w step found ⟨range, w.saved⟩

/-- A step that answers and leaves the saved ranges alone is a visit, if it is one of the range. -/
theorem leads_of_visited {answer answer' : Answer} {range : HostRange}
    (h : (pure (answer, ⟨range, w.saved⟩) : Attempt AddressError (Answer × Walk)).result
      = .ok (answer', w'))
    (hstep : step.IsVisit) (hvisit : w.range.Visited answer.addrs range) :
    Leads w step answer'.addrs w' := by
  obtain ⟨rfl, rfl⟩ := Prod.mk.inj (Except.ok.inj h)
  exact .visit hstep hvisit

/-- All that a step does that is not rejected. -/
theorem leads_of_apply {answer : Answer} (h : (w.apply step).result = .ok (answer, w')) :
    Leads w step answer.addrs w' := by
  open HostRange in
  cases step with
  | next => exact leads_of_visited h ⟨nofun, nofun⟩ (visited_popFirst _)
  | nextBack => exact leads_of_visited h ⟨nofun, nofun⟩ (visited_popLast _)
  | nth n => exact leads_of_visited h ⟨nofun, nofun⟩ (visited_popNth n _)
  | nthBack n => exact leads_of_visited h ⟨nofun, nofun⟩ (visited_popNthLast n _)
  | take n => exact leads_of_visited h ⟨nofun, nofun⟩ (visited_takeFirst n _)
  | takeBack n => exact leads_of_visited h ⟨nofun, nofun⟩ (visited_takeLast n _)
  | sizeHint | len | count => exact leads_of_visited h ⟨nofun, nofun⟩ (.refl _)
  | last => exact leads_of_visited h ⟨nofun, nofun⟩ (visited_last? _)
  | minMax => exact leads_of_visited h ⟨nofun, nofun⟩ ((visited_min? _).trans (visited_max? _))
  | findFree used =>
    -- the addresses are read before any host is taken
    obtain ⟨addrs, -, h⟩ := Attempt.result_bind_eq_ok_iff.1 h
    exact leads_of_visited h ⟨nofun, nofun⟩ (visited_findFirst _ _)
  | findFreeBack used =>
    obtain ⟨addrs, -, h⟩ := Attempt.result_bind_eq_ok_iff.1 h
    exact leads_of_visited h ⟨nofun, nofun⟩ (visited_findLast _ _)
  | position target =>
    obtain ⟨addr, -, h⟩ := Attempt.result_bind_eq_ok_iff.1 h
    exact leads_of_visited h ⟨nofun, nofun⟩ (visited_positionFrom addr 0 _)
  | push =>
    obtain ⟨rfl, rfl⟩ := Prod.mk.inj (Except.ok.inj h)
    exact .save
  | pop =>
    rcases hsaved : w.saved with - | ⟨range, saved⟩
    · simp only [apply, hsaved] at h
      obtain ⟨rfl, rfl⟩ := Prod.mk.inj (Except.ok.inj h)
      exact .nothing hsaved
    · simp only [apply, hsaved] at h
      obtain ⟨rfl, rfl⟩ := Prod.mk.inj (Except.ok.inj h)
      exact .restore hsaved

/-- A step that is rejected was given addresses, so it would have been a visit. -/
theorem isVisit_of_apply {error : AddressError} (h : (w.apply step).result = .error error) :
    step.IsVisit := by
  constructor
  · rintro rfl
    contradiction
  · rintro rfl
    rcases hsaved : w.saved with - | ⟨range, saved⟩ <;> simp only [apply, hsaved] at h <;>
      contradiction

theorem perform_leads (w : Walk) (step : Step) :
    Leads w step (w.perform step).addrs (w.perform step).after := by
  rcases h : (w.apply step).result with error | ⟨answer, after⟩
  · -- a rejected step is like a visit that takes nothing
    simp only [perform, h, Outcome.addrs]
    exact .visit (isVisit_of_apply h) (.refl _)
  · simp only [perform, h, Outcome.addrs]
    exact leads_of_apply h

/-! ### What one step keeps -/

/-- The range and the saved ones lie among the usable hosts of `n`. -/
structure Within (n : Network) (w : Walk) : Prop where
  range : w.range.Within n
  saved : ∀ r ∈ w.saved, r.Within n

theorem Leads.within (h : Leads w step found w') (hw : w.Within n) : w'.Within n := by
  cases h with
  | save => exact ⟨hw.range, List.forall_mem_cons.2 ⟨hw.range, hw.saved⟩⟩
  | restore hsaved =>
    obtain ⟨hrange, hrest⟩ := List.forall_mem_cons.1 (hsaved ▸ hw.saved)
    exact ⟨hrange, hrest⟩
  | nothing => exact hw
  | visit _ hvisit => exact ⟨hw.range.of_visited hvisit, hw.saved⟩

theorem Leads.mem_addrs (h : Leads w step found w') {addr : Address} (haddr : addr ∈ found) :
    addr ∈ w.range.addrs := by
  cases h with
  | save | restore | nothing => contradiction
  | visit _ hvisit => exact hvisit.mem_addrs addr haddr

/-- Only going back gives hosts back. -/
theorem Leads.isPartOf (h : Leads w step found w') (hstep : step ≠ .pop) :
    w'.range.IsPartOf w.range := by
  cases h with
  | save => exact .refl _
  | restore | nothing => contradiction
  | visit _ hvisit => exact hvisit.isPartOf

theorem Leads.saved_eq (h : Leads w step found w') (hstep : step.IsVisit) :
    w'.saved = w.saved := by
  cases h with
  | save => exact absurd rfl hstep.1
  | restore | nothing => exact absurd rfl hstep.2
  | visit => rfl

theorem perform_pop_of_nil (h : w.saved = []) : (w.perform .pop).after = w := by
  simp only [perform, apply, h]
  rfl

theorem perform_pop_of_cons {range : HostRange} {saved : List HostRange}
    (h : w.saved = range :: saved) : (w.perform .pop).after = ⟨range, saved⟩ := by
  simp only [perform, apply, h]
  rfl

/-! ### Any number of steps -/

/-- The walk after steps. -/
def reached (w : Walk) : List Step → Walk
  | [] => w
  | step :: steps => reached (w.perform step).after steps

theorem reached_append (w : Walk) (steps more : List Step) :
    reached w (steps ++ more) = reached (reached w steps) more := by
  induction steps generalizing w with
  | nil => rfl
  | cons step steps ih => exact ih (w.perform step).after

/-- A run goes on from the walk that it has reached. -/
theorem run_append (w : Walk) (steps more : List Step) :
    run w (steps ++ more) = run w steps ++ run (reached w steps) more := by
  induction steps generalizing w with
  | nil => rfl
  | cons step steps ih =>
    rw [List.cons_append, run, ih]
    rfl

theorem reached_within (hw : w.Within n) (steps : List Step) : (reached w steps).Within n := by
  induction steps generalizing w with
  | nil => exact hw
  | cons step steps ih => exact ih ((perform_leads w step).within hw)

/-- Wherever steps lead from the start, the range lies among the hosts of the network. -/
theorem within_reached_start (hn : n.Valid) (steps : List Step) :
    (reached (start n) steps).range.Within n := by
  have hstart : (start n).Within n := ⟨HostRange.within_hosts hn, List.forall_mem_nil _⟩
  exact (reached_within hstart steps).range

/-! ### Brackets -/

/-- Steps among which each that goes back has its partner before it, and each that saves has its
partner behind it. -/
inductive Balanced : List Step → Prop where
  | nil : Balanced []
  | visit {step : Step} : step.IsVisit → Balanced [step]
  | append {steps more : List Step} : Balanced steps → Balanced more → Balanced (steps ++ more)
  | bracket {steps : List Step} : Balanced steps → Balanced (.push :: steps ++ [.pop])

theorem Balanced.cons (hstep : step.IsVisit) (h : Balanced steps) : Balanced (step :: steps) :=
  .append (.visit hstep) h

/-- Steps that leave the stack as it was can be undone by going back. -/
theorem reached_bracket_of_saved_eq (h : ∀ w, (reached w steps).saved = w.saved) (w : Walk) :
    reached w (.push :: steps ++ [.pop]) = w := by
  rw [List.cons_append, reached, reached_append]
  exact perform_pop_of_cons (h (w.perform .push).after)

/-- Balanced steps leave the stack as it was. -/
theorem Balanced.reached_saved (h : Balanced steps) (w : Walk) :
    (reached w steps).saved = w.saved := by
  induction h generalizing w with
  | nil => rfl
  | visit hstep => exact (perform_leads w _).saved_eq hstep
  | append _ _ ih ih' => rw [reached_append, ih', ih]
  | bracket _ ih => rw [reached_bracket_of_saved_eq ih]

/-- Going back leads to the walk that came to the opening bracket. -/
theorem Balanced.reached_bracket (h : Balanced steps) (w : Walk) :
    reached w (.push :: steps ++ [.pop]) = w :=
  reached_bracket_of_saved_eq h.reached_saved w

/-- Each range on the stack was saved by a step that has no partner yet, and the steps behind it, up
to the next such step, are balanced. -/
inductive Opened (w : Walk) : List Step → List HostRange → Prop where
  | nil {steps : List Step} : Opened w steps []
  | push {before between : List Step} {range : HostRange} {saved : List HostRange} :
      reached w before = ⟨range, saved⟩ → Opened w before saved → Balanced between →
      Opened w (before ++ .push :: between) (range :: saved)

theorem Opened.append {saved : List HostRange} (h : Opened w steps saved) (hmore : Balanced more) :
    Opened w (steps ++ more) saved := by
  cases h with
  | nil => exact .nil
  | push hrange hbefore hbetween =>
    rw [List.append_assoc, List.cons_append]
    exact .push hrange hbefore (hbetween.append hmore)

theorem Opened.exists_push {saved : List HostRange} (h : Opened w steps saved)
    (hsaved : saved ≠ []) :
    ∃ before between, steps = before ++ .push :: between ∧ Balanced between := by
  cases h with
  | nil => contradiction
  | push _ _ hbetween => exact ⟨_, _, rfl, hbetween⟩

/-- A step opens a bracket, closes the one opened last, or leaves all as they are. -/
theorem Opened.next (h : Opened w steps (reached w steps).saved)
    (hleads : Leads (reached w steps) step found w') : Opened w (steps ++ [step]) w'.saved := by
  cases hleads with
  | save => exact .push rfl h .nil
  | restore hsaved =>
    rw [hsaved] at h
    cases h with
    | push _ hbefore hbetween =>
      -- the two partners and what is between them are balanced
      rw [List.append_assoc]
      exact hbefore.append hbetween.bracket
  | nothing hsaved =>
    rw [hsaved]
    exact .nil
  | visit hstep => exact h.append (.visit hstep)

/-- Whatever the steps were, each range on the stack has its bracket. -/
theorem opened_reached (hw : w.saved = []) (steps : List Step) :
    Opened w steps (reached w steps).saved := by
  induction steps using List.reverseRecOn with
  | nil =>
    rw [reached, hw]
    exact .nil
  | append_singleton steps step ih =>
    rw [reached_append]
    exact ih.next (perform_leads (reached w steps) step)

/-- Going back right after balanced steps restores the walk that came to the opening bracket. -/
theorem perform_pop_of_balanced {before between : List Step} (h : Balanced between) (w : Walk) :
    ((reached w (before ++ .push :: between)).perform .pop).after = reached w before :=
  calc ((reached w (before ++ .push :: between)).perform .pop).after
      = reached (reached w (before ++ .push :: between)) [Step.pop] := rfl
    _ = reached w (before ++ (.push :: between ++ [Step.pop])) := by
        rw [← reached_append, List.append_assoc]
    _ = reached (reached w before) (.push :: between ++ [Step.pop]) := reached_append ..
    _ = reached w before := h.reached_bracket _

/-- **A walk stays among the hosts of its network.**  After any steps, its range and the saved ones
lie between the lowest and the highest host, with their ends in order.  The next step, which is
carried out from there, answers with hosts of the range; only going back moves an end outwards, and
it leads to the walk that came to its partner, or, where nothing is saved, nowhere. -/
theorem reached_start_keeps (n : Network) (hn : n.Valid) (steps : List Step) (step : Step) :
    let w := reached (start n) steps
    let outcome := w.perform step
    run (start n) (steps ++ [step]) = run (start n) steps ++ [outcome]
    ∧ w.Within n
    ∧ (∀ addr ∈ outcome.addrs,
        w.range.next.toNat ≤ addr.number ∧ addr.number < w.range.stop.toNat)
    ∧ (step ≠ .pop →
        w.range.next ≤ outcome.after.range.next ∧ outcome.after.range.stop ≤ w.range.stop)
    ∧ (w.saved = [] → (w.perform .pop).after = w)
    ∧ (w.saved ≠ [] → ∃ before between, steps = before ++ .push :: between ∧ Balanced between)
    ∧ ∀ before between, steps = before ++ .push :: between → Balanced between →
        (w.perform .pop).after = reached (start n) before := by
  intro w outcome
  have hwithin : w.Within n :=
    reached_within ⟨HostRange.within_hosts hn, by simp [start]⟩ steps
  have hleads : Leads w step outcome.addrs outcome.after := perform_leads w step
  refine ⟨run_append _ _ _, hwithin, ?_, ?_, perform_pop_of_nil, ?_, ?_⟩
  · intro addr haddr
    exact hwithin.range.mem_addrs_iff.1 (hleads.mem_addrs haddr)
  · intro hstep
    have hpart := hleads.isPartOf hstep
    exact ⟨hpart.next_le, hpart.stop_le⟩
  · exact (opened_reached rfl steps).exists_push
  · rintro before between rfl hbetween
    exact perform_pop_of_balanced hbetween (start n)

/-- Brackets within brackets, with a text that is no address and more hosts asked for than there
are: the outer one restores the range behind the first host. -/
theorem reached_start_keeps_nested :
    let n : Network := ⟨⟨10, 0, 0, 1⟩, 29⟩
    let between : List Step := [.nthBack 1, .push, .findFree ["10.0.0"], .take 9, .pop]
    let w := reached (start n) ([.next] ++ .push :: between)
    n.Valid ∧ Balanced between
    ∧ w.Within n
    ∧ (w.perform .pop).after = reached (start n) [.next] := by
  intro n between w
  have hn : n.Valid := by decide
  have hinner : Balanced [.findFree ["10.0.0"], .take 9] :=
    .cons ⟨nofun, nofun⟩ (.cons ⟨nofun, nofun⟩ .nil)
  have hbetween : Balanced between := .cons ⟨nofun, nofun⟩ hinner.bracket
  obtain ⟨-, hwithin, -, -, -, -, hback⟩ :=
    reached_start_keeps n hn ([.next] ++ .push :: between) .pop
  exact ⟨hn, hbetween, hwithin, hback [.next] between rfl hbetween⟩

end Walk

end Inet
