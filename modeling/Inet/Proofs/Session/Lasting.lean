/-
Inet/Proofs/Session/Lasting.lean

Steps of a session that last, and steps that leave no trace.

A step is idle if it fails, if it only asks, or if it finds no address at its
index.  It leaves the network as it was (`after_of_idle`), whatever the network
is and whatever the reason of a failure.  So a run goes the same way without its
idle steps: with `lasting n steps` for the other ones, and for what came of
them,

    run n (the lasting steps)      =  what came of them among all steps
    reached n (the lasting steps)  =  reached n steps

Address and prefix length are set apart from each other.  After any number of
steps that set one of them, each is the last one that was good, or still that
of the beginning (`reached_of_isSetter`).
-/
import Inet.Proofs.Session.Effect

namespace Inet.Session

variable {n : Network} {step : Step} {steps : List Step}

/-! ### Idle steps -/

/-- The step has failed, or it only asks, or there is no address at its index. -/
def idle (step : Step) (answer : Except Failure Answer) : Bool :=
  match answer, step with
  | .error _, _ => true
  | .ok _, .contains _ => true
  | .ok _, .compareTo _ => true
  | .ok answer, .toIndex _ => answer = .absent
  | .ok _, _ => false

/-- A move that succeeds is done, even in a network that is not valid. -/
theorem answer_of_moveTo {n' : Network} {addr : Address} {answer : Answer}
    (h : (moveTo n addr).result = .ok (answer, n')) : answer = .done := by
  rw [moveTo, Attempt.result_bind_eq_ok_iff] at h
  obtain ⟨m, -, h⟩ := h
  exact (Prod.mk.inj (Except.ok.inj h)).1.symm

theorem after_of_idle (h : idle step (perform n step).answer) : (perform n step).after = n := by
  -- `n` need not be valid here, so that the equations of the steps do not apply
  rcases happly : (apply n step).result with error | ⟨answer, after⟩
  · simp only [perform, happly]
  · simp only [perform, happly] at h ⊢
    cases step with
    | contains | compareTo => exact eq_of_ask happly
    | toIndex index =>
      obtain rfl : answer = .absent := of_decide_eq_true h
      simp only [apply] at happly
      split at happly
      · exact absurd (answer_of_moveTo happly) (by decide)
      · exact (Prod.mk.inj (Except.ok.inj happly)).2.symm
    | _ => exact absurd h Bool.false_ne_true

/-! ### Runs without idle steps -/

/-- The steps of a run that are not idle, each with its outcome. -/
def lasting (n : Network) (steps : List Step) : List (Step × Outcome) :=
  (trace n steps).filter fun (step, outcome) => !idle step outcome.answer

theorem lasting_cons_of_idle (h : idle step (perform n step).answer) :
    lasting n (step :: steps) = lasting n steps := by
  rw [lasting, trace_cons, List.filter_cons_of_neg (by simp [h]), after_of_idle h]
  rfl

theorem lasting_cons_of_not_idle (h : ¬ idle step (perform n step).answer) :
    lasting n (step :: steps)
      = (step, perform n step) :: lasting (perform n step).after steps := by
  rw [lasting, trace_cons, List.filter_cons_of_pos (by simp [h])]
  rfl

/-- What comes of the lasting steps does not depend on the idle ones between them. -/
theorem run_lasting (n : Network) (steps : List Step) :
    run n ((lasting n steps).map Prod.fst) = (lasting n steps).map Prod.snd := by
  induction steps generalizing n with
  | nil => rfl
  | cons step steps ih =>
    by_cases h : idle step (perform n step).answer
    · -- the step is left out, and the others start from `n` as they did behind it
      rw [lasting_cons_of_idle h]
      exact ih n
    · rw [lasting_cons_of_not_idle h, List.map_cons, List.map_cons, run, ih]

theorem reached_lasting (n : Network) (steps : List Step) :
    reached n ((lasting n steps).map Prod.fst) = reached n steps := by
  induction steps generalizing n with
  | nil => rfl
  | cons step steps ih =>
    by_cases h : idle step (perform n step).answer
    · rw [lasting_cons_of_idle h, ih, reached, after_of_idle h]
    · rw [lasting_cons_of_not_idle h, List.map_cons, reached, ih]
      rfl

/-! ### Setting one half -/

/-- The step sets the address or the prefix length. -/
def Step.isSetter : Step → Bool
  | .setAddr _ | .setOctets _ | .setBits _ | .setPrefix _ => true
  | _ => false

/-- The address that a step sets, if it is given a good one. -/
def Step.addr? : Step → Option Address
  | .setAddr text => (Address.read text).toOption
  | .setOctets values => (Address.ofIntegers values).toOption
  | .setBits bits => some (.ofBits bits)
  | _ => none

/-- The prefix length that a step sets, if it is given a good one. -/
def Step.prefixLen? : Step → Option UInt8
  | .setPrefix prefixLen => if prefixLen ≤ 32 then some prefixLen else none
  | _ => none

/-- What is given and good is set, all else is kept. -/
theorem after_of_isSetter (hn : n.Valid) (h : step.isSetter) :
    (perform n step).after = ⟨step.addr?.getD n.addr, step.prefixLen?.getD n.prefixLen⟩ := by
  cases step with
  | setAddr text =>
    rw [perform_setAddr hn, Step.addr?]
    cases Address.read text <;> rfl
  | setOctets values =>
    rw [perform_setOctets hn, Step.addr?]
    cases Address.ofIntegers values <;> rfl
  | setBits bits =>
    rw [perform_of_moveTo hn rfl]
    rfl
  | setPrefix prefixLen =>
    rw [perform_setPrefix]
    by_cases hlen : prefixLen ≤ 32 <;> simp [Step.addr?, Step.prefixLen?, hlen]
  | _ => exact absurd h Bool.false_ne_true

/-- A step that sets something is done exactly if it is given something good. -/
theorem answer_eq_done_iff_of_isSetter (hn : n.Valid) (h : step.isSetter) :
    (perform n step).answer = .ok .done ↔ step.addr?.isSome ∨ step.prefixLen?.isSome := by
  cases step with
  | setAddr text =>
    rw [perform_setAddr hn, Step.addr?]
    cases Address.read text <;> simp [intake, Step.prefixLen?, Except.toOption]
  | setOctets values =>
    rw [perform_setOctets hn, Step.addr?]
    cases Address.ofIntegers values <;> simp [intake, Step.prefixLen?, Except.toOption]
  | setBits bits =>
    rw [perform_of_moveTo hn rfl]
    simp [Step.addr?]
  | setPrefix prefixLen =>
    rw [perform_setPrefix]
    by_cases hlen : prefixLen ≤ 32 <;> simp [Step.addr?, Step.prefixLen?, hlen]
  | _ => exact absurd h Bool.false_ne_true

/-- Each half is the last one that was set. -/
theorem reached_of_isSetter (hn : n.Valid) (h : ∀ step ∈ steps, step.isSetter) :
    reached n steps
      = ⟨(steps.filterMap Step.addr?).getLast?.getD n.addr,
        (steps.filterMap Step.prefixLen?).getLast?.getD n.prefixLen⟩ := by
  induction steps generalizing n with
  | nil => rfl
  | cons step steps ih =>
    have hrest : ∀ s ∈ steps, s.isSetter := fun s hs => h s (List.mem_cons_of_mem _ hs)
    rw [reached, ih (perform_valid hn step) hrest,
      after_of_isSetter hn (h step List.mem_cons_self), getLast?_filterMap_cons,
      getLast?_filterMap_cons]

/-- **Steps that fail and steps that only ask leave no trace**: a run without its idle steps ends in
the same network, and each of the other steps gives the same answer, network and records.  After
steps that set the address or the prefix length, each of the two is the last that was set; a step
that is refused touches neither. -/
theorem lasting_steps_suffice :
    (∀ n steps,
      run n ((lasting n steps).map Prod.fst) = (lasting n steps).map Prod.snd
      ∧ reached n ((lasting n steps).map Prod.fst) = reached n steps)
    ∧ ∀ n : Network, n.Valid → ∀ steps : List Step, (∀ step ∈ steps, step.isSetter) →
      reached n steps
        = ⟨(steps.filterMap Step.addr?).getLast?.getD n.addr,
          (steps.filterMap Step.prefixLen?).getLast?.getD n.prefixLen⟩
      ∧ ∀ step outcome, (step, outcome) ∈ trace n steps →
        (outcome.answer = .ok .done ↔ step.addr?.isSome ∨ step.prefixLen?.isSome) := by
  constructor
  · intro n steps
    exact ⟨run_lasting n steps, reached_lasting n steps⟩
  · intro n hn steps h
    refine ⟨reached_of_isSetter hn h, ?_⟩
    intro step outcome hmem
    obtain ⟨before, after, rfl, rfl⟩ := mem_trace_iff.1 hmem
    exact answer_eq_done_iff_of_isSetter (reached_valid hn before) (h step (by simp))

/-- Each half is set between two steps that are refused, the first and the last among them. -/
theorem lasting_steps_suffice_mixed :
    let n : Network := ⟨.unspecified, 32⟩
    let steps : List Step :=
      [.setOctets [10, 0, 0, 256], .setPrefix 24, .setAddr "10.0.0.x", .setBits 1, .setPrefix 33]
    n.Valid ∧ (∀ step ∈ steps, step.isSetter)
    ∧ reached n steps = ⟨⟨0, 0, 0, 1⟩, 24⟩
    ∧ (perform (reached n (steps.take 4)) (.setPrefix 33)).answer ≠ .ok .done := by
  intro n steps
  have hn : n.Valid := by decide
  have hsteps : ∀ step ∈ steps, step.isSetter := by decide
  have hread : Address.read "10.0.0.x" = .error (.component "x") := by
    rw [Address.read_eq]
    decide
  have haddr : steps.filterMap Step.addr? = [.ofBits 1] := by
    simp [steps, List.filterMap_cons, Step.addr?, hread, Address.ofIntegers, Address.octetAt,
      Except.toOption, bind, Except.bind, pure, Except.pure]
  have hlen : steps.filterMap Step.prefixLen? = [24] := by decide
  have hmem : (.setPrefix 33, perform (reached n (steps.take 4)) (.setPrefix 33)) ∈ trace n steps :=
    mem_trace_iff.2 ⟨steps.take 4, [], rfl, rfl⟩
  obtain ⟨hreached, hdone⟩ := lasting_steps_suffice.2 n hn steps hsteps
  rw [haddr, hlen] at hreached
  refine ⟨hn, hsteps, hreached.trans (by decide), ?_⟩
  rw [ne_eq, hdone _ _ hmem]
  decide

end Inet.Session
