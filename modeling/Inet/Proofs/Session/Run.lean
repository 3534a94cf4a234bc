/-
Inet/Proofs/Session/Run.lean

What the steps of a session can do to its network.

A step that succeeds leaves the network as it was, builds it anew from an
address and a prefix length, or reads it from a text (`apply_eq_ok`); a step
that fails leaves it as it was.  Hence all networks of a session are valid if
the first is (`reached_valid`).

`reached n steps` is the network that steps lead to.  A run goes on from there:

    run n (steps ++ more)  =  run n steps ++ run (reached n steps) more
-/
import Inet.Proofs.Json.Codec
import Inet.Session

namespace Inet.Session

variable {n n' : Network} {answer : Answer}

/-! ### Shapes of steps -/

/-- A step that replaces the network. -/
theorem eq_ok_of_replace {x : Attempt Failure Network}
    (h : (do let m ← x; return (Answer.done, m)).result = .ok (answer, n')) :
    x.result = .ok n' := by
  rw [Attempt.result_bind_eq_ok_iff] at h
  obtain ⟨m, hm, h⟩ := h
  obtain ⟨-, rfl⟩ := Prod.mk.inj (Except.ok.inj h)
  exact hm

/-- A step that only asks. -/
theorem eq_of_ask {α : Type} {x : Attempt Failure α} {f : α → Answer}
    (h : (do let a ← x; return (f a, n)).result = .ok (answer, n')) : n' = n := by
  rw [Attempt.result_bind_eq_ok_iff] at h
  obtain ⟨a, -, h⟩ := h
  obtain ⟨-, rfl⟩ := Prod.mk.inj (Except.ok.inj h)
  rfl

/-- A move builds the network anew around an address. -/
theorem ofAddress_of_moveTo {addr : Address} (h : (moveTo n addr).result = .ok (answer, n')) :
    Network.ofAddress addr n.prefixLen = .ok n' := by
  have hbuild := eq_ok_of_replace h
  rwa [Attempt.liftM_network, Attempt.result_mapError_eq_ok_iff, Network.result_build] at hbuild

/-- A step that moves to an address, if it is given one. -/
theorem ofAddress_of_move {x : Attempt Failure Address}
    (h : (do let addr ← x; moveTo n addr).result = .ok (answer, n')) :
    ∃ addr, Network.ofAddress addr n.prefixLen = .ok n' := by
  rw [Attempt.result_bind_eq_ok_iff] at h
  obtain ⟨addr, -, h⟩ := h
  exact ⟨addr, ofAddress_of_moveTo h⟩

/-- A step that reads the network from JSON. -/
theorem read_of_decode {value : Json.Value}
    (h : (liftM (Json.decodeNetwork value) : Attempt Failure Network).result = .ok n') :
    ∃ text, Network.read text = .ok n' := by
  rw [Attempt.liftM_json, Attempt.result_mapError_eq_ok_iff,
    Json.result_decodeNetwork_eq_ok_iff] at h
  obtain ⟨text, -, hread⟩ := h
  exact ⟨text, hread⟩

/-! ### One step -/

/-- All that a step which succeeds can do to the network. -/
theorem apply_eq_ok {step : Step} (h : (apply n step).result = .ok (answer, n')) :
    n' = n
    ∨ (∃ addr prefixLen, Network.ofAddress addr prefixLen = .ok n')
    ∨ ∃ text, Network.read text = .ok n' := by
  cases step with
  | parse text =>
    have hread := eq_ok_of_replace h
    rw [Attempt.liftM_network, Attempt.result_mapError_eq_ok_iff, Network.result_parse] at hread
    exact .inr (.inr ⟨text, hread⟩)
  | setAddr | setOctets =>
    obtain ⟨addr, hbuild⟩ := ofAddress_of_move h
    exact .inr (.inl ⟨addr, _, hbuild⟩)
  | setBits | toNetwork | toBroadcast | toMin | toMax | toNetmask =>
    exact .inr (.inl ⟨_, _, ofAddress_of_moveTo h⟩)
  | setPrefix prefixLen =>
    have hbuild := eq_ok_of_replace h
    rw [Attempt.liftM_network, Attempt.result_mapError_eq_ok_iff, Network.result_build] at hbuild
    exact .inr (.inl ⟨_, _, hbuild⟩)
  | toIndex index =>
    simp only [apply] at h
    split at h
    · exact .inr (.inl ⟨_, _, ofAddress_of_moveTo h⟩)
    · obtain ⟨-, rfl⟩ := Prod.mk.inj (Except.ok.inj h)
      exact .inl rfl
  | contains | compareTo => exact .inl (eq_of_ask h)
  | reload | load => exact .inr (.inr (read_of_decode (eq_ok_of_replace h)))

/-- A step leads on by what it succeeds in, and otherwise nowhere. -/
theorem perform_cases (n : Network) (step : Step) :
    (perform n step).after = n
    ∨ ∃ answer, (apply n step).result = .ok (answer, (perform n step).after) := by
  rcases h : (apply n step).result with error | ⟨answer, after⟩
  · exact .inl (by simp only [perform, h])
  · exact .inr ⟨answer, by simp only [perform, h]⟩

/-- A step leads from a valid network to a valid one. -/
theorem perform_valid (hn : n.Valid) (step : Step) : (perform n step).after.Valid := by
  rcases perform_cases n step with hafter | ⟨answer, happly⟩
  · rwa [hafter]
  · rcases apply_eq_ok happly with hafter | ⟨addr, prefixLen, hbuild⟩ | ⟨text, hread⟩
    · rwa [hafter]
    · exact (Network.ofAddress_eq_ok_iff.1 hbuild).2
    · exact Network.valid_of_read hread

/-! ### Any number of steps -/

/-- The network that steps lead to. -/
def reached (n : Network) : List Step → Network
  | [] => n
  | step :: steps => reached (perform n step).after steps

/-- What each step keeps, all of them keep. -/
theorem reached_induction {P : Network → Prop} {steps : List Step}
    (hstep : ∀ n, ∀ step ∈ steps, P n → P (perform n step).after) (hn : P n) :
    P (reached n steps) := by
  induction steps generalizing n with
  | nil => exact hn
  | cons step steps ih =>
    apply ih
    · intro m s hs
      exact hstep m s (List.mem_cons_of_mem _ hs)
    · exact hstep n step List.mem_cons_self hn

/-- Steps lead from a valid network to a valid one. -/
theorem reached_valid (hn : n.Valid) (steps : List Step) : (reached n steps).Valid :=
  reached_induction (P := Network.Valid) (fun _ step _ hm => perform_valid hm step) hn

/-- A run goes on from the network that it has reached. -/
theorem run_append (n : Network) (steps more : List Step) :
    run n (steps ++ more) = run n steps ++ run (reached n steps) more := by
  induction steps generalizing n with
  | nil => rfl
  | cons step steps ih =>
    rw [List.cons_append, run, ih]
    rfl

/-- A run comes to each of its steps in the network that the steps before it lead to. -/
theorem run_append_cons (n : Network) (before : List Step) (step : Step) (after : List Step) :
    run n (before ++ step :: after)
      = run n before ++ perform (reached n before) step
        :: run (perform (reached n before) step).after after := by
  rw [run_append, run]

/-- The network of an outcome is one that steps lead to. -/
theorem after_eq_reached {outcome : Outcome} {steps : List Step} (h : outcome ∈ run n steps) :
    ∃ before, before <+: steps ∧ outcome.after = reached n before := by
  induction steps generalizing n with
  | nil => simp [run] at h
  | cons step steps ih =>
    rcases List.mem_cons.1 h with rfl | h
    · exact ⟨[step], by simp, rfl⟩
    · obtain ⟨before, hprefix, hafter⟩ := ih h
      exact ⟨step :: before, by simpa using hprefix, hafter⟩

/-- The last of the values that the elements of a list have, if they have any. -/
theorem getLast?_filterMap_cons {α β : Type} (f : α → Option β) (x : α) (xs : List α) (y : β) :
    ((x :: xs).filterMap f).getLast?.getD y = (xs.filterMap f).getLast?.getD ((f x).getD y) := by
  rcases h : f x with - | z
  · rw [List.filterMap_cons_none h, Option.getD_none]
  · rw [List.filterMap_cons_some h, List.getLast?_cons, Option.getD_some, Option.getD_some]

/-- The steps of a run, each with its outcome. -/
def trace (n : Network) (steps : List Step) : List (Step × Outcome) :=
  steps.zip (run n steps)

theorem trace_cons (n : Network) (step : Step) (steps : List Step) :
    trace n (step :: steps) = (step, perform n step) :: trace (perform n step).after steps := rfl

/-- A step is performed in the network that the steps before it lead to. -/
theorem mem_trace_iff {step : Step} {outcome : Outcome} {steps : List Step} :
    (step, outcome) ∈ trace n steps
      ↔ ∃ before after, steps = before ++ step :: after
        ∧ outcome = perform (reached n before) step := by
  induction steps generalizing n with
  | nil => simp [trace, run]
  | cons first steps ih =>
    rw [trace_cons, List.mem_cons, ih]
    constructor
    · rintro (h | ⟨before, after, rfl, rfl⟩)
      · obtain ⟨rfl, rfl⟩ := Prod.mk.inj h
        exact ⟨[], steps, rfl, rfl⟩
      · exact ⟨first :: before, after, rfl, rfl⟩
    · rintro ⟨before, after, hsteps, rfl⟩
      rcases before with - | ⟨first', before⟩
      · obtain ⟨rfl, rfl⟩ := List.cons.inj hsteps
        exact .inl rfl
      · obtain ⟨rfl, rfl⟩ := List.cons.inj hsteps
        exact .inr ⟨before, after, rfl, rfl⟩

end Inet.Session
