/-
Inet/Log/Attempt.lean

Computations that may fail and that leave records.

An attempt is its result together with the records written on the way to it.
Attempts are carried out one after the other up to the first that fails; the
records of those carried out are kept, also of the failed one.
-/
import Inet.Log.Record

namespace Inet

open Log (Record)

/-- A result or an error, and the records written meanwhile. -/
structure Attempt (ε α : Type) where
  result : Except ε α
  records : List Record

namespace Attempt

variable {ε α β : Type}

/-- An attempt that succeeds and writes nothing. -/
def ok (value : α) : Attempt ε α := ⟨.ok value, []⟩

/-- An attempt that fails and writes nothing. -/
def error (error : ε) : Attempt ε α := ⟨.error error, []⟩

/-- Goes on with the value, if there is one. -/
def andThen (x : Attempt ε α) (f : α → Attempt ε β) : Attempt ε β :=
  match x.result with
  | .ok value => ⟨(f value).result, x.records ++ (f value).records⟩
  | .error error => ⟨.error error, x.records⟩

instance : Monad (Attempt ε) where
  pure := ok
  bind := andThen

/-- A result that is reached without writing anything. -/
def ofExcept (result : Except ε α) : Attempt ε α := ⟨result, []⟩

/-- Writes a record if the result is an error. -/
def recording (result : Except ε α) (record : ε → Record) : Attempt ε α :=
  match result with
  | .ok value => ok value
  | .error error => ⟨.error error, [record error]⟩

/-- The same attempt, whose error is seen as one of a larger type. -/
def mapError {ε' : Type} (f : ε → ε') (x : Attempt ε α) : Attempt ε' α :=
  ⟨x.result.mapError f, x.records⟩

/-! ### Laws -/

@[simp]
theorem pure_eq_ok (value : α) : (pure value : Attempt ε α) = ok value := rfl

@[simp]
theorem ok_bind (value : α) (f : α → Attempt ε β) : ok value >>= f = f value := rfl

@[simp]
theorem error_bind (e : ε) (f : α → Attempt ε β) : error e >>= f = error e := rfl

instance : LawfulMonad (Attempt ε) := LawfulMonad.mk' (Attempt ε)
  (by
    rintro α ⟨error | value, records⟩
    · rfl
    · exact congrArg (Attempt.mk _) (List.append_nil _))
  (by intros; rfl)
  (by
    rintro α β γ ⟨error | value, records⟩ f g
    · rfl
    · show Attempt.andThen (Attempt.andThen _ f) g = Attempt.andThen _ fun x => andThen (f x) g
      simp only [andThen]
      split <;> simp [List.append_assoc])

theorem mapError_mapError {ε' ε'' : Type} (f : ε → ε') (g : ε' → ε'') (x : Attempt ε α) :
    (x.mapError f).mapError g = x.mapError (g ∘ f) := by
  rcases x with ⟨error | value, records⟩ <;> rfl

/-! ### Results

The result of an attempt depends on no record. -/

@[simp]
theorem result_recording (result : Except ε α) (record : ε → Record) :
    (recording result record).result = result := by
  cases result <;> rfl

theorem result_bind (x : Attempt ε α) (f : α → Attempt ε β) :
    (x >>= f).result = x.result >>= fun value => (f value).result := by
  rcases x with ⟨error | value, records⟩ <;> rfl

theorem result_mapM (f : α → Attempt ε β) (values : List α) :
    (values.mapM f).result = values.mapM fun value => (f value).result := by
  induction values with
  | nil => rfl
  | cons value values ih =>
    simp only [List.mapM_cons, result_bind, ih]
    rfl

theorem result_mapError_eq_ok_iff {ε' : Type} {f : ε → ε'} {x : Attempt ε α} {value : α} :
    (x.mapError f).result = .ok value ↔ x.result = .ok value := by
  rcases x with ⟨error | value', records⟩
  · show (Except.error (f error) : Except ε' α) = .ok value ↔ Except.error error = .ok value
    simp
  · show (Except.ok value' : Except ε' α) = .ok value ↔ Except.ok value' = .ok value
    simp

/-- An attempt in two parts succeeds if both do. -/
theorem result_bind_eq_ok_iff {x : Attempt ε α} {f : α → Attempt ε β} {value : β} :
    (x >>= f).result = .ok value
      ↔ ∃ first, x.result = .ok first ∧ (f first).result = .ok value := by
  rw [result_bind]
  rcases x.result with error | first <;> simp [bind, Except.bind]

/-! ### Silent success -/

theorem recording_eq_ok_iff {result : Except ε α} {record : ε → Record} {value : α} :
    recording result record = ok value ↔ result = .ok value := by
  rcases result with error | value'
  · constructor <;> rintro ⟨⟩
  · constructor <;> (rintro ⟨⟩; rfl)

theorem mapError_eq_ok_iff {ε' : Type} {f : ε → ε'} {x : Attempt ε α} {value : α} :
    x.mapError f = ok value ↔ x = ok value := by
  rcases x with ⟨error | value', records⟩
  · constructor <;> rintro ⟨⟩
  · constructor <;> (rintro ⟨⟩; rfl)

/-- An attempt in two parts succeeds in silence if both do. -/
theorem bind_eq_ok_iff {x : Attempt ε α} {f : α → Attempt ε β} {value : β} :
    x >>= f = ok value ↔ ∃ first, x = ok first ∧ f first = ok value := by
  constructor
  · intro h
    rcases x with ⟨error | first, records⟩
    · cases h
    · have hbind : (⟨(f first).result, records ++ (f first).records⟩ : Attempt ε β) = ok value := h
      obtain ⟨hresult, hrecords⟩ := Attempt.mk.inj hbind
      obtain ⟨rfl, hrest⟩ := List.append_eq_nil_iff.1 hrecords
      refine ⟨first, rfl, ?_⟩
      calc f first = ⟨(f first).result, (f first).records⟩ := rfl
        _ = ok value := by rw [hresult, hrest, ok]
  · rintro ⟨first, rfl, hf⟩
    exact hf

end Attempt

end Inet
