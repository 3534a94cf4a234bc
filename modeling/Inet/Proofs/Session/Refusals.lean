/-
Inet/Proofs/Session/Refusals.lean

What is refused, and what the log says of it.

Whatever takes something in from outside reports it once if it is refused, in
the words of the very error that is answered, and is silent otherwise
(`Attempt.Reports`).  To read without such a report gives the same answer and no
record (`Query.readAddress_eq`).  A network is read by the silent reader of
addresses, so that a bad address in it is one refused network.

A step of a session takes in at most one thing, so that one of three things
comes of it in a valid network `n` (`Settled`): it succeeds without a record, it
refuses something with one record, or it fails for JSON that is no string, in
which there is nothing to refuse.  The records of a step are hence

    (step.refusal? n).toList.
-/
import Inet.Proofs.Session.Effect
import Inet.Query

namespace Inet

open Log (Record)

variable {ε α : Type}

/-! ### Reports -/

/-- The attempt writes nothing if it succeeds, and one line about its error if it fails. -/
structure Attempt.Reports (x : Attempt ε α) (message : ε → String) : Prop where
  silent : ∀ value, x.result = .ok value → x.records = []
  reported : ∀ error, x.result = .error error →
    x.records.map Record.line = ["DEBUG " ++ message error]

theorem Attempt.reports_recording (result : Except ε α) (record : ε → Record) :
    (recording result record).Reports fun error => (record error).message := by
  constructor
  · intro value h
    rw [result_recording] at h
    rw [h]
    rfl
  · intro error h
    rw [result_recording] at h
    rw [h]
    rfl

theorem Address.reports_parse (text : String) :
    (Address.parse text).Reports fun error =>
      "Rejected address '" ++ text ++ "': " ++ error.message :=
  Attempt.reports_recording _ _

theorem Address.reports_fromIntegers (values : List Int) :
    (Address.fromIntegers values).Reports fun error =>
      "Rejected octets [" ++ ", ".intercalate (values.map Int.repr) ++ "]: " ++ error.message :=
  Attempt.reports_recording _ _

theorem Network.reports_parse (text : String) :
    (Network.parse text).Reports fun error =>
      "Rejected network '" ++ text ++ "': " ++ error.message :=
  Attempt.reports_recording _ _

theorem Network.reports_build (addr : Address) (prefixLen : UInt8) :
    (Network.build addr prefixLen).Reports fun _ =>
      "Rejected network " ++ addr.text ++ "/" ++ prefixLen.toNat.repr
        ++ ": prefix is greater than 32" := by
  have hmessage : (Record.prefixLen addr prefixLen).message
      = "Rejected network " ++ addr.text ++ "/" ++ prefixLen.toNat.repr
        ++ ": prefix is greater than 32" := by
    have hwidth : Address.width.toNat.repr = "32" := by decide
    have hlast : ": prefix is greater than " ++ Address.width.toNat.repr
        = ": prefix is greater than 32" := by
      rw [hwidth]
      rfl
    exact String.append_assoc.trans (congrArg _ hlast)
  rw [← hmessage]
  exact Attempt.reports_recording _ _

/-- The same text read in silence is answered alike. -/
theorem Query.readAddress_eq (text : String) :
    Query.readAddress text = ⟨(Address.parse text).result, []⟩ := by
  rw [Address.result_parse]
  rfl

theorem Query.readNetwork_eq (text : String) :
    Query.readNetwork text = ⟨(Network.parse text).result, []⟩ := by
  rw [Network.result_parse]
  rfl

/-- A bad address is reported with the network that it stands in, and not by itself. -/
theorem Network.parse_of_address {text left right : String} {error : AddressError}
    (h : IsPair text left right) (hleft : Address.read left = .error error) :
    (Network.parse text).result = .error (.address error)
    ∧ (Network.parse text).records = [.network text (.address error)] := by
  have hread : Network.read text = .error (.address error) :=
    Network.read_eq_address_iff.2 ⟨left, right, h, hleft⟩
  rw [Network.parse, hread]
  exact ⟨rfl, rfl⟩

namespace Session

variable {n : Network} {step : Step}

/-! ### Steps -/

/-- The record of what is refused. -/
def refused? (record : ε → Record) : Except ε α → Option Record
  | .ok _ => none
  | .error error => some (record error)

/-- The record of the text, the integers or the prefix length that a step refuses, if it takes in
any. -/
def Step.refusal? (n : Network) : Step → Option Record
  | .parse text | .compareTo text | .load (.string text) =>
    refused? (.network text) (Network.read text)
  | .setAddr text | .contains text => refused? (.address text) (Address.read text)
  | .setOctets values => refused? (.octets values) (Address.ofIntegers values)
  | .setPrefix prefixLen => if prefixLen ≤ 32 then none else some (.prefixLen n.addr prefixLen)
  | _ => none

/-- The step loads JSON that is no string, in which there is no text to refuse. -/
def Step.misloads : Step → Bool
  | .load (.string _) => false
  | .load _ => true
  | _ => false

theorem refusal?_of_misloads (h : step.misloads) : step.refusal? n = none := by
  cases step with
  | load value =>
    cases value with
    | string text => exact absurd h Bool.false_ne_true
    | _ => rfl
  | _ => exact absurd h Bool.false_ne_true

/-- All that can come of a step in the network `n`. -/
inductive Settled (n : Network) (step : Step) : Outcome → Prop where
  | accepted (answer : Answer) (after : Network) (hrefusal : step.refusal? n = none)
    (hload : step.misloads = false) : Settled n step ⟨.ok answer, after, []⟩
  | refused (failure : Failure) (record : Record) (hrefusal : step.refusal? n = some record) :
    Settled n step ⟨.error failure, n, [record]⟩
  | misloaded (failure : Failure) (hload : step.misloads) :
    Settled n step ⟨.error failure, n, []⟩

theorem settled_intake {failure : ε → Failure} {record : ε → Record} {go : α → Answer × Network}
    {result : Except ε α} (hrefusal : step.refusal? n = refused? record result)
    (hload : step.misloads = false) : Settled n step (intake n failure record go result) := by
  rcases result with error | value
  · exact .refused _ _ hrefusal
  · exact .accepted _ _ hrefusal hload

theorem settled_perform (hn : n.Valid) (step : Step) : Settled n step (perform n step) := by
  cases step with
  | parse text =>
    rw [perform_parse]
    exact settled_intake rfl rfl
  | setAddr text =>
    rw [perform_setAddr hn]
    exact settled_intake rfl rfl
  | setOctets values =>
    rw [perform_setOctets hn]
    exact settled_intake rfl rfl
  | setPrefix prefixLen =>
    rw [perform_setPrefix]
    by_cases h : prefixLen ≤ 32
    · rw [if_pos h]
      exact .accepted _ _ (if_pos h) rfl
    · rw [if_neg h]
      exact .refused _ _ (if_neg h)
  | setBits | toNetwork | toBroadcast | toMin | toMax | toNetmask =>
    -- the network is built anew, with the prefix length of a valid one
    rw [perform_of_moveTo hn rfl]
    exact .accepted _ _ rfl rfl
  | toIndex index =>
    rw [perform_toIndex hn]
    cases n.get? index <;> exact .accepted _ _ rfl rfl
  | contains text =>
    rw [perform_contains]
    exact settled_intake rfl rfl
  | compareTo text =>
    rw [perform_compareTo]
    exact settled_intake rfl rfl
  | reload =>
    rw [perform_reload hn]
    exact .accepted _ _ rfl rfl
  | load value =>
    cases value with
    | string text =>
      rw [perform_load_string]
      exact settled_intake rfl rfl
    | null | bool | integer | float | array | object =>
      rw [perform_load_of_ne_string n (by simp)]
      exact .misloaded _ rfl

namespace Settled

variable {outcome : Outcome}

/-- The records of a step are what it refuses. -/
theorem records (h : Settled n step outcome) : outcome.records = (step.refusal? n).toList := by
  cases h with
  | accepted _ _ hrefusal | refused _ _ hrefusal =>
    rw [hrefusal]
    rfl
  | misloaded _ hload =>
    rw [refusal?_of_misloads hload]
    rfl

/-- A step fails if it refuses something or if it loads what is no string. -/
theorem exists_answer_eq_error_iff (h : Settled n step outcome) :
    (∃ failure, outcome.answer = .error failure) ↔ (step.refusal? n).isSome ∨ step.misloads := by
  cases h with
  | accepted _ _ hrefusal hload => simp [hrefusal, hload]
  | refused _ _ hrefusal => simp [hrefusal]
  | misloaded _ hload => simp [hload]

end Settled

/-! ### Sessions -/

/-- **What is refused is reported once, and nothing else is.**  Reading an address or a network
gives the answer of reading it in silence, and a record of its error if there is one; so do taking
integers for octets and building a network.  A bad address in a network is reported with the network
alone.  Hence the records of each step of a session are the one of the input that it refuses, or
none; there is none either if it fails for JSON that is no string. -/
theorem refusals_reported_once :
    (∀ text, (Address.parse text).result = Address.read text
      ∧ Query.readAddress text = ⟨(Address.parse text).result, []⟩
      ∧ (Address.parse text).Reports fun error =>
          "Rejected address '" ++ text ++ "': " ++ error.message)
    ∧ (∀ text, (Network.parse text).result = Network.read text
      ∧ Query.readNetwork text = ⟨(Network.parse text).result, []⟩
      ∧ (Network.parse text).Reports fun error =>
          "Rejected network '" ++ text ++ "': " ++ error.message)
    ∧ (∀ text left right error, Network.IsPair text left right → Address.read left = .error error →
        (Network.parse text).result = .error (.address error)
        ∧ (Network.parse text).records = [.network text (.address error)]
        ∧ (NetworkError.address error).message = error.message)
    ∧ (∀ values, (Address.fromIntegers values).Reports fun error =>
        "Rejected octets [" ++ ", ".intercalate (values.map Int.repr) ++ "]: " ++ error.message)
    ∧ (∀ addr prefixLen, (Network.build addr prefixLen).Reports fun _ =>
        "Rejected network " ++ addr.text ++ "/" ++ prefixLen.toNat.repr
          ++ ": prefix is greater than 32")
    ∧ ∀ n : Network, n.Valid → ∀ (before after : List Step) (step : Step),
        let m := reached n before
        let outcome := perform m step
        run n (before ++ step :: after) = run n before ++ outcome :: run outcome.after after
        ∧ outcome.records = (step.refusal? m).toList
        ∧ (step.misloads → outcome.records = [])
        ∧ ((∃ failure, outcome.answer = .error failure)
          ↔ (step.refusal? m).isSome ∨ step.misloads) := by
  refine ⟨?_, ?_, ?_, Address.reports_fromIntegers, Network.reports_build, ?_⟩
  · intro text
    exact ⟨Address.result_parse text, Query.readAddress_eq text, Address.reports_parse text⟩
  · intro text
    exact ⟨Network.result_parse text, Query.readNetwork_eq text, Network.reports_parse text⟩
  · intro text left right error hpair hleft
    obtain ⟨hresult, hrecords⟩ := Network.parse_of_address hpair hleft
    exact ⟨hresult, hrecords, rfl⟩
  · intro n hn before after step m outcome
    have hsettled : Settled m step outcome := settled_perform (reached_valid hn before) step
    refine ⟨run_append_cons n before step after, hsettled.records, ?_,
      hsettled.exists_answer_eq_error_iff⟩
    intro hload
    rw [hsettled.records, refusal?_of_misloads hload]
    rfl

/-- A prefix length is refused in a network that was moved, after JSON that is no string. -/
theorem refusals_reported_once_mixed :
    let n : Network := ⟨⟨10, 0, 0, 1⟩, 8⟩
    let steps : List Step := [.setBits 1, .load .null]
    Network.IsPair "10.0.0.x/8" "10.0.0.x" "8"
    ∧ Address.read "10.0.0.x" = .error (.component "x")
    ∧ (Network.parse "10.0.0.x/8").records
      = [.network "10.0.0.x/8" (.address (.component "x"))]
    ∧ n.Valid
    ∧ Step.misloads (.load .null)
    ∧ (perform (reached n [.setBits 1]) (.load .null)).records = []
    ∧ (perform (reached n steps) (.setPrefix 33)).records = [.prefixLen (.ofBits 1) 33] := by
  intro n steps
  obtain ⟨-, -, hpair, -, -, hsession⟩ := refusals_reported_once
  have hn : n.Valid := by decide
  have hsplit : Network.IsPair "10.0.0.x/8" "10.0.0.x" "8" := ⟨by decide, by decide, by decide⟩
  have hread : Address.read "10.0.0.x" = .error (.component "x") := by
    rw [Address.read_eq]
    decide
  refine ⟨hsplit, hread, (hpair _ _ _ _ hsplit hread).2.1, hn, rfl, ?_, ?_⟩
  · exact (hsession n hn [.setBits 1] [] (.load .null)).2.2.1 rfl
  · exact (hsession n hn steps [] (.setPrefix 33)).2.1

end Session

end Inet
