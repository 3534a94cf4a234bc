/-
Inet/Proofs/Session/Effect.lean

What each step of a session does, in full: its answer, the network after it
and its records.

Some steps take something in from outside: a text, integers, a prefix length,
JSON.  Such an input is good or is refused, and nothing else decides what comes
of the step,

    intake n failure record go (ok value)     go value is answered, no record
    intake n failure record go (error error)  the failure, the network `n`,
                                              and `record error` alone.

A step that takes nothing in moves the address of the network, or reloads it.
The check of the network that is built anew can then only pass, if the network
was valid before.

There is one equation for each step, and nothing that is said of sessions looks
into the steps again.
-/
import Inet.Proofs.Session.Reload

namespace Inet.Session

open Log (Record)

variable {n : Network}

/-! ### Shapes of outcomes -/

/-- What comes of an attempt; a failed one changes nothing. -/
def settle (n : Network) (attempt : Attempt Failure (Answer × Network)) : Outcome :=
  match attempt.result with
  | .ok (answer, after) => ⟨.ok answer, after, attempt.records⟩
  | .error error => ⟨.error error, n, attempt.records⟩

theorem perform_eq_settle (n : Network) (step : Step) : perform n step = settle n (apply n step) :=
  rfl

variable {ε α : Type}

/-- What comes of an input: the step goes on with its value, or the input is refused with one
record and the network stays. -/
def intake (n : Network) (failure : ε → Failure) (record : ε → Record)
    (go : α → Answer × Network) : Except ε α → Outcome
  | .ok value => ⟨.ok (go value).1, (go value).2, []⟩
  | .error error => ⟨.error (failure error), n, [record error]⟩

/-- A step that cannot fail once its input is good. -/
theorem settle_intake {result : Except ε α} {failure : ε → Failure} {record : ε → Record}
    {next : α → Attempt Failure (Answer × Network)} {go : α → Answer × Network}
    (h : ∀ value, next value = .ok (go value)) :
    settle n ((Attempt.recording result record).mapError failure >>= next)
      = intake n failure record go result := by
  rcases result with error | value
  · rfl
  · show settle n (next value) = _
    rw [h]
    rfl

/-! ### Steps that take something in -/

theorem perform_parse (n : Network) (text : String) :
    perform n (.parse text)
      = intake n .network (.network text) (fun m => (.done, m)) (Network.read text) := by
  rw [perform_eq_settle, apply, Attempt.liftM_network]
  exact settle_intake fun _ => rfl

theorem perform_contains (n : Network) (text : String) :
    perform n (.contains text)
      = intake n .address (.address text) (fun addr => (.member (n.contains addr), n))
          (Address.read text) := by
  rw [perform_eq_settle, apply, Attempt.liftM_address]
  exact settle_intake fun _ => rfl

theorem perform_compareTo (n : Network) (text : String) :
    perform n (.compareTo text)
      = intake n .network (.network text) (fun other => (.order (compare n other), n))
          (Network.read text) := by
  rw [perform_eq_settle, apply, Attempt.liftM_network]
  exact settle_intake fun _ => rfl

/-- Of a prefix length nothing but its size is looked at. -/
theorem perform_setPrefix (n : Network) (prefixLen : UInt8) :
    perform n (.setPrefix prefixLen)
      = if prefixLen ≤ 32 then ⟨.ok .done, ⟨n.addr, prefixLen⟩, []⟩
        else ⟨.error (.network (.prefixOverflow prefixLen.toUInt32)), n,
          [.prefixLen n.addr prefixLen]⟩ := by
  rw [perform_eq_settle, apply, Network.build, Network.ofAddress]
  by_cases h : prefixLen ≤ 32
  · have hgood : ¬ prefixLen > Address.width := UInt8.not_lt.2 h
    rw [if_pos h, if_neg hgood]
    rfl
  · have hlong : prefixLen > Address.width := UInt8.not_le.1 h
    rw [if_neg h, if_pos hlong]
    rfl

/-- JSON that is a string is read as a text is. -/
theorem perform_load_string (n : Network) (text : String) :
    perform n (.load (.string text))
      = intake n (.json ∘ .network) (.network text) (fun m => (.done, m)) (Network.read text) := by
  rw [perform_eq_settle, apply, Attempt.liftM_json, Json.decodeNetwork, Network.parse,
    Attempt.mapError_mapError]
  exact settle_intake fun _ => rfl

/-- Any other JSON fails, and no text is there to be refused. -/
theorem perform_load_of_ne_string (n : Network) {value : Json.Value}
    (h : ∀ text, value ≠ .string text) :
    perform n (.load value) = ⟨.error (.json (.type value .network)), n, []⟩ := by
  cases value with
  | string text => exact absurd rfl (h text)
  | _ => rfl

/-! ### Moves

The rest is said of valid networks: the network around another address is valid as well. -/

theorem moveTo_eq (hn : n.Valid) (addr : Address) :
    moveTo n addr = .ok (.done, ⟨addr, n.prefixLen⟩) := by
  have hbuild : Network.ofAddress addr n.prefixLen = .ok ⟨addr, n.prefixLen⟩ :=
    Network.ofAddress_eq_ok_iff.2 ⟨rfl, hn⟩
  rw [moveTo, Network.build, hbuild]
  rfl

theorem perform_of_moveTo (hn : n.Valid) {step : Step} {addr : Address}
    (h : apply n step = moveTo n addr) : perform n step = ⟨.ok .done, ⟨addr, n.prefixLen⟩, []⟩ := by
  rw [perform_eq_settle, h, moveTo_eq hn]
  rfl

theorem perform_setAddr (hn : n.Valid) (text : String) :
    perform n (.setAddr text)
      = intake n .address (.address text) (fun addr => (.done, ⟨addr, n.prefixLen⟩))
          (Address.read text) := by
  rw [perform_eq_settle, apply, Attempt.liftM_address]
  exact settle_intake (moveTo_eq hn)

theorem perform_setOctets (hn : n.Valid) (values : List Int) :
    perform n (.setOctets values)
      = intake n .octets (.octets values) (fun addr => (.done, ⟨addr, n.prefixLen⟩))
          (Address.ofIntegers values) := by
  rw [perform_eq_settle, apply, Attempt.liftM_octets]
  exact settle_intake (moveTo_eq hn)

theorem perform_toIndex (hn : n.Valid) (index : UInt64) :
    perform n (.toIndex index)
      = match n.get? index with
        | some addr => ⟨.ok .done, ⟨addr, n.prefixLen⟩, []⟩
        | none => ⟨.ok .absent, n, []⟩ := by
  rw [perform_eq_settle, apply]
  rcases n.get? index with - | addr
  · rfl
  · show settle n (moveTo n addr) = _
    rw [moveTo_eq hn]
    rfl

end Inet.Session
