/-
Inet/Proofs/Session/Reload.lean

Writing and reading back, in text and in JSON.

An address is read back from its text, a valid network from its own, and both
from the JSON that they are written as.  A session that reloads its network
therefore goes on as if it had not:

    run n (steps ++ reloads ++ more)
      =  run n steps ++ (one `done` for each reload) ++ run (reached n steps) more
-/
import Inet.Proofs.Session.Run

namespace Inet.Session

variable {n : Network}

/-- A reload changes nothing and writes no record. -/
theorem perform_reload (hn : n.Valid) : perform n .reload = ⟨.ok .done, n, []⟩ := by
  have happly : apply n .reload = .ok (.done, n) := by
    rw [apply, Json.decodeNetwork_encodeNetwork hn]
    rfl
  rw [perform, happly]
  rfl

theorem reached_replicate_reload (hn : n.Valid) (k : Nat) :
    reached n (List.replicate k .reload) = n := by
  induction k with
  | zero => rfl
  | succ k ih => rw [List.replicate_succ, reached, perform_reload hn, ih]

theorem run_replicate_reload (hn : n.Valid) (k : Nat) :
    run n (List.replicate k .reload) = List.replicate k ⟨.ok .done, n, []⟩ := by
  induction k with
  | zero => rfl
  | succ k ih => rw [List.replicate_succ, List.replicate_succ, run, perform_reload hn, ih]

/-- Reloads in the middle of a run leave no trace but their answers. -/
theorem run_append_reload (hn : n.Valid) (steps more : List Step) (k : Nat) :
    run n (steps ++ List.replicate k .reload ++ more)
      = run n steps ++ List.replicate k ⟨.ok .done, reached n steps, []⟩
        ++ run (reached n steps) more := by
  have hreached := reached_valid hn steps
  rw [List.append_assoc, run_append, run_append, run_replicate_reload hreached,
    reached_replicate_reload hreached, List.append_assoc]

/-- **What is written is read back as it was**: an address from its text, the network of any
address and prefix length from its own, and both from JSON.  So any number of reloads, anywhere in
a session, leaves its network as it is and writes no record. -/
theorem read_written :
    (∀ addr : Address, Address.read addr.text = .ok addr)
    ∧ (∀ (addr : Address) (prefixLen : UInt8), prefixLen ≤ 32 →
        ∃ n, Network.ofAddress addr prefixLen = .ok n
          ∧ n.addr = addr ∧ n.prefixLen = prefixLen ∧ Network.read n.text = .ok n)
    ∧ (∀ addr, Json.decodeAddress (Json.encodeAddress addr) = .ok addr)
    ∧ (∀ n : Network, n.Valid → Json.decodeNetwork (Json.encodeNetwork n) = .ok n)
    ∧ (∀ n : Network, n.Valid → ∀ steps k more,
        run n (steps ++ List.replicate k .reload ++ more)
          = run n steps ++ List.replicate k ⟨.ok .done, reached n steps, []⟩
            ++ run (reached n steps) more) := by
  refine ⟨Address.read_text, ?_, Json.decodeAddress_encodeAddress, ?_, ?_⟩
  · intro addr prefixLen hlen
    have hn : Network.Valid ⟨addr, prefixLen⟩ := hlen
    exact ⟨⟨addr, prefixLen⟩, Network.ofAddress_eq_ok_iff.2 ⟨rfl, hn⟩, rfl, rfl,
      Network.read_text hn⟩
  · intro n hn
    exact Json.decodeNetwork_encodeNetwork hn
  · intro n hn steps k more
    exact run_append_reload hn steps more k

/-- A session in the whole address space, with reloads after a step that is refused and a move to
the other end. -/
theorem read_written_wholeSpace :
    let n : Network := ⟨.broadcast, 0⟩
    let steps : List Step := [.setPrefix 33, .toNetwork]
    (0 : UInt8) ≤ 32 ∧ n.Valid ∧ reached n steps = ⟨.unspecified, 0⟩
    ∧ (∃ n', Network.ofAddress .broadcast 0 = .ok n' ∧ n'.addr = .broadcast ∧ n'.prefixLen = 0
        ∧ Network.read n'.text = .ok n')
    ∧ Json.decodeNetwork (Json.encodeNetwork n) = .ok n
    ∧ run n (steps ++ List.replicate 2 .reload ++ [.toBroadcast])
      = run n steps ++ List.replicate 2 ⟨.ok .done, ⟨.unspecified, 0⟩, []⟩
        ++ run ⟨.unspecified, 0⟩ [.toBroadcast] := by
  intro n steps
  have hlen : (0 : UInt8) ≤ 32 := by decide
  have hn : n.Valid := by decide
  have hreached : reached n steps = ⟨.unspecified, 0⟩ := by decide
  obtain ⟨-, hbuild, -, hdecode, hrun⟩ := read_written
  have hrun := hrun n hn steps 2 [.toBroadcast]
  rw [hreached] at hrun
  exact ⟨hlen, hn, hreached, hbuild _ _ hlen, hdecode n hn, hrun⟩

end Inet.Session
