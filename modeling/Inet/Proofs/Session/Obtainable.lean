/-
Inet/Proofs/Session/Obtainable.lean

The networks that a program can come by.

A network is built from its parts, read from a text, read from JSON, alone or
in a list of pairs, or it is the network at some point of a session that began
with another one.  These are exactly the valid networks
(`obtainable_iff_valid`): each way in checks the prefix length, and no step of
a session gets around the check.  Nothing that is derived from them runs over.
-/
import Inet.Proofs.Network.Exact
import Inet.Proofs.Session.Reload

namespace Inet.Network

open HostRange (popEach)

/-- A network that is the result of a call, or one that a session leads to. -/
inductive Obtainable : Network → Prop where
  | built {addr : Address} {prefixLen : UInt8} {n : Network} :
      (build addr prefixLen).result = .ok n → Obtainable n
  | read {text : String} {n : Network} : read text = .ok n → Obtainable n
  | parsed {text : String} {n : Network} : (parse text).result = .ok n → Obtainable n
  | decoded {value : Json.Value} {n : Network} :
      (Json.decodeNetwork value).result = .ok n → Obtainable n
  | paired {value : Json.Value} {pairs : List (Address × Network)} {addr : Address}
      {n : Network} : (Json.decodePairs value).result = .ok pairs → (addr, n) ∈ pairs →
      Obtainable n
  | session {n : Network} {steps : List Session.Step} {outcome : Session.Outcome} :
      Obtainable n → outcome ∈ Session.run n steps → Obtainable outcome.after

variable {n : Network}

theorem valid_of_decodeNetwork {value : Json.Value}
    (h : (Json.decodeNetwork value).result = .ok n) : n.Valid := by
  obtain ⟨text, -, hread⟩ := Json.result_decodeNetwork_eq_ok_iff.1 h
  exact valid_of_read hread

theorem Obtainable.valid (h : Obtainable n) : n.Valid := by
  induction h with
  | built h =>
    rw [result_build] at h
    exact (ofAddress_eq_ok_iff.1 h).2
  | read h => exact valid_of_read h
  | parsed h =>
    rw [result_parse] at h
    exact valid_of_read h
  | decoded h => exact valid_of_decodeNetwork h
  | paired h hmem =>
    obtain ⟨item, hitem⟩ := Json.exists_decodeNetwork_of_decodePairs h hmem
    exact valid_of_decodeNetwork hitem
  | session _ hmem ih =>
    -- an outcome's network is one that steps lead to, and steps keep networks valid
    obtain ⟨before, -, hafter⟩ := Session.after_eq_reached hmem
    rw [hafter]
    exact Session.reached_valid ih before

/-- The networks that can be obtained are the valid ones. -/
theorem obtainable_iff_valid : Obtainable n ↔ n.Valid := by
  constructor
  · exact Obtainable.valid
  · intro hn
    have hbuild : (build n.addr n.prefixLen).result = .ok n := by
      rw [result_build]
      exact ofAddress_eq_ok_iff.2 ⟨rfl, hn⟩
    exact .built hbuild

/-- **Every network that can be obtained is valid, and what is derived from a valid network never
runs over**: neither the computations on its block, nor those on any range that is left after taking
some of its hosts. -/
theorem obtainable_exact :
    (∀ n, Obtainable n ↔ n.Valid)
    ∧ ∀ n : Network, n.Valid → n.Exact ∧ ∀ ends, (popEach ends n.hosts).2.Exact := by
  refine ⟨fun _ => obtainable_iff_valid, ?_⟩
  intro n hn
  exact ⟨hn.exact, HostRange.exact_popEach_hosts n⟩

/-- The last block of four addresses, reached in a session from the whole address space. -/
theorem obtainable_exact_lastFour :
    let n : Network := (Session.perform ⟨.broadcast, 0⟩ (.setPrefix 30)).after
    n = ⟨.broadcast, 30⟩ ∧ Obtainable n ∧ n.Valid ∧ n.prefixLen ≤ 30 ∧ 3 < n.size
    ∧ n.minHost.number = n.networkAddr.number + 1
    ∧ n.maxHost.number = n.broadcastAddr.number - 1
    ∧ n.networkAddr.number + (3 : UInt64).toNat < 2 ^ 32
    ∧ (popEach [.back] n.hosts).2.Exact := by
  intro n
  have hbuild : (build .broadcast 0).result = .ok ⟨.broadcast, 0⟩ := rfl
  have hstep : Session.perform ⟨.broadcast, 0⟩ (.setPrefix 30)
      ∈ Session.run ⟨.broadcast, 0⟩ [.setPrefix 30] := List.mem_singleton.2 rfl
  have hn : Obtainable n := .session (.built hbuild) hstep
  have hlen : n.prefixLen ≤ 30 := by decide
  have hindex : 3 < n.size := by decide
  obtain ⟨hvalid, hexact⟩ := obtainable_exact
  obtain ⟨hexact, hrange⟩ := hexact n ((hvalid n).1 hn)
  exact ⟨by decide, hn, (hvalid n).1 hn, hlen, hindex, (hexact.minHost hlen).2,
    (hexact.maxHost hlen).2, (hexact.index 3 hindex).2.1, hrange [.back]⟩

end Inet.Network
