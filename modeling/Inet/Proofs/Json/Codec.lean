/-
Inet/Proofs/Json/Codec.lean

What is read from JSON, and reading back what was written.

An address or a network is read from a string that is read as one, and from no
other value.  Since both are written as their text, they are read back as they
were, without a record (`decodeAddress_encodeAddress`,
`decodeNetwork_encodeNetwork`).
-/
import Inet.Json.Codec
import Inet.Proofs.Network.Text

namespace Inet.Json

variable {value : Value} {addr : Address} {n : Network}

/-! ### Single values -/

theorem result_decodeAddress_eq_ok_iff :
    (decodeAddress value).result = .ok addr
      ↔ ∃ text, value = .string text ∧ Address.read text = .ok addr := by
  cases value with
  | string text => simp [decodeAddress, Attempt.result_mapError_eq_ok_iff, Address.result_parse]
  | _ => simp [decodeAddress, Attempt.error]

theorem result_decodeNetwork_eq_ok_iff :
    (decodeNetwork value).result = .ok n
      ↔ ∃ text, value = .string text ∧ Network.read text = .ok n := by
  cases value with
  | string text => simp [decodeNetwork, Attempt.result_mapError_eq_ok_iff, Network.result_parse]
  | _ => simp [decodeNetwork, Attempt.error]

/-- An address is read back as it was written. -/
theorem decodeAddress_encodeAddress (addr : Address) :
    decodeAddress (encodeAddress addr) = .ok addr := by
  rw [encodeAddress, decodeAddress, Address.parse_of_read (Address.read_text addr)]
  rfl

/-- A network is read back as it was written. -/
theorem decodeNetwork_encodeNetwork (hn : n.Valid) :
    decodeNetwork (encodeNetwork n) = .ok n := by
  rw [encodeNetwork, decodeNetwork, Network.parse_of_read (Network.read_text hn)]
  rfl

/-! ### Pairs -/

/-- The network of a pair is read like any other. -/
theorem exists_decodeNetwork_of_decodePair (h : (decodePair value).result = .ok (addr, n)) :
    ∃ item, (decodeNetwork item).result = .ok n := by
  unfold decodePair at h
  split at h
  · rw [Attempt.result_bind_eq_ok_iff] at h
    obtain ⟨_, -, h⟩ := h
    simp [Attempt.error] at h
  · rename_i item rest
    simp only [Attempt.result_bind_eq_ok_iff] at h
    obtain ⟨addr', -, n', hnetwork, h⟩ := h
    split at h
    · obtain ⟨-, rfl⟩ := Prod.mk.inj (Except.ok.inj h)
      exact ⟨item, hnetwork⟩
    · simp [Attempt.error] at h
  · simp [Attempt.error] at h

/-- The networks of all pairs are. -/
theorem exists_decodeNetwork_of_decodePairs {pairs : List (Address × Network)}
    (h : (decodePairs value).result = .ok pairs) (hmem : (addr, n) ∈ pairs) :
    ∃ item, (decodeNetwork item).result = .ok n := by
  unfold decodePairs at h
  split at h
  · rw [Attempt.result_mapM] at h
    obtain ⟨item, -, hitem⟩ := exists_mem_of_mapM_eq_ok h hmem
    exact exists_decodeNetwork_of_decodePair hitem
  · simp [Attempt.error] at h

end Inet.Json
