/-
Inet/Proofs/Network/Text.lean

The text of a network, among all texts that are read as it.

As for addresses, the text is the canonical one: both the octets of the address
and the prefix length may be read with more zeros in front, and are written
without them.  The address is kept with its host bits, so that the text of a
network is that of its own address, whatever the block.

Main statements:
  * `read_text`: a valid network is read back from its text;
  * `read_eq_ok_iff_canonical`: the texts that are read as a network;
  * `text_read_eq_canonical`: what is read from a text, be it an address or a
    network, is written as the canonical form of the text.
-/
import Inet.Proofs.Address.Text
import Inet.Proofs.Network.Grammar

namespace Inet.Network

open Text

variable {text left right : String} {n : Network}

/-! ### Reading the text of a network -/

theorem isPair_text (n : Network) : IsPair n.text n.addr.text n.prefixLen.toNat.repr where
  join := rfl
  left := Address.not_mem_of_read (Address.read_text n.addr) (by decide) (by decide)
  right := (isNumeral_repr _).not_mem (by decide)

/-- A valid network is read back from its text. -/
theorem read_text (hn : n.Valid) : read n.text = .ok n :=
  read_eq_ok_iff.2 ⟨_, _, isPair_text n, Address.read_text _, isNumeral_repr _,
    numeralValue_repr _, UInt8.le_iff_toNat_le.1 hn⟩

theorem text_inj {m : Network} (hm : m.Valid) (hn : n.Valid) : m.text = n.text ↔ m = n := by
  constructor
  · intro h
    have hread := read_text hm
    rw [h, read_text hn] at hread
    exact (Except.ok.inj hread).symm
  · rintro rfl
    rfl

/-! ### Canonical texts -/

theorem IsPair.unique {left' right' : String} (h : IsPair text left right)
    (h' : IsPair text left' right') : left = left' ∧ right = right' := by
  have hpieces := (isPair_iff.1 h).symm.trans (isPair_iff.1 h')
  simpa using hpieces

theorem exists_isPair_of_read (h : read text = .ok n) : ∃ left right, IsPair text left right := by
  obtain ⟨left, right, hpair, -⟩ := read_eq_ok_iff.1 h
  exact ⟨left, right, hpair⟩

/-- What the two parts of a text denote. -/
theorem IsPair.denotes (hpair : IsPair text left right) (h : read text = .ok n) :
    Address.read left = .ok n.addr ∧ IsNumeral right ∧ numeralValue right = n.prefixLen.toNat := by
  obtain ⟨left', right', hpair', hleft, hnum, hval, -⟩ := read_eq_ok_iff.1 h
  obtain ⟨rfl, rfl⟩ := hpair.unique hpair'
  exact ⟨hleft, hnum, hval⟩

/-- The texts that are read as a network are those whose canonical form is its text. -/
theorem read_eq_ok_iff_canonical : read text = .ok n ↔ n.Valid ∧ canonical text = n.text := by
  have hvalid : n.prefixLen.toNat ≤ 32 ↔ n.Valid := (UInt8.le_iff_toNat_le (b := 32)).symm
  calc read text = .ok n
      ↔ n.Valid ∧ ∃ left right, pieces '/' text = [left, right] ∧ canonical left = n.addr.text
          ∧ canonical right = n.prefixLen.toNat.repr := by
        simp only [read_eq_ok_iff, isPair_iff, Address.read_eq_ok_iff_canonical,
          canonical_eq_repr_iff, hvalid]
        constructor
        · rintro ⟨left, right, hpair, hleft, hnum, hval, hn⟩
          exact ⟨hn, left, right, hpair, hleft, hnum, hval⟩
        · rintro ⟨hn, left, right, hpair, hleft, hnum, hval⟩
          exact ⟨left, right, hpair, hleft, hnum, hval, hn⟩
    _ ↔ n.Valid ∧ (pieces '/' text).map canonical = [n.addr.text, n.prefixLen.toNat.repr] := by
        simp [List.map_eq_cons_iff]
    _ ↔ n.Valid ∧ pieces '/' (canonical text) = pieces '/' n.text := by
        rw [pieces_canonical (by decide), isPair_iff.1 (isPair_text n)]
    _ ↔ n.Valid ∧ canonical text = n.text := by
        rw [pieces_inj]

/-- A network is written as the canonical form of any text that it is read from. -/
theorem text_eq_canonical (h : read text = .ok n) : n.text = canonical text :=
  (read_eq_ok_iff_canonical.1 h).2.symm

/-- A text is that of its network unless some octet or the prefix length begins with a superfluous
zero. -/
theorem text_eq_self_iff (h : read text = .ok n) (hpair : IsPair text left right) :
    n.text = text
      ↔ (∀ piece ∈ pieces '.' left, ¬ HasExtraZero piece) ∧ ¬ HasExtraZero right := by
  obtain ⟨hleft, hnum, hval⟩ := hpair.denotes h
  rw [← Address.text_eq_self_iff hleft, ← canonical_eq_self_iff hnum, canonical_eq_repr hnum, hval]
  constructor
  · intro e
    exact (e ▸ isPair_text n).unique hpair
  · rintro ⟨haddr, hlen⟩
    rw [hpair.join, ← haddr, ← hlen]
    rfl

theorem eq_iff_canonical_eq {text' : String} {n' : Network} (h : read text = .ok n)
    (h' : read text' = .ok n') : n = n' ↔ canonical text = canonical text' := by
  rw [← text_inj (valid_of_read h) (valid_of_read h'), text_eq_canonical h, text_eq_canonical h']

/-! ### More zeros -/

/-- A network is read with more zeros in front of any of its octets and of its prefix length. -/
theorem read_of_isPadded {padded : List String} {right' : String} (h : read text = .ok n)
    (hpair : IsPair text left right) (hleft' : List.Forall₂ IsPadded padded (pieces '.' left))
    (hright' : IsPadded right' right) :
    read (String.intercalate (String.singleton '.') padded ++ "/" ++ right') = .ok n := by
  obtain ⟨hleft, hright⟩ := hpair.denotes h
  have haddr := Address.read_of_isPadded hleft hleft'
  obtain ⟨hnum, hval⟩ := hright'.denotes hright
  refine read_eq_ok_iff.2 ⟨_, right', ⟨rfl, ?_, ?_⟩, haddr, hnum, hval, ?_⟩
  · exact Address.not_mem_of_read haddr (by decide) (by decide)
  · exact hnum.not_mem (by decide)
  · exact UInt8.le_iff_toNat_le.1 (valid_of_read h)

/-- **What is read from a text is written as the canonical form of the text.**  So it is written as
the text itself exactly if this has no superfluous zero; two texts that are read give the same
value exactly if their canonical forms are the same; and no number of zeros in front of an octet or
of the prefix length changes what is read. -/
theorem text_read_eq_canonical :
    (∀ text addr, Address.read text = .ok addr →
      addr.text = canonical text
      ∧ (addr.text = text ↔ ∀ piece ∈ pieces '.' text, ¬ HasExtraZero piece)
      ∧ (∀ text' addr', Address.read text' = .ok addr' →
          (addr = addr' ↔ canonical text = canonical text'))
      ∧ ∀ padded, List.Forall₂ IsPadded padded (pieces '.' text) →
          Address.read (".".intercalate padded) = .ok addr)
    ∧ (∀ text n, read text = .ok n →
      n.text = canonical text
      ∧ (∀ text' n', read text' = .ok n' → (n = n' ↔ canonical text = canonical text'))
      ∧ ∃ left right, IsPair text left right
        ∧ (n.text = text
            ↔ (∀ piece ∈ pieces '.' left, ¬ HasExtraZero piece) ∧ ¬ HasExtraZero right)
        ∧ ∀ padded right', List.Forall₂ IsPadded padded (pieces '.' left) →
            IsPadded right' right →
            read (".".intercalate padded ++ "/" ++ right') = .ok n) := by
  constructor
  · intro text addr h
    refine ⟨Address.text_eq_canonical h, Address.text_eq_self_iff h, ?_, ?_⟩
    · intro text' addr' h'
      exact Address.eq_iff_canonical_eq h h'
    · intro padded hp
      exact Address.read_of_isPadded h hp
  · intro text n h
    obtain ⟨left, right, hpair⟩ := exists_isPair_of_read h
    refine ⟨text_eq_canonical h, ?_, left, right, hpair, text_eq_self_iff h hpair, ?_⟩
    · intro text' n' h'
      exact eq_iff_canonical_eq h h'
    · intro padded right' hleft' hright'
      exact read_of_isPadded h hpair hleft' hright'

/-- An octet and a prefix length with more digits than any number of 32 bits. -/
theorem text_read_eq_canonical_longZeros :
    let addr : Address := ⟨255, 0, 10, 1⟩
    let padded := ["000000000000255", "0", "010", "01"]
    Address.read "255.0.010.01" = .ok addr
    ∧ List.Forall₂ IsPadded padded (pieces '.' "255.0.010.01")
    ∧ Address.read (".".intercalate padded) = .ok addr
    ∧ read "255.0.010.01/000000000032" = .ok ⟨addr, 32⟩
    ∧ Network.text ⟨addr, 32⟩ = canonical "255.0.010.01/000000000032" := by
  intro addr padded
  have haddr : Address.read "255.0.010.01" = .ok addr := by
    rw [Address.read_eq]
    decide
  have hpieces : pieces '.' "255.0.010.01" = ["255", "0", "010", "01"] := by decide
  have hpadded : List.Forall₂ IsPadded padded (pieces '.' "255.0.010.01") := by
    rw [hpieces]
    exact .cons ⟨12, by decide⟩ (.cons ⟨0, by decide⟩ (.cons ⟨0, by decide⟩
      (.cons ⟨0, by decide⟩ .nil)))
  have hn : read "255.0.010.01/000000000032" = .ok ⟨addr, 32⟩ := by
    rw [read_eq]
    decide
  exact ⟨haddr, hpadded, (text_read_eq_canonical.1 _ _ haddr).2.2.2 _ hpadded, hn,
    (text_read_eq_canonical.2 _ _ hn).1⟩

end Inet.Network
