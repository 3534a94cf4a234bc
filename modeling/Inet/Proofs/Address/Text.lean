/-
Inet/Proofs/Address/Text.lean

The text of an address, among all texts that are read as it.

An address has one text that it is written as, and any number that it is read
from: each of the four numerals may have more zeros in front.  The text is the
canonical one of them, and no other text has it for its canonical form,

    read text = ok addr   ↔   canonical text = addr.text

(`read_eq_ok_iff_canonical`); and it is read as the address itself (`read_text`).
-/
import Inet.Proofs.Address.Grammar
import Inet.Proofs.Text.Canonical

namespace Inet.Address

open Text

variable {text : String} {addr : Address}

/-! ### Reading the text of an address -/

theorem pieces_text (addr : Address) :
    pieces '.' addr.text = addr.octets.map fun octet => octet.toNat.repr := by
  apply pieces_intercalate
  · simp [octets]
  · intro t ht
    obtain ⟨octet, -, rfl⟩ := List.mem_map.1 ht
    exact (isNumeral_repr _).not_mem (by decide)

/-- An address is read back from its text. -/
theorem read_text (addr : Address) : read addr.text = .ok addr := by
  rw [read_eq_ok_iff, pieces_text, List.forall₂_map_left_iff, List.forall₂_same]
  intro octet _
  exact ⟨isNumeral_repr _, numeralValue_repr _⟩

theorem text_inj {x y : Address} : x.text = y.text ↔ x = y := by
  constructor
  · intro h
    have hread := read_text x
    rw [h, read_text y] at hread
    exact (Except.ok.inj hread).symm
  · rintro rfl
    rfl

/-! ### Canonical texts -/

theorem isNumeral_of_read (h : read text = .ok addr) {piece : String}
    (hpiece : piece ∈ pieces '.' text) : IsNumeral piece :=
  ((exists_read_eq_ok_iff.1 ⟨addr, h⟩).2 piece hpiece).1

/-- A text that is read as an address holds digits and dots, and nothing else. -/
theorem not_mem_of_read (h : read text = .ok addr) {c : Char} (hdigit : ¬ c.isDigit)
    (hdot : c ≠ '.') : c ∉ text.toList := by
  have hjoin : String.intercalate (String.singleton '.') (pieces '.' text) = text :=
    intercalate_pieces
  rw [← hjoin]
  apply not_mem_intercalate hdot
  intro piece hpiece
  exact (isNumeral_of_read h hpiece).not_mem hdigit

/-- The texts that are read as an address are those whose canonical form is its text. -/
theorem read_eq_ok_iff_canonical : read text = .ok addr ↔ canonical text = addr.text := by
  calc read text = .ok addr
      ↔ List.Forall₂ (fun piece octet => canonical piece = octet.toNat.repr)
          (pieces '.' text) addr.octets := by
        simp only [read_eq_ok_iff, canonical_eq_repr_iff]
    _ ↔ (pieces '.' text).map canonical = addr.octets.map fun octet => octet.toNat.repr := by
        rw [← List.forall₂_eq_eq_eq, List.forall₂_map_left_iff, List.forall₂_map_right_iff]
    _ ↔ pieces '.' (canonical text) = pieces '.' addr.text := by
        rw [pieces_canonical (by decide), pieces_text]
    _ ↔ canonical text = addr.text := pieces_inj

/-- An address is written as the canonical form of any text that it is read from. -/
theorem text_eq_canonical (h : read text = .ok addr) : addr.text = canonical text :=
  (read_eq_ok_iff_canonical.1 h).symm

/-- A text is that of its address unless some octet begins with a superfluous zero. -/
theorem text_eq_self_iff (h : read text = .ok addr) :
    addr.text = text ↔ ∀ piece ∈ pieces '.' text, ¬ HasExtraZero piece := by
  have hpieces : addr.text = text ↔ (pieces '.' text).map canonical = (pieces '.' text).map id := by
    rw [← pieces_canonical (by decide), ← text_eq_canonical h, List.map_id, pieces_inj]
  rw [hpieces, List.map_inj_left]
  apply forall₂_congr
  intro piece hpiece
  exact canonical_eq_self_iff (isNumeral_of_read h hpiece)

theorem eq_iff_canonical_eq {text' : String} {addr' : Address} (h : read text = .ok addr)
    (h' : read text' = .ok addr') : addr = addr' ↔ canonical text = canonical text' := by
  rw [← text_inj, text_eq_canonical h, text_eq_canonical h']

/-! ### More zeros -/

theorem forall₂_isPadded_denotes {padded texts : List String} {octets : List UInt8}
    (hp : List.Forall₂ IsPadded padded texts)
    (h : List.Forall₂ (fun piece octet => IsNumeral piece ∧ numeralValue piece = octet.toNat)
      texts octets) :
    List.Forall₂ (fun piece octet => IsNumeral piece ∧ numeralValue piece = octet.toNat)
      padded octets := by
  induction hp generalizing octets with
  | nil => exact h
  | cons hhead _ ih =>
    cases h with
    | cons hdenotes hrest => exact .cons (hhead.denotes hdenotes) (ih hrest)

/-- An address is read with more zeros in front of any of its octets. -/
theorem read_of_isPadded {padded : List String} (h : read text = .ok addr)
    (hp : List.Forall₂ IsPadded padded (pieces '.' text)) :
    read (String.intercalate (String.singleton '.') padded) = .ok addr := by
  have hdenotes := forall₂_isPadded_denotes hp (read_eq_ok_iff.1 h)
  have hpieces : pieces '.' (String.intercalate (String.singleton '.') padded) = padded := by
    apply pieces_intercalate
    · rintro rfl
      cases hdenotes
    · intro t ht
      exact (((List.forall₂_and_left _ _).1 hdenotes).1 t ht).not_mem (by decide)
  rw [read_eq_ok_iff, hpieces]
  exact hdenotes

end Inet.Address
