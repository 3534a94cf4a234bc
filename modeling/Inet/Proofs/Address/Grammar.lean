/-
Inet/Proofs/Address/Grammar.lean

The dotted quads, and why any other text is none.

The grammar is stated on the pieces between the dots of a text, with no regard
to the order in which the reader visits the bytes.  A piece is an octet if it
is a numeral of value at most 255.  The number of pieces is looked at before
any of them; of several pieces that are no octets the first is to blame:

    first offender  =  part,  where  pieces = before ++ part :: after
                              and all pieces of `before` are octets.

The four answers of the reader are determined one by one
(`read_eq_missing_iff`, `read_eq_componentCount_iff`, `read_eq_component_iff`,
`read_eq_ok_iff`); `read_decides_dottedQuads` is all of them.
-/
import Inet.Address.Reader
import Inet.Proofs.Text.Numeral
import Mathlib.Data.List.Forall2

namespace Inet

open Text

/-! ### Trying the elements of a list in order -/

section Traversal

variable {ε α β : Type} {f : α → Except ε β}

/-- All elements succeed, each with its own result. -/
theorem mapM_eq_ok_iff {xs : List α} {ys : List β} :
    xs.mapM f = .ok ys ↔ List.Forall₂ (fun x y => f x = .ok y) xs ys := by
  induction xs generalizing ys with
  | nil => cases ys <;> simp [pure, Except.pure]
  | cons x xs ih =>
    rw [List.mapM_cons]
    -- one failure, of the first element or of the others, is enough to fail
    rcases hx : f x with error | y
    · cases ys <;> simp [hx, bind, Except.bind]
    · rcases hxs : xs.mapM f with error | rest
      · rcases ys with - | ⟨z, zs⟩
        · simp [bind, Except.bind]
        · simp [bind, Except.bind, ← ih, hxs]
      · rcases ys with - | ⟨z, zs⟩
        · simp [bind, Except.bind, pure, Except.pure]
        · simp [bind, Except.bind, pure, Except.pure, ← ih, hxs, hx]

/-- A result is that of some element. -/
theorem exists_mem_of_mapM_eq_ok {xs : List α} {ys : List β} (h : xs.mapM f = .ok ys) {y : β}
    (hy : y ∈ ys) : ∃ x ∈ xs, f x = .ok y := by
  rw [mapM_eq_ok_iff] at h
  induction h with
  | nil => simp at hy
  | @cons x _ xs _ hx _ ih =>
    rcases List.mem_cons.1 hy with rfl | hy
    · exact ⟨x, List.mem_cons_self, hx⟩
    · obtain ⟨z, hz, hfz⟩ := ih hy
      exact ⟨z, List.mem_cons_of_mem _ hz, hfz⟩

/-- The error is that of the first element that fails. -/
theorem mapM_eq_error_iff {xs : List α} {error : ε} :
    xs.mapM f = .error error ↔ ∃ before x after, xs = before ++ x :: after
      ∧ (∀ y ∈ before, ∃ z, f y = .ok z) ∧ f x = .error error := by
  induction xs with
  | nil => simp [pure, Except.pure]
  | cons x xs ih =>
    rw [List.mapM_cons]
    constructor
    · intro h
      -- the first element is to blame, or it is passed over together with `before`
      rcases hx : f x with error' | y
      · have herror : error' = error := by simpa [hx, bind, Except.bind] using h
        exact ⟨[], x, xs, rfl, by simp, by rw [hx, herror]⟩
      · have hrest : xs.mapM f = .error error := by
          rcases hxs : xs.mapM f with error' | rest
          · simpa [hx, hxs, bind, Except.bind] using h
          · simp [hx, hxs, bind, Except.bind, pure, Except.pure] at h
        obtain ⟨before, z, after, rfl, hbefore, hz⟩ := ih.1 hrest
        refine ⟨x :: before, z, after, rfl, ?_, hz⟩
        intro w hw
        rcases List.mem_cons.1 hw with rfl | hw
        · exact ⟨y, hx⟩
        · exact hbefore w hw
    · rintro ⟨before, z, after, heq, hbefore, hz⟩
      rcases before with - | ⟨w, before⟩
      · obtain ⟨rfl, rfl⟩ := List.cons.inj heq
        rw [hz]
        rfl
      · obtain ⟨rfl, rfl⟩ := List.cons.inj heq
        obtain ⟨y, hx⟩ := hbefore x List.mem_cons_self
        have hrest := ih.2 ⟨before, z, after, rfl,
          fun v hv => hbefore v (List.mem_cons_of_mem _ hv), hz⟩
        rw [hx, hrest]
        rfl

end Traversal

namespace Address

/-! ### Octets -/

/-- A numeral of value at most 255. -/
def IsOctet (piece : String) : Prop :=
  IsNumeral piece ∧ numeralValue piece ≤ 255

instance (piece : String) : Decidable (IsOctet piece) :=
  inferInstanceAs (Decidable (_ ∧ _))

theorem octetOf?_toList (piece : String) :
    octetOf? piece.toList
      = if IsOctet piece then some (UInt8.ofNat (numeralValue piece)) else none := by
  rw [octetOf?, number?_toList]
  by_cases hnum : IsNumeral piece
  · by_cases hle : numeralValue piece ≤ 255 <;> simp [IsOctet, hnum, hle]
  · simp [IsOctet, hnum]

/-- A piece gives the octet that is its value. -/
theorem octetOf_eq_ok_iff {piece : String} {octet : UInt8} :
    octetOf piece.toList = .ok octet ↔ IsNumeral piece ∧ numeralValue piece = octet.toNat := by
  have hoctet := octet.toNat_lt
  rw [octetOf, octetOf?_toList]
  by_cases h : IsOctet piece
  · obtain ⟨hnum, hle⟩ := h
    have hval : (UInt8.ofNat (numeralValue piece)).toNat = numeralValue piece :=
      UInt8.toNat_ofNat_of_lt' (Nat.lt_succ_of_le hle)
    rw [if_pos ⟨hnum, hle⟩]
    show Except.ok _ = _ ↔ _
    rw [Except.ok.injEq, ← UInt8.toNat_inj, hval]
    exact (and_iff_right hnum).symm
  · simp only [h, ↓reduceIte, reduceCtorEq, false_iff]
    rintro ⟨hnum, hval⟩
    exact h ⟨hnum, by omega⟩

theorem exists_octetOf_iff {piece : String} :
    (∃ octet, octetOf piece.toList = .ok octet) ↔ IsOctet piece := by
  rw [octetOf, octetOf?_toList]
  by_cases h : IsOctet piece <;> simp [h]

/-- A piece that is no octet is quoted as it is. -/
theorem octetOf_eq_error_iff {piece : String} {error : AddressError} :
    octetOf piece.toList = .error error ↔ ¬ IsOctet piece ∧ error = .component piece := by
  rw [octetOf, octetOf?_toList]
  by_cases h : IsOctet piece <;> simp [h, eq_comm]

/-! ### Four pieces -/

theorem octets_inj {x y : Address} (h : x.octets = y.octets) : x = y := by
  obtain ⟨a, b, c, d⟩ := x
  obtain ⟨a', b', c', d'⟩ := y
  simpa [octets] using h

/-- Four pieces are read one after the other. -/
theorem map_octets_ofPieces {pieces : List (List Char)} (h : pieces.length = 4) :
    (ofPieces pieces).map octets = pieces.mapM octetOf := by
  obtain ⟨w, x, y, z, rfl⟩ := List.length_eq_four.1 h
  simp only [List.mapM_cons, List.mapM_nil, ofPieces]
  -- the first error ends both sides alike
  rcases octetOf w with error | a
  · rfl
  rcases octetOf x with error | b
  · rfl
  rcases octetOf y with error | c
  · rfl
  rcases octetOf z with error | d <;> rfl

theorem ofPieces_eq_ok_iff {texts : List String} (h : texts.length = 4) {addr : Address} :
    ofPieces (texts.map String.toList) = .ok addr
      ↔ List.Forall₂ (fun piece octet => IsNumeral piece ∧ numeralValue piece = octet.toNat)
          texts addr.octets := by
  have hlength : (texts.map String.toList).length = 4 := (List.length_map _).trans h
  have hmap := map_octets_ofPieces hlength
  have hforall : (texts.map String.toList).mapM octetOf = .ok addr.octets
      ↔ List.Forall₂ (fun piece octet => IsNumeral piece ∧ numeralValue piece = octet.toNat)
          texts addr.octets := by
    rw [mapM_eq_ok_iff, List.forall₂_map_left_iff]
    simp only [octetOf_eq_ok_iff]
  rw [← hforall, ← hmap]
  -- the octets of two addresses agree only if the addresses do
  rcases ofPieces (texts.map String.toList) with error | addr'
  · simp [Except.map]
  · simp only [Except.map, Except.ok.injEq]
    exact ⟨congrArg octets, octets_inj⟩

theorem ofPieces_eq_error_iff {texts : List String} (h : texts.length = 4) {error : AddressError} :
    ofPieces (texts.map String.toList) = .error error
      ↔ ∃ before part after, texts = before ++ part :: after
          ∧ (∀ piece ∈ before, IsOctet piece) ∧ ¬ IsOctet part ∧ error = .component part := by
  have hlength : (texts.map String.toList).length = 4 := (List.length_map _).trans h
  have hmap := map_octets_ofPieces hlength
  have herror : ofPieces (texts.map String.toList) = .error error
      ↔ (texts.map String.toList).mapM octetOf = .error error := by
    rw [← hmap]
    cases ofPieces (texts.map String.toList) <;> simp [Except.map]
  have hcomp : (texts.map String.toList).mapM octetOf
      = texts.mapM fun piece => octetOf piece.toList := List.mapM_map
  rw [herror, hcomp, mapM_eq_error_iff]
  simp only [exists_octetOf_iff, octetOf_eq_error_iff]

/-! ### Whole texts -/

variable {text : String}

/-- A text with four pieces is not empty. -/
theorem ne_empty_of_count (hcount : text.toList.count '.' + 1 = 4) : text ≠ "" := by
  rintro rfl
  simp at hcount

theorem read_of_count (hcount : text.toList.count '.' + 1 = 4) :
    read text = ofPieces ((pieces '.' text).map String.toList) := by
  rw [read_eq, ofText, if_neg (ne_empty_of_count hcount), map_toList_pieces]

/-- Too few or too many pieces are counted, whatever they are; an empty text stands apart. -/
theorem read_of_count_ne (hcount : text.toList.count '.' + 1 ≠ 4) :
    read text
      = .error (if text = "" then .missing else .componentCount (text.toList.count '.' + 1)) := by
  have hlength : (text.toList.splitOn '.').length = text.toList.count '.' + 1 := length_splitOn ..
  rw [read_eq, ofText, ofPieces_of_length_ne (by rwa [hlength]), hlength]
  by_cases hempty : text = ""
  · rw [if_pos hempty, if_pos hempty]
  · rw [if_neg hempty, if_neg hempty]

/-- With four pieces the only fault is a piece that is no octet, and the first one is blamed. -/
theorem read_eq_error_iff (hcount : text.toList.count '.' + 1 = 4) {error : AddressError} :
    read text = .error error
      ↔ ∃ before part after, pieces '.' text = before ++ part :: after
          ∧ (∀ piece ∈ before, IsOctet piece) ∧ ¬ IsOctet part ∧ error = .component part := by
  rw [read_of_count hcount, ofPieces_eq_error_iff (length_pieces.trans hcount)]

theorem read_eq_missing_iff : read text = .error .missing ↔ text = "" := by
  by_cases hcount : text.toList.count '.' + 1 = 4
  · rw [read_eq_error_iff hcount]
    simp [ne_empty_of_count hcount]
  · rw [read_of_count_ne hcount]
    by_cases hempty : text = "" <;> simp [hempty]

theorem read_eq_componentCount_iff {n : Nat} :
    read text = .error (.componentCount n)
      ↔ text ≠ "" ∧ n = text.toList.count '.' + 1 ∧ n ≠ 4 := by
  by_cases hcount : text.toList.count '.' + 1 = 4
  · rw [read_eq_error_iff hcount]
    constructor
    · rintro ⟨_, _, _, -, -, -, hcontra⟩
      contradiction
    · rintro ⟨-, rfl, hne⟩
      exact absurd hcount hne
  · rw [read_of_count_ne hcount]
    by_cases hempty : text = ""
    · simp [hempty]
    · simp only [hempty, ↓reduceIte, Except.error.injEq, AddressError.componentCount.injEq]
      constructor
      · rintro rfl
        exact ⟨hempty, rfl, hcount⟩
      · rintro ⟨-, hn, -⟩
        exact hn.symm

theorem read_eq_component_iff {part : String} :
    read text = .error (.component part)
      ↔ text.toList.count '.' + 1 = 4 ∧ ∃ before after, pieces '.' text = before ++ part :: after
          ∧ (∀ piece ∈ before, IsOctet piece) ∧ ¬ IsOctet part := by
  by_cases hcount : text.toList.count '.' + 1 = 4
  · rw [read_eq_error_iff hcount]
    constructor
    · rintro ⟨before, part', after, hsplit, hbefore, hpart, herror⟩
      obtain rfl := AddressError.component.inj herror
      exact ⟨hcount, before, after, hsplit, hbefore, hpart⟩
    · rintro ⟨-, before, after, hsplit, hbefore, hpart⟩
      exact ⟨before, part, after, hsplit, hbefore, hpart, rfl⟩
  · rw [read_of_count_ne hcount]
    by_cases hempty : text = "" <;> simp [hempty, hcount]

/-- An address is read off four pieces, its octets being their values in order. -/
theorem read_eq_ok_iff {addr : Address} :
    read text = .ok addr
      ↔ List.Forall₂ (fun piece octet => IsNumeral piece ∧ numeralValue piece = octet.toNat)
          (pieces '.' text) addr.octets := by
  by_cases hcount : text.toList.count '.' + 1 = 4
  · rw [read_of_count hcount, ofPieces_eq_ok_iff (length_pieces.trans hcount)]
  · rw [read_of_count_ne hcount]
    constructor
    · intro h
      contradiction
    · intro h
      -- octets and pieces are as many
      apply absurd _ hcount
      rw [← length_pieces, h.length_eq]
      rfl

/-- Four octets are always read. -/
theorem exists_read_eq_ok_iff :
    (∃ addr, read text = .ok addr)
      ↔ text.toList.count '.' + 1 = 4 ∧ ∀ piece ∈ pieces '.' text, IsOctet piece := by
  constructor
  · rintro ⟨addr, hread⟩
    have hforall := read_eq_ok_iff.1 hread
    have hboth : List.Forall₂ (fun piece octet => IsOctet piece ∧ numeralValue piece = octet.toNat)
        (pieces '.' text) addr.octets := by
      apply hforall.imp
      rintro piece octet ⟨hnum, hval⟩
      have hoctet := octet.toNat_lt
      exact ⟨⟨hnum, by omega⟩, hval⟩
    constructor
    · rw [← length_pieces, hforall.length_eq]
      rfl
    · exact ((List.forall₂_and_left _ _).1 hboth).1
  · rintro ⟨hcount, hoctets⟩
    rcases hread : read text with error | addr
    · obtain ⟨before, part, after, hsplit, -, hpart, -⟩ := (read_eq_error_iff hcount).1 hread
      exact absurd (hoctets part (by simp [hsplit])) hpart
    · exact ⟨addr, rfl⟩

/-- **Reading decides the dotted quads**, and says of any other text why it is none: it is empty,
or its dots separate some other number of pieces than four, or one of its four pieces is the first
that is no octet. -/
theorem read_decides_dottedQuads (text : String) :
    (read text = .error .missing ↔ text = "")
    ∧ (∀ n, read text = .error (.componentCount n)
        ↔ text ≠ "" ∧ n = text.toList.count '.' + 1 ∧ n ≠ 4)
    ∧ (∀ part, read text = .error (.component part)
        ↔ text.toList.count '.' + 1 = 4
          ∧ ∃ before after, pieces '.' text = before ++ part :: after
            ∧ (∀ piece ∈ before, IsOctet piece) ∧ ¬ IsOctet part)
    ∧ ((∃ addr, read text = .ok addr)
        ↔ text.toList.count '.' + 1 = 4 ∧ ∀ piece ∈ pieces '.' text, IsOctet piece)
    ∧ (∀ addr, read text = .ok addr
        ↔ List.Forall₂ (fun piece octet => IsNumeral piece ∧ numeralValue piece = octet.toNat)
            (pieces '.' text) addr.octets) :=
  ⟨read_eq_missing_iff, fun _ => read_eq_componentCount_iff, fun _ => read_eq_component_iff,
    exists_read_eq_ok_iff, fun _ => read_eq_ok_iff⟩

end Address

end Inet
