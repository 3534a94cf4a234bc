/-
Inet/Proofs/Address/Integers.lean

Addresses from integers, beside addresses from text.

Four integers make an address if they are octets; the first that is none is to
blame, and where it stands.  Written in decimal with dots between them they are
a text, and this is read as the same address or refused for the same reason:

    read (dotted values)  =  ofIntegers values, its error as one of the text

(`read_dotted`).  The piece that the reader blames is the integer that is blamed,
whether it is refused for its sign, for not being an octet, or for not fitting a
word at all.  Only in one point is a text told less than the integers: the empty
list has no element, and the empty text is missing.
-/
import Inet.Log.Intake
import Inet.Proofs.Address.Text

namespace Inet

open Text

/-- The error about the text of integers that make no address. -/
def OctetsError.inText : OctetsError → AddressError
  | .length 0 => .missing
  | .length n => .componentCount n
  | .overflow _ value => .component value.repr

namespace Address

variable {values : List Int} {value : Int}

/-! ### Single integers -/

theorem octetAt_eq_ok_iff {idx : Nat} {octet : UInt8} :
    octetAt idx value = .ok octet ↔ value = octet.toNat := by
  have hoctet := octet.toNat_lt
  rw [octetAt]
  split_ifs with h
  · obtain ⟨n, rfl⟩ := Int.eq_ofNat_of_zero_le h.1
    have hn : n < UInt8.size := by
      rw [UInt8.size]
      omega
    rw [Except.ok.injEq, Int.toNat_natCast, ← UInt8.toNat_inj, UInt8.toNat_ofNat_of_lt' hn,
      Int.natCast_inj]
  · simp only [false_iff]
    omega

theorem exists_octetAt_iff {idx : Nat} :
    (∃ octet, octetAt idx value = .ok octet) ↔ 0 ≤ value ∧ value ≤ 255 := by
  rw [octetAt]
  split_ifs with h <;> simp [h]

theorem octetAt_eq_error_iff {idx : Nat} {error : OctetsError} :
    octetAt idx value = .error error
      ↔ ¬ (0 ≤ value ∧ value ≤ 255) ∧ error = .overflow idx value := by
  rw [octetAt]
  split_ifs with h <;> simp [h, eq_comm]

/-! ### Integers as pieces -/

/-- The integers in decimal, with dots between them. -/
def dotted (values : List Int) : String := ".".intercalate (values.map Int.repr)

/-- Of all integers the octets are written as octets. -/
theorem isOctet_repr_iff : IsOctet value.repr ↔ 0 ≤ value ∧ value ≤ 255 := by
  cases value with
  | ofNat n =>
    show IsOctet n.repr ↔ _
    rw [IsOctet, numeralValue_repr, and_iff_right (isNumeral_repr n), Int.ofNat_eq_natCast]
    omega
  | negSucc n =>
    -- the sign alone makes it no numeral, whatever the digits behind it
    have hsign : ¬ IsNumeral (Int.negSucc n).repr := by
      intro h
      exact h.not_mem (by decide : ¬ '-'.isDigit) (by simp [Int.repr])
    simp [IsOctet, hsign]

/-- An octet is read off a piece as it is taken from a list. -/
theorem octetOf_repr (idx : Nat) (value : Int) :
    octetOf value.repr.toList = (octetAt idx value).mapError OctetsError.inText := by
  rcases h : octetAt idx value with error | octet
  · obtain ⟨hbad, rfl⟩ := octetAt_eq_error_iff.1 h
    exact octetOf_eq_error_iff.2 ⟨mt isOctet_repr_iff.1 hbad, rfl⟩
  · obtain rfl := octetAt_eq_ok_iff.1 h
    exact octetOf_eq_ok_iff.2 ⟨isNumeral_repr _, numeralValue_repr _⟩

theorem dot_not_mem_repr (value : Int) : '.' ∉ value.repr.toList := by
  cases value with
  | ofNat n => exact (isNumeral_repr n).not_mem (by decide)
  | negSucc n =>
    have hdigits : '.' ∉ (n + 1).repr.toList := (isNumeral_repr _).not_mem (by decide)
    simpa [Int.repr] using hdigits

/-- The pieces of the text are the integers as they are written. -/
theorem pieces_dotted (h : values ≠ []) : pieces '.' (dotted values) = values.map Int.repr := by
  apply pieces_intercalate
  · simpa using h
  · intro t ht
    obtain ⟨value, -, rfl⟩ := List.mem_map.1 ht
    exact dot_not_mem_repr value

theorem count_dotted (h : values ≠ []) : (dotted values).toList.count '.' + 1 = values.length := by
  rw [← length_pieces, pieces_dotted h, List.length_map]

theorem repr_ne_empty (value : Int) : value.repr ≠ "" := by
  cases value with
  | ofNat n => exact Nat.repr_ne_empty
  | negSucc n => simp [Int.repr]

theorem dotted_ne_empty (h : values ≠ []) : dotted values ≠ "" := by
  intro hempty
  have hmem : "" ∈ values.map Int.repr := by
    rw [← pieces_dotted h, hempty]
    decide
  obtain ⟨value, -, hvalue⟩ := List.mem_map.1 hmem
  exact repr_ne_empty value hvalue

/-! ### Lists that are no addresses -/

theorem ofIntegers_of_length_ne (h : values.length ≠ 4) :
    ofIntegers values = .error (.length values.length) := by
  unfold ofIntegers
  split
  · exact absurd rfl h
  · rfl

/-- Four integers are looked at one after the other. -/
theorem map_octets_ofIntegers (h : values.length = 4) :
    (ofIntegers values).map octets = values.zipIdx.mapM fun (value, idx) => octetAt idx value := by
  obtain ⟨a, b, c, d, rfl⟩ := List.length_eq_four.1 h
  simp only [List.zipIdx_cons, List.zipIdx_nil, List.mapM_cons, List.mapM_nil, ofIntegers]
  -- the first error ends both sides alike
  rcases octetAt 0 a with error | w
  · rfl
  rcases octetAt 1 b with error | x
  · rfl
  rcases octetAt 2 c with error | y
  · rfl
  rcases octetAt 3 d with error | z <;> rfl

/-- An element of a list stands where the elements before it end. -/
theorem zipIdx_eq_append_cons_iff {α : Type} {xs : List α} {pair : α × Nat}
    {before after : List (α × Nat)} :
    xs.zipIdx = before ++ pair :: after
      ↔ ∃ front back, xs = front ++ pair.1 :: back ∧ front.length = pair.2
        ∧ before = front.zipIdx ∧ after = back.zipIdx (pair.2 + 1) := by
  obtain ⟨x, idx⟩ := pair
  constructor
  · intro h
    obtain ⟨front, rest, rfl, rfl, hrest⟩ := List.zipIdx_eq_append_iff.1 h
    obtain ⟨_, back, rfl, hpair, rfl⟩ := List.zipIdx_eq_cons_iff.1 hrest.symm
    obtain ⟨rfl, rfl⟩ := Prod.mk.inj hpair
    exact ⟨front, back, rfl, (Nat.zero_add _).symm, rfl, rfl⟩
  · rintro ⟨front, back, rfl, rfl, rfl, rfl⟩
    rw [List.zipIdx_append, List.zipIdx_cons, Nat.zero_add]

/-- The first integer that is no octet is to blame, and where it stands. -/
theorem ofIntegers_eq_overflow_iff {idx : Nat} :
    ofIntegers values = .error (.overflow idx value)
      ↔ values.length = 4 ∧ ∃ before after, values = before ++ value :: after
        ∧ before.length = idx ∧ (∀ v ∈ before, 0 ≤ v ∧ v ≤ 255) ∧ ¬ (0 ≤ value ∧ value ≤ 255) := by
  by_cases h : values.length = 4
  · have herror : ofIntegers values = .error (.overflow idx value)
        ↔ (values.zipIdx.mapM fun (value, idx) => octetAt idx value)
          = .error (.overflow idx value) := by
      rw [← map_octets_ofIntegers h]
      cases ofIntegers values <;> simp [Except.map]
    rw [herror, mapM_eq_error_iff, and_iff_right h]
    simp only [exists_octetAt_iff, octetAt_eq_error_iff]
    constructor
    · rintro ⟨before, pair, after, hsplit, hbefore, hbad, herror⟩
      obtain ⟨rfl, rfl⟩ := OctetsError.overflow.inj herror
      -- a split of the numbered elements is one of the elements, at the number of the first behind
      obtain ⟨front, back, rfl, hlength, rfl, rfl⟩ := zipIdx_eq_append_cons_iff.1 hsplit
      refine ⟨front, back, rfl, hlength, ?_, hbad⟩
      intro v hv
      rw [← List.zipIdx_map_fst 0 front] at hv
      obtain ⟨pair, hpair, rfl⟩ := List.mem_map.1 hv
      exact hbefore pair hpair
    · rintro ⟨before, after, rfl, rfl, hbefore, hbad⟩
      refine ⟨before.zipIdx, (value, before.length), after.zipIdx (before.length + 1),
        zipIdx_eq_append_cons_iff.2 ⟨before, after, rfl, rfl, rfl, rfl⟩, ?_, hbad, rfl⟩
      intro pair hpair
      exact hbefore _ (List.fst_mem_of_mem_zipIdx hpair)
  · rw [ofIntegers_of_length_ne h]
    simp [h]

/-! ### The text of integers -/

theorem read_dotted (values : List Int) :
    read (dotted values) = (ofIntegers values).mapError OctetsError.inText := by
  by_cases h : values.length = 4
  · obtain ⟨a, b, c, d, rfl⟩ := List.length_eq_four.1 h
    have hne : [a, b, c, d] ≠ [] := List.cons_ne_nil _ _
    rw [read_of_count (count_dotted hne), pieces_dotted hne]
    simp only [List.map_cons, List.map_nil, ofPieces, ofIntegers, octetOf_repr 0 a,
      octetOf_repr 1 b, octetOf_repr 2 c, octetOf_repr 3 d]
    -- the first error ends both sides alike
    rcases octetAt 0 a with error | w
    · rfl
    rcases octetAt 1 b with error | x
    · rfl
    rcases octetAt 2 c with error | y
    · rfl
    rcases octetAt 3 d with error | z <;> rfl
  · rw [ofIntegers_of_length_ne h]
    -- of all lists only the empty one is written as the empty text
    rcases values with - | ⟨first, rest⟩
    · rw [read_eq]
      rfl
    · have hne : first :: rest ≠ [] := List.cons_ne_nil _ _
      have hcount := count_dotted hne
      rw [read_of_count_ne (hcount.trans_ne h), if_neg (dotted_ne_empty hne), hcount]
      rfl

theorem result_parse_dotted (values : List Int) :
    (parse (dotted values)).result = (fromIntegers values).result.mapError OctetsError.inText := by
  rw [result_parse, fromIntegers, Attempt.result_recording, read_dotted]

theorem parse_dotted_eq_ok_iff {addr : Address} :
    (parse (dotted values)).result = .ok addr ↔ (fromIntegers values).result = .ok addr := by
  rw [result_parse_dotted]
  cases (fromIntegers values).result <;> simp [Except.mapError]

theorem parse_dotted_eq_component_iff {part : String} :
    (parse (dotted values)).result = .error (.component part)
      ↔ ∃ idx value, part = value.repr
        ∧ (fromIntegers values).result = .error (.overflow idx value) := by
  rw [result_parse_dotted]
  rcases (fromIntegers values).result with (n | ⟨idx, value⟩) | addr
  · cases n <;> simp [Except.mapError, OctetsError.inText]
  · simp [Except.mapError, OctetsError.inText, eq_comm]
  · simp [Except.mapError]

/-- The piece to blame stands where the integer to blame stands, and is the first that is no
octet. -/
theorem exists_pieces_of_overflow {idx : Nat}
    (h : (fromIntegers values).result = .error (.overflow idx value)) :
    ∃ before after, values = before ++ value :: after ∧ before.length = idx
      ∧ pieces '.' (dotted values) = before.map Int.repr ++ value.repr :: after.map Int.repr
      ∧ (∀ piece ∈ before.map Int.repr, IsOctet piece) ∧ ¬ IsOctet value.repr := by
  rw [fromIntegers, Attempt.result_recording, ofIntegers_eq_overflow_iff] at h
  obtain ⟨hlength, before, after, rfl, hidx, hbefore, hbad⟩ := h
  refine ⟨before, after, rfl, hidx, ?_, ?_, mt isOctet_repr_iff.1 hbad⟩
  · rw [pieces_dotted (by simp), List.map_append, List.map_cons]
  · intro piece hpiece
    obtain ⟨v, hv, rfl⟩ := List.mem_map.1 hpiece
    exact isOctet_repr_iff.2 (hbefore v hv)

theorem parse_dotted_of_length_ne (h : values.length ≠ 4) :
    (fromIntegers values).result = .error (.length values.length)
    ∧ (parse (dotted values)).result
      = .error (if values = [] then .missing else .componentCount values.length) := by
  have hlength : (fromIntegers values).result = .error (.length values.length) := by
    rw [fromIntegers, Attempt.result_recording, ofIntegers_of_length_ne h]
  refine ⟨hlength, ?_⟩
  rw [result_parse_dotted, hlength]
  rcases values with - | ⟨first, rest⟩ <;> rfl

/-- **Integers and their dotted text are judged alike**, be the integers negative or too large for
a word.  They make the same address or both make none; if one element of four is to blame, its
numeral is, at the same place; if there are not four, both are told how many there are, but for the
empty text. -/
theorem parse_dotted_agrees (values : List Int) :
    (∀ addr, (fromIntegers values).result = .ok addr
      ↔ (parse (dotted values)).result = .ok addr)
    ∧ (∀ part, (parse (dotted values)).result = .error (.component part)
      ↔ ∃ idx value, part = value.repr
        ∧ (fromIntegers values).result = .error (.overflow idx value))
    ∧ (∀ idx value, (fromIntegers values).result = .error (.overflow idx value) →
      ∃ before after, values = before ++ value :: after ∧ before.length = idx
        ∧ pieces '.' (dotted values) = before.map Int.repr ++ value.repr :: after.map Int.repr
        ∧ (∀ piece ∈ before.map Int.repr, IsOctet piece) ∧ ¬ IsOctet value.repr)
    ∧ (values.length ≠ 4 →
      (fromIntegers values).result = .error (.length values.length)
      ∧ (parse (dotted values)).result
        = .error (if values = [] then .missing else .componentCount values.length)) :=
  ⟨fun _ => parse_dotted_eq_ok_iff.symm, fun _ => parse_dotted_eq_component_iff,
    fun _ _ => exists_pieces_of_overflow, parse_dotted_of_length_ne⟩

/-- The second element is beyond any word, and the third is negative. -/
theorem parse_dotted_agrees_beyondWord :
    let values : List Int := [10, 4294967296, -1, 0]
    (fromIntegers values).result = .error (.overflow 1 4294967296)
    ∧ (parse "10.4294967296.-1.0").result = .error (.component "4294967296")
    ∧ (∃ before after, values = before ++ 4294967296 :: after ∧ before.length = 1)
    ∧ ([] : List Int).length ≠ 4
    ∧ (parse "").result = .error .missing := by
  intro values
  have hvalues : (fromIntegers values).result = .error (.overflow 1 4294967296) := by decide
  obtain ⟨-, hpart, hplace, -⟩ := parse_dotted_agrees values
  obtain ⟨before, after, hsplit, hidx, -⟩ := hplace 1 4294967296 hvalues
  have hempty : ([] : List Int).length ≠ 4 := by decide
  refine ⟨hvalues, ?_, ⟨before, after, hsplit, hidx⟩, hempty, ?_⟩
  · exact (hpart "4294967296").2 ⟨1, 4294967296, by decide, hvalues⟩
  · exact ((parse_dotted_agrees []).2.2.2 hempty).2

end Address

end Inet
