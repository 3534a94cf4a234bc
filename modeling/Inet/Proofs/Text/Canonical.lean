/-
Inet/Proofs/Text/Canonical.lean

Numerals, and texts with numerals in them, without superfluous zeros.

A number is written as a numeral that begins with a zero only if it has no
other digit.  A zero in front of another digit is superfluous: it may stand
there any number of times, and the value stays the same.  A run of digits
loses its superfluous zeros by `trimZeros`, which leaves the number that the
run denotes as it is written:

    trimZeros digits  =  toDigits 10 (value of digits)

A text is made `canonical` run by run: a run is as many digits as follow each
other, and any other character is a run of its own.  Since no run reaches
across a character that is no digit, the pieces between such characters become
canonical one by one (`canonical_intercalate`).  Nothing but zeros is lost, so
that the pieces of the canonical text are the canonical pieces of the text
(`pieces_canonical`).
-/
import Inet.Proofs.Text.Numeral
import Mathlib.Data.List.SplitBy

namespace Inet.Text

variable {text : String} {chars : List Char}

/-! ### Numbers as they are written -/

theorem numeralValue_eq (text : String) :
    numeralValue text = Nat.ofDigitChars 10 text.toList 0 :=
  (ofDigitChars_eq_ofDigits _).symm

/-- A number is written as a numeral. -/
theorem isNumeral_repr (n : Nat) : IsNumeral n.repr := by
  refine ⟨Nat.repr_ne_empty, ?_⟩
  intro c hc
  rw [Nat.toList_repr] at hc
  exact Nat.isDigit_of_mem_toDigits (by decide) (by decide) hc

theorem numeralValue_repr (n : Nat) : numeralValue n.repr = n := by
  rw [numeralValue_eq, Nat.toList_repr, Nat.ofDigitChars_ten_toDigits]

/-- A numeral contains digits only. -/
theorem IsNumeral.not_mem (h : IsNumeral text) {c : Char} (hc : ¬ c.isDigit) : c ∉ text.toList :=
  fun hmem => hc (h.2 c hmem)

/-! ### Runs of digits -/

/-- A run of digits without its superfluous zeros.  The last digit always stays. -/
def trimZeros : List Char → List Char
  | '0' :: c :: rest => trimZeros (c :: rest)
  | chars => chars

theorem toDigits_digit {c : Char} (hc : c.isDigit) :
    Nat.toDigits 10 (c.toNat - '0'.toNat) = [c] := by
  obtain ⟨h₁, h₂⟩ := Decimal.isDigit_iff.1 hc
  have hzero : '0'.toNat = 48 := rfl
  have hlt : c.toNat - '0'.toNat < 10 := by omega
  have hchar : (Nat.digitChar (c.toNat - '0'.toNat)).toNat = c.toNat := by
    rw [Nat.toNat_digitChar_of_lt_ten hlt]
    omega
  rw [Nat.toDigits_of_lt_base hlt, ← Char.ofNat_toNat (Nat.digitChar _), hchar, Char.ofNat_toNat]

/-- Digits behind a number are digits of the number that they make up together. -/
theorem toDigits_ofDigitChars (hchars : ∀ c ∈ chars, c.isDigit) {n : Nat} (hn : 0 < n) :
    Nat.toDigits 10 (Nat.ofDigitChars 10 chars n) = Nat.toDigits 10 n ++ chars := by
  -- `n` is the number read so far
  induction chars generalizing n with
  | nil => rw [Nat.ofDigitChars_nil, List.append_nil]
  | cons c chars ih =>
    have hc : c.isDigit := hchars c List.mem_cons_self
    have hlt : c.toNat - '0'.toNat < 10 := by
      have hzero : '0'.toNat = 48 := rfl
      have := Decimal.isDigit_iff.1 hc
      omega
    calc Nat.toDigits 10 (Nat.ofDigitChars 10 (c :: chars) n)
        = Nat.toDigits 10 (10 * n + (c.toNat - '0'.toNat)) ++ chars := by
          rw [Nat.ofDigitChars_cons,
            ih (fun d hd => hchars d (List.mem_cons_of_mem _ hd)) (by omega)]
      _ = Nat.toDigits 10 n ++ [c] ++ chars := by
          rw [← Nat.toDigits_append_toDigits (by decide) hn hlt, toDigits_digit hc]
      _ = Nat.toDigits 10 n ++ c :: chars := by simp

/-- Without superfluous zeros a run of digits is the number that it denotes. -/
theorem trimZeros_eq_toDigits (hne : chars ≠ []) (hchars : ∀ c ∈ chars, c.isDigit) :
    trimZeros chars = Nat.toDigits 10 (Nat.ofDigitChars 10 chars 0) := by
  fun_induction trimZeros chars with
  | case1 c rest ih =>
    rw [ih (List.cons_ne_nil _ _) (fun d hd => hchars d (List.mem_cons_of_mem _ hd)),
      Nat.ofDigitChars_cons]
    rfl
  | case2 chars hzero =>
    rcases chars with - | ⟨c, rest⟩
    · contradiction
    have hc : c.isDigit := hchars c List.mem_cons_self
    have hrest : ∀ d ∈ rest, d.isDigit := fun d hd => hchars d (List.mem_cons_of_mem _ hd)
    rw [Nat.ofDigitChars_cons, Nat.mul_zero, Nat.zero_add]
    -- a digit that stands for zero is the only one
    rcases Nat.eq_zero_or_pos (c.toNat - '0'.toNat) with hvalue | hvalue
    · have hc0 : c = '0' := by
        have hdigits := toDigits_digit hc
        rw [hvalue, Nat.toDigits_zero] at hdigits
        exact (List.singleton_inj.1 hdigits).symm
      rcases rest with - | ⟨d, rest⟩
      · rw [Nat.ofDigitChars_nil, toDigits_digit hc]
      · exact absurd (by rw [hc0]) (hzero d rest)
    · rw [toDigits_ofDigitChars hrest hvalue, toDigits_digit hc, List.singleton_append]

theorem length_trimZeros_le (chars : List Char) : (trimZeros chars).length ≤ chars.length := by
  fun_induction trimZeros chars with
  | case1 c rest ih => exact Nat.le_succ_of_le ih
  | case2 chars => exact Nat.le_refl _

/-- Trimming leaves as it is what does not begin with a superfluous zero. -/
theorem trimZeros_eq_self_iff :
    trimZeros chars = chars ↔ ¬ (chars.head? = some '0' ∧ 1 < chars.length) := by
  fun_cases trimZeros chars with
  | case1 c rest =>
    have hlength := length_trimZeros_le (c :: rest)
    have hne : trimZeros (c :: rest) ≠ '0' :: c :: rest := by
      intro h
      rw [h, List.length_cons] at hlength
      omega
    simp [hne]
  | case2 _ hzero =>
    simp only [true_iff]
    rintro ⟨hhead, hlength⟩
    rcases chars with - | ⟨d, - | ⟨c, rest⟩⟩
    · simp at hhead
    · simp at hlength
    · exact hzero c rest (by simpa using hhead)

/-! ### Canonical texts -/

/-- The digits that follow each other, as many as there are, and each other character alone. -/
def runs (text : String) : List (List Char) :=
  text.toList.splitBy fun c d => c.isDigit && d.isDigit

/-- The text without superfluous zeros in its runs of digits. -/
def canonical (text : String) : String :=
  String.ofList ((runs text).flatMap trimZeros)

/-- No run reaches across the border of two texts, unless both have a digit there. -/
theorem canonical_append {left right : String}
    (h : ∀ c ∈ left.toList.getLast?, ∀ d ∈ right.toList.head?, ¬ (c.isDigit ∧ d.isDigit)) :
    canonical (left ++ right) = canonical left ++ canonical right := by
  have hruns : runs (left ++ right) = runs left ++ runs right := by
    rw [runs, String.toList_append]
    apply List.splitBy_append
    intro c hc d hd
    simpa using h c hc d hd
  rw [canonical, hruns, List.flatMap_append, String.ofList_append]
  rfl

/-- A character that is no digit parts two texts. -/
theorem canonical_append_singleton {c : Char} (hc : ¬ c.isDigit) (left right : String) :
    canonical (left ++ String.singleton c ++ right)
      = canonical left ++ String.singleton c ++ canonical right := by
  have hself : canonical (String.singleton c) = String.singleton c := by
    simp [canonical, runs, List.splitBy, List.splitBy.loop, trimZeros]
  rw [canonical_append, canonical_append, hself]
  · simp [hc]
  · simp [hc]

/-- Pieces between characters that are no digits become canonical one by one. -/
theorem canonical_intercalate {c : Char} (hc : ¬ c.isDigit) (texts : List String) :
    canonical (String.intercalate (String.singleton c) texts)
      = String.intercalate (String.singleton c) (texts.map canonical) := by
  induction texts with
  | nil => rfl
  | cons text texts ih =>
    rcases texts with - | ⟨next, texts⟩
    · rfl
    · rw [String.intercalate_cons_cons, canonical_append_singleton hc, ih, List.map_cons,
        List.map_cons, List.map_cons, String.intercalate_cons_cons]

example : canonical "010.0.00.100/08" = "10.0.0.100/8" := by decide

/-- A numeral is one run. -/
theorem canonical_of_isNumeral (h : IsNumeral text) :
    canonical text = String.ofList (trimZeros text.toList) := by
  have hruns : runs text = [text.toList] := by
    apply List.splitBy_of_isChain (mt String.toList_eq_nil_iff.1 h.1)
    apply List.Pairwise.isChain
    apply List.pairwise_of_forall_mem_list
    intro c hc d hd
    simp [h.2 c hc, h.2 d hd]
  rw [canonical, hruns, List.flatMap_singleton]

/-- The canonical form of a numeral is its value as it is written. -/
theorem canonical_eq_repr (h : IsNumeral text) : canonical text = (numeralValue text).repr := by
  rw [canonical_of_isNumeral h, trimZeros_eq_toDigits (mt String.toList_eq_nil_iff.1 h.1) h.2,
    numeralValue_eq, ← Nat.toList_repr, String.ofList_toList]

/-! ### Texts with a given canonical form -/

theorem mem_trimZeros_iff {c : Char} (hc : c ≠ '0') : c ∈ trimZeros chars ↔ c ∈ chars := by
  fun_induction trimZeros chars with
  | case1 d rest ih => rw [ih, List.mem_cons (a := c) (b := '0'), or_iff_right hc]
  | case2 chars => rfl

/-- Only zeros are lost. -/
theorem mem_canonical_iff {c : Char} (hc : c ≠ '0') :
    c ∈ (canonical text).toList ↔ c ∈ text.toList := by
  have hruns : (runs text).flatten = text.toList := List.flatten_splitBy _ _
  rw [canonical, String.toList_ofList, List.mem_flatMap]
  simp only [mem_trimZeros_iff hc]
  rw [← hruns, List.mem_flatten]

/-- Cutting a text into pieces at a character that is no digit can be done before or after. -/
theorem pieces_canonical {c : Char} (hc : ¬ c.isDigit) :
    pieces c (canonical text) = (pieces c text).map canonical := by
  have hzero : c ≠ '0' := by
    rintro rfl
    exact hc rfl
  have hjoin : canonical text
      = String.intercalate (String.singleton c) ((pieces c text).map canonical) := by
    rw [← canonical_intercalate hc, intercalate_pieces]
  rw [hjoin]
  apply pieces_intercalate
  · simp [pieces, List.splitOn_ne_nil]
  · intro t ht
    obtain ⟨piece, hpiece, rfl⟩ := List.mem_map.1 ht
    exact mt (mem_canonical_iff hzero).1 (not_mem_of_mem_pieces hpiece)

/-- What is a numeral without its superfluous zeros is one with them. -/
theorem isNumeral_of_canonical (h : IsNumeral (canonical text)) : IsNumeral text := by
  constructor
  · rintro rfl
    exact h.1 rfl
  · intro c hc
    by_cases hzero : c = '0'
    · rw [hzero]
      rfl
    · exact h.2 c ((mem_canonical_iff hzero).2 hc)

/-- The numerals that denote `n` are the texts with the canonical form that `n` is written in. -/
theorem canonical_eq_repr_iff {n : Nat} :
    canonical text = n.repr ↔ IsNumeral text ∧ numeralValue text = n := by
  constructor
  · intro h
    have hnum : IsNumeral text := isNumeral_of_canonical (h ▸ isNumeral_repr n)
    rw [canonical_eq_repr hnum] at h
    exact ⟨hnum, by rw [← numeralValue_repr (numeralValue text), h, numeralValue_repr]⟩
  · rintro ⟨hnum, rfl⟩
    exact canonical_eq_repr hnum

/-! ### Superfluous zeros -/

/-- A zero stands in front of something. -/
def HasExtraZero (text : String) : Prop :=
  text.toList.head? = some '0' ∧ 1 < text.toList.length

instance (text : String) : Decidable (HasExtraZero text) :=
  inferInstanceAs (Decidable (_ ∧ _))

theorem canonical_eq_self_iff (h : IsNumeral text) :
    canonical text = text ↔ ¬ HasExtraZero text := by
  rw [canonical_of_isNumeral h, HasExtraZero, ← trimZeros_eq_self_iff, ← String.toList_inj,
    String.toList_ofList]

/-- `padded` is `text` behind some more zeros. -/
def IsPadded (padded text : String) : Prop :=
  ∃ k, padded = String.ofList (List.replicate k '0') ++ text

/-- A numeral denotes the same behind more zeros. -/
theorem IsPadded.denotes {padded : String} {n : Nat} (hp : IsPadded padded text)
    (h : IsNumeral text ∧ numeralValue text = n) :
    IsNumeral padded ∧ numeralValue padded = n := by
  obtain ⟨k, rfl⟩ := hp
  obtain ⟨⟨hne, hdigits⟩, hvalue⟩ := h
  have hlist : (String.ofList (List.replicate k '0') ++ text).toList
      = List.replicate k '0' ++ text.toList := by
    rw [String.toList_append, String.toList_ofList]
  refine ⟨⟨by simp [hne], ?_⟩, ?_⟩
  · rw [hlist]
    intro c hc
    rcases List.mem_append.1 hc with hc | hc
    · rw [List.eq_of_mem_replicate hc]
      rfl
    · exact hdigits c hc
  · rw [numeralValue_eq, hlist, Nat.ofDigitChars_append, Nat.ofDigitChars_replicate_zero,
      Nat.mul_zero, ← numeralValue_eq, hvalue]

end Inet.Text
