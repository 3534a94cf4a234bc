/-
Inet/Proofs/Address/Forms.lean

The forms in which an address is given: four octets, a vector of them, one
word, an address of the standard library, a list of integers, a text.

The first four are as many as there are addresses, and converting there and back
changes nothing.  The octets are the digits of the word in base 256, the most
significant first, each between 0 and 255 whatever its top bit:

    word  =  a * 2 ^ 24 + b * 2 ^ 16 + c * 2 ^ 8 + d.

Of the lists of integers only those of four octets are forms of an address, and
each of one alone (`ofIntegers_eq_ok_iff`).  A list of any other length is refused
for its length; of the rest, for the first element that is no octet, with its
place and as it is (`ofIntegers_eq_overflow_iff_isLeast`).

Main statements:
  * `fromIntegers_decides`: what comes of a list of integers;
  * `forms_agree`: all forms of the same octets make the same address.
-/
import Inet.Proofs.Address.Integers
import Inet.Proofs.Address.Word
import Inet.Query
import Mathlib.Order.Bounds.Basic

namespace Inet.Address

variable {values : List Int} {value : Int} {addr : Address}

/-! ### Lists of integers -/

/-- The octets as integers. -/
def integers (addr : Address) : List Int := addr.octets.map fun octet => octet.toNat

/-- An address is made from its octets and from no other integers. -/
theorem ofIntegers_eq_ok_iff : ofIntegers values = .ok addr ↔ addr.integers = values := by
  by_cases h : values.length = 4
  · have hmap : ofIntegers values = .ok addr
        ↔ (ofIntegers values).map octets = .ok addr.octets := by
      -- the octets of two addresses agree only if the addresses do
      rcases ofIntegers values with error | addr'
      · simp [Except.map]
      · simp only [Except.map, Except.ok.injEq]
        exact ⟨congrArg octets, octets_inj⟩
    rw [hmap, map_octets_ofIntegers h, mapM_eq_ok_iff]
    simp only [octetAt_eq_ok_iff]
    obtain ⟨a, b, c, d, rfl⟩ := List.length_eq_four.1 h
    simp [integers, octets, eq_comm]
  · rw [ofIntegers_of_length_ne h]
    simp only [reduceCtorEq, false_iff]
    rintro rfl
    exact h rfl

theorem ofIntegers_integers (addr : Address) : ofIntegers addr.integers = .ok addr :=
  ofIntegers_eq_ok_iff.2 rfl

theorem integers_mem_octet (h : value ∈ addr.integers) : 0 ≤ value ∧ value ≤ 255 := by
  obtain ⟨octet, -, rfl⟩ := List.mem_map.1 h
  have hoctet := octet.toNat_lt
  omega

/-- The length is to blame whenever it is not four, and never otherwise. -/
theorem ofIntegers_eq_length_iff {n : Nat} :
    ofIntegers values = .error (.length n) ↔ n = values.length ∧ n ≠ 4 := by
  by_cases h : values.length = 4
  · constructor
    · intro hlength
      have hmap : (ofIntegers values).map octets = .error (.length n) := by
        rw [hlength]
        rfl
      -- no element of four is refused for a length
      rw [map_octets_ofIntegers h] at hmap
      obtain ⟨_, _, _, -, -, herror⟩ := mapM_eq_error_iff.1 hmap
      exact absurd (octetAt_eq_error_iff.1 herror).2 (by simp)
    · rintro ⟨rfl, hne⟩
      exact absurd h hne
  · rw [ofIntegers_of_length_ne h, Except.error.injEq, OctetsError.length.injEq]
    constructor
    · rintro rfl
      exact ⟨rfl, h⟩
    · rintro ⟨rfl, -⟩
      rfl

/-- What stands first in a list of those that fail `p` stands at the least place of such. -/
theorem exists_split_iff_isLeast {α : Type} {p : α → Prop} {xs : List α} {x : α} {idx : Nat} :
    (∃ before after, xs = before ++ x :: after ∧ before.length = idx
        ∧ (∀ y ∈ before, p y) ∧ ¬ p x)
      ↔ xs[idx]? = some x ∧ IsLeast {i | ∃ y, xs[i]? = some y ∧ ¬ p y} idx := by
  constructor
  · rintro ⟨before, after, rfl, rfl, hbefore, hx⟩
    have hget : (before ++ x :: after)[before.length]? = some x := by simp
    refine ⟨hget, ⟨x, hget, hx⟩, ?_⟩
    rintro i ⟨y, hy, hfail⟩
    -- an earlier element is one of `before`
    by_contra hlt
    rw [List.getElem?_append_left (Nat.lt_of_not_le hlt)] at hy
    exact hfail (hbefore y (List.mem_of_getElem? hy))
  · rintro ⟨hget, ⟨y, hy, hfail⟩, hleast⟩
    obtain rfl : x = y := Option.some.inj (hget.symm.trans hy)
    obtain ⟨hidx, hx⟩ := List.getElem?_eq_some_iff.1 hget
    refine ⟨xs.take idx, xs.drop (idx + 1), ?_, ?_, ?_, hfail⟩
    · rw [← hx, ← List.drop_eq_getElem_cons hidx, List.take_append_drop]
    · rw [List.length_take, Nat.min_eq_left (Nat.le_of_lt hidx)]
    · intro y hy
      obtain ⟨i, hi, rfl⟩ := List.mem_take_iff_getElem.1 hy
      by_contra hfail'
      have hlt : i < idx := by omega
      exact absurd (hleast ⟨xs[i], List.getElem?_eq_getElem _, hfail'⟩) (Nat.not_le_of_lt hlt)

/-- The integer to blame is the one at the least place at which no octet stands. -/
theorem ofIntegers_eq_overflow_iff_isLeast {idx : Nat} :
    ofIntegers values = .error (.overflow idx value)
      ↔ values.length = 4 ∧ values[idx]? = some value
        ∧ IsLeast {i | ∃ v, values[i]? = some v ∧ ¬ (0 ≤ v ∧ v ≤ 255)} idx := by
  rw [ofIntegers_eq_overflow_iff, exists_split_iff_isLeast]

theorem exists_ofIntegers_eq_ok_iff :
    (∃ addr, ofIntegers values = .ok addr)
      ↔ values.length = 4 ∧ ∀ v ∈ values, 0 ≤ v ∧ v ≤ 255 := by
  constructor
  · rintro ⟨addr, h⟩
    obtain rfl := ofIntegers_eq_ok_iff.1 h
    exact ⟨rfl, fun v hv => integers_mem_octet hv⟩
  · rintro ⟨hlength, hoctets⟩
    rcases h : ofIntegers values with (n | ⟨idx, value⟩) | addr
    · obtain ⟨rfl, hne⟩ := ofIntegers_eq_length_iff.1 h
      exact absurd hlength hne
    · obtain ⟨-, before, after, rfl, -, -, hbad⟩ := ofIntegers_eq_overflow_iff.1 h
      exact absurd (hoctets value (by simp)) hbad
    · exact ⟨addr, rfl⟩

theorem exists_overflow_iff :
    (∃ idx value, ofIntegers values = .error (.overflow idx value))
      ↔ values.length = 4 ∧ ∃ v ∈ values, ¬ (0 ≤ v ∧ v ≤ 255) := by
  constructor
  · rintro ⟨idx, value, h⟩
    obtain ⟨hlength, before, after, rfl, -, -, hbad⟩ := ofIntegers_eq_overflow_iff.1 h
    exact ⟨hlength, value, by simp, hbad⟩
  · rintro ⟨hlength, v, hv, hbad⟩
    rcases h : ofIntegers values with (n | ⟨idx, value⟩) | addr
    · obtain ⟨rfl, hne⟩ := ofIntegers_eq_length_iff.1 h
      exact absurd hlength hne
    · exact ⟨idx, value, rfl⟩
    · exact absurd ((exists_ofIntegers_eq_ok_iff.1 ⟨addr, h⟩).2 v hv) hbad

theorem result_fromIntegers (values : List Int) :
    (fromIntegers values).result = ofIntegers values :=
  Attempt.result_recording _ _

/-- The integers that make an address are the digits of its word. -/
theorem exists_integers_of_ofIntegers (h : ofIntegers values = .ok addr) :
    ∃ a b c d, values = [a, b, c, d]
      ∧ (addr.bits.toNat : Int) = a * 2 ^ 24 + b * 2 ^ 16 + c * 2 ^ 8 + d := by
  obtain rfl := ofIntegers_eq_ok_iff.1 h
  exact ⟨addr.a.toNat, addr.b.toNat, addr.c.toNat, addr.d.toNat, rfl,
    by exact_mod_cast number_eq addr⟩

/-- **What comes of a list of integers.**  If it has not four elements it is refused for its length,
be these what they may.  If some element of four is no octet, it is refused for the one at the least
place at which none stands.  Otherwise it is the address with these octets, which are the digits of
its word.  Every address is made from its own octets. -/
theorem fromIntegers_decides (values : List Int) :
    (∀ n, (fromIntegers values).result = .error (.length n) ↔ n = values.length ∧ n ≠ 4)
    ∧ (∀ idx value, (fromIntegers values).result = .error (.overflow idx value)
        ↔ values.length = 4 ∧ values[idx]? = some value
          ∧ IsLeast {i | ∃ v, values[i]? = some v ∧ ¬ (0 ≤ v ∧ v ≤ 255)} idx)
    ∧ ((∃ idx value, (fromIntegers values).result = .error (.overflow idx value))
        ↔ values.length = 4 ∧ ∃ v ∈ values, ¬ (0 ≤ v ∧ v ≤ 255))
    ∧ ((∃ addr, (fromIntegers values).result = .ok addr)
        ↔ values.length = 4 ∧ ∀ v ∈ values, 0 ≤ v ∧ v ≤ 255)
    ∧ (∀ addr, (fromIntegers values).result = .ok addr ↔ addr.integers = values)
    ∧ (∀ addr, (fromIntegers values).result = .ok addr →
        ∃ a b c d, values = [a, b, c, d]
          ∧ (addr.bits.toNat : Int) = a * 2 ^ 24 + b * 2 ^ 16 + c * 2 ^ 8 + d)
    ∧ ∀ addr : Address, (fromIntegers addr.integers).result = .ok addr := by
  simp only [result_fromIntegers]
  exact ⟨fun _ => ofIntegers_eq_length_iff, fun _ _ => ofIntegers_eq_overflow_iff_isLeast,
    exists_overflow_iff, exists_ofIntegers_eq_ok_iff, fun _ => ofIntegers_eq_ok_iff,
    fun _ => exists_integers_of_ofIntegers, ofIntegers_integers⟩

/-- The largest octet first, so that the top bit of the word is set. -/
theorem fromIntegers_decides_topBit :
    let addr : Address := ⟨255, 0, 200, 10⟩
    (fromIntegers [255, 0, 200, 10]).result = .ok addr
    ∧ ∃ a b c d, ([255, 0, 200, 10] : List Int) = [a, b, c, d]
      ∧ (addr.bits.toNat : Int) = a * 2 ^ 24 + b * 2 ^ 16 + c * 2 ^ 8 + d := by
  intro addr
  have haddr : (fromIntegers [255, 0, 200, 10]).result = .ok addr := by decide
  exact ⟨haddr, (fromIntegers_decides _).2.2.2.2.2.1 addr haddr⟩

example : (fromIntegers [0, -1, 256, 4294967296]).result = .error (.overflow 1 (-1)) := by decide

/-! ### The word, a vector, the standard library -/

/-- The number that four octets make up. -/
theorem ofBits_octets (a b c d : UInt8) :
    ofBits (UInt32.ofNat
      (a.toNat * 2 ^ 24 + b.toNat * 2 ^ 16 + c.toNat * 2 ^ 8 + d.toNat)) = ⟨a, b, c, d⟩ := by
  rw [← number_eq ⟨a, b, c, d⟩]
  exact ofNumber_number _

theorem ofVector_toVector (addr : Address) : ofVector addr.toVector = addr := rfl

theorem toVector_ofVector (octets : Vector UInt8 4) : (ofVector octets).toVector = octets := by
  apply Vector.ext
  rintro (- | - | - | - | i) hi
  case succ => omega
  all_goals rfl

theorem ofStandard_toStandard (addr : Address) : ofStandard addr.toStandard = addr := rfl

theorem toStandard_ofStandard (standard : Std.Net.IPv4Addr) :
    (ofStandard standard).toStandard = standard :=
  congrArg Std.Net.IPv4Addr.mk (toVector_ofVector standard.octets)

/-- What a word is turned into and made from again is told to be the same. -/
theorem conversions_eq (word : UInt32) :
    Query.conversions word
      = ⟨ofBits word, word, (ofBits word).text, [true, true, true, true]⟩ := by
  simp only [Query.conversions, bits_ofBits, ofVector_toVector, ofStandard_toStandard,
    beq_self_eq_true]
  rfl

/-- **All forms of the same octets make the same address.**  Between addresses and words, vectors
and addresses of the standard library, converting there and back changes nothing, and the word has
the octets as its digits.  From these, from the octets as integers and from the dotted quad the same
address is made. -/
theorem forms_agree :
    (∀ word, (ofBits word).bits = word) ∧ (∀ addr : Address, ofBits addr.bits = addr)
    ∧ (∀ octets, (ofVector octets).toVector = octets)
    ∧ (∀ addr : Address, ofVector addr.toVector = addr)
    ∧ (∀ standard, (ofStandard standard).toStandard = standard)
    ∧ (∀ addr : Address, ofStandard addr.toStandard = addr)
    ∧ (∀ a b c d : UInt8,
        let addr : Address := ⟨a, b, c, d⟩
        let number := a.toNat * 2 ^ 24 + b.toNat * 2 ^ 16 + c.toNat * 2 ^ 8 + d.toNat
        addr.bits.toNat = number
        ∧ addr.octets = [a, b, c, d]
        ∧ addr.toStandard = .ofParts a b c d
        ∧ ofVector #v[a, b, c, d] = addr
        ∧ ofBits (UInt32.ofNat number) = addr
        ∧ ofStandard (.ofParts a b c d) = addr
        ∧ (fromIntegers [a.toNat, b.toNat, c.toNat, d.toNat]).result = .ok addr
        ∧ (parse (".".intercalate [a.toNat.repr, b.toNat.repr, c.toNat.repr, d.toNat.repr])).result
          = .ok addr)
    ∧ ∀ word, Query.conversions word
        = ⟨ofBits word, word, (ofBits word).text, [true, true, true, true]⟩ := by
  refine ⟨bits_ofBits, ofBits_bits, toVector_ofVector, ofVector_toVector, toStandard_ofStandard,
    ofStandard_toStandard, ?_, conversions_eq⟩
  intro a b c d addr number
  refine ⟨number_eq addr, rfl, rfl, rfl, ofBits_octets a b c d, rfl, ?_, ?_⟩
  · rw [result_fromIntegers]
    exact ofIntegers_integers addr
  · rw [result_parse]
    exact read_text addr

end Inet.Address
