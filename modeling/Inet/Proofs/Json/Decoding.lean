/-
Inet/Proofs/Json/Decoding.lean

What decoding accepts, and what it says of anything else.

An address or a network is decoded from the strings that are parsed as one, and
from no other value (`DecodesTexts`).  A string that is refused is reported as
the parser reports it, and the answer carries the parser's error and its
message.  A value that is no string is named by its type, with what was expected
in its stead, and there is nothing to report.  The sentence around these is that
of any lawful `Wording`, which may alter a message only if this ends in words
that could be those of a place.

A list of pairs is decoded in reading order: `a₁`, `n₁`, `a₂`, `n₂`, …  All that
is read is silent, so that the first element that is not read makes up the
whole answer, records included.  What follows it may be anything, be it no pair
at all.
-/
import Inet.Proofs.Json.Codec
import Inet.Proofs.Json.Wording
import Inet.Query

namespace Inet

open Log (Record)

/-! ### Attempts in sequence -/

namespace Attempt

variable {ε α β : Type}

/-- A sequence of attempts succeeds in silence if each of them does. -/
theorem mapM_eq_ok_iff {f : α → Attempt ε β} {values : List α} {results : List β} :
    values.mapM f = ok results ↔ List.Forall₂ (fun x y => f x = ok y) values results := by
  induction values generalizing results with
  | nil =>
    rw [List.mapM_nil, List.forall₂_nil_left_iff]
    constructor
    · rintro h
      cases h
      rfl
    · rintro rfl
      rfl
  | cons value values ih =>
    rw [List.mapM_cons, List.forall₂_cons_left_iff]
    simp only [bind_eq_ok_iff, ih]
    constructor
    · rintro ⟨first, hfirst, rest, hrest, h⟩
      cases h
      exact ⟨first, rest, hfirst, hrest, rfl⟩
    · rintro ⟨first, rest, hfirst, hrest, rfl⟩
      exact ⟨first, hfirst, rest, hrest, rfl⟩

/-- The first attempt to fail ends the sequence, with its own records if those before are silent. -/
theorem mapM_of_error {f : α → Attempt ε β} {before after : List α} {value : α} {error : ε}
    {records : List Record} (hbefore : ∀ x ∈ before, ∃ y, f x = ok y)
    (h : f value = ⟨.error error, records⟩) :
    (before ++ value :: after).mapM f = ⟨.error error, records⟩ := by
  induction before with
  | nil =>
    rw [List.nil_append, List.mapM_cons, h]
    rfl
  | cons x before ih =>
    obtain ⟨y, hy⟩ := hbefore x List.mem_cons_self
    rw [List.cons_append, List.mapM_cons, hy, ok_bind,
      ih fun z hz => hbefore z (List.mem_cons_of_mem _ hz)]
    rfl

end Attempt

namespace Json

open Place (EndsIn)

/-! ### Single values -/

section Texts

variable {ε α : Type}

/-- The decoder reads a string as `parse` does, and no other value. -/
structure DecodesTexts (decode : Value → Attempt DecodeError α) (parse : String → Attempt ε α)
    (failure : ε → DecodeError) (record : String → ε → Record) (expected : Expected) : Prop where
  ok_iff : ∀ value x, (decode value).result = .ok x
    ↔ ∃ text, value = .string text ∧ (parse text).result = .ok x
  silent : ∀ value x, (decode value).result = .ok x → decode value = .ok x
  /-- A string that is not parsed is one refused text, with the parser's error. -/
  refused : ∀ text error, (parse text).result = .error error →
    decode (.string text) = ⟨.error (failure error), [record text error]⟩
  /-- There is nothing to report of a value that is no string. -/
  mistyped : ∀ value, (∀ text, value ≠ .string text) →
    decode value = ⟨.error (.type value expected), []⟩

theorem decodesTexts_of_mapError {decode : Value → Attempt DecodeError α}
    {read : String → Except ε α} {failure : ε → DecodeError} {record : String → ε → Record}
    {expected : Expected}
    (hstring : ∀ text, decode (.string text)
      = (Attempt.recording (read text) (record text)).mapError failure)
    (hother : ∀ value, (∀ text, value ≠ .string text) →
      decode value = .error (.type value expected)) :
    DecodesTexts decode (fun text => .recording (read text) (record text)) failure record
      expected where
  ok_iff value x := by
    by_cases h : ∃ text, value = .string text
    · obtain ⟨text, rfl⟩ := h
      simp [hstring, Attempt.result_mapError_eq_ok_iff]
    · have hne : ∀ text, value ≠ .string text := fun text htext => h ⟨text, htext⟩
      simp [hother value hne, Attempt.error, hne]
  silent value x hx := by
    by_cases h : ∃ text, value = .string text
    · obtain ⟨text, rfl⟩ := h
      rw [hstring, Attempt.result_mapError_eq_ok_iff, Attempt.result_recording] at hx
      rw [hstring, hx]
      rfl
    · rw [hother value fun text htext => h ⟨text, htext⟩] at hx
      cases hx
  refused text error h := by
    rw [Attempt.result_recording] at h
    rw [hstring, h]
    rfl
  mistyped := hother

theorem decodesTexts_address :
    DecodesTexts decodeAddress Address.parse .address .address .address := by
  refine decodesTexts_of_mapError (fun _ => rfl) fun value h => ?_
  cases value with
  | string text => exact absurd rfl (h text)
  | _ => rfl

theorem decodesTexts_network :
    DecodesTexts decodeNetwork Network.parse .network .network .network := by
  refine decodesTexts_of_mapError (fun _ => rfl) fun value h => ?_
  cases value with
  | string text => exact absurd rfl (h text)
  | _ => rfl

end Texts

theorem decodeAddress_eq_ok_iff {value : Value} {addr : Address} :
    decodeAddress value = .ok addr ↔ (decodeAddress value).result = .ok addr :=
  ⟨congrArg Attempt.result, decodesTexts_address.silent value addr⟩

theorem decodeNetwork_eq_ok_iff {value : Value} {n : Network} :
    decodeNetwork value = .ok n ↔ (decodeNetwork value).result = .ok n :=
  ⟨congrArg Attempt.result, decodesTexts_network.silent value n⟩

/-! ### Messages -/

section Messages

variable {ε : Type} {w : Wording}

/-- The message of an error is that of the parser, or says which type was found and what was
expected. -/
structure Explains (w : Wording) (failure : ε → DecodeError) (message : ε → String)
    (expected : Expected) (expecting : String) : Prop where
  custom : ∀ error, (failure error).messageIn w = w.custom (message error)
  message : ∀ error, (∀ reason place, ¬ EndsIn (message error) reason place) →
    (failure error).messageIn w = message error
  type : ∀ found, (DecodeError.type found expected).messageIn w
    = "invalid type: " ++ w.typeName found.kind ++ w.detail found ++ ", expected " ++ expecting
  /-- The name of no other type can be read where that of the type found stands. -/
  kind : ∀ found kind rest, (DecodeError.type found expected).messageIn w
    = "invalid type: " ++ w.typeName kind ++ rest → kind = found.kind

/-- What is expected does not end in a digit, and so the message does not end in a place. -/
theorem explains_of_getLast? (hw : w.Lawful) {failure : ε → DecodeError} {message : ε → String}
    {expected : Expected} {c : Char}
    (hmessage : ∀ error, (failure error).messageIn w = w.custom (message error))
    (hlast : expected.description.toList.getLast? = some c) (hc : ¬ c.isDigit) :
    Explains w failure message expected expected.description := by
  have htype : ∀ found, (DecodeError.type found expected).messageIn w
      = "invalid type: " ++ (w.typeName found.kind
        ++ (w.detail found ++ ", expected " ++ expected.description)) := by
    intro found
    rw [DecodeError.messageIn, hw.invalidType_of_getLast? _ hlast hc, Wording.describe]
    simp only [String.append_assoc]
  refine ⟨hmessage, fun error h => ?_, fun found => ?_, fun found kind rest h => ?_⟩
  · rw [hmessage, hw.custom_of_not_endsIn _ h]
  · rw [htype]
    simp only [String.append_assoc]
  · have hsame := (htype found).symm.trans (h.trans String.append_assoc)
    exact (hw.typeName_append _ _ _ _ ((String.append_right_inj _).1 hsame)).symm

theorem explains_address (hw : w.Lawful) :
    Explains w .address AddressError.message .address "IPv4 address in dotted-quad notation" :=
  have hlast : Expected.address.description.toList.getLast? = some 'n' := by decide
  explains_of_getLast? hw (fun _ => rfl) hlast (by decide)

theorem explains_network (hw : w.Lawful) :
    Explains w .network NetworkError.message .network
      "IPv4 network in address/prefix notation" :=
  have hlast : Expected.network.description.toList.getLast? = some 'n' := by decide
  explains_of_getLast? hw (fun _ => rfl) hlast (by decide)

end Messages

/-! ### Pairs -/

section Pairs

variable {a n : Value} {rest more : List Value} {error : DecodeError}

/-- Pairs of values as the items of a JSON list. -/
def pairItems (pairs : List (Value × Value)) : List Value :=
  pairs.map fun pair => .array [pair.1, pair.2]

/-- Both elements of the pair are read. -/
def IsRead (pair : Value × Value) : Prop :=
  (∃ addr, (decodeAddress pair.1).result = .ok addr)
    ∧ ∃ n, (decodeNetwork pair.2).result = .ok n

/-- What the elements of a pair are read as, and whether the network contains the address. -/
def IsRow (pair : Value × Value) (row : Address × Network × Bool) : Prop :=
  (decodeAddress pair.1).result = .ok row.1
    ∧ (decodeNetwork pair.2).result = .ok row.2.1
    ∧ row.2.2 = row.2.1.contains row.1

/-- A row as it is written. -/
def rowTexts (row : Address × Network × Bool) : String × String × Bool :=
  (row.1.text, row.2.1.text, row.2.2)

/-- The elements are two strings that are parsed, and the texts are those of what they are parsed
as. -/
def IsWritten (pair : Value × Value) (texts : String × String × Bool) : Prop :=
  ∃ s t addr n, pair = (.string s, .string t)
    ∧ (Address.parse s).result = .ok addr ∧ (Network.parse t).result = .ok n
    ∧ texts = (addr.text, n.text, n.contains addr)

theorem isWritten_rowTexts {pair : Value × Value} {row : Address × Network × Bool}
    (h : IsRow pair row) : IsWritten pair (rowTexts row) := by
  obtain ⟨haddr, hn, hfound⟩ := h
  obtain ⟨s, hs, hparse⟩ := (decodesTexts_address.ok_iff _ _).1 haddr
  obtain ⟨t, ht, hparse'⟩ := (decodesTexts_network.ok_iff _ _).1 hn
  refine ⟨s, t, row.1, row.2.1, Prod.ext hs ht, hparse, hparse', ?_⟩
  rw [rowTexts, hfound]

theorem decodePair_eq_ok_iff {read : Address × Network} :
    decodePair (.array [a, n]) = .ok read
      ↔ (decodeAddress a).result = .ok read.1 ∧ (decodeNetwork n).result = .ok read.2 := by
  have hpair : decodePair (.array [a, n])
      = decodeAddress a >>= fun addr => decodeNetwork n >>= fun n => .ok (addr, n) := rfl
  simp only [hpair, Attempt.bind_eq_ok_iff, decodeAddress_eq_ok_iff, decodeNetwork_eq_ok_iff]
  constructor
  · rintro ⟨addr, haddr, m, hm, h⟩
    cases h
    exact ⟨haddr, hm⟩
  · rintro ⟨haddr, hm⟩
    exact ⟨read.1, haddr, read.2, hm, rfl⟩

/-- The address of a pair is read first, whatever stands behind it. -/
theorem decodePair_of_address (h : (decodeAddress a).result = .error error) :
    decodePair (.array (a :: rest)) = ⟨.error error, (decodeAddress a).records⟩ := by
  have ha : decodeAddress a = ⟨.error error, (decodeAddress a).records⟩ := by rw [← h]
  cases rest with
  | nil =>
    rw [decodePair, ha]
    rfl
  | cons n rest =>
    rw [decodePair, ha]
    rfl

/-- The network comes next, and again what stands behind it does not matter. -/
theorem decodePair_of_network {addr : Address} (ha : (decodeAddress a).result = .ok addr)
    (h : (decodeNetwork n).result = .error error) :
    decodePair (.array (a :: n :: rest)) = ⟨.error error, (decodeNetwork n).records⟩ := by
  have hn : decodeNetwork n = ⟨.error error, (decodeNetwork n).records⟩ := by rw [← h]
  rw [decodePair, decodeAddress_eq_ok_iff.2 ha, Attempt.ok_bind, hn]
  rfl

/-! ### Lists of pairs -/

variable {pairs before : List (Value × Value)}

theorem loadPairs_array (items : List Value) :
    Query.loadPairs (.array items)
      = (items.mapM decodePair).mapError .json >>= fun reads =>
          .ok (reads.map fun (addr, n) => (addr, n, n.contains addr)) := rfl

theorem loadPairs_eq_ok_iff {rows : List (Address × Network × Bool)} :
    Query.loadPairs (.array (pairItems pairs)) = .ok rows ↔ List.Forall₂ IsRow pairs rows := by
  rw [loadPairs_array]
  simp only [Attempt.bind_eq_ok_iff, Attempt.mapError_eq_ok_iff, Attempt.mapM_eq_ok_iff, pairItems,
    List.forall₂_map_left_iff, decodePair_eq_ok_iff]
  constructor
  · rintro ⟨reads, hreads, h⟩
    cases h
    rw [List.forall₂_map_right_iff]
    exact hreads.imp fun pair read hread => ⟨hread.1, hread.2, rfl⟩
  · intro h
    induction h with
    | nil => exact ⟨[], .nil, rfl⟩
    | @cons pair row _ _ hrow _ ih =>
      obtain ⟨reads, hreads, hrows⟩ := ih
      cases hrows
      obtain ⟨haddr, hn, hfound⟩ := hrow
      refine ⟨(row.1, row.2.1) :: reads, .cons ⟨haddr, hn⟩ hreads, ?_⟩
      rw [List.map_cons, ← hfound]

/-- The rows of a list of pairs, written as texts. -/
theorem forall₂_isWritten {rows : List (Address × Network × Bool)}
    (h : Query.loadPairs (.array (pairItems pairs)) = .ok rows) :
    List.Forall₂ IsWritten pairs (rows.map rowTexts) := by
  rw [List.forall₂_map_right_iff]
  exact (loadPairs_eq_ok_iff.1 h).imp fun _ _ => isWritten_rowTexts

theorem exists_isRow_of_isRead {pair : Value × Value} (h : IsRead pair) :
    ∃ row, IsRow pair row := by
  obtain ⟨⟨addr, haddr⟩, n, hn⟩ := h
  exact ⟨(addr, n, n.contains addr), haddr, hn, rfl⟩

theorem exists_forall₂_isRow (h : ∀ pair ∈ pairs, IsRead pair) :
    ∃ rows, List.Forall₂ IsRow pairs rows := by
  induction pairs with
  | nil => exact ⟨[], .nil⟩
  | cons pair pairs ih =>
    obtain ⟨row, hrow⟩ := exists_isRow_of_isRead (h pair List.mem_cons_self)
    obtain ⟨rows, hrows⟩ := ih fun p hp => h p (List.mem_cons_of_mem _ hp)
    exact ⟨row :: rows, .cons hrow hrows⟩

/-- The first item that is not read makes up the answer. -/
theorem loadPairs_of_error {item : Value} {records : List Record}
    (hbefore : ∀ pair ∈ before, IsRead pair) (h : decodePair item = ⟨.error error, records⟩) :
    Query.loadPairs (.array (pairItems before ++ item :: more))
      = ⟨.error (.json error), records⟩ := by
  have hitems : ∀ value ∈ pairItems before, ∃ read, decodePair value = .ok read := by
    intro value hvalue
    obtain ⟨pair, hpair, rfl⟩ := List.mem_map.1 hvalue
    obtain ⟨⟨addr, haddr⟩, m, hm⟩ := hbefore pair hpair
    exact ⟨(addr, m), decodePair_eq_ok_iff.2 ⟨haddr, hm⟩⟩
  rw [loadPairs_array, Attempt.mapM_of_error hitems h]
  rfl

theorem loadPairs_of_address (hbefore : ∀ pair ∈ before, IsRead pair)
    (h : (decodeAddress a).result = .error error) :
    Query.loadPairs (.array (pairItems before ++ .array (a :: rest) :: more))
      = ⟨.error (.json error), (decodeAddress a).records⟩ :=
  loadPairs_of_error hbefore (decodePair_of_address h)

theorem loadPairs_of_network (hbefore : ∀ pair ∈ before, IsRead pair) {addr : Address}
    (ha : (decodeAddress a).result = .ok addr) (h : (decodeNetwork n).result = .error error) :
    Query.loadPairs (.array (pairItems before ++ .array (a :: n :: rest) :: more))
      = ⟨.error (.json error), (decodeNetwork n).records⟩ :=
  loadPairs_of_error hbefore (decodePair_of_network ha h)

/-! ### The first element that is not read -/

/-- Of a pair that is not read, the address is to blame, or else the network. -/
theorem exists_error_of_not_isRead (h : ¬ IsRead (a, n)) :
    (∃ error, (decodeAddress a).result = .error error)
    ∨ (∃ addr, (decodeAddress a).result = .ok addr)
      ∧ ∃ error, (decodeNetwork n).result = .error error := by
  rcases ha : (decodeAddress a).result with error | addr
  · exact .inl ⟨error, rfl⟩
  · rcases hn : (decodeNetwork n).result with error | m
    · exact .inr ⟨⟨addr, rfl⟩, error, rfl⟩
    · exact absurd ⟨⟨addr, ha⟩, m, hn⟩ h

theorem exists_first_error (h : ¬ ∀ pair ∈ pairs, IsRead pair) :
    ∃ before a n after, pairs = before ++ (a, n) :: after ∧ (∀ pair ∈ before, IsRead pair)
      ∧ ((∃ error, (decodeAddress a).result = .error error)
        ∨ (∃ addr, (decodeAddress a).result = .ok addr)
          ∧ ∃ error, (decodeNetwork n).result = .error error) := by
  induction pairs with
  | nil => exact absurd (fun _ hp => absurd hp List.not_mem_nil) h
  | cons pair pairs ih =>
    by_cases hpair : IsRead pair
    · have hrest : ¬ ∀ p ∈ pairs, IsRead p := by
        intro hall
        exact h (List.forall_mem_cons.2 ⟨hpair, hall⟩)
      obtain ⟨before, a, n, after, rfl, hbefore, herror⟩ := ih hrest
      exact ⟨pair :: before, a, n, after, rfl, List.forall_mem_cons.2 ⟨hpair, hbefore⟩, herror⟩
    · exact ⟨[], pair.1, pair.2, pairs, rfl, by simp, exists_error_of_not_isRead hpair⟩

theorem pairItems_append_cons (after : List (Value × Value)) :
    pairItems (before ++ (a, n) :: after)
      = pairItems before ++ .array [a, n] :: pairItems after := by
  simp [pairItems]

/-- A list of pairs is read exactly if all its elements are. -/
theorem exists_result_loadPairs_iff :
    (∃ rows, (Query.loadPairs (.array (pairItems pairs))).result = .ok rows)
      ↔ ∀ pair ∈ pairs, IsRead pair := by
  constructor
  · rintro ⟨rows, hrows⟩
    by_contra h
    obtain ⟨before, a, n, after, rfl, hbefore, herror⟩ := exists_first_error h
    rw [pairItems_append_cons] at hrows
    rcases herror with ⟨error, ha⟩ | ⟨⟨addr, ha⟩, error, hn⟩
    · rw [loadPairs_of_address hbefore ha] at hrows
      cases hrows
    · rw [loadPairs_of_network hbefore ha hn] at hrows
      cases hrows
  · intro h
    obtain ⟨rows, hrows⟩ := exists_forall₂_isRow h
    exact ⟨rows, congrArg Attempt.result (loadPairs_eq_ok_iff.2 hrows)⟩

end Pairs

/-! ### Decoding -/

/-- **Decoding accepts what the parser accepts.**  An address or a network is decoded from the
strings that are parsed as one.  A string that is refused is reported once, and answered with the
parser's error and its message, which a lawful wording hands on unless it ends in words that could
be those of a place.  Any other value is named by its type, with what was expected, and not
reported.  A list of pairs is decoded if all its elements are, to one row for each pair, which is
written as the texts of the two and whether the network contains the address.  Otherwise there is
a first element that is not decoded, the address of a pair before its network, and the answer is
its error with its records, whatever follows it. -/
theorem decoding_follows_parsing (w : Wording) (hw : w.Lawful) :
    DecodesTexts decodeAddress Address.parse .address .address .address
    ∧ DecodesTexts decodeNetwork Network.parse .network .network .network
    ∧ Explains w .address AddressError.message .address "IPv4 address in dotted-quad notation"
    ∧ Explains w .network NetworkError.message .network "IPv4 network in address/prefix notation"
    ∧ (∀ pairs,
        (∀ rows, Query.loadPairs (.array (pairItems pairs)) = .ok rows
          ↔ List.Forall₂ IsRow pairs rows)
        ∧ (∀ rows, Query.loadPairs (.array (pairItems pairs)) = .ok rows →
          List.Forall₂ IsWritten pairs (rows.map rowTexts))
        ∧ ((∃ rows, (Query.loadPairs (.array (pairItems pairs))).result = .ok rows)
          ↔ ∀ pair ∈ pairs, IsRead pair)
        ∧ (¬ (∀ pair ∈ pairs, IsRead pair) →
          ∃ before a n after, pairs = before ++ (a, n) :: after ∧ (∀ pair ∈ before, IsRead pair)
            ∧ ((∃ error, (decodeAddress a).result = .error error)
              ∨ (∃ addr, (decodeAddress a).result = .ok addr)
                ∧ ∃ error, (decodeNetwork n).result = .error error)))
    ∧ (∀ before, (∀ pair ∈ before, IsRead pair) → ∀ a error rest more,
        (decodeAddress a).result = .error error →
        Query.loadPairs (.array (pairItems before ++ .array (a :: rest) :: more))
          = ⟨.error (.json error), (decodeAddress a).records⟩)
    ∧ (∀ before, (∀ pair ∈ before, IsRead pair) → ∀ a addr n error rest more,
        (decodeAddress a).result = .ok addr → (decodeNetwork n).result = .error error →
        Query.loadPairs (.array (pairItems before ++ .array (a :: n :: rest) :: more))
          = ⟨.error (.json error), (decodeNetwork n).records⟩) := by
  refine ⟨decodesTexts_address, decodesTexts_network, explains_address hw, explains_network hw,
    ?_, ?_, ?_⟩
  · intro pairs
    exact ⟨fun rows => loadPairs_eq_ok_iff, fun rows => forall₂_isWritten,
      exists_result_loadPairs_iff, exists_first_error⟩
  · intro before hbefore a error rest more h
    exact loadPairs_of_address hbefore h
  · intro before hbefore a addr n error rest more ha h
    exact loadPairs_of_network hbefore ha h

/-- After a pair that is read, a bad address that stands alone, and a good one before a bad
network, with the messages that they are answered with. -/
theorem decoding_follows_parsing_secondPair :
    let before : List (Value × Value) := [(.string "10.0.0.1", .string "10.0.0.0/8")]
    let error := NetworkError.prefixOverflow 33
    Wording.standard.Lawful
    ∧ (DecodeError.type .null .address).message
      = "invalid type: null, expected IPv4 address in dotted-quad notation"
    ∧ (DecodeError.network error).message = "invalid prefix"
    ∧ (∀ pair ∈ before, IsRead pair)
    ∧ (decodeAddress .null).result = .error (.type .null .address)
    ∧ Query.loadPairs (.array (pairItems before ++ .array [.null] :: [.bool true]))
      = ⟨.error (.json (.type .null .address)), []⟩
    ∧ (decodeAddress (.string "010.0.0.1")).result = .ok ⟨10, 0, 0, 1⟩
    ∧ (decodeNetwork (.string "10.0.0.0/33")).result = .error (.network error)
    ∧ Query.loadPairs (.array (pairItems before
        ++ .array [.string "010.0.0.1", .string "10.0.0.0/33", .null] :: [.array []]))
      = ⟨.error (.json (.network error)), [.network "10.0.0.0/33" error]⟩ := by
  intro before error
  obtain ⟨-, hnetwork, hexplains, hexplains', -, hfirst, hsecond⟩ :=
    decoding_follows_parsing .standard Wording.lawful_standard
  have hlast : error.message.toList.getLast? = some 'x' := by decide
  have hplace := Place.not_endsIn_of_getLast? hlast (by decide)
  have hread : Address.read "10.0.0.1" = .ok ⟨10, 0, 0, 1⟩ := by
    rw [Address.read_eq]
    decide
  have hpadded : Address.read "010.0.0.1" = .ok ⟨10, 0, 0, 1⟩ := by
    rw [Address.read_eq]
    decide
  have hn : Network.read "10.0.0.0/8" = .ok ⟨⟨10, 0, 0, 0⟩, 8⟩ := by
    rw [Network.read_eq]
    decide
  have hlong : Network.read "10.0.0.0/33" = .error error := by
    rw [Network.read_eq]
    decide
  have hbefore : ∀ pair ∈ before, IsRead pair := by
    rintro pair hpair
    obtain rfl := List.mem_singleton.1 hpair
    exact ⟨⟨_, result_decodeAddress_eq_ok_iff.2 ⟨_, rfl, hread⟩⟩,
      _, result_decodeNetwork_eq_ok_iff.2 ⟨_, rfl, hn⟩⟩
  have ha := result_decodeAddress_eq_ok_iff.2 ⟨_, rfl, hpadded⟩
  have herror := hnetwork.refused "10.0.0.0/33" error ((Network.result_parse _).trans hlong)
  have hresult := congrArg Attempt.result herror
  refine ⟨Wording.lawful_standard, hexplains.type .null, hexplains'.message error hplace, hbefore,
    rfl, hfirst before hbefore .null _ [] [.bool true] rfl, ha, hresult, ?_⟩
  rw [hsecond before hbefore _ _ _ _ [.null] [.array []] ha hresult, herror]

end Json

end Inet
