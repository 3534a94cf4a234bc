/-
Inet/Proofs/Text/Slices.lean

Slices of the bytes of a text, cut next to ASCII characters.

A byte below 128 stands for a character of its own.  So wherever it occurs in
the bytes of a text, the bytes before it and the bytes after it are those of
texts (`exists_of_utf8Bytes_eq`), and a slice that reaches from one separator
to the next spells what stands between the two characters.

`IsPart` says this of texts: `part` stands in `text` between `before` and
`after`, at separators or at the ends of the text.  `Spells` says it of a
slice of the bytes, with the positions at which it is cut out.
-/
import Inet.Text.Ascii
import Inet.Text.Bytes

namespace Inet.Text

/-! ### Parts of a text -/

/-- `part` stands between `before` and `after`, from a separator or the begin of the text to the
next separator or the end of the text. -/
structure IsPart (sep : Char → Prop) (text before part after : String) : Prop where
  join : text = before ++ part ++ after
  not_sep : ∀ c ∈ part.toList, ¬ sep c
  left : before = "" ∨ ∃ c, sep c ∧ before.toList.getLast? = some c
  right : after = "" ∨ ∃ c, sep c ∧ after.toList.head? = some c

/-- The bytes of `text` from `start` up to `stop` are `slice`, which is the valid encoding of a part
of the text. -/
structure Spells (sep : Char → Prop) (text : String) (start stop : Nat) (slice : ByteArray)
    (before part after : String) : Prop where
  isPart : IsPart sep text before part after
  start_eq : start = before.utf8ByteSize
  stop_eq : stop = before.utf8ByteSize + part.utf8ByteSize
  cut_eq : cut text.toUTF8 start stop = .ok slice
  valid : slice.IsValidUTF8
  decode_eq : decode slice = .ok part

theorem decode_toUTF8 (text : String) : decode text.toUTF8 = .ok text := by
  rw [toUTF8_eq, decode_utf8Encode, String.ofList_toList]

theorem toList_data_toUTF8 (text : String) : text.toUTF8.data.toList = utf8Bytes text.toList := by
  rw [toUTF8_eq, toList_data_utf8Encode]

theorem utf8ByteSize_eq (text : String) : text.utf8ByteSize = (utf8Bytes text.toList).length := by
  rw [← toList_data_toUTF8, Array.length_toList]
  rfl

/-- Only texts that are valid are decoded, and decoding keeps the bytes. -/
theorem eq_toUTF8_of_decode {slice : ByteArray} {part : String} (h : decode slice = .ok part) :
    slice = part.toUTF8 := by
  unfold decode at h
  split at h
  · rename_i text htext
    obtain rfl := Except.ok.inj h
    unfold String.fromUTF8? at htext
    split at htext
    · obtain rfl := Option.some.inj htext
      rfl
    · contradiction
  · contradiction

theorem IsPart.spells {sep : Char → Prop} {text before part after : String}
    (h : IsPart sep text before part after) :
    Spells sep text before.utf8ByteSize (before.utf8ByteSize + part.utf8ByteSize) part.toUTF8
      before part after where
  isPart := h
  start_eq := rfl
  stop_eq := rfl
  cut_eq := by
    have hsize : before.utf8ByteSize + part.utf8ByteSize ≤ text.toUTF8.size := by
      show _ ≤ text.utf8ByteSize
      rw [h.join, String.utf8ByteSize_append, String.utf8ByteSize_append]
      exact Nat.le_add_right _ _
    rw [cut_eq_ok (Nat.le_add_right _ _) hsize]
    refine congrArg Except.ok ?_
    apply ByteArray.ext
    rw [← Array.toList_inj, ByteArray.data_extract, Array.toList_extract, toList_data_toUTF8,
      toList_data_toUTF8, h.join, String.toList_append, String.toList_append, utf8Bytes_append,
      utf8Bytes_append, utf8ByteSize_eq, utf8ByteSize_eq]
    simp [List.extract]
  valid := part.isValidUTF8
  decode_eq := decode_toUTF8 part

/-- What is cut out from the begin of a part to its end spells it. -/
theorem IsPart.spells_of_cut {sep : Char → Prop} {text before part after : String}
    {start stop : Nat} {slice : ByteArray} (h : IsPart sep text before part after)
    (hstart : start = before.utf8ByteSize)
    (hstop : stop = before.utf8ByteSize + part.utf8ByteSize)
    (hcut : Text.cut text.toUTF8 start stop = .ok slice) :
    Spells sep text start stop slice before part after := by
  subst hstart hstop
  have hspells := h.spells
  rw [hspells.cut_eq] at hcut
  obtain rfl := Except.ok.inj hcut
  exact hspells

/-! ### Cutting next to an ASCII character -/

/-- Where the byte of an ASCII character occurs in the bytes of a text, the character occurs in the
text. -/
theorem exists_of_utf8Bytes_eq {c : Char} (hc : c.toNat < 128) {chars : List Char}
    {before after : List UInt8} (h : utf8Bytes chars = before ++ asciiByte c :: after) :
    ∃ left right, chars = left ++ c :: right
      ∧ utf8Bytes left = before ∧ utf8Bytes right = after := by
  induction chars generalizing before with
  | nil => simp at h
  | cons d chars ih =>
    rw [utf8Bytes_cons] at h
    by_cases hd : d = c
    · -- the first character is the one looked for, and its byte is here or further on
      subst hd
      rw [utf8EncodeChar_of_ascii hc, List.singleton_append] at h
      rcases before with - | ⟨b, before⟩
      · exact ⟨[], chars, rfl, rfl, (List.cons.inj h).2⟩
      · obtain ⟨rfl, htail⟩ := List.cons.inj h
        obtain ⟨left, right, rfl, rfl, rfl⟩ := ih htail
        exact ⟨d :: left, right, rfl, by rw [utf8Bytes_cons, utf8EncodeChar_of_ascii hc]; rfl, rfl⟩
    · -- the bytes of any other character lie before it
      have hnot := asciiByte_not_mem_utf8EncodeChar hc hd
      rcases List.append_eq_append_iff.1 h with ⟨rest, rfl, htail⟩ | ⟨rest, hencode, htail⟩
      · obtain ⟨left, right, rfl, rfl, rfl⟩ := ih htail
        exact ⟨d :: left, right, rfl, rfl, rfl⟩
      · rcases rest with - | ⟨b, rest⟩
        · obtain ⟨left, right, rfl, hleft, rfl⟩ := @ih [] htail.symm
          rw [List.append_nil] at hencode
          have hbytes : utf8Bytes (d :: left) = before := by
            rw [utf8Bytes_cons, hleft, hencode, List.append_nil]
          exact ⟨d :: left, right, rfl, hbytes, rfl⟩
        · obtain ⟨rfl, -⟩ := List.cons.inj htail
          exact absurd (by simp [hencode]) hnot

variable {c : Char} {text : String} {before piece after : List UInt8}

/-- Bytes that end where a separator follows, or the text ends, are those of characters. -/
theorem exists_of_utf8Bytes_eq_append (hc : c.toNat < 128) {chars : List Char}
    (h : utf8Bytes chars = before ++ after)
    (hafter : after = [] ∨ ∃ rest, after = asciiByte c :: rest) :
    ∃ left right, chars = left ++ right ∧ utf8Bytes left = before
      ∧ (right = [] ∨ ∃ rest, right = c :: rest) := by
  rcases hafter with rfl | ⟨rest, rfl⟩
  · rw [List.append_nil] at h
    exact ⟨chars, [], (List.append_nil _).symm, h, .inl rfl⟩
  · obtain ⟨left, rest, hchars, hleft, -⟩ := exists_of_utf8Bytes_eq hc h
    exact ⟨left, c :: rest, hchars, hleft, .inr ⟨rest, rfl⟩⟩

/-- So are bytes that begin behind a separator, or with the text. -/
theorem exists_of_append_eq_utf8Bytes (hc : c.toNat < 128) {chars : List Char}
    (h : utf8Bytes chars = before ++ piece)
    (hbefore : before = [] ∨ ∃ rest, before = rest ++ [asciiByte c]) :
    ∃ left part, chars = left ++ part ∧ utf8Bytes left = before ∧ utf8Bytes part = piece
      ∧ (left = [] ∨ ∃ rest, left = rest ++ [c]) := by
  rcases hbefore with rfl | ⟨rest, rfl⟩
  · exact ⟨[], chars, rfl, rfl, h, .inl rfl⟩
  · rw [List.append_assoc, List.singleton_append] at h
    obtain ⟨rest, part, rfl, rfl, hpart⟩ := exists_of_utf8Bytes_eq hc h
    refine ⟨rest ++ [c], part, by simp, ?_, hpart, .inr ⟨rest, rfl⟩⟩
    rw [utf8Bytes_append, utf8Bytes_cons, utf8EncodeChar_of_ascii hc]
    rfl

/-- Bytes between two separators are those of the part between the two characters. -/
theorem exists_isPart (hc : c.toNat < 128)
    (h : text.toUTF8.data.toList = before ++ piece ++ after) (hpiece : asciiByte c ∉ piece)
    (hbefore : before = [] ∨ ∃ rest, before = rest ++ [asciiByte c])
    (hafter : after = [] ∨ ∃ rest, after = asciiByte c :: rest) :
    ∃ left part right, IsPart (· = c) text left part right
      ∧ utf8Bytes left.toList = before ∧ utf8Bytes part.toList = piece := by
  rw [toList_data_toUTF8] at h
  obtain ⟨chars, right, hchars, hfront, hright⟩ := exists_of_utf8Bytes_eq_append hc h hafter
  obtain ⟨left, part, rfl, rfl, rfl, hleft⟩ := exists_of_append_eq_utf8Bytes hc hfront hbefore
  rw [asciiByte_mem_utf8Bytes hc] at hpiece
  refine ⟨.ofList left, .ofList part, .ofList right, ⟨?_, ?_, ?_, ?_⟩, by simp, by simp⟩
  · apply String.toList_inj.1
    simp [hchars]
  · rintro d hd rfl
    exact hpiece (by simpa using hd)
  · rcases hleft with rfl | ⟨rest, rfl⟩
    · exact .inl rfl
    · exact .inr ⟨c, rfl, by simp⟩
  · rcases hright with rfl | ⟨rest, rfl⟩
    · exact .inl rfl
    · exact .inr ⟨c, rfl, by simp⟩

end Inet.Text
