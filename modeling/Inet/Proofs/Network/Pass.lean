/-
Inet/Proofs/Network/Pass.lean

The scan of a network, access by access.

A text with one slash is cut there, the part before it is read as a dotted
quad of its own, and the part behind it as a number:

    text  =  left ++ "/" ++ right
    bytes 0 … pos           spell `left`
    bytes pos + 1 … size    spell `right`

Both parts are valid encodings, since a slash is no byte of another character,
and so are the pieces of `left`, whose positions are the same in the whole
text.

Main statements:
  * `ends_scan`: how the scan of any bytes ends, and what it has decoded last;
  * `decodes_spell`: whatever the scans take for text spells what stands
    between two separators, and nothing else is quoted;
  * `scans_safe`: no access by position goes wrong, and no counter gets past
    the end of the text by more than one.
-/
import Inet.Proofs.Address.Pass
import Inet.Proofs.Network.Grammar

namespace Inet.Network

open Text
open StateTransition (Reaches)

/-! ### The parts around the slash -/

section Parts

variable {text left right : String}

theorem IsPair.isPart_left (h : IsPair text left right) :
    IsPart (· = '/') text "" left ("/" ++ right) where
  join := by rw [h.join, String.empty_append, String.append_assoc]
  not_sep := by
    rintro c hc rfl
    exact h.left hc
  left := .inl rfl
  right := .inr ⟨'/', rfl, by simp⟩

theorem IsPair.isPart_right (h : IsPair text left right) :
    IsPart (· = '/') text (left ++ "/") right "" where
  join := by rw [h.join, String.append_empty]
  not_sep := by
    rintro c hc rfl
    exact h.right hc
  left := .inr ⟨'/', rfl, by simp⟩
  right := .inl rfl

/-- A piece of the left part is one of the whole text, where a slash is a separator too. -/
theorem IsPair.isPart_piece (h : IsPair text left right) {before part after : String}
    (hpart : IsPart (· = '.') left before part after) :
    IsPart (fun c => c = '.' ∨ c = '/') text before part (after ++ "/" ++ right) where
  join := by rw [h.join, hpart.join]; simp only [String.append_assoc]
  not_sep := by
    rintro c hc (rfl | rfl)
    · exact hpart.not_sep _ hc rfl
    · exact h.left (by rw [hpart.join]; simp [hc])
  left := by
    rcases hpart.left with hbegin | ⟨c, rfl, hlast⟩
    · exact .inl hbegin
    · exact .inr ⟨_, .inl rfl, hlast⟩
  right := by
    rcases hpart.right with rfl | ⟨c, rfl, hhead⟩
    · exact .inr ⟨'/', .inr rfl, by simp⟩
    · exact .inr ⟨_, .inl rfl, by simp [hhead]⟩

theorem IsPair.size_eq (h : IsPair text left right) :
    text.toUTF8.size = left.utf8ByteSize + 1 + right.utf8ByteSize := by
  show text.utf8ByteSize = _
  rw [h.join, String.utf8ByteSize_append, String.utf8ByteSize_append]
  rfl

theorem IsPair.find_eq (h : IsPair text left right) :
    find text.toUTF8 slash = .ok left.utf8ByteSize := by
  have hbytes : text.toUTF8.data.toList.drop 0
      = utf8Bytes left.toList ++ slash :: utf8Bytes right.toList := by
    rw [List.drop_zero, toList_data_toUTF8, h.join, String.toList_append, String.toList_append,
      utf8Bytes_append, utf8Bytes_append, List.append_assoc]
    rfl
  have hleft : slash ∉ utf8Bytes left.toList := mt (asciiByte_mem_utf8Bytes (by decide)).1 h.left
  have hfind := findFrom_eq_ok hleft hbytes
  rwa [Nat.zero_add, ← utf8ByteSize_eq] at hfind

end Parts

/-- The scan cuts the text at `pos`: there is one slash, and it is found there. -/
def CutsAt (bytes : ByteArray) (pos : Nat) : Prop :=
  count bytes slash = .ok 1 ∧ find bytes slash = .ok pos

theorem exists_isPair_of_count {text : String} (h : count text.toUTF8 slash = .ok 1) :
    ∃ left right, IsPair text left right := by
  have hslashes : text.toList.count '/' = 1 := by
    rw [← count_asciiByte (by decide), ← toList_data_toUTF8]
    exact count_of_eq_ok h
  exact exists_isPair (congrArg (· + 1) hslashes)

section Cut

variable {bytes : ByteArray} {pos : Nat}

theorem exists_cutsAt (h : count bytes slash = .ok 1) : ∃ pos, CutsAt bytes pos := by
  have hmem : slash ∈ bytes.data.toList := by
    rw [← List.count_pos_iff, count_of_eq_ok h]
    exact Nat.zero_lt_one
  obtain ⟨left, right, hbytes, hleft⟩ := List.eq_append_cons_of_mem hmem
  exact ⟨_, h, findFrom_eq_ok hleft hbytes⟩

theorem CutsAt.lt_size (h : CutsAt bytes pos) : pos < bytes.size :=
  lt_size_of_readAt (find_eq_ok_iff.1 h.2).2

/-- Both parts are cut out within the bytes. -/
theorem CutsAt.exists_cut (h : CutsAt bytes pos) :
    ∃ left right, cut bytes 0 pos = .ok left ∧ cut bytes (pos + 1) bytes.size = .ok right :=
  ⟨_, _, cut_eq_ok (Nat.zero_le _) (Nat.le_of_lt h.lt_size),
    cut_eq_ok (Nat.succ_le_of_lt h.lt_size) (Nat.le_refl _)⟩

end Cut

theorem CutsAt.exists_isPair {text : String} {pos : Nat} (h : CutsAt text.toUTF8 pos) :
    ∃ left right, IsPair text left right ∧ pos = left.utf8ByteSize := by
  obtain ⟨left, right, hpair⟩ := exists_isPair_of_count h.1
  have hfind := h.2
  rw [hpair.find_eq] at hfind
  exact ⟨left, right, hpair, (Except.ok.inj hfind).symm⟩

/-! ### What the scan takes for text -/

/-- The scan takes the bytes from `start` up to `stop` for text, and they are cut out next to
characters with `sep`. -/
inductive Decodes (bytes : ByteArray) : (Char → Prop) → Nat → Nat → ByteArray → Prop where
  /-- What is before the slash is read as an address. -/
  | left {pos : Nat} {slice : ByteArray} :
      CutsAt bytes pos → cut bytes 0 pos = .ok slice → Decodes bytes (· = '/') 0 pos slice
  /-- A piece of this address is quoted. -/
  | piece {pos start stop : Nat} {left slice : ByteArray} {text : String} :
      CutsAt bytes pos → cut bytes 0 pos = .ok left → decode left = .ok text →
      Address.Decodes text.toUTF8 start stop slice →
      Decodes bytes (fun c => c = '.' ∨ c = '/') start stop slice
  /-- What is behind the slash is quoted, once the address is read. -/
  | right {pos : Nat} {left slice : ByteArray} {text : String} {addr : Address} :
      CutsAt bytes pos → cut bytes 0 pos = .ok left → decode left = .ok text →
      Address.scan text.toUTF8 = .ok (.ok addr) →
      cut bytes (pos + 1) bytes.size = .ok slice → slice.size ≠ 0 →
      Decimal.read? slice = .ok none → Decodes bytes (· = '/') (pos + 1) bytes.size slice

/-- What is taken for text spells what stands between two separators. -/
theorem spells_of_decodes {text : String} {sep : Char → Prop} {start stop : Nat}
    {slice : ByteArray} (h : Decodes text.toUTF8 sep start stop slice) :
    ∃ before part after, Spells sep text start stop slice before part after := by
  cases h with
  | left hcuts hcut =>
    obtain ⟨left, right, hpair, rfl⟩ := hcuts.exists_isPair
    exact ⟨"", left, _, hpair.isPart_left.spells_of_cut rfl (Nat.zero_add _).symm hcut⟩
  | piece hcuts hcut hdecode hpiece =>
    obtain ⟨left, right, hpair, rfl⟩ := hcuts.exists_isPair
    have hleft := hpair.isPart_left.spells_of_cut rfl (Nat.zero_add _).symm hcut
    obtain rfl := Except.ok.inj (hleft.decode_eq.symm.trans hdecode)
    obtain ⟨before, part, after, hpart, rfl, rfl, -, -, hpart'⟩ := Address.spells_of_decodes hpiece
    -- the left part begins with the text, and positions in it are positions in the text
    rw [eq_toUTF8_of_decode hpart']
    exact ⟨before, part, _, (hpair.isPart_piece hpart).spells⟩
  | right hcuts _ _ _ hcut _ _ =>
    obtain ⟨left, right, hpair, rfl⟩ := hcuts.exists_isPair
    have hslash : (left ++ "/").utf8ByteSize = left.utf8ByteSize + 1 := String.utf8ByteSize_append
    refine ⟨_, right, "", hpair.isPart_right.spells_of_cut hslash.symm ?_ hcut⟩
    rw [hpair.size_eq, hslash]

/-! ### How the scan ends -/

section Ends

variable {bytes left right : ByteArray} {pos : Nat} {text : String} {addr : Address}

theorem scan_of_fault {fault : Fault} (hcuts : CutsAt bytes pos)
    (hleft : cut bytes 0 pos = .ok left) (hdecode : decode left = .error fault) :
    scan bytes = .error fault := by
  obtain ⟨-, right, -, hright⟩ := hcuts.exists_cut
  rw [scan_of_cut hcuts.1 hcuts.2 hleft hright, hdecode]
  rfl

theorem scan_of_address_error {error : AddressError} (hcuts : CutsAt bytes pos)
    (hleft : cut bytes 0 pos = .ok left) (hdecode : decode left = .ok text)
    (haddr : Address.scan text.toUTF8 = .ok (.error error)) :
    scan bytes = .ok (.error (.address error)) := by
  obtain ⟨-, right, -, hright⟩ := hcuts.exists_cut
  rw [scan_of_cut hcuts.1 hcuts.2 hleft hright, hdecode]
  simp only [bind, Except.bind, haddr]
  rfl

theorem scan_of_address (hcuts : CutsAt bytes pos) (hleft : cut bytes 0 pos = .ok left)
    (hdecode : decode left = .ok text) (haddr : Address.scan text.toUTF8 = .ok (.ok addr))
    (hright : cut bytes (pos + 1) bytes.size = .ok right) :
    scan bytes = scanPrefix addr right := by
  rw [scan_of_cut hcuts.1 hcuts.2 hleft hright, hdecode]
  simp only [bind, Except.bind, haddr]

/-- A bad number is quoted; anything else behind the slash is answered as it is. -/
theorem scanPrefix_cases (addr : Address) (right : ByteArray) :
    (∃ n, scanPrefix addr right = .ok (.ok n))
    ∨ scanPrefix addr right = .ok (.error .missingPrefix)
    ∨ (∃ length, scanPrefix addr right = .ok (.error (.prefixOverflow length)))
    ∨ right.size ≠ 0 ∧ Decimal.read? right = .ok none := by
  by_cases hsize : right.size = 0
  · exact .inr (.inl (if_pos hsize))
  obtain ⟨value?, hread⟩ := Decimal.exists_read? right
  rcases value? with - | length
  · exact .inr (.inr (.inr ⟨hsize, hread⟩))
  · rw [scanPrefix_of_some hsize hread]
    by_cases hle : length ≤ Address.width.toUInt32
    · exact .inl ⟨_, congrArg Except.ok (if_pos hle)⟩
    · exact .inr (.inr (.inl ⟨length, congrArg Except.ok (if_neg hle)⟩))

/-- How the scan ends, with what it has decoded last. -/
inductive Ends (bytes : ByteArray) : Except Fault (Except NetworkError Network) → Prop where
  | ok (n : Network) : Ends bytes (.ok (.ok n))
  | missing : Ends bytes (.ok (.error .missing))
  | separatorCount (n : Nat) : Ends bytes (.ok (.error (.separatorCount n)))
  | missingPrefix : Ends bytes (.ok (.error .missingPrefix))
  | prefixOverflow (length : UInt32) : Ends bytes (.ok (.error (.prefixOverflow length)))
  /-- The part before the slash is no text. -/
  | fault {pos : Nat} {left : ByteArray} {fault : Fault} :
      CutsAt bytes pos → cut bytes 0 pos = .ok left → decode left = .error fault →
      Ends bytes (.error fault)
  /-- It is a text, but no address. -/
  | address {pos : Nat} {left : ByteArray} {text : String} {error : AddressError} :
      CutsAt bytes pos → cut bytes 0 pos = .ok left → decode left = .ok text →
      Address.scan text.toUTF8 = .ok (.error error) → Ends bytes (.ok (.error (.address error)))
  /-- The part behind the slash is quoted. -/
  | quoted {pos : Nat} {right : ByteArray} {answer : Except Fault (Except NetworkError Network)} :
      Decodes bytes (· = '/') (pos + 1) bytes.size right →
      (decode right).map (fun part => .error (.malformedPrefix part)) = answer → Ends bytes answer

/-- These are all the ways in which the scan ends. -/
theorem ends_scan (bytes : ByteArray) : Ends bytes (scan bytes) := by
  by_cases hcount : count bytes slash = .ok 1
  · obtain ⟨pos, hcuts⟩ := exists_cutsAt hcount
    obtain ⟨left, right, hleft, hright⟩ := hcuts.exists_cut
    rcases hdecode : decode left with fault | text
    · rw [scan_of_fault hcuts hleft hdecode]
      exact .fault hcuts hleft hdecode
    rcases haddr : Address.ofText text with error | addr <;>
      rw [← Except.ok.injEq (ε := Fault), ← Address.scan_eq] at haddr
    · rw [scan_of_address_error hcuts hleft hdecode haddr]
      exact .address hcuts hleft hdecode haddr
    · rw [scan_of_address hcuts hleft hdecode haddr hright]
      rcases scanPrefix_cases addr right with ⟨n, h⟩ | h | ⟨length, h⟩ | ⟨hsize, hread⟩
      · exact h ▸ .ok n
      · exact h ▸ .missingPrefix
      · exact h ▸ .prefixOverflow length
      · exact .quoted (.right hcuts hleft hdecode haddr hright hsize hread)
          (scanPrefix_of_none hsize hread).symm
  · by_cases hsize : bytes.size = 0
    · rw [scan, if_pos hsize]
      exact .missing
    · obtain ⟨slashes, hslashes⟩ : ∃ slashes, count bytes slash = .ok slashes := ⟨_, count_eq_ok⟩
      have htwo : slashes + 1 ≠ 2 := by
        intro htwo
        exact hcount (hslashes.trans (congrArg Except.ok (Nat.succ.inj htwo)))
      rw [scan, if_neg hsize, hslashes]
      simp only [bind, Except.bind, if_pos htwo]
      exact .separatorCount (slashes + 1)

end Ends

/-! ### What is quoted is what was taken for text -/

section Quotes

variable {bytes slice : ByteArray} {start stop : Nat} {part : String}

/-- What is decoded between slashes begins with the bytes, or else it is behind the slash and
quoted. -/
theorem Decodes.cases_slash (h : Decodes bytes (· = '/') start stop slice) :
    (start = 0 ∧ ∃ pos, CutsAt bytes pos ∧ cut bytes 0 pos = .ok slice)
    ∨ 0 < start ∧ scan bytes = (decode slice).map fun part => .error (.malformedPrefix part) := by
  generalize hsep : (fun c => c = '/') = sep at h
  cases h with
  | left hcuts hcut => exact .inl ⟨rfl, _, hcuts, hcut⟩
  | piece => exact absurd (congrFun hsep '.') (by simp)
  | right hcuts hleft hdecode haddr hright hsize hread =>
    refine .inr ⟨Nat.succ_pos _, ?_⟩
    rw [scan_of_address hcuts hleft hdecode haddr hright, scanPrefix_of_none hsize hread]

/-- What is decoded between dots is a piece of the address. -/
theorem Decodes.cases_dot (h : Decodes bytes (fun c => c = '.' ∨ c = '/') start stop slice) :
    ∃ pos left text, CutsAt bytes pos ∧ cut bytes 0 pos = .ok left ∧ decode left = .ok text
      ∧ Address.Decodes text.toUTF8 start stop slice := by
  generalize hsep : (fun c => c = '.' ∨ c = '/') = sep at h
  cases h with
  | left => exact absurd (congrFun hsep '.') (by simp)
  | piece hcuts hcut hdecode hpiece => exact ⟨_, _, _, hcuts, hcut, hdecode, hpiece⟩
  | right => exact absurd (congrFun hsep '.') (by simp)

theorem scan_of_decodes_behind (h : Decodes bytes (· = '/') (start + 1) stop slice) :
    scan bytes = (decode slice).map fun part => .error (.malformedPrefix part) := by
  rcases h.cases_slash with ⟨hzero, -⟩ | ⟨-, hscan⟩
  · exact absurd hzero (Nat.succ_ne_zero _)
  · exact hscan

/-- Of any bytes, texts or not: the scan faults on what is no text where it takes it for text, and
nowhere else. -/
theorem scan_eq_encoding_iff :
    scan bytes = .error .encoding
      ↔ ∃ sep start stop slice, Decodes bytes sep start stop slice
        ∧ decode slice = .error .encoding := by
  constructor
  · intro h
    have hends := h ▸ ends_scan bytes
    cases hends with
    | fault hcuts hleft hdecode => exact ⟨_, _, _, _, .left hcuts hleft, hdecode⟩
    | quoted hdecodes hanswer => exact ⟨_, _, _, _, hdecodes, map_eq_error_iff.1 hanswer⟩
  · rintro ⟨sep, start, stop, slice, hdecodes, hslice⟩
    cases hdecodes with
    | left hcuts hleft => exact scan_of_fault hcuts hleft hslice
    | piece hcuts hleft hdecode hpiece =>
      -- a piece is cut out of a text, and scanning a text does not fault
      have hscan := Address.scan_eq_encoding_iff.2 ⟨_, _, slice, hpiece, hslice⟩
      rw [Address.scan_eq] at hscan
      contradiction
    | right hcuts hleft hdecode haddr hright hsize hread =>
      rw [scan_of_address hcuts hleft hdecode haddr hright, scanPrefix_of_none hsize hread, hslice]
      rfl

/-- A number that is quoted was decoded behind the slash. -/
theorem scan_eq_malformedPrefix_iff :
    scan bytes = .ok (.error (.malformedPrefix part))
      ↔ ∃ start stop slice, Decodes bytes (· = '/') (start + 1) stop slice
        ∧ decode slice = .ok part := by
  constructor
  · intro h
    have hends := h ▸ ends_scan bytes
    cases hends with
    | quoted hdecodes hanswer =>
      obtain ⟨part', hslice, hpart⟩ := map_eq_ok_iff.1 hanswer
      obtain rfl := NetworkError.malformedPrefix.inj (Except.error.inj hpart)
      exact ⟨_, _, _, hdecodes, hslice⟩
  · rintro ⟨start, stop, slice, hdecodes, hslice⟩
    rw [scan_of_decodes_behind hdecodes, hslice]
    rfl

/-- An address that is refused was decoded before the slash, and scanned by itself. -/
theorem scan_eq_address_iff {error : AddressError} :
    scan bytes = .ok (.error (.address error))
      ↔ ∃ stop slice text, Decodes bytes (· = '/') 0 stop slice ∧ decode slice = .ok text
        ∧ Address.scan text.toUTF8 = .ok (.error error) := by
  constructor
  · intro h
    have hends := h ▸ ends_scan bytes
    cases hends with
    | address hcuts hleft hdecode haddr => exact ⟨_, _, _, .left hcuts hleft, hdecode, haddr⟩
    | quoted _ hanswer => simp [map_eq_ok_iff] at hanswer
  · rintro ⟨stop, slice, text, hdecodes, hdecode, haddr⟩
    rcases hdecodes.cases_slash with ⟨-, pos, hcuts, hleft⟩ | ⟨hpos, -⟩
    · exact scan_of_address_error hcuts hleft hdecode haddr
    · exact absurd hpos (Nat.lt_irrefl 0)

/-- A piece of an address that is quoted was decoded between two separators. -/
theorem scan_eq_component_iff :
    scan bytes = .ok (.error (.address (.component part)))
      ↔ ∃ start stop slice, Decodes bytes (fun c => c = '.' ∨ c = '/') start stop slice
        ∧ decode slice = .ok part := by
  constructor
  · intro h
    have hends := h ▸ ends_scan bytes
    cases hends with
    | address hcuts hleft hdecode haddr =>
      obtain ⟨start, stop, slice, hpiece, hpart⟩ := Address.scan_eq_component_iff.1 haddr
      exact ⟨start, stop, slice, .piece hcuts hleft hdecode hpiece, hpart⟩
    | quoted _ hanswer => simp [map_eq_ok_iff] at hanswer
  · rintro ⟨start, stop, slice, hdecodes, hpart⟩
    obtain ⟨pos, left, text, hcuts, hleft, hdecode, hpiece⟩ := hdecodes.cases_dot
    have haddr := Address.scan_eq_component_iff.2 ⟨start, stop, slice, hpiece, hpart⟩
    exact scan_of_address_error hcuts hleft hdecode haddr

end Quotes

/-- The bytes that the scans of a text take for UTF-8 without looking are valid UTF-8, and spell
what stands in the text between the two separators around them, or the ends of the text; where the
part before a slash is scanned in its turn, so do the pieces that are cut out of it.  Nothing else
is taken for UTF-8: of any bytes, the scans fault on exactly those of these that are none, and
whatever is quoted, or read as an address of its own, is the text of one of them. -/
theorem decodes_spell :
    (∀ bytes, Address.scan bytes = .error .encoding
      ↔ ∃ start stop slice, Address.Decodes bytes start stop slice
        ∧ decode slice = .error .encoding)
    ∧ (∀ bytes, scan bytes = .error .encoding
      ↔ ∃ sep start stop slice, Decodes bytes sep start stop slice
        ∧ decode slice = .error .encoding)
    ∧ (∀ text : String,
      (∀ start stop slice, Address.Decodes text.toUTF8 start stop slice →
        ∃ before part after, Spells (· = '.') text start stop slice before part after)
      ∧ ∀ sep start stop slice, Decodes text.toUTF8 sep start stop slice →
        ∃ before part after, Spells sep text start stop slice before part after)
    ∧ (∀ bytes part, Address.scan bytes = .ok (.error (.component part))
      ↔ ∃ start stop slice, Address.Decodes bytes start stop slice ∧ decode slice = .ok part)
    ∧ (∀ bytes part, scan bytes = .ok (.error (.address (.component part)))
      ↔ ∃ start stop slice, Decodes bytes (fun c => c = '.' ∨ c = '/') start stop slice
        ∧ decode slice = .ok part)
    ∧ (∀ bytes part, scan bytes = .ok (.error (.malformedPrefix part))
      ↔ ∃ start stop slice, Decodes bytes (· = '/') (start + 1) stop slice
        ∧ decode slice = .ok part)
    ∧ ∀ bytes error, scan bytes = .ok (.error (.address error))
      ↔ ∃ stop slice text, Decodes bytes (· = '/') 0 stop slice ∧ decode slice = .ok text
        ∧ Address.scan text.toUTF8 = .ok (.error error) :=
  ⟨fun _ => Address.scan_eq_encoding_iff, fun _ => scan_eq_encoding_iff,
    fun _ => ⟨fun _ _ _ => Address.spells_of_decodes, fun _ _ _ _ => spells_of_decodes⟩,
    fun _ _ => Address.scan_eq_component_iff, fun _ _ => scan_eq_component_iff,
    fun _ _ => scan_eq_malformedPrefix_iff, fun _ _ => scan_eq_address_iff⟩

/-- A letter of two bytes is quoted whole, from an address and from the address of a network. -/
theorem decodes_spell_accented :
    (∃ before part after, Spells (· = '.') "é.1.1.1" 0 2 "é".toUTF8 before part after)
    ∧ ∃ before part after,
      Spells (fun c => c = '.' ∨ c = '/') "é.1.1.1/8" 0 2 "é".toUTF8 before part after := by
  have hreach : Reaches (Address.Scan.next? "é.1.1.1".toUTF8) .begin ⟨0, 2, []⟩ :=
    .tail (.tail .refl (by decide +kernel : _ = some ⟨0, 1, []⟩)) (by decide +kernel)
  have hquotes : Address.Scan.Quotes "é.1.1.1".toUTF8 ⟨0, 2, []⟩ "é".toUTF8 :=
    ⟨.inr (by decide +kernel), by rfl, by decide +kernel⟩
  have haddress : Address.Decodes "é.1.1.1".toUTF8 0 2 "é".toUTF8 :=
    ⟨⟨0, 2, []⟩, ⟨by rw [count_eq_ok]; rfl, hreach⟩, rfl, rfl, hquotes⟩
  have hpair : IsPair "é.1.1.1/8" "é.1.1.1" "8" := ⟨by decide, by decide, by decide⟩
  have hcuts : CutsAt "é.1.1.1/8".toUTF8 8 := ⟨by rw [count_eq_ok]; rfl, hpair.find_eq⟩
  have hnetwork : Decodes "é.1.1.1/8".toUTF8 (fun c => c = '.' ∨ c = '/') 0 2 "é".toUTF8 :=
    .piece hcuts (by rfl) (decode_toUTF8 "é.1.1.1") haddress
  exact ⟨(decodes_spell.2.2.1 "é.1.1.1").1 0 2 _ haddress,
    (decodes_spell.2.2.1 "é.1.1.1/8").2 _ 0 2 _ hnetwork⟩

/-! ### Nothing goes wrong -/

/-- The scan of a network answers, and no loop of it leaves the text.  The search for the slash has
no test for the end of the text: it begins only where a slash was counted, and stops there. -/
structure Safe (bytes : ByteArray) : Prop where
  answers : ∃ result, scan bytes = .ok result
  counts : ∀ s, Reaches (round bytes (tally slash)) (0, 0) s →
    s.2 ≤ s.1 ∧ s.1 ≤ bytes.size ∧ count bytes slash = countFrom bytes slash s.1 s.2
  finds : count bytes slash = .ok 1 → ∃ pos, find bytes slash = .ok pos ∧ pos < bytes.size
    ∧ readAt bytes pos = .ok slash
    ∧ ∀ s, Reaches (round bytes (search slash)) (0, ()) s → s.1 ≤ pos
  cuts : ∀ pos, CutsAt bytes pos → ∃ left text right, cut bytes 0 pos = .ok left
    ∧ decode left = .ok text ∧ Address.Safe text.toUTF8
    ∧ cut bytes (pos + 1) bytes.size = .ok right

theorem safe (text : String) : Safe text.toUTF8 where
  answers := ⟨_, scan_eq text⟩
  counts _ h := ⟨found_le_of_reaches h, le_size_of_reaches h, (countFrom_of_reaches h).symm⟩
  finds h := by
    obtain ⟨left, right, hpair⟩ := exists_isPair_of_count h
    have hfind := hpair.find_eq
    have hread := (find_eq_ok_iff.1 hfind).2
    exact ⟨_, hfind, lt_size_of_readAt hread, hread, fun s => le_of_reaches_search hfind⟩
  cuts pos h := by
    obtain ⟨left, right, hpair, rfl⟩ := h.exists_isPair
    have hsize := hpair.size_eq
    have hleft := hpair.isPart_left.spells
    rw [String.utf8ByteSize_empty, Nat.zero_add] at hleft
    exact ⟨_, left, _, hleft.cut_eq, hleft.decode_eq, Address.safe left,
      cut_eq_ok (by omega) (Nat.le_refl _)⟩

/-- The scans of a text answer, and none of their loops makes an access that goes wrong.  The second
half is about any bytes: counting, searching and reading a number are the loops whose rounds are
looked at.  Counting and reading always answer, and in each state that they go through what is left
of them are the rounds from there on; so no round reads beyond the bytes it is given. -/
theorem scans_safe :
    (∀ text : String, Address.Safe text.toUTF8 ∧ Safe text.toUTF8)
    ∧ ∀ bytes : ByteArray,
      (∀ byte n, count bytes byte = .ok n
        ↔ Reaches (round bytes (tally byte)) (0, 0) (bytes.size, n))
      ∧ (∀ byte, ∃ n, count bytes byte = .ok n)
      ∧ (∀ byte pos, find bytes byte = .ok pos
        ↔ Reaches (round bytes (search byte)) (0, ()) (pos, ()) ∧ readAt bytes pos = .ok byte)
      ∧ (∀ n, Decimal.read? bytes = .ok (some n)
        ↔ bytes.size ≠ 0 ∧ Reaches (round bytes Decimal.push?) (0, 0) (bytes.size, n))
      ∧ (∃ result, Decimal.read? bytes = .ok result)
      ∧ ∀ s, Reaches (round bytes Decimal.push?) (0, 0) s → s.1 ≤ bytes.size
        ∧ (bytes.size ≠ 0 → Decimal.read? bytes = Decimal.readFrom bytes s.1 s.2) :=
  ⟨fun text => ⟨Address.safe text, safe text⟩,
    fun bytes => ⟨fun _ _ => count_eq_ok_iff, fun _ => ⟨_, count_eq_ok⟩, fun _ _ => find_eq_ok_iff,
      fun _ => read?_eq_some_iff, Decimal.exists_read? bytes,
      fun _ h => ⟨le_size_of_reaches h, fun hsize => read?_eq_readFrom hsize h⟩⟩⟩

/-- Behind the first dot one slot is filled and the next one is free; the slash is at the end. -/
theorem scans_safe_unfinished :
    Address.Visits "0...".toUTF8 ⟨2, 2, [0]⟩
    ∧ (⟨2, 2, [0]⟩ : Address.Scan).InBounds "0...".toUTF8
    ∧ ∃ pos, find "0.../".toUTF8 slash = .ok pos ∧ pos < 5 := by
  have hreach : Reaches (Address.Scan.next? "0...".toUTF8) .begin ⟨2, 2, [0]⟩ :=
    .tail (.tail .refl (by decide +kernel : _ = some ⟨0, 1, []⟩)) (by decide +kernel)
  have hvisits : Address.Visits "0...".toUTF8 ⟨2, 2, [0]⟩ := ⟨by rw [count_eq_ok]; rfl, hreach⟩
  obtain ⟨pos, hfind, hlt, -⟩ :=
    (scans_safe.1 "0.../").2.finds (by rw [count_eq_ok]; rfl)
  exact ⟨hvisits, ((scans_safe.1 "0...").1.visits _ hvisits).1, pos, hfind, hlt⟩

end Inet.Network
