/-
Inet/Network/Reader.lean

Reading a network from its CIDR notation.

`Network.ofText` is the grammar: a text is cut at its slashes, and has to give
an address and a prefix length.  `Network.read` carries out the scan over the
bytes.

Main statements:
  * `scan_eq`: the scan of a text's bytes ends without a fault, in the answer
    of the grammar;
  * `read_eq`: so `read` is `ofText`.
-/
import Inet.Address.Reader
import Inet.Network.Scan

namespace Inet.Network

open Text

/-! ### The grammar -/

/-- The network of `addr` and the prefix length that `part` denotes. -/
def ofPrefix (addr : Address) (part : List Char) : Except NetworkError Network :=
  if part = [] then .error .missingPrefix
  else match Decimal.number? part with
    | none => .error (.malformedPrefix (String.ofList part))
    | some length =>
      if length ≤ 32 then .ok ⟨addr, UInt8.ofNat length⟩
      else if length < UInt32.size then .error (.prefixOverflow (UInt32.ofNat length))
      else .error (.malformedPrefix (String.ofList part))

/-- The network that the parts around a slash spell. -/
def ofParts : List (List Char) → Except NetworkError Network
  | [left, right] =>
    match Address.ofText (String.ofList left) with
    | .error error => .error (.address error)
    | .ok addr => ofPrefix addr right
  | parts => .error (.separatorCount parts.length)

/-- The network whose CIDR notation a text is. -/
def ofText (text : String) : Except NetworkError Network :=
  if text = "" then .error .missing else ofParts (text.toList.splitOn '/')

theorem ofParts_of_length_ne {parts : List (List Char)} (h : parts.length ≠ 2) :
    ofParts parts = .error (.separatorCount parts.length) := by
  unfold ofParts
  split
  · exact absurd rfl h
  · rfl

/-! ### The scan follows the grammar -/

theorem scanPrefix_eq (addr : Address) (part : List Char) :
    scanPrefix addr part.utf8Encode = .ok (ofPrefix addr part) := by
  by_cases hempty : part = []
  · subst hempty
    rfl
  · have hsize : part.utf8Encode.size ≠ 0 := by
      rwa [ne_eq, ByteArray.size_eq_zero_iff, List.utf8Encode_eq_empty]
    have hread := Decimal.read?_utf8Encode part
    rw [ofPrefix, if_neg hempty]
    rcases hnumber : Decimal.number? part with - | length <;> rw [hnumber] at hread
    · rw [scanPrefix_of_none hsize hread, decode_utf8Encode]
      rfl
    · rw [Option.bind_some, Decimal.word?] at hread
      by_cases hfit : length < UInt32.size
      · have hw : (UInt32.ofNat length).toNat = length := by
          rw [UInt32.toNat_ofNat', Nat.mod_eq_of_lt hfit]
        have hwidth : Address.width.toUInt32.toNat = 32 := rfl
        rw [if_pos hfit] at hread
        rw [scanPrefix_of_some hsize hread]
        by_cases hle : length ≤ 32
        · have hbyte : (UInt32.ofNat length).toUInt8 = UInt8.ofNat length := by
            rw [← UInt8.toNat_inj, UInt32.toNat_toUInt8, hw, UInt8.toNat_ofNat']
          simp [UInt32.le_iff_toNat_le, hw, hwidth, hle, hbyte]
        · simp [UInt32.le_iff_toNat_le, hw, hwidth, hle, hfit]
      · have hlarge : ¬ length ≤ 32 := fun h => hfit (Nat.lt_of_le_of_lt h (by decide))
        rw [if_neg hfit] at hread
        rw [scanPrefix_of_none hsize hread, decode_utf8Encode]
        simp [hfit, hlarge, Except.map]

/-- A text with one slash, cut at it. -/
theorem exists_parts {chars : List Char} (h : chars.count '/' = 1) :
    ∃ left right, chars = left ++ '/' :: right ∧ '/' ∉ left
      ∧ chars.splitOn '/' = [left, right] := by
  have hmem : '/' ∈ chars := List.count_pos_iff.1 (by omega)
  obtain ⟨left, right, rfl, hleft⟩ := List.eq_append_cons_of_mem hmem
  have hright : '/' ∉ right := by
    rw [List.count_append, List.count_cons_self, List.count_eq_zero_of_not_mem hleft] at h
    exact List.count_eq_zero.1 (by omega)
  refine ⟨left, right, rfl, hleft, ?_⟩
  rw [List.splitOn_append_cons_self_of_not_mem hleft, List.splitOn_eq_singleton hright]

/-- The scan of a text with one slash. -/
theorem scan_of_parts {bytes : ByteArray} {left right : List Char}
    (hb : bytes.data.toList = utf8Bytes left ++ slash :: utf8Bytes right) (hl : '/' ∉ left)
    (hcount : count bytes slash = .ok 1) : scan bytes = .ok (ofParts [left, right]) := by
  have hsize : bytes.size = (utf8Bytes left).length + (utf8Bytes right).length + 1 := by
    have : bytes.size = bytes.data.toList.length := by simp
    rw [this, hb, List.length_append, List.length_cons, Nat.add_assoc]
  have hfind : find bytes slash = .ok (utf8Bytes left).length := by
    have := @findFrom_eq_ok bytes slash 0 _ _ (mt (asciiByte_mem_utf8Bytes (by decide)).1 hl) hb
    rwa [Nat.zero_add] at this
  have hleft : cut bytes 0 (utf8Bytes left).length = .ok left.utf8Encode := by
    rw [cut_eq_ok (Nat.zero_le _) (by omega)]
    refine congrArg Except.ok (utf8Encode_eq ?_)
    rw [ByteArray.data_extract, Array.toList_extract, hb]
    simp [List.extract]
  have hright : cut bytes ((utf8Bytes left).length + 1) bytes.size = .ok right.utf8Encode := by
    rw [cut_eq_ok (by omega) (Nat.le_refl _)]
    refine congrArg Except.ok (utf8Encode_eq ?_)
    rw [ByteArray.data_extract, Array.toList_extract, hb, hsize]
    simp [List.extract]
  rw [scan_of_cut hcount hfind hleft hright]
  simp only [decode_utf8Encode, Address.scan_eq, bind, Except.bind, ofParts]
  rcases Address.ofText (String.ofList left) with error | addr
  · rfl
  · exact scanPrefix_eq addr right

/-- The scan of a text never faults, and answers what the grammar answers. -/
theorem scan_eq (text : String) : scan text.toUTF8 = .ok (ofText text) := by
  have hbytes : text.toUTF8.data.toList = utf8Bytes text.toList := by
    rw [toUTF8_eq, toList_data_utf8Encode]
  have hcount : count text.toUTF8 slash = .ok (text.toList.count '/') := by
    rw [count_eq_ok, hbytes]
    exact congrArg _ (count_asciiByte (by decide) _)
  by_cases hempty : text = ""
  · subst hempty
    rfl
  · rw [ofText, if_neg hempty]
    by_cases htwo : text.toList.count '/' + 1 = 2
    · obtain ⟨left, right, htext, hleft, hsplit⟩ := exists_parts (Nat.succ.inj htwo)
      rw [Nat.succ.inj htwo] at hcount
      rw [htext, utf8Bytes_append, utf8Bytes_cons, utf8EncodeChar_of_ascii (by decide)] at hbytes
      rw [hsplit]
      exact scan_of_parts hbytes hleft hcount
    · have hlength := length_splitOn '/' text.toList
      rw [scan, if_neg (mt size_toUTF8_eq_zero.1 hempty), hcount, ofParts_of_length_ne (by omega),
        hlength]
      simp [htwo, bind, Except.bind, pure, Except.pure]

/-- Reads a network from its CIDR notation, with any number of leading zeros in its numbers. -/
def read (text : String) : Except NetworkError Network :=
  match h : scan text.toUTF8 with
  | .ok result => result
  | .error fault => absurd ((scan_eq text).symm.trans h) (by simp)

/-- Reading follows the grammar. -/
theorem read_eq (text : String) : read text = ofText text := by
  unfold read
  split
  · rename_i h
    exact Except.ok.inj (h.symm.trans (scan_eq text))
  · rename_i h
    exact absurd ((scan_eq text).symm.trans h) (by simp)

end Inet.Network
