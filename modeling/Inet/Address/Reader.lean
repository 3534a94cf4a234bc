/-
Inet/Address/Reader.lean

Reading an address from its dotted quad.

`Address.ofText` is the grammar: a text is cut at its dots, four pieces are
needed, and the first piece that is no octet is to blame.  `Address.read`
carries out the scan over the bytes, which never cuts the text.

Main statements:
  * `scan_eq`: the scan of a text's bytes ends without a fault, in the answer
    of the grammar;
  * `read_eq`: so `read` is `ofText`.
-/
import Inet.Address.Scan

namespace Inet.Address

open Text

/-! ### The grammar -/

/-- The octet that a piece denotes. -/
def octetOf? (piece : List Char) : Option UInt8 := do
  let value ← Decimal.number? piece
  if value ≤ 255 then some (UInt8.ofNat value) else none

/-- The octet that a piece denotes; a piece that denotes none is quoted. -/
def octetOf (piece : List Char) : Except AddressError UInt8 :=
  match octetOf? piece with
  | some octet => .ok octet
  | none => .error (.component (String.ofList piece))

/-- The address that pieces spell, one octet each. -/
def ofPieces : List (List Char) → Except AddressError Address
  | [a, b, c, d] => do
    let a ← octetOf a
    let b ← octetOf b
    let c ← octetOf c
    let d ← octetOf d
    return ⟨a, b, c, d⟩
  | pieces => .error (.componentCount pieces.length)

/-- The address whose dotted quad a text is. -/
def ofText (text : String) : Except AddressError Address :=
  if text = "" then .error .missing else ofPieces (text.toList.splitOn '.')

theorem ofPieces_of_length_ne {pieces : List (List Char)} (h : pieces.length ≠ 4) :
    ofPieces pieces = .error (.componentCount pieces.length) := by
  unfold ofPieces
  split
  · exact absurd rfl h
  · rfl

/-- What a scan that holds `octets` answers, if those of the pieces to come are `rest`. -/
def Scan.finishWith (octets : List UInt8) :
    Except AddressError (List UInt8) → Except Fault (Except AddressError Address)
  | .ok rest => .ok <$> finish ⟨0, 0, octets ++ rest⟩
  | .error error => .ok (.error error)

/-- Four pieces are read one after the other. -/
theorem finishWith_mapM {pieces : List (List Char)} (h : pieces.length = 4) :
    Scan.finishWith [] (pieces.mapM octetOf) = .ok (ofPieces pieces) := by
  obtain ⟨w, x, y, z, rfl⟩ : ∃ w x y z, pieces = [w, x, y, z] := by
    rcases pieces with - | ⟨w, - | ⟨x, - | ⟨y, - | ⟨z, - | ⟨_, _⟩⟩⟩⟩⟩ <;> simp_all
  simp only [List.mapM_cons, List.mapM_nil, ofPieces]
  rcases octetOf w with error | a
  · rfl
  rcases octetOf x with error | b
  · rfl
  rcases octetOf y with error | c
  · rfl
  rcases octetOf z with error | d <;> rfl

/-! ### The scan follows the grammar -/

theorem octet?_utf8Encode (piece : List Char) :
    octet? piece.utf8Encode = .ok (octetOf? piece) := by
  rw [octet?_eq_ok (Decimal.read?_utf8Encode piece), octetOf?]
  refine congrArg Except.ok ?_
  rcases Decimal.number? piece with - | value
  · rfl
  · simp only [Option.bind_eq_bind, Option.bind_some, Decimal.word?]
    by_cases hle : value ≤ 255
    · have hlt : value < UInt32.size := by
        simp only [UInt32.size]
        omega
      have hw : (UInt32.ofNat value).toNat = value := by
        rw [UInt32.toNat_ofNat', Nat.mod_eq_of_lt hlt]
      simp only [hlt, ↓reduceIte, Option.bind_some, UInt32.le_iff_toNat_le, hw, hle,
        UInt32.reduceToNat, Option.some.injEq]
      rw [← UInt8.toNat_inj, UInt32.toNat_toUInt8, hw, UInt8.toNat_ofNat']
    · rw [if_neg hle]
      by_cases hlt : value < UInt32.size
      · have hw : (UInt32.ofNat value).toNat = value := by
          rw [UInt32.toNat_ofNat', Nat.mod_eq_of_lt hlt]
        simp [hlt, UInt32.le_iff_toNat_le, hw, hle]
      · simp [hlt]

variable {bytes : ByteArray}

namespace Scan

/-- A piece closed at its end is read by the grammar. -/
theorem close_eq {before piece after : List UInt8} {chars : List Char} {octets : List UInt8}
    (hb : bytes.data.toList = before ++ piece ++ after) (hp : piece = utf8Bytes chars)
    (hs : octets.length < 4) :
    close bytes ⟨before.length, before.length + piece.length, octets⟩
      = match octetOf chars with
        | .ok octet => .ok (.next ⟨before.length + piece.length + 1,
            before.length + piece.length + 1, octets ++ [octet]⟩)
        | .error error => .ok (.reject error) := by
  have hsize : before.length + piece.length ≤ bytes.size := by
    have : bytes.size = bytes.data.toList.length := by simp
    rw [this, hb, List.length_append, List.length_append]
    omega
  have hcut : cut bytes before.length (before.length + piece.length) = .ok chars.utf8Encode := by
    rw [cut_eq_ok (Nat.le_add_right _ _) hsize]
    refine congrArg Except.ok (utf8Encode_eq ?_)
    rw [ByteArray.data_extract, Array.toList_extract, hb, ← hp]
    simp [List.extract]
  rcases o : octetOf? chars with - | octet
  · simp [close, hcut, octet?_utf8Encode, octetOf, o, decode_utf8Encode, bind, Except.bind, pure,
      Except.pure]
  · simp [close, hcut, octet?_utf8Encode, octetOf, o, store, hs, bind, Except.bind, pure,
      Except.pure]

/-- The moves from the middle of a piece on read this piece and those after it. -/
theorem run_eq {before piece after : List UInt8} {pieces : List (List Char)} {octets : List UInt8}
    (hb : bytes.data.toList = before ++ piece ++ after) (hdot : dot ∉ piece)
    (hp : (piece ++ after).splitOn dot = pieces.map utf8Bytes)
    (hs : octets.length + pieces.length = 4) :
    run bytes ⟨before.length, before.length + piece.length, octets⟩
      = finishWith octets (pieces.mapM octetOf) := by
  have hsize : bytes.size = before.length + piece.length + after.length := by
    have : bytes.size = bytes.data.toList.length := by simp
    rw [this, hb, List.length_append, List.length_append]
  induction after generalizing before piece pieces octets with
  | nil =>
    rw [List.append_nil, List.splitOn_eq_singleton hdot] at hp
    obtain ⟨chars, rfl⟩ : ∃ chars, pieces = [chars] := by
      rcases pieces with - | ⟨chars, - | ⟨_, _⟩⟩ <;> simp_all
    have hpiece : piece = utf8Bytes chars := by simpa using hp
    have hlen : octets.length < 4 := by
      simp only [List.length_singleton] at hs
      omega
    have hstep := (step_of_size hsize.symm).trans (close_eq hb hpiece hlen)
    rcases o : octetOf chars with error | octet
    · rw [o] at hstep
      rw [run_of_reject (Nat.le_of_eq hsize.symm) hstep]
      simp [o, bind, Except.bind, finishWith]
    · rw [o] at hstep
      rw [run_of_next (Nat.le_of_eq hsize.symm) hstep, run_of_size_lt (by simp [hsize])]
      simp [o, bind, Except.bind, pure, Except.pure, finish, finishWith]
  | cons byte after ih =>
    have hread : readAt bytes (before.length + piece.length) = .ok byte := by
      apply readAt_eq_ok
      rw [hb, ← List.length_append, List.drop_left]
    have hpos : before.length + piece.length < bytes.size := by
      rw [hsize, List.length_cons]
      omega
    by_cases hbyte : byte = dot
    · -- a dot closes the piece
      subst hbyte
      rw [List.splitOn_append_cons_self_of_not_mem hdot] at hp
      rcases pieces with - | ⟨chars, pieces⟩
      · contradiction
      obtain ⟨hpiece, hrest⟩ := List.cons.inj hp
      have hlen : octets.length < 4 := by
        rw [List.length_cons] at hs
        omega
      have hstep := (step_of_dot hpos hread).trans (close_eq hb hpiece hlen)
      rcases o : octetOf chars with error | octet
      · rw [o] at hstep
        rw [run_of_reject (Nat.le_of_lt hpos) hstep]
        simp [o, bind, Except.bind, finishWith]
      · rw [o] at hstep
        rw [run_of_next (Nat.le_of_lt hpos) hstep]
        have := @ih (before ++ piece ++ [dot]) [] pieces (octets ++ [octet]) (by simp [hb])
          List.not_mem_nil hrest (by simp at hs ⊢; omega) (by simp [hsize]; omega)
        simp only [List.length_append, List.length_singleton, List.length_nil, Nat.add_zero] at this
        rw [this, List.mapM_cons, o]
        rcases pieces.mapM octetOf with error | rest <;>
          simp [bind, Except.bind, pure, Except.pure, finishWith]
    · -- any other byte belongs to the piece
      rw [run_of_next (Nat.le_of_lt hpos) (step_of_ne_dot hpos hread hbyte)]
      have := @ih before (piece ++ [byte]) pieces octets (by simp [hb])
        (by simpa using ⟨hdot, Ne.symm hbyte⟩) (by simpa using hp) hs (by simp [hsize]; omega)
      simpa [Nat.add_assoc] using this

end Scan

/-! ### Reading a text -/

/-- The scan of a text never faults, and answers what the grammar answers. -/
theorem scan_eq (text : String) : scan text.toUTF8 = .ok (ofText text) := by
  have hbytes : text.toUTF8.data.toList = utf8Bytes text.toList := by
    rw [toUTF8_eq, toList_data_utf8Encode]
  have hsplit : (utf8Bytes text.toList).splitOn dot
      = (text.toList.splitOn '.').map utf8Bytes := splitOn_utf8Bytes (by decide) _
  have hdots : count text.toUTF8 dot = .ok (text.toList.count '.') := by
    rw [count_eq_ok, hbytes]
    exact congrArg _ (count_asciiByte (by decide) _)
  have hlength := length_splitOn '.' text.toList
  by_cases hempty : text = ""
  · subst hempty
    rfl
  · have hscan : scan text.toUTF8 = if text.toList.count '.' + 1 ≠ 4
        then .ok (.error (.componentCount (text.toList.count '.' + 1)))
        else Scan.run text.toUTF8 .begin := by
      rw [scan, if_neg (mt size_toUTF8_eq_zero.1 hempty), hdots]
      rfl
    rw [hscan, ofText, if_neg hempty, ← hlength]
    by_cases hfour : (text.toList.splitOn '.').length = 4
    · rw [if_neg (not_not_intro hfour)]
      have hrun := @Scan.run_eq text.toUTF8 [] [] (utf8Bytes text.toList)
        (text.toList.splitOn '.') [] hbytes List.not_mem_nil hsplit (by simp [hfour])
      exact hrun.trans (finishWith_mapM hfour)
    · rw [if_pos hfour, ofPieces_of_length_ne hfour]

/-- Reads an address from its dotted quad, with any number of leading zeros in its octets. -/
def read (text : String) : Except AddressError Address :=
  match h : scan text.toUTF8 with
  | .ok result => result
  | .error fault => absurd ((scan_eq text).symm.trans h) (by simp)

/-- Reading follows the grammar. -/
theorem read_eq (text : String) : read text = ofText text := by
  unfold read
  split
  · rename_i h
    exact Except.ok.inj (h.symm.trans (scan_eq text))
  · rename_i h
    exact absurd ((scan_eq text).symm.trans h) (by simp)

end Inet.Address
