/-
Inet/Address/Scan.lean

Reading a dotted quad in one pass over the bytes of a text.

The pieces of the text are what stands between its dots.  Their number is
settled first, by counting dots.  Then one pass visits the bytes in order and
never builds the pieces: it remembers where the present piece began (`start`),
where it is (`pos`) and the octets of the pieces that it has closed.  A piece
is closed by a dot and by the end of the text.

`Scan.step` is one move of that pass, `Scan.run` the moves up to an answer.
All accesses are checked ones, so a scan ends in a `Text.Fault` if any of them
goes wrong; that none does is shown where the reader is put together.
-/
import Inet.Address.Basic
import Inet.Text.Bytes
import Inet.Text.Decimal

namespace Inet

/-- Why a text is no dotted quad. -/
inductive AddressError where
  /-- The text is empty. -/
  | missing
  /-- The dots separate `found` pieces, not four. -/
  | componentCount (found : Nat)
  /-- The piece `part` is no decimal number from 0 to 255. -/
  | component (part : String)
  deriving Repr, DecidableEq

def AddressError.message : AddressError → String
  | missing => "invalid address string"
  | componentCount _ => "invalid address string"
  | component part => "invalid address part: " ++ part

namespace Address

open Text

/-- The byte between the pieces of a dotted quad. -/
def dot : UInt8 := asciiByte '.'

/-- The octet that the bytes of a piece spell in decimal. -/
def octet? (piece : ByteArray) : Except Fault (Option UInt8) := do
  match ← Decimal.read? piece with
  | some value => return if value ≤ 255 then some value.toUInt8 else none
  | none => return none

theorem octet?_eq_ok {piece : ByteArray} {value? : Option UInt32}
    (h : Decimal.read? piece = .ok value?) :
    octet? piece
      = .ok (value?.bind fun value => if value ≤ 255 then some value.toUInt8 else none) := by
  rw [octet?, h]
  cases value? <;> rfl

theorem exists_octet? (piece : ByteArray) : ∃ octet, octet? piece = .ok octet := by
  obtain ⟨value?, h⟩ := Decimal.exists_read? piece
  exact ⟨_, octet?_eq_ok h⟩

/-- Where the pass over the bytes stands. -/
structure Scan where
  /-- The position at which the present piece begins. -/
  start : Nat
  /-- The position of the byte that is looked at next. -/
  pos : Nat
  /-- The octets of the pieces before `start`. -/
  octets : List UInt8
  deriving Repr, DecidableEq

namespace Scan

/-- What one move leads to. -/
inductive Move where
  /-- The pass goes on from `scan`. -/
  | next (scan : Scan)
  /-- The piece that was closed is no octet. -/
  | reject (error : AddressError)

def begin : Scan := ⟨0, 0, []⟩

/-- Stores an octet in the first free one of the four slots of an address. -/
def store (octets : List UInt8) (octet : UInt8) : Except Fault (List UInt8) :=
  if octets.length < 4 then .ok (octets ++ [octet]) else .error (.slot octets.length)

/-- Closes the piece that ends before `pos` and steps over `pos`. -/
def close (bytes : ByteArray) (scan : Scan) : Except Fault Move := do
  let piece ← cut bytes scan.start scan.pos
  match ← octet? piece with
  | some octet =>
    let octets ← store scan.octets octet
    return .next ⟨scan.pos + 1, scan.pos + 1, octets⟩
  | none =>
    let part ← decode piece
    return .reject (.component part)

/-- One move.  The end of the text closes a piece just as a dot does. -/
def step (bytes : ByteArray) (scan : Scan) : Except Fault Move :=
  if scan.pos = bytes.size then close bytes scan
  else do
    let byte ← readAt bytes scan.pos
    if byte = dot then close bytes scan
    else return .next { scan with pos := scan.pos + 1 }

/-- The address, once all four slots are filled. -/
def finish (scan : Scan) : Except Fault Address :=
  match scan.octets with
  | [a, b, c, d] => .ok ⟨a, b, c, d⟩
  | octets => .error (.unset octets.length)

theorem step_of_size {bytes : ByteArray} {scan : Scan} (h : scan.pos = bytes.size) :
    step bytes scan = close bytes scan :=
  if_pos h

theorem step_of_dot {bytes : ByteArray} {scan : Scan} (hpos : scan.pos < bytes.size)
    (h : readAt bytes scan.pos = .ok dot) : step bytes scan = close bytes scan := by
  rw [step, if_neg (Nat.ne_of_lt hpos), h]
  rfl

theorem step_of_ne_dot {bytes : ByteArray} {scan : Scan} {byte : UInt8}
    (hpos : scan.pos < bytes.size) (h : readAt bytes scan.pos = .ok byte) (hbyte : byte ≠ dot) :
    step bytes scan = .ok (.next { scan with pos := scan.pos + 1 }) := by
  rw [step, if_neg (Nat.ne_of_lt hpos), h]
  exact if_neg hbyte

/-- The present piece ends where the pass stands: at a dot, or at the end of the text. -/
def Closes (bytes : ByteArray) (scan : Scan) : Prop :=
  scan.pos = bytes.size ∨ readAt bytes scan.pos = .ok dot

/-- All that closing a piece does, where the pass goes on. -/
theorem close_eq_next {bytes : ByteArray} {scan scan' : Scan}
    (h : close bytes scan = .ok (.next scan')) :
    ∃ piece octet, cut bytes scan.start scan.pos = .ok piece ∧ octet? piece = .ok (some octet)
      ∧ scan.octets.length < 4
      ∧ scan' = ⟨scan.pos + 1, scan.pos + 1, scan.octets ++ [octet]⟩ := by
  rcases e : cut bytes scan.start scan.pos with fault | piece
  · simp [close, e, bind, Except.bind] at h
  · rcases o : octet? piece with fault | - | octet
    · simp [close, e, o, bind, Except.bind] at h
    · rcases t : decode piece with fault | part <;>
        simp [close, e, o, t, bind, Except.bind, pure, Except.pure] at h
    · by_cases hslot : scan.octets.length < 4
      · refine ⟨piece, octet, rfl, o, hslot, ?_⟩
        simpa [close, e, o, store, hslot, bind, Except.bind, pure, Except.pure] using h.symm
      · simp [close, e, o, store, hslot, bind, Except.bind] at h

/-- All that a move does, where the pass goes on: it stays in the piece or closes it. -/
theorem step_eq_next {bytes : ByteArray} {scan scan' : Scan}
    (h : step bytes scan = .ok (.next scan')) :
    (∃ byte, readAt bytes scan.pos = .ok byte ∧ byte ≠ dot
      ∧ scan' = { scan with pos := scan.pos + 1 })
    ∨ Closes bytes scan ∧ close bytes scan = .ok (.next scan') := by
  by_cases hend : scan.pos = bytes.size
  · exact .inr ⟨.inl hend, by simpa [step, hend] using h⟩
  · rcases e : readAt bytes scan.pos with fault | byte
    · simp [step, hend, e, bind, Except.bind] at h
    · by_cases hdot : byte = dot
      · exact .inr ⟨.inr (hdot ▸ e), by simpa [step, hend, e, hdot, bind, Except.bind] using h⟩
      · refine .inl ⟨byte, rfl, hdot, ?_⟩
        simpa [step, hend, e, hdot, bind, Except.bind, pure, Except.pure] using h.symm

/-- A move goes on by one byte. -/
theorem pos_of_step {bytes : ByteArray} {scan scan' : Scan}
    (h : step bytes scan = .ok (.next scan')) : scan'.pos = scan.pos + 1 := by
  rcases step_eq_next h with ⟨byte, -, -, rfl⟩ | ⟨-, hclose⟩
  · rfl
  · obtain ⟨piece, octet, -, -, -, rfl⟩ := close_eq_next hclose
    rfl

/-- All moves from `scan` on. -/
def run (bytes : ByteArray) (scan : Scan) : Except Fault (Except AddressError Address) :=
  if scan.pos ≤ bytes.size then
    match _h : step bytes scan with
    | .ok (.next scan') => run bytes scan'
    | .ok (.reject error) => .ok (.error error)
    | .error fault => .error fault
  else .ok <$> finish scan
termination_by bytes.size + 1 - scan.pos
decreasing_by
  have := pos_of_step _h
  omega

theorem run_of_next {bytes : ByteArray} {scan scan' : Scan} (hpos : scan.pos ≤ bytes.size)
    (h : step bytes scan = .ok (.next scan')) : run bytes scan = run bytes scan' := by
  rw [run, if_pos hpos]
  split <;> simp_all

theorem run_of_reject {bytes : ByteArray} {scan : Scan} {error : AddressError}
    (hpos : scan.pos ≤ bytes.size) (h : step bytes scan = .ok (.reject error)) :
    run bytes scan = .ok (.error error) := by
  rw [run, if_pos hpos]
  split <;> simp_all

theorem run_of_size_lt {bytes : ByteArray} {scan : Scan} (hpos : bytes.size < scan.pos) :
    run bytes scan = .ok <$> finish scan := by
  rw [run, if_neg (Nat.not_le_of_lt hpos)]

end Scan

/-- The address whose dotted quad the bytes spell. -/
def scan (bytes : ByteArray) : Except Fault (Except AddressError Address) := do
  if bytes.size = 0 then
    return .error .missing
  let dots ← count bytes dot
  if dots + 1 ≠ 4 then
    return .error (.componentCount (dots + 1))
  Scan.run bytes .begin

end Address

end Inet
