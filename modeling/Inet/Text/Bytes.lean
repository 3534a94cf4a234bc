/-
Inet/Text/Bytes.lean

Checked access to the bytes of a text.  Everything that reaches into a byte
array by position goes through this file, and every way in which such an
access can go wrong is a `Fault`, so that "no access goes wrong" is a
statement about a computation: it does not end in `Except.error`.

The operations are `readAt` (one byte), `cut` (the bytes between two
positions), `decode` (the text that bytes spell in UTF-8), `count` (how often
a byte occurs) and `find` (where a byte first occurs).  A small lemma beside
each says what it returns where it returns.
-/

namespace Inet.Text

/-- A way in which an access by position goes wrong. -/
inductive Fault where
  /-- A byte is read at `pos`, outside of `size` bytes. -/
  | read (pos size : Nat)
  /-- The bytes from `start` to `stop` are cut out of `size` bytes that do not reach so far, or
  the positions are in the wrong order. -/
  | cut (start stop size : Nat)
  /-- Bytes are taken for UTF-8 and are not. -/
  | encoding
  /-- A value is stored in slot `index` of an array that is shorter. -/
  | slot (index : Nat)
  /-- An array of slots is used while slot `index` was never stored to. -/
  | unset (index : Nat)
  deriving Repr, DecidableEq

/-! ### One byte, several bytes -/

/-- The byte at `pos`. -/
def readAt (bytes : ByteArray) (pos : Nat) : Except Fault UInt8 :=
  if h : pos < bytes.size then .ok bytes[pos] else .error (.read pos bytes.size)

/-- The bytes from `start` up to `stop`, which is not included. -/
def cut (bytes : ByteArray) (start stop : Nat) : Except Fault ByteArray :=
  if start ≤ stop ∧ stop ≤ bytes.size then .ok (bytes.extract start stop)
  else .error (.cut start stop bytes.size)

/-- The text whose UTF-8 encoding the bytes are. -/
def decode (bytes : ByteArray) : Except Fault String :=
  match String.fromUTF8? bytes with
  | some text => .ok text
  | none => .error .encoding

/-! ### Occurrences of one byte -/

/-- How often `byte` occurs from `pos` on, added to `found`. -/
def countFrom (bytes : ByteArray) (byte : UInt8) (pos found : Nat) : Except Fault Nat :=
  if pos < bytes.size then do
    let here ← readAt bytes pos
    countFrom bytes byte (pos + 1) (found + (here == byte).toNat)
  else .ok found
termination_by bytes.size - pos

/-- How often `byte` occurs. -/
def count (bytes : ByteArray) (byte : UInt8) : Except Fault Nat :=
  countFrom bytes byte 0 0

/-- The first position from `pos` on at which `byte` stands.  The search does not look at the
size: where there is none it runs into the end and faults there. -/
def findFrom (bytes : ByteArray) (byte : UInt8) (pos : Nat) : Except Fault Nat :=
  match h : readAt bytes pos with
  | .error fault => .error fault
  | .ok here => if here = byte then .ok pos else findFrom bytes byte (pos + 1)
termination_by bytes.size - pos
decreasing_by
  unfold readAt at h
  split at h
  · omega
  · contradiction

/-- The first position at which `byte` stands. -/
def find (bytes : ByteArray) (byte : UInt8) : Except Fault Nat :=
  findFrom bytes byte 0

/-! ### What the operations return

The bytes of an array are looked at as the list `bytes.data.toList`. -/

variable {bytes : ByteArray} {byte : UInt8}

theorem readAt_eq_ok {pos : Nat} {rest : List UInt8}
    (h : bytes.data.toList.drop pos = byte :: rest) : readAt bytes pos = .ok byte := by
  have hlt : pos < bytes.data.toList.length := by
    apply Nat.lt_of_not_le
    intro hle
    rw [List.drop_eq_nil_of_le hle] at h
    contradiction
  rw [List.drop_eq_getElem_cons hlt] at h
  have hsize : pos < bytes.size := by simpa using hlt
  simp only [readAt, hsize, ↓reduceDIte]
  rw [← (List.cons.inj h).1]
  rfl

theorem cut_eq_ok {start stop : Nat} (h₁ : start ≤ stop) (h₂ : stop ≤ bytes.size) :
    cut bytes start stop = .ok (bytes.extract start stop) := by
  simp [cut, h₁, h₂]

theorem countFrom_eq_ok (pos found : Nat) :
    countFrom bytes byte pos found
      = .ok (found + (bytes.data.toList.drop pos).count byte) := by
  fun_induction countFrom bytes byte pos found with
  | case1 pos found h ih =>
    have hlt : pos < bytes.data.toList.length := by simpa using h
    rw [readAt_eq_ok (List.drop_eq_getElem_cons hlt)]
    refine (ih _).trans ?_
    rw [List.drop_eq_getElem_cons hlt, List.count_cons]
    cases bytes.data.toList[pos] == byte <;> simp [Nat.add_assoc, Nat.add_comm 1]
  | case2 pos found h =>
    rw [List.drop_eq_nil_of_le (by simpa using Nat.le_of_not_lt h)]
    rfl

/-- Counting is the count in the list of bytes. -/
theorem count_eq_ok : count bytes byte = .ok (bytes.data.toList.count byte) := by
  simp [count, countFrom_eq_ok]

/-- The search ends at the first occurrence. -/
theorem findFrom_eq_ok {pos : Nat} {before after : List UInt8} (hb : byte ∉ before)
    (h : bytes.data.toList.drop pos = before ++ byte :: after) :
    findFrom bytes byte pos = .ok (pos + before.length) := by
  induction before generalizing pos with
  | nil =>
    rw [findFrom, readAt_eq_ok (by simpa using h)]
    simp
  | cons b before ih =>
    have hne : b ≠ byte := fun e => hb (by simp [e])
    have htail : bytes.data.toList.drop (pos + 1) = before ++ byte :: after := by
      rw [← List.drop_drop, h]
      rfl
    rw [findFrom, readAt_eq_ok h]
    simp only [hne, ↓reduceIte]
    rw [ih (fun hm => hb (List.mem_cons_of_mem _ hm)) htail]
    simp only [List.length_cons]
    congr 1
    omega

/-- The text that a valid encoding spells. -/
theorem decode_utf8Encode (chars : List Char) :
    decode chars.utf8Encode = .ok (String.ofList chars) := by
  have h : chars.utf8Encode.IsValidUTF8 := ByteArray.isValidUTF8_utf8Encode
  simp [decode, String.fromUTF8?, h, String.fromUTF8, String.ofList]

end Inet.Text
