/-
Inet/Proofs/Text/Rounds.lean

Loops over the bytes of a text.

A loop visits the bytes one after the other and keeps a state: how often a
byte was found, the number that was read so far, or nothing at all.  `round`
is one round of it.  Wherever a loop stands, its position is one of the text
or just past it, and its state is what the bytes before the position give:

    (bytes.take pos).foldlM f init  =  some state

(`foldlM_take_of_reaches`).  Counting a byte, looking for one and reading a
decimal number are loops of this kind.  The first and the last end with the
text (`foldlM_eq_some_iff`).  The search does not look where the text ends;
what stops it is the byte that it looks for (`le_of_reaches_search`).

The accesses that a round makes can go wrong; what follows of an access that
does not is shown first.
-/
import Inet.Text.Bytes
import Inet.Text.Decimal
import Mathlib.Computability.StateTransition

namespace Inet.Text

open StateTransition (Reaches)

variable {σ : Type} {bytes : ByteArray} {byte : UInt8} {pos : Nat}

theorem lt_size_of_readAt (h : readAt bytes pos = .ok byte) : pos < bytes.size := by
  unfold readAt at h
  split at h
  · assumption
  · contradiction

theorem map_eq_ok_iff {α β : Type} {x : Except Fault α} {f : α → β} {y : β} :
    x.map f = .ok y ↔ ∃ value, x = .ok value ∧ f value = y := by
  cases x <;> simp [Except.map]

theorem map_eq_error_iff {α β : Type} {x : Except Fault α} {f : α → β} {fault : Fault} :
    x.map f = .error fault ↔ x = .error fault := by
  cases x <;> simp [Except.map]

theorem readAt_ne_encoding : readAt bytes pos ≠ .error .encoding := by
  unfold readAt
  split <;> simp

theorem cut_ne_encoding {start stop : Nat} : cut bytes start stop ≠ .error .encoding := by
  unfold cut
  split <;> simp

theorem drop_of_readAt (h : readAt bytes pos = .ok byte) :
    bytes.data.toList.drop pos = byte :: bytes.data.toList.drop (pos + 1) := by
  have hlt : pos < bytes.data.toList.length := by simpa using lt_size_of_readAt h
  rw [List.drop_eq_getElem_cons hlt]
  have hread := readAt_eq_ok (List.drop_eq_getElem_cons hlt)
  rw [h] at hread
  rw [Except.ok.inj hread]

theorem take_succ_of_readAt (h : readAt bytes pos = .ok byte) :
    bytes.data.toList.take (pos + 1) = bytes.data.toList.take pos ++ [byte] := by
  rw [List.take_add, drop_of_readAt h]
  rfl

theorem exists_readAt (h : pos < bytes.size) : ∃ byte, readAt bytes pos = .ok byte :=
  ⟨bytes[pos], by simp [readAt, h]⟩

theorem count_of_eq_ok {n : Nat} (h : count bytes byte = .ok n) :
    bytes.data.toList.count byte = n := by
  rw [count_eq_ok] at h
  exact Except.ok.inj h

theorem size_ne_zero_of_count {n : Nat} (h : count bytes byte = .ok (n + 1)) : bytes.size ≠ 0 := by
  intro hzero
  have hcount := count_of_eq_ok h
  rw [ByteArray.size_eq_zero_iff.1 hzero] at hcount
  exact Nat.succ_ne_zero n hcount.symm

/-! ### One round, any number of rounds -/

/-- One round of a loop: it reads the byte at its position and brings its state up to date, or
ends there. -/
def round (bytes : ByteArray) (f : σ → UInt8 → Option σ) : Nat × σ → Option (Nat × σ)
  | (pos, state) =>
    match readAt bytes pos with
    | .ok byte => (f state byte).map fun state' => (pos + 1, state')
    | .error _ => none

variable {f : σ → UInt8 → Option σ} {init : σ} {s s' : Nat × σ}

/-- All that a round does. -/
theorem round_eq_some (h : round bytes f s = some s') :
    ∃ byte, readAt bytes s.1 = .ok byte ∧ f s.2 byte = some s'.2 ∧ s'.1 = s.1 + 1 := by
  obtain ⟨pos, state⟩ := s
  rcases hread : readAt bytes pos with fault | byte
  · simp [round, hread] at h
  · rw [round, hread] at h
    obtain ⟨state', hstate, rfl⟩ := Option.map_eq_some_iff.1 h
    exact ⟨byte, rfl, hstate, rfl⟩

/-- A loop stands in the text or just past it. -/
theorem le_size_of_reaches (h : Reaches (round bytes f) (0, init) s) : s.1 ≤ bytes.size := by
  induction h with
  | refl => exact Nat.zero_le _
  | tail _ hround =>
    obtain ⟨byte, hread, -, hpos⟩ := round_eq_some hround
    rw [hpos]
    exact lt_size_of_readAt hread

/-- The state of a loop is what the bytes that it has visited give. -/
theorem foldlM_take_of_reaches (h : Reaches (round bytes f) (0, init) s) :
    (bytes.data.toList.take s.1).foldlM f init = some s.2 := by
  induction h with
  | refl => rfl
  | @tail s s' _ hround ih =>
    obtain ⟨byte, hread, hstate, hpos⟩ := round_eq_some hround
    rw [hpos, take_succ_of_readAt hread, List.foldlM_append, ih]
    simpa using hstate

/-- A loop reaches a position exactly if the fold over the bytes before it goes through. -/
theorem foldlM_take_eq_some_iff (hpos : pos ≤ bytes.size) {state : σ} :
    (bytes.data.toList.take pos).foldlM f init = some state
      ↔ Reaches (round bytes f) (0, init) (pos, state) := by
  refine ⟨fun h => ?_, foldlM_take_of_reaches⟩
  -- along the positions: a fold over a longer prefix goes through that over a shorter one
  induction pos generalizing state with
  | zero =>
    obtain rfl := Option.some.inj h
    exact .refl
  | succ pos ih =>
    obtain ⟨byte, hread⟩ := exists_readAt hpos
    rw [take_succ_of_readAt hread, List.foldlM_append] at h
    obtain ⟨state', hstate', hbyte⟩ := Option.bind_eq_some_iff.1 h
    have hbyte' : f state' byte = some state := by simpa using hbyte
    refine (ih (Nat.le_of_lt hpos) hstate').tail ?_
    simp [round, hread, hbyte']

/-- A loop that runs to the end of the text is the fold over its bytes. -/
theorem foldlM_eq_some_iff {state : σ} :
    bytes.data.toList.foldlM f init = some state
      ↔ Reaches (round bytes f) (0, init) (bytes.size, state) := by
  rw [← foldlM_take_eq_some_iff (Nat.le_refl _), List.take_of_length_le (by simp)]

/-! ### Counting a byte -/

/-- Counts a byte. -/
def tally (byte : UInt8) (found : Nat) (here : UInt8) : Option Nat :=
  some (found + (here == byte).toNat)

/-- The loop passes through the recursive calls of the count. -/
theorem countFrom_of_reaches {s : Nat × Nat}
    (h : Reaches (round bytes (tally byte)) (0, 0) s) :
    countFrom bytes byte s.1 s.2 = count bytes byte := by
  induction h with
  | refl => rfl
  | @tail s s' _ hround ih =>
    obtain ⟨here, hread, hstate, hpos⟩ := round_eq_some hround
    rw [← ih, hpos, ← Option.some.inj hstate, countFrom.eq_def bytes byte s.1,
      if_pos (lt_size_of_readAt hread), hread]
    rfl

/-- Counting is such a loop, and it ends with the text. -/
theorem count_eq_ok_iff {n : Nat} :
    count bytes byte = .ok n ↔ Reaches (round bytes (tally byte)) (0, 0) (bytes.size, n) := by
  -- the count has one answer, so that it is enough to show that the loop reaches some end
  have himp : ∀ {n}, Reaches (round bytes (tally byte)) (0, 0) (bytes.size, n) →
      count bytes byte = .ok n := by
    intro n h
    rw [← countFrom_of_reaches h, countFrom, if_neg (Nat.lt_irrefl _)]
  refine ⟨fun h => ?_, himp⟩
  obtain ⟨m, hm⟩ : ∃ m, bytes.data.toList.foldlM (tally byte) 0 = some m :=
    ⟨_, List.foldlM_pure⟩
  have hreach := foldlM_eq_some_iff.1 hm
  rw [himp hreach] at h
  obtain rfl := Except.ok.inj h
  exact hreach

/-- No more is found than was visited. -/
theorem found_le_of_reaches {s : Nat × Nat}
    (h : Reaches (round bytes (tally byte)) (0, 0) s) : s.2 ≤ s.1 := by
  induction h with
  | refl => exact Nat.le_refl _
  | @tail s s' _ hround ih =>
    obtain ⟨here, -, hstate, hpos⟩ := round_eq_some hround
    rw [hpos, ← Option.some.inj hstate]
    exact Nat.add_le_add ih (Bool.toNat_le _)

/-! ### Looking for a byte -/

/-- Passes over all bytes but one. -/
def search (byte : UInt8) (_ : Unit) (here : UInt8) : Option Unit :=
  if here = byte then none else some ()

/-- The loop passes through the recursive calls of the search. -/
theorem findFrom_of_reaches {s : Nat × Unit}
    (h : Reaches (round bytes (search byte)) (0, ()) s) :
    findFrom bytes byte s.1 = find bytes byte := by
  induction h with
  | refl => rfl
  | @tail s s' _ hround ih =>
    obtain ⟨here, hread, hstate, hpos⟩ := round_eq_some hround
    have hne : here ≠ byte := by
      rintro rfl
      simp [search] at hstate
    rw [← ih, hpos, findFrom.eq_def bytes byte s.1, hread]
    exact (if_neg hne).symm

theorem reaches_of_findFrom {stop : Nat} (h : findFrom bytes byte pos = .ok stop) :
    pos ≤ stop ∧ Reaches (round bytes (search byte)) (pos, ()) (stop, ())
      ∧ readAt bytes stop = .ok byte := by
  fun_induction findFrom bytes byte pos with
  | case1 => contradiction
  | case2 pos hread =>
    obtain rfl := Except.ok.inj h
    exact ⟨Nat.le_refl _, .refl, hread⟩
  | case3 pos here hread hhere ih =>
    obtain ⟨hle, hreach, hstop⟩ := ih h
    refine ⟨Nat.le_of_succ_le hle, hreach.head ?_, hstop⟩
    simp [round, hread, search, hhere]

/-- Looking for a byte is such a loop, and it ends where the byte stands. -/
theorem find_eq_ok_iff :
    find bytes byte = .ok pos
      ↔ Reaches (round bytes (search byte)) (0, ()) (pos, ()) ∧ readAt bytes pos = .ok byte := by
  constructor
  · intro h
    exact (reaches_of_findFrom h).2
  · rintro ⟨hreach, hread⟩
    rw [← findFrom_of_reaches hreach, findFrom, hread]
    exact if_pos rfl

/-- The search goes no further than to what it finds. -/
theorem le_of_reaches_search {stop : Nat} (hfind : find bytes byte = .ok stop) {s : Nat × Unit}
    (h : Reaches (round bytes (search byte)) (0, ()) s) : s.1 ≤ stop := by
  rw [← findFrom_of_reaches h] at hfind
  exact (reaches_of_findFrom hfind).1

/-! ### Reading a number -/

open Decimal (push? readFrom read?)

/-- The loop passes through the recursive calls of the reading. -/
theorem readFrom_of_reaches {s : Nat × UInt32} (h : Reaches (round bytes push?) (0, 0) s) :
    readFrom bytes s.1 s.2 = readFrom bytes 0 0 := by
  induction h with
  | refl => rfl
  | @tail s s' _ hround ih =>
    obtain ⟨byte, hread, hstate, hpos⟩ := round_eq_some hround
    rw [← ih, hpos, readFrom.eq_def bytes s.1, if_pos (lt_size_of_readAt hread), hread]
    simp [hstate, bind, Except.bind]

/-- What is left of the reading in a state that it goes through are the rounds from there on. -/
theorem read?_eq_readFrom {s : Nat × UInt32} (hsize : bytes.size ≠ 0)
    (h : Reaches (round bytes push?) (0, 0) s) : read? bytes = readFrom bytes s.1 s.2 := by
  rw [readFrom_of_reaches h, read?, if_neg hsize]

/-- Reading a number is such a loop, and it ends with the bytes that are read. -/
theorem read?_eq_some_iff {n : UInt32} :
    read? bytes = .ok (some n)
      ↔ bytes.size ≠ 0 ∧ Reaches (round bytes push?) (0, 0) (bytes.size, n) := by
  rw [← foldlM_eq_some_iff]
  by_cases hsize : bytes.size = 0
  · simp [read?, hsize]
  · rw [Decimal.read?_of_size_ne_zero hsize, Except.ok.injEq, and_iff_right hsize]

end Inet.Text
