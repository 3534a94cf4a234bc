/-
Inet/Proofs/Address/Pass.lean

The states that the scan of a dotted quad goes through.

The pass over the bytes stands in a piece, or it is past the end of the text
(`Stands`):

    bytes  =  before ++ piece ++ after        start at the end of `before`,
                                              pos at the end of `piece`,

where `before` is empty or ends with a dot, `piece` has no dot, and there is
one octet for each dot of `before`.  A move keeps this (`Stands.next`), so it
holds of every state that is reached.  A piece that is closed and is no octet
ends the pass, which then comes down to quoting it (`Scan.Quotes.run_eq`).

Of the bytes of a text it follows that a piece which is closed spells what
stands between two dots (`spells_of_decodes`), and that nothing goes wrong on
the way (`inBounds_of_visits`): there are as many octets as dots before the
position, and the dots have been counted.
-/
import Inet.Address.Reader
import Inet.Proofs.Text.Rounds
import Inet.Proofs.Text.Slices

namespace Inet.Address

open Text
open StateTransition (Reaches)

namespace Scan

variable {bytes : ByteArray} {s s' : Scan}

/-! ### The pass as a transition system -/

/-- The state after one more move, as long as the pass goes on. -/
def next? (bytes : ByteArray) (s : Scan) : Option Scan :=
  if s.pos ≤ bytes.size then
    match step bytes s with
    | .ok (.next s') => some s'
    | _ => none
  else none

theorem next?_eq_some_iff :
    next? bytes s = some s' ↔ s.pos ≤ bytes.size ∧ step bytes s = .ok (.next s') := by
  unfold next?
  by_cases hpos : s.pos ≤ bytes.size
  · rcases h : step bytes s with fault | ⟨s'' | error⟩ <;> simp [hpos]
  · simp [hpos]

/-- The run passes through the states that it reaches. -/
theorem run_of_reaches (h : Reaches (next? bytes) s s') : run bytes s = run bytes s' := by
  induction h with
  | refl => rfl
  | tail _ hnext ih =>
    obtain ⟨hpos, hstep⟩ := next?_eq_some_iff.1 hnext
    rw [ih, run_of_next hpos hstep]

theorem run_of_fault {fault : Fault} (hpos : s.pos ≤ bytes.size)
    (h : step bytes s = .error fault) : run bytes s = .error fault := by
  rw [run, if_pos hpos]
  split <;> simp_all

theorem Closes.pos_le (h : Closes bytes s) : s.pos ≤ bytes.size := by
  rcases h with hend | hread
  · exact Nat.le_of_eq hend
  · exact Nat.le_of_lt (lt_size_of_readAt hread)

theorem Closes.step_eq (h : Closes bytes s) : step bytes s = close bytes s := by
  rcases h with hend | hread
  · exact step_of_size hend
  · exact step_of_dot (lt_size_of_readAt hread) hread

/-! ### Where the pass stands -/

/-- The pass is in a piece, or past the end of the text.  It has one octet for each dot behind
it, and one more at the end. -/
inductive Stands (bytes : ByteArray) : Scan → Prop where
  | inside {before piece after octets : List UInt8} :
      bytes.data.toList = before ++ piece ++ after →
      (before = [] ∨ ∃ rest, before = rest ++ [dot]) → dot ∉ piece →
      octets.length = before.count dot →
      Stands bytes ⟨before.length, before.length + piece.length, octets⟩
  | past {octets : List UInt8} :
      octets.length = bytes.data.toList.count dot + 1 →
      Stands bytes ⟨bytes.size + 1, bytes.size + 1, octets⟩

theorem stands_begin (bytes : ByteArray) : Stands bytes .begin :=
  @Stands.inside bytes [] [] bytes.data.toList [] rfl (.inl rfl) List.not_mem_nil rfl

section Inside

variable {before piece after octets : List UInt8}

theorem size_eq (h : bytes.data.toList = before ++ piece ++ after) :
    bytes.size = before.length + piece.length + after.length := by
  have hsize : bytes.size = bytes.data.toList.length := by simp
  rw [hsize, h, List.length_append, List.length_append]

/-- What is read at the end of the piece is the first byte behind it. -/
theorem after_of_readAt {byte : UInt8} (h : bytes.data.toList = before ++ piece ++ after)
    (hread : readAt bytes (before.length + piece.length) = .ok byte) :
    ∃ rest, after = byte :: rest := by
  have hdrop := drop_of_readAt hread
  rw [h, ← List.length_append, List.drop_left] at hdrop
  exact ⟨_, hdrop⟩

/-- A piece is closed by the end of the text or by a dot. -/
theorem after_of_closes (h : bytes.data.toList = before ++ piece ++ after)
    (hcloses : Closes bytes ⟨before.length, before.length + piece.length, octets⟩) :
    after = [] ∨ ∃ rest, after = dot :: rest := by
  rcases hcloses with hend | hread
  · have hsize := size_eq h
    have hlength : before.length + piece.length = bytes.size := hend
    exact .inl (List.length_eq_zero_iff.1 (by omega))
  · exact .inr (after_of_readAt h hread)

end Inside

/-- A move leads from where the pass may stand to where it may stand. -/
theorem Stands.next (h : Stands bytes s) (hnext : next? bytes s = some s') : Stands bytes s' := by
  obtain ⟨hpos, hstep⟩ := next?_eq_some_iff.1 hnext
  cases h with
  | past hoctets => exact absurd hpos (Nat.not_succ_le_self _)
  | @inside before piece after octets hbytes hbefore hpiece hoctets =>
    rcases step_eq_next hstep with ⟨byte, hread, hne, rfl⟩ | ⟨hcloses, hclose⟩
    · -- the piece grows by a byte
      obtain ⟨rest, rfl⟩ := after_of_readAt hbytes hread
      have hstands := @Stands.inside bytes before (piece ++ [byte]) rest octets (by simp [hbytes])
        hbefore (by simpa using ⟨hpiece, Ne.symm hne⟩) hoctets
      simpa [Nat.add_assoc] using hstands
    · obtain ⟨slice, octet, -, -, -, rfl⟩ := close_eq_next hclose
      have hsize := size_eq hbytes
      have hcount : (before ++ piece).count dot = octets.length := by
        rw [List.count_append, List.count_eq_zero_of_not_mem hpiece, hoctets, Nat.add_zero]
      rcases after_of_closes hbytes hcloses with rfl | ⟨rest, rfl⟩
      · -- the end of the text closes the last piece
        have hstands := @Stands.past bytes (octets ++ [octet])
          (by rw [hbytes, List.append_nil, hcount, List.length_append]; rfl)
        simpa [hsize] using hstands
      · -- a dot closes the piece, and an empty one begins behind it
        have hstands := @Stands.inside bytes (before ++ piece ++ [dot]) [] rest (octets ++ [octet])
          (by simp [hbytes]) (.inr ⟨_, rfl⟩) List.not_mem_nil
          (by rw [List.count_append, hcount, List.length_append]; simp)
        simpa [Nat.add_assoc] using hstands

/-- Wherever the pass gets, it stands in a piece or past the end. -/
theorem stands_of_reaches (h : Reaches (next? bytes) .begin s) : Stands bytes s := by
  induction h with
  | refl => exact stands_begin bytes
  | tail _ hnext ih => exact ih.next hnext

/-- A piece of a text that is closed is what stands between two dots. -/
theorem Stands.exists_isPart {text : String} (h : Stands text.toUTF8 s)
    (hcloses : Closes text.toUTF8 s) :
    ∃ before part after, IsPart (· = '.') text before part after
      ∧ s.start = before.utf8ByteSize ∧ s.pos = before.utf8ByteSize + part.utf8ByteSize := by
  cases h with
  | past hoctets =>
    rcases hcloses with hend | hread
    · exact absurd hend (Nat.succ_ne_self _)
    · exact absurd (lt_size_of_readAt hread) (by simp)
  | @inside before piece after octets hbytes hbefore hpiece hoctets =>
    obtain ⟨left, part, right, hpart, rfl, rfl⟩ :=
      Text.exists_isPart (c := '.') (by decide) hbytes hpiece hbefore
        (after_of_closes hbytes hcloses)
    refine ⟨left, part, right, hpart, ?_, ?_⟩
    · rw [utf8ByteSize_eq]
    · rw [utf8ByteSize_eq, utf8ByteSize_eq]

/-! ### Where the pass ends

A piece that is closed and is no octet ends the pass.  It is quoted, and only this can fault on
bytes that are no text. -/

/-- The piece that a state closes is no octet. -/
structure Quotes (bytes : ByteArray) (s : Scan) (slice : ByteArray) : Prop where
  closes : Closes bytes s
  cut_eq : cut bytes s.start s.pos = .ok slice
  octet_eq : octet? slice = .ok none

/-- What is left of the run is to quote the piece. -/
theorem Quotes.run_eq {slice : ByteArray} (h : Quotes bytes s slice) :
    run bytes s = (decode slice).map fun part => .error (.component part) := by
  have hstep : step bytes s = (decode slice).map fun part => .reject (.component part) := by
    rw [h.closes.step_eq, close, h.cut_eq]
    simp only [bind, Except.bind, h.octet_eq]
    rfl
  rcases hdecode : decode slice with fault | part
  · rw [hdecode] at hstep
    exact run_of_fault h.closes.pos_le hstep
  · rw [hdecode] at hstep
    exact run_of_reject h.closes.pos_le hstep

/-- A move that rejects a piece, or that faults on bytes that are no text. -/
def Rejects (move : Except Fault Move) : Prop :=
  move = .error .encoding ∨ ∃ error, move = .ok (.reject error)

theorem exists_slice_of_close (h : Rejects (close bytes s)) :
    ∃ slice, cut bytes s.start s.pos = .ok slice ∧ octet? slice = .ok none := by
  rcases hcut : cut bytes s.start s.pos with fault | slice
  · have hclose : close bytes s = .error fault := by
      rw [close, hcut]
      rfl
    rcases h with h | ⟨error, h⟩ <;> rw [hclose] at h
    · obtain rfl := Except.error.inj h
      exact absurd hcut cut_ne_encoding
    · contradiction
  · obtain ⟨value?, hoctet⟩ := exists_octet? slice
    refine ⟨slice, rfl, ?_⟩
    rcases value? with - | octet
    · exact hoctet
    · by_cases hslot : s.octets.length < 4 <;>
        simp [Rejects, close, hcut, hoctet, store, hslot, bind, Except.bind, pure, Except.pure] at h

theorem exists_quotes_of_step (h : Rejects (step bytes s)) : ∃ slice, Quotes bytes s slice := by
  have hcloses : Closes bytes s := by
    by_contra hcloses
    obtain ⟨hend, hdot⟩ := not_or.1 hcloses
    rw [step, if_neg hend] at h
    rcases hread : readAt bytes s.pos with fault | byte
    · rw [hread] at h
      rcases h with h | ⟨error, h⟩
      · obtain rfl := Except.error.inj h
        exact readAt_ne_encoding hread
      · contradiction
    · have hne : byte ≠ dot := by
        rintro rfl
        exact hdot hread
      simp [Rejects, hread, hne, bind, Except.bind, pure, Except.pure] at h
  rw [hcloses.step_eq] at h
  obtain ⟨slice, hcut, hoctet⟩ := exists_slice_of_close h
  exact ⟨slice, hcloses, hcut, hoctet⟩

/-- A run that rejects a text, or that faults on bytes that are no text, ends with a piece that is
quoted. -/
theorem exists_quotes_of_run
    (h : run bytes s = .error .encoding ∨ ∃ error, run bytes s = .ok (.error error)) :
    ∃ s' slice, Reaches (next? bytes) s s' ∧ Quotes bytes s' slice := by
  fun_induction run bytes s with
  | case1 s hpos s' hstep ih =>
    obtain ⟨s'', slice, hreach, hquotes⟩ := ih h
    exact ⟨s'', slice, hreach.head (next?_eq_some_iff.2 ⟨hpos, hstep⟩), hquotes⟩
  | case2 s hpos error hstep =>
    obtain ⟨slice, hquotes⟩ := exists_quotes_of_step (.inr ⟨error, hstep⟩)
    exact ⟨s, slice, .refl, hquotes⟩
  | case3 s hpos fault hstep =>
    rcases h with h | ⟨error, h⟩
    · obtain rfl := Except.error.inj h
      obtain ⟨slice, hquotes⟩ := exists_quotes_of_step (.inl hstep)
      exact ⟨s, slice, .refl, hquotes⟩
    · contradiction
  | case4 s hpos =>
    unfold finish at h
    split at h <;> simp at h

end Scan

/-! ### What the scan takes for text -/

variable {bytes : ByteArray}

/-- The states that the scan goes through: the pass begins once four pieces are counted. -/
def Visits (bytes : ByteArray) (s : Scan) : Prop :=
  count bytes dot = .ok 3 ∧ Reaches (Scan.next? bytes) .begin s

/-- The pass is the rest of the scan, once it has begun. -/
theorem scan_of_count (h : count bytes dot = .ok 3) : scan bytes = Scan.run bytes .begin := by
  rw [scan, if_neg (size_ne_zero_of_count h), h]
  rfl

/-- What is left of the scan in a state that it goes through are the moves from there on. -/
theorem Visits.scan_eq_run {s : Scan} (h : Visits bytes s) : scan bytes = Scan.run bytes s :=
  (scan_of_count h.1).trans (Scan.run_of_reaches h.2)

/-- The scan takes the bytes from `start` up to `stop` for text, to quote them: they are a piece
that is closed and is no octet. -/
def Decodes (bytes : ByteArray) (start stop : Nat) (slice : ByteArray) : Prop :=
  ∃ s, Visits bytes s ∧ start = s.start ∧ stop = s.pos ∧ Scan.Quotes bytes s slice

/-- What is taken for text spells what stands between two dots. -/
theorem spells_of_decodes {text : String} {start stop : Nat} {slice : ByteArray}
    (h : Decodes text.toUTF8 start stop slice) :
    ∃ before part after, Spells (· = '.') text start stop slice before part after := by
  obtain ⟨s, ⟨-, hreach⟩, rfl, rfl, hquotes⟩ := h
  obtain ⟨before, part, after, hpart, hstart, hstop⟩ :=
    (Scan.stands_of_reaches hreach).exists_isPart hquotes.closes
  exact ⟨before, part, after, hpart.spells_of_cut hstart hstop hquotes.cut_eq⟩

/-- What is taken for text is quoted, and this ends the scan. -/
theorem scan_of_decodes {start stop : Nat} {slice : ByteArray}
    (h : Decodes bytes start stop slice) :
    scan bytes = (decode slice).map fun part => .error (.component part) := by
  obtain ⟨s, hvisits, -, -, hquotes⟩ := h
  rw [hvisits.scan_eq_run, hquotes.run_eq]

/-- Before four pieces are counted nothing is quoted. -/
theorem scan_of_count_ne (h : count bytes dot ≠ .ok 3) :
    scan bytes = .ok (.error .missing) ∨ ∃ n, scan bytes = .ok (.error (.componentCount n)) := by
  obtain ⟨dots, hdots⟩ : ∃ dots, count bytes dot = .ok dots := ⟨_, count_eq_ok⟩
  by_cases hsize : bytes.size = 0
  · exact .inl (if_pos hsize)
  · have hfour : dots + 1 ≠ 4 := by
      rintro hfour
      exact h (hdots.trans (congrArg Except.ok (Nat.succ.inj hfour)))
    refine .inr ⟨dots + 1, ?_⟩
    rw [scan, if_neg hsize, hdots]
    exact if_pos hfour

theorem exists_decodes_of_scan (h : scan bytes = .error .encoding
      ∨ ∃ part, scan bytes = .ok (.error (.component part))) :
    ∃ start stop slice, Decodes bytes start stop slice := by
  have hcount : count bytes dot = .ok 3 := by
    by_contra hcount
    rcases scan_of_count_ne hcount with hscan | ⟨n, hscan⟩ <;> simp [hscan] at h
  have hrun : scan bytes = .error .encoding ∨ ∃ error, scan bytes = .ok (.error error) :=
    h.imp_right fun ⟨_, hpart⟩ => ⟨_, hpart⟩
  rw [scan_of_count hcount] at hrun
  obtain ⟨s, slice, hreach, hquotes⟩ := Scan.exists_quotes_of_run hrun
  exact ⟨_, _, slice, s, ⟨hcount, hreach⟩, rfl, rfl, hquotes⟩

/-- Of any bytes, texts or not: the scan faults on what is no text where it takes it for text, and
nowhere else. -/
theorem scan_eq_encoding_iff :
    scan bytes = .error .encoding
      ↔ ∃ start stop slice, Decodes bytes start stop slice ∧ decode slice = .error .encoding := by
  constructor
  · intro h
    obtain ⟨start, stop, slice, hdecodes⟩ := exists_decodes_of_scan (.inl h)
    rw [scan_of_decodes hdecodes, map_eq_error_iff] at h
    exact ⟨start, stop, slice, hdecodes, h⟩
  · rintro ⟨start, stop, slice, hdecodes, hslice⟩
    rw [scan_of_decodes hdecodes, hslice]
    rfl

/-- And what it quotes is what it took for text. -/
theorem scan_eq_component_iff {part : String} :
    scan bytes = .ok (.error (.component part))
      ↔ ∃ start stop slice, Decodes bytes start stop slice ∧ decode slice = .ok part := by
  constructor
  · intro h
    obtain ⟨start, stop, slice, hdecodes⟩ := exists_decodes_of_scan (.inr ⟨part, h⟩)
    rw [scan_of_decodes hdecodes, map_eq_ok_iff] at h
    obtain ⟨part', hslice, hpart⟩ := h
    obtain rfl := AddressError.component.inj (Except.error.inj hpart)
    exact ⟨start, stop, slice, hdecodes, hslice⟩
  · rintro ⟨start, stop, slice, hdecodes, hslice⟩
    rw [scan_of_decodes hdecodes, hslice]
    rfl

/-! ### Nothing goes wrong -/

/-- What the pass relies on in a state: no counter runs past the end by more than one, the move that
comes next is carried out, with a free slot for the octet, and all slots are filled in the end. -/
structure Scan.InBounds (bytes : ByteArray) (s : Scan) : Prop where
  octets_le : s.octets.length ≤ s.start
  start_le : s.start ≤ s.pos
  pos_le : s.pos ≤ bytes.size + 1
  moves : s.pos ≤ bytes.size → s.octets.length < 4 ∧ ∃ move, step bytes s = .ok move
  fills : bytes.size < s.pos → s.octets.length = 4

/-- In the scan of a text each move is carried out, since the scan answers. -/
theorem exists_move_of_visits {text : String} {s : Scan} (h : Visits text.toUTF8 s)
    (hpos : s.pos ≤ text.toUTF8.size) : ∃ move, Scan.step text.toUTF8 s = .ok move := by
  rcases hstep : Scan.step text.toUTF8 s with fault | move
  · have hscan := h.scan_eq_run
    rw [scan_eq, Scan.run_of_fault hpos hstep] at hscan
    contradiction
  · exact ⟨move, rfl⟩

/-- In the scan of a text no state is out of bounds. -/
theorem inBounds_of_visits {text : String} {s : Scan} (h : Visits text.toUTF8 s) :
    Scan.InBounds text.toUTF8 s := by
  have hmoves := exists_move_of_visits h
  obtain ⟨hcount, hreach⟩ := h
  have hdots := count_of_eq_ok hcount
  cases Scan.stands_of_reaches hreach with
  | @inside before piece after octets hbytes hbefore hpiece hoctets =>
    have hsize := Scan.size_eq hbytes
    have hlength : before.count dot ≤ before.length := List.count_le_length
    have hle : before.count dot ≤ 3 := by
      rw [← hdots, hbytes, List.append_assoc, List.count_append]
      exact Nat.le_add_right _ _
    have hle' : before.length + piece.length ≤ text.toUTF8.size := by omega
    refine ⟨?_, Nat.le_add_right _ _, Nat.le_succ_of_le hle', ?_, ?_⟩
    · show octets.length ≤ before.length
      omega
    · intro hpos
      exact ⟨by show octets.length < 4; omega, hmoves hpos⟩
    · intro hpos
      exact absurd hle' (Nat.not_le_of_lt hpos)
  | @past octets hoctets =>
    have hle : text.toUTF8.data.toList.count dot ≤ text.toUTF8.size := List.count_le_length
    refine ⟨?_, Nat.le_refl _, Nat.le_refl _, ?_, ?_⟩
    · show octets.length ≤ text.toUTF8.size + 1
      omega
    · intro hpos
      exact absurd hpos (Nat.not_succ_le_self _)
    · intro _
      rw [hoctets, hdots]

/-- The scan of an address answers, and no loop of it leaves the text: the one that counts dots, and
the pass over the pieces. -/
structure Safe (bytes : ByteArray) : Prop where
  answers : ∃ result, scan bytes = .ok result
  counts : ∀ s, Reaches (round bytes (tally dot)) (0, 0) s →
    s.2 ≤ s.1 ∧ s.1 ≤ bytes.size ∧ count bytes dot = countFrom bytes dot s.1 s.2
  visits : ∀ s, Visits bytes s → s.InBounds bytes ∧ scan bytes = Scan.run bytes s

theorem safe (text : String) : Safe text.toUTF8 where
  answers := ⟨_, scan_eq text⟩
  counts _ h := ⟨found_le_of_reaches h, le_size_of_reaches h, (countFrom_of_reaches h).symm⟩
  visits _ h := ⟨inBounds_of_visits h, h.scan_eq_run⟩

end Inet.Address
