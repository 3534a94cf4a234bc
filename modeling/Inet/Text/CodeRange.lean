/-
Inet/Text/CodeRange.lean

Sets of characters as lists of closed ranges of code points.

A list is `ascending` if its ranges follow each other with a gap between each
two; no code point is then in two of them, and `count` is the size of the set.
-/

namespace Inet.Text

/-- Closed ranges of code points, each by its first and its last. -/
abbrev CodeRanges := List (Nat × Nat)

namespace CodeRanges

/-- Is the code point of a character in one of the ranges? -/
def covers (ranges : CodeRanges) (c : Char) : Bool :=
  ranges.any fun (first, last) => first ≤ c.toNat && c.toNat ≤ last

theorem covers_iff {ranges : CodeRanges} {c : Char} :
    ranges.covers c ↔ ∃ range ∈ ranges, range.1 ≤ c.toNat ∧ c.toNat ≤ range.2 := by
  simp [covers]

/-- Do the ranges follow each other, with a gap between each two? -/
def ascending : CodeRanges → Bool
  | [] => true
  | [(first, last)] => first ≤ last
  | (first, last) :: (next, stop) :: rest =>
    first ≤ last && last + 1 < next && ascending ((next, stop) :: rest)

/-- The number of code points in ranges that do not overlap. -/
def count : CodeRanges → Nat
  | [] => 0
  | (first, last) :: rest => (last + 1 - first) + count rest

end CodeRanges

end Inet.Text
