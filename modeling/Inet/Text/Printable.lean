/-
Inet/Text/Printable.lean

Which characters can be seen in print.

These are the letters, marks, numbers, punctuation and symbols of Unicode 17.0
and the space, less those that a display leaves out where it does not know
them, such as the fillers of Hangul.  The tables list the other characters, by
what they are.
-/
import Inet.Text.Unassigned

namespace Inet.Text

/-- Control characters (general category Cc). -/
def controls : CodeRanges :=
  [(0x0000, 0x001F), (0x007F, 0x009F)]

/-- Characters that format the text around them (Cf). -/
def formats : CodeRanges :=
  [(0x00AD, 0x00AD), (0x0600, 0x0605), (0x061C, 0x061C), (0x06DD, 0x06DD), (0x070F, 0x070F),
   (0x0890, 0x0891), (0x08E2, 0x08E2), (0x180E, 0x180E), (0x200B, 0x200F), (0x202A, 0x202E),
   (0x2060, 0x2064), (0x2066, 0x206F), (0xFEFF, 0xFEFF), (0xFFF9, 0xFFFB), (0x110BD, 0x110BD),
   (0x110CD, 0x110CD), (0x13430, 0x1343F), (0x1BCA0, 0x1BCA3), (0x1D173, 0x1D17A),
   (0xE0001, 0xE0001), (0xE0020, 0xE007F)]

/-- Blanks and the separators of lines and paragraphs (Z). -/
def separators : CodeRanges :=
  [(0x0020, 0x0020), (0x00A0, 0x00A0), (0x1680, 0x1680), (0x2000, 0x200A), (0x2028, 0x2029),
   (0x202F, 0x202F), (0x205F, 0x205F), (0x3000, 0x3000)]

/-- Code points for private use (Co). -/
def privateUse : CodeRanges :=
  [(0xE000, 0xF8FF), (0xF0000, 0xFFFFD), (0x100000, 0x10FFFD)]

/-- Characters that leave nothing on a display that does not know them (the property
Default_Ignorable_Code_Point). -/
def defaultIgnorable : CodeRanges :=
  [(0x00AD, 0x00AD), (0x034F, 0x034F), (0x061C, 0x061C), (0x115F, 0x1160), (0x17B4, 0x17B5),
   (0x180B, 0x180F), (0x200B, 0x200F), (0x202A, 0x202E), (0x2060, 0x206F), (0x3164, 0x3164),
   (0xFE00, 0xFE0F), (0xFEFF, 0xFEFF), (0xFFA0, 0xFFA0), (0xFFF0, 0xFFF8), (0x1BCA0, 0x1BCA3),
   (0x1D173, 0x1D17A), (0xE0000, 0xE0FFF)]

example :
    [controls, formats, separators, privateUse, defaultIgnorable].all (·.ascending) = true := by
  decide +kernel

example :
    [controls, formats, separators, privateUse, defaultIgnorable].map (·.count)
      = [65, 170, 19, 137468, 4174] := by
  decide +kernel

/-- Can a character be seen in print?  In ASCII these are the characters from the space to `~`. -/
def isPrintable (c : Char) : Bool :=
  if c.toNat < 0x7F then 0x20 ≤ c.toNat
  else
    !controls.covers c && !formats.covers c && !separators.covers c && !privateUse.covers c
      && !defaultIgnorable.covers c && !unassigned.covers c

end Inet.Text
