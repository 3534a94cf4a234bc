/-
Inet/Text/Quoted.lean

Texts between quotation marks, for messages on one line.

A quotation mark and a backslash stand behind a backslash, and so does the
letter of a control character that has one.  Any other character that cannot be
seen in print, or that would be drawn onto the character before it, is written
by its code point in hexadecimal, as in `\u{301}`.  All others stand for
themselves.
-/
import Inet.Text.GraphemeExtend
import Inet.Text.Printable

namespace Inet.Text

/-- The character that stands behind a backslash for `c`. -/
def escapeLetter? : Char → Option Char
  | '"' => some '"'
  | '\\' => some '\\'
  | '\n' => some 'n'
  | '\r' => some 'r'
  | '\t' => some 't'
  | '\x00' => some '0'
  | _ => none

/-- A character by its code point. -/
def codePoint (c : Char) : List Char :=
  "\\u\x7b".toList ++ Nat.toDigits 16 c.toNat ++ ['\x7d']

/-- A character as it is written between quotation marks. -/
def escape (c : Char) : List Char :=
  match escapeLetter? c with
  | some letter => ['\\', letter]
  | none => if isPrintable c && !attaches c then [c] else codePoint c

def quoted (text : String) : String :=
  String.ofList ('"' :: text.toList.flatMap escape ++ ['"'])

end Inet.Text
