import LteMac.Text.CaseTable
import LteMac.Text.Unprintable

/-!
# Quoted texts

Messages quote a text so that it fits on one line and can be told from what surrounds it: quotes
and backslashes are escaped, a few control characters have letters of their own, and a character
that would not be seen is written by its number.
-/

namespace LteMac.Text

/-- The lower case hexadecimal digits of a number. -/
def hexDigits (n : Nat) : List Char := Nat.toDigits 16 n

/-- How a character is written between quotes. -/
def quotedChar (c : Char) : List Char :=
  match c with
  | '\x00' => ['\\', '0']
  | '\t' => ['\\', 't']
  | '\r' => ['\\', 'r']
  | '\n' => ['\\', 'n']
  | '\\' | '\x22' | '\x27' => ['\\', c]
  | _ =>
    if inRanges numberedRanges c then
      ['\\', 'u', '\x7b'] ++ hexDigits c.toNat ++ ['\x7d']
    else [c]

/-- A text between quotes. -/
def quoted (s : String) : String :=
  String.ofList ('\x22' :: s.toList.flatMap quotedChar ++ ['\x22'])

end LteMac.Text
