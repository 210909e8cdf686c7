import Precinct.Text.EscapeTable
import Precinct.Text.LowerCase

/-!
# A text between quotes

* `quoted`  the text between double quotes, with a visible form for every character.

The quote, the backslash and four controls have a short escape; every other character without a
visible form is written by its number in lower-case hexadecimal, without leading zeros.
-/

namespace Precinct.Text

/-- whether the character is written by its number -/
def isEscaped (c : Char) : Bool :=
  c.toNat < 0x20 || c.toNat == 0x7F || inRanges c.toNat escapedRanges

/-- the digits of a number in lower-case hexadecimal -/
def hexDigits (n : Nat) : List Char := Nat.toDigits 16 n

def quotedChar (c : Char) : List Char :=
  if c = '"' then ['\\', '"']
  else if c = '\\' then ['\\', '\\']
  else if c = '\t' then ['\\', 't']
  else if c = '\n' then ['\\', 'n']
  else if c = '\r' then ['\\', 'r']
  else if c.toNat = 0 then ['\\', '0']
  else if isEscaped c then ['\\', 'u', '\x7b'] ++ hexDigits c.toNat ++ ['\x7d']
  else [c]

def quoted (s : String) : String :=
  String.ofList (['"'] ++ s.toList.flatMap quotedChar ++ ['"'])

end Precinct.Text
