/-!
# Digits

* `Text.digit?`    the value of a digit in a base up to 36, letters of either case counted on from
                   ten;
* `Text.ofDigits`  the number of some digits, the most significant first;
* `Text.natural?`  the number of some decimal digits, at least one, of any length;
* `Text.coded?`    the number of a fixed count of hexadecimal digits;
* `Text.twoDigits` a number below 256 as two of sixteen digits.
-/

namespace Precinct.Text

/-! ## reading -/

/-- what a character counts as a digit; 36 for one that is no digit in any base -/
def digitValue (c : Char) : Nat :=
  if c.isDigit then c.toNat - '0'.toNat
  else if c.isLower then c.toNat - 'a'.toNat + 10
  else if c.isUpper then c.toNat - 'A'.toNat + 10
  else 36

/-- the value of a digit in a base -/
def digit? (base : Nat) (c : Char) : Option Nat :=
  if digitValue c < base then some (digitValue c) else none

def ofDigits (base : Nat) (digits : List Nat) : Nat := digits.foldl (fun n d => base * n + d) 0

def natural? (cs : List Char) : Option Nat :=
  if cs.isEmpty then none else (cs.mapM (digit? 10)).map (ofDigits 10)

/-- the number of a count of hexadecimal digits -/
def coded? (count : Nat) (cs : List Char) : Option Nat :=
  if cs.length = count then (cs.mapM (digit? 16)).map (ofDigits 16) else none

/-- whether a number is that of a character, and not half of a surrogate pair -/
def isScalar (n : Nat) : Bool := n < 0xD800 || (0xE000 ≤ n && n < 0x110000)

/-! ## writing -/

def lowerDigits : List Char :=
  ['0', '1', '2', '3', '4', '5', '6', '7', '8', '9', 'a', 'b', 'c', 'd', 'e', 'f']

def upperDigits : List Char :=
  ['0', '1', '2', '3', '4', '5', '6', '7', '8', '9', 'A', 'B', 'C', 'D', 'E', 'F']

/-- a number below 256 as two of sixteen digits -/
def twoDigits (digits : List Char) (n : Nat) : List Char :=
  [digits.getD (n / 16) '0', digits.getD (n % 16) '0']

end Precinct.Text
