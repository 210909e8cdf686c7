import Precinct.Data.Value
import Precinct.Text.Digits

/-!
# Plain words of a document

* `Toml.scalar?`   the value of a word: a yes or no, a number, a date or a time;
* `Toml.integer?`  whole numbers of 64 bits with sign, decimal or with one of the heads `0x`, `0o`
                   and `0b`, single underscores between digits;
* `Toml.isFloat`   other numbers; one that rounds to infinity is refused, except below zero;
* `Toml.isMoment`  dates and times, which must exist in the calendar.

A date is a record of one member, whose name no structure has.  It can thus stand for a structure
all of whose fields may be absent.
-/

namespace Precinct.Toml
open Data (Value)
open Text (digit? ofDigits)

/-- whether a character can be in a plain word -/
def isScalarChar (c : Char) : Bool := c.isAlphanum || ['+', '-', '_', '.', ':'].contains c

/-! ## digits -/

/-- the digits of a number, at least one, without the underscores between them -/
def digits? (base : Nat) : List Char → Option (List Nat)
  | [] => none
  | [c] => (digit? base c).map ([·])
  | c :: '_' :: rest => do return (← digit? base c) :: (← digits? base rest)
  | c :: rest => do return (← digit? base c) :: (← digits? base rest)

/-- the digits of a decimal number, which has no zero in front -/
def decimalDigits? (cs : List Char) : Option (List Nat) := do
  let digits ← digits? 10 cs
  if digits.head? = some 0 ∧ digits.length ≠ 1 then none else some digits

/-- a number without its sign, and whether it has a minus -/
def splitSign : List Char → Bool × List Char
  | '-' :: rest => (true, rest)
  | '+' :: rest => (false, rest)
  | cs => (false, cs)

/-! ## numbers -/

/-- a whole number of 64 bits with sign -/
def word? (n : Int) : Option Int :=
  if Int64.minValue.toInt ≤ n ∧ n ≤ Int64.maxValue.toInt then some n else none

def integer? (cs : List Char) : Option Int :=
  match cs with
  | '0' :: 'x' :: rest => (digits? 16 rest).bind fun ds => word? (ofDigits 16 ds)
  | '0' :: 'o' :: rest => (digits? 8 rest).bind fun ds => word? (ofDigits 8 ds)
  | '0' :: 'b' :: rest => (digits? 2 rest).bind fun ds => word? (ofDigits 2 ds)
  | cs =>
    let (negative, cs) := splitSign cs
    (decimalDigits? cs).bind fun ds =>
      word? (if negative then -(ofDigits 10 ds : Int) else ofDigits 10 ds)

/-- the least number that rounds to infinity -/
def infinityThreshold : Nat := Nat.pow 2 1024 - Nat.pow 2 970

/-- whether `mantissa * 10 ^ exponent` rounds to infinity; `length` is the number of digits of the
mantissa, so powers of ten are computed only for numbers of about the size of the threshold -/
def isHuge (mantissa length : Nat) (exponent : Int) : Bool :=
  if mantissa = 0 ∨ length + exponent < 309 then false
  else if 0 ≤ exponent then
    (310 : Int) < exponent || infinityThreshold ≤ mantissa * Nat.pow 10 exponent.toNat
  else infinityThreshold * Nat.pow 10 (-exponent).toNat ≤ mantissa

/-- the exponent of a number, zero if it has none -/
def exponent? : List Char → Option Int
  | [] => some 0
  | e :: rest =>
    if e = 'e' ∨ e = 'E' then
      let (negative, rest) := splitSign rest
      (digits? 10 rest).map fun ds => if negative then -(ofDigits 10 ds : Int) else ofDigits 10 ds
    else none

/-- whether a word is a number with a point or an exponent -/
def isFloat (cs : List Char) : Bool :=
  let (negative, cs) := splitSign cs
  let inside (c : Char) : Bool := c.isDigit || c == '_'
  let rest := cs.dropWhile inside
  let parts : Option (List Nat × Int) :=
    match rest with
    | [] => none
    | '.' :: rest => do
      let fraction ← digits? 10 (rest.takeWhile inside)
      return (fraction, ← exponent? (rest.dropWhile inside))
    | rest => do return ([], ← exponent? rest)
  match decimalDigits? (cs.takeWhile inside), parts with
  | some integer, some (fraction, exponent) =>
    let digits := (integer ++ fraction).dropWhile (· == 0)
    negative || !isHuge (ofDigits 10 digits) digits.length (exponent - fraction.length)
  | _, _ => false

/-- whether a word is a number that is none, or is infinite -/
def isSpecial (cs : List Char) : Bool :=
  let word := (splitSign cs).2
  word == ['i', 'n', 'f'] || word == ['n', 'a', 'n']

/-! ## dates and times -/

def pair? (a b : Char) : Option Nat := do return 10 * (← digit? 10 a) + (← digit? 10 b)

def daysIn (year month : Nat) : Nat :=
  if month = 2 then
    if year % 4 = 0 ∧ (year % 100 ≠ 0 ∨ year % 400 = 0) then 29 else 28
  else if [4, 6, 9, 11].contains month then 30
  else 31

def isDate : List Char → Bool
  | [a, b, c, d, '-', e, f, '-', g, h] =>
    match pair? a b, pair? c d, pair? e f, pair? g h with
    | some century, some year, some month, some day =>
      1 ≤ month && month ≤ 12 && 1 ≤ day && day ≤ daysIn (100 * century + year) month
    | _, _, _, _ => false
  | _ => false

/-- whether two pairs of digits are an hour and a minute -/
def isClock (a b c d : Char) : Bool :=
  match pair? a b, pair? c d with
  | some hour, some minute => hour < 24 && minute < 60
  | _, _ => false

/-- whether a word is a time of day; a minute may have a leap second -/
def isTime : List Char → Bool
  | a :: b :: ':' :: c :: d :: ':' :: e :: f :: rest =>
    isClock a b c d && (pair? e f).any (· ≤ 60) &&
      match rest with
      | [] => true
      | '.' :: fraction => !fraction.isEmpty && fraction.all Char.isDigit
      | _ => false
  | _ => false

/-- whether a word is the distance from the time of the prime meridian -/
def isOffset : List Char → Bool
  | [] => true
  | ['Z'] => true
  | ['z'] => true
  | [sign, a, b, ':', c, d] => (sign == '+' || sign == '-') && isClock a b c d
  | _ => false

/-- whether a word is a time of day, with a distance or without -/
def isZonedTime (cs : List Char) : Bool :=
  let inTime (c : Char) : Bool := c.isDigit || c == ':' || c == '.'
  isTime (cs.takeWhile inTime) && isOffset (cs.dropWhile inTime)

/-- whether a word is a date, a time of day, or both -/
def isMoment (cs : List Char) : Bool :=
  isDate cs || isTime cs ||
    (isDate (cs.take 10) &&
      match cs.drop 10 with
      | t :: time => (t == 'T' || t == 't' || t == ' ') && isZonedTime time
      | [] => false)

/-! ## words -/

/-- the name of the one member of a date -/
def momentName : String := "$datetime"

def scalar? (cs : List Char) : Option Value :=
  if cs = ['t', 'r', 'u', 'e'] then some (.flag true)
  else if cs = ['f', 'a', 'l', 's', 'e'] then some (.flag false)
  else
    match integer? cs with
    | some n => some (.whole n)
    | none =>
      if isFloat cs || isSpecial cs then some (.fraction (String.ofList cs))
      else if isMoment cs then some (.record [(momentName, .text (String.ofList cs))])
      else none

end Precinct.Toml
