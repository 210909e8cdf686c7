import Precinct.Data.Value
import Precinct.Text.Digits

/-!
# Reading JSON

* `Json.ofText?`   the value that a text denotes, if it is JSON;
* `Json.number?`   a number, kept as a whole one only when it is written without point and exponent
                   and is not `-0`: the fields of a structure tell `100` from `1e2`;
* `Json.unescape`  the characters of a text, the two halves of a surrogate pair put together.

A name that occurs twice in one object is two members of the record.  Every call of a reader of values
takes one unit of fuel, and every second call takes a character, so the fuel of `ofText?` never runs
out.
-/

namespace Precinct.Json
open Data (Value)

/-- a reader takes what it reads from the front of a text -/
abbrev Reader (α : Type) := List Char → Option (α × List Char)

/-- a text without the blanks at its front -/
def skipBlanks (cs : List Char) : List Char :=
  cs.dropWhile fun c => c == ' ' || c == '\t' || c == '\n' || c == '\r'

/-! ## numbers -/

/-- whether a number may begin with these digits -/
def isIntegerPart : List Char → Bool
  | [] => false
  | ['0'] => true
  | c :: _ => c != '0'

def isDigits (cs : List Char) : Bool := !cs.isEmpty && cs.all Char.isDigit

/-- whether characters are an exponent, or nothing -/
def isExponent : List Char → Bool
  | [] => true
  | e :: '+' :: rest => (e == 'e' || e == 'E') && isDigits rest
  | e :: '-' :: rest => (e == 'e' || e == 'E') && isDigits rest
  | e :: rest => (e == 'e' || e == 'E') && isDigits rest

/-- whether characters are a fraction or an exponent or both -/
def isFraction : List Char → Bool
  | '.' :: rest =>
    isDigits (rest.takeWhile Char.isDigit) && isExponent (rest.dropWhile Char.isDigit)
  | rest => isExponent rest

/-- the number that is written in some characters -/
def number? (cs : List Char) : Option Value :=
  let negative := cs.head? == some '-'
  let digits := if negative then cs.tail else cs
  let integer := digits.takeWhile Char.isDigit
  let rest := digits.dropWhile Char.isDigit
  if !isIntegerPart integer then none
  else if rest.isEmpty && !(negative && integer == ['0']) then
    (Text.natural? integer).map fun n => .whole (if negative then -(n : Int) else n)
  else if isFraction rest then some (.fraction (String.ofList cs))
  else none

/-- a number, `true`, `false` or `null` -/
def plain? (cs : List Char) : Option Value :=
  if cs = ['n', 'u', 'l', 'l'] then some .null
  else if cs = ['t', 'r', 'u', 'e'] then some (.flag true)
  else if cs = ['f', 'a', 'l', 's', 'e'] then some (.flag false)
  else number? cs

/-- read a value that is not a text, a list or a record -/
def readPlain : Reader Value := fun cs =>
  let inside (c : Char) : Bool := c.isAlphanum || c == '+' || c == '-' || c == '.'
  (plain? (cs.takeWhile inside)).map fun v => (v, cs.dropWhile inside)

/-! ## texts -/

/-- a part of a text: a character as it stands, or a number that was escaped -/
inductive Piece where
  | char (c : Char)
  | unit (n : Nat)
  deriving DecidableEq, Repr

/-- the character that a letter after a backslash stands for -/
def escaped? : Char → Option Char
  | '"' => some '"'
  | '\\' => some '\\'
  | '/' => some '/'
  | 'b' => some '\x08'
  | 'f' => some '\x0c'
  | 'n' => some '\n'
  | 'r' => some '\r'
  | 't' => some '\t'
  | _ => none

/-- read the parts of a text up to its closing quote, those before it latest first -/
def readPieces (before : List Piece) : Reader (List Piece)
  | [] => none
  | '"' :: rest => some (before.reverse, rest)
  | '\\' :: 'u' :: a :: b :: c :: d :: rest =>
    match Text.coded? 4 [a, b, c, d] with
    | some n => readPieces (.unit n :: before) rest
    | none => none
  | '\\' :: c :: rest =>
    match escaped? c with
    | some c => readPieces (.char c :: before) rest
    | none => none
  | c :: rest => if c < ' ' then none else readPieces (.char c :: before) rest

/-- whether a number is the first half of a pair -/
def isHighHalf (n : Nat) : Bool := 0xD800 ≤ n && n < 0xDC00

/-- whether a number is the second half of a pair -/
def isLowHalf (n : Nat) : Bool := 0xDC00 ≤ n && n < 0xE000

/-- the characters of a text; a half of a pair that stands alone is refused -/
def unescape (before : List Char) : List Piece → Option (List Char)
  | [] => some before.reverse
  | .char c :: rest => unescape (c :: before) rest
  | .unit high :: .unit low :: rest =>
    if isHighHalf high then
      if isLowHalf low then
        unescape (Char.ofNat (0x10000 + 1024 * (high - 0xD800) + (low - 0xDC00)) :: before) rest
      else none
    else if isLowHalf high then none
    else unescape (Char.ofNat high :: before) (.unit low :: rest)
  | .unit n :: rest =>
    if isHighHalf n || isLowHalf n then none else unescape (Char.ofNat n :: before) rest

def readText : Reader String := fun cs => do
  let (pieces, rest) ← readPieces [] cs
  return (String.ofList (← unescape [] pieces), rest)

/-! ## values -/

mutual

def readValue : Nat → Reader Value
  | 0, _ => none
  | fuel + 1, cs =>
    match skipBlanks cs with
    | '"' :: rest => (readText rest).map fun (s, rest) => (.text s, rest)
    | '[' :: rest =>
      match skipBlanks rest with
      | ']' :: rest => some (.list [], rest)
      | rest => readItems fuel [] rest
    | '\x7b' :: rest =>
      match skipBlanks rest with
      | '\x7d' :: rest => some (.record [], rest)
      | rest => readMembers fuel [] rest
    | rest => readPlain rest

/-- read the rest of a list, the values before it latest first -/
def readItems : Nat → List Value → Reader Value
  | 0, _, _ => none
  | fuel + 1, before, cs =>
    match readValue fuel cs with
    | none => none
    | some (v, rest) =>
      match skipBlanks rest with
      | ',' :: rest => readItems fuel (v :: before) rest
      | ']' :: rest => some (.list (v :: before).reverse, rest)
      | _ => none

/-- read the rest of a record, the members before it latest first -/
def readMembers : Nat → List (String × Value) → Reader Value
  | 0, _, _ => none
  | fuel + 1, before, cs =>
    match skipBlanks cs with
    | '"' :: rest =>
      match readText rest with
      | none => none
      | some (name, rest) =>
        match skipBlanks rest with
        | ':' :: rest =>
          match readValue fuel rest with
          | none => none
          | some (v, rest) =>
            match skipBlanks rest with
            | ',' :: rest => readMembers fuel ((name, v) :: before) rest
            | '\x7d' :: rest => some (.record ((name, v) :: before).reverse, rest)
            | _ => none
        | _ => none
    | _ => none

end

def ofText? (s : String) : Option Value :=
  let cs := s.toList
  match readValue (2 * cs.length + 2) cs with
  | some (v, rest) => if (skipBlanks rest).isEmpty then some v else none
  | none => none

end Precinct.Json
