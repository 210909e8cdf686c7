import Precinct.Toml.Reader
import Precinct.Toml.Scalar

/-!
# Texts in quotes

* `Toml.text`      a text in double quotes, where a backslash escapes, or in single quotes, where
                   nothing does; in three quotes of one kind it may go over several lines.

In a text of several lines one or two quotes are text, and so are up to two of the quotes in front
of the closing three.  A backslash at the end of a line takes the blanks and line ends after it
away.
-/

namespace Precinct.Toml
open Reader

/-- whether a character may stand in a text or a comment -/
def isPlain (c : Char) : Bool := c == '\t' || (' ' ≤ c && c != '\x7f')

/-- whether a character is a blank within a line -/
def isBlank (c : Char) : Bool := c == ' ' || c == '\t'

/-- take a line end if one comes next; whether it did -/
def acceptLineEnd : Reader Bool := do
  if ← accept ['\n'] then return true else accept ['\r', '\n']

/-- the character of a count of hexadecimal digits -/
def coded (count : Nat) : Reader Char := do
  let cs ← get
  let n ← Text.coded? count (cs.take count)
  if Text.isScalar n then
    set (cs.drop count)
    return Char.ofNat n
  else failure

/-- the character that is escaped after a backslash -/
def escaped : Reader Char := do
  match ← item with
  | 'b' => return '\x08'
  | 't' => return '\t'
  | 'n' => return '\n'
  | 'f' => return '\x0c'
  | 'r' => return '\r'
  | '"' => return '"'
  | '\\' => return '\\'
  | 'u' => coded 4
  | 'U' => coded 8
  | _ => failure

/-! ## texts of one line -/

/-- the next character before a closing double quote -/
def escapableChar : Reader (Option Char) := do
  match ← item with
  | '"' => return none
  | '\\' => return some (← escaped)
  | c => if isPlain c then return some c else failure

/-- the next character before a closing single quote -/
def literalChar : Reader (Option Char) := do
  match ← item with
  | '\'' => return none
  | c => if isPlain c then return some c else failure

/-! ## texts of several lines -/

/-- whether blanks and then a line end come next -/
def seesLineEnd : Reader Bool := do
  match (← get).dropWhile isBlank with
  | '\n' :: _ => return true
  | '\r' :: '\n' :: _ => return true
  | _ => return false

def skipLines : Reader Unit := do
  let _ ← many do
    if ← acceptLineEnd then return some ()
    else if (← takeWhile isBlank).isEmpty then return none
    else return some ()

/-- the next part before three closing quotes of a kind -/
def linesPart (quote : Char) (escapes : Bool) : Reader (Option (List Char)) := do
  if ← sees [quote, quote, quote] then return none
  else if ← acceptLineEnd then return some ['\n']
  else
    let c ← item
    if escapes && c == '\\' then
      if ← seesLineEnd then
        skipLines
        return some []
      else return some [← escaped]
    else if isPlain c then return some [c]
    else failure

/-- the rest of a text of several lines, after its opening quotes -/
def lines (quote : Char) (escapes : Bool) : Reader (List Char) := do
  let _ ← acceptLineEnd
  let parts ← many (linesPart quote escapes)
  let quotes := ((← get).takeWhile (· == quote)).take 5
  set ((← get).drop quotes.length)
  return parts.flatten ++ quotes.drop 3

/-! ## texts -/

def lineText : Reader String := do
  match ← item with
  | '"' => return String.ofList (← many escapableChar)
  | '\'' => return String.ofList (← many literalChar)
  | _ => failure

def text : Reader String := do
  if ← accept ['"', '"', '"'] then return String.ofList (← lines '"' true)
  else if ← accept ['\'', '\'', '\''] then return String.ofList (← lines '\'' false)
  else lineText

end Precinct.Toml
