import Precinct.Toml.Quotes
import Precinct.Toml.Tree

/-!
# Documents

* `Toml.value`    a value: a text, a list, a table in one piece or a plain word;
* `Toml.ofText?`  the record that a text denotes, if it is a document.

Values are nested to a depth below `depthLimit`, and a dotted name has fewer parts than that.  So
the reader of values goes down one step for every level, and a list or a table takes the reader of
what is inside it.
-/

namespace Precinct.Toml
open Data (Value)
open Reader

/-- how deep values are not nested -/
def depthLimit : Nat := 80

def skipBlanks : Reader Unit := do let _ ← takeWhile isBlank

/-- take a comment away if one comes next; whether one did -/
def acceptComment : Reader Bool := do
  if ← accept ['#'] then
    let _ ← takeWhile isPlain
    return true
  else return false

def skipGap : Reader Unit := do
  let _ ← many do
    if ← acceptLineEnd then return some ()
    else if ← acceptComment then return some ()
    else if (← takeWhile isBlank).isEmpty then return none
    else return some ()

/-- the end of a statement: a comment maybe, and the end of the line or of the document -/
def statementEnd : Reader Unit := do
  skipBlanks
  let _ ← acceptComment
  if ← acceptLineEnd then return
  else if (← peek).isNone then return
  else failure

/-! ## names -/

def namePart : Reader String := do
  skipBlanks
  let part ← do
    match ← peek with
    | some '"' => lineText
    | some '\'' => lineText
    | _ =>
      let bare ← takeWhile fun c => c.isAlphanum || c == '-' || c == '_'
      if bare.isEmpty then failure else pure (String.ofList bare)
  skipBlanks
  return part

def name : Reader (List String) := do
  let first ← namePart
  let rest ← many do
    if ← accept ['.'] then return some (← namePart) else return none
  if rest.length + 1 < depthLimit then return first :: rest else failure

def entryName : Reader (List String × String) := do
  let parts ← name
  match parts.getLast? with
  | some last => return (parts.dropLast, last)
  | none => failure

/-! ## values -/

/-- a plain word; a date and a time may have a blank between them -/
def scalar : Reader Value := do
  let word ← takeWhile isScalarChar
  match ← get with
  | ' ' :: c :: rest =>
    if isDate word && c.isDigit then
      set (c :: rest)
      let time ← takeWhile isScalarChar
      scalar? (word ++ ' ' :: time)
    else scalar? word
  | _ => scalar? word

/-- a list, its bracket taken, of values that a reader reads.  A comma may stand behind the last -/
def list (inner : Reader Value) : Reader Value := do
  let items ← many do
    skipGap
    if ← sees [']'] then return none
    let v ← inner
    skipGap
    if ← accept [','] then return some v
    else if ← sees [']'] then return some v
    else failure
  expect [']']
  return .list items

/-- a name and the value that a reader reads -/
def entryOf (inner : Reader Value) : Reader (List String × String × Value) := do
  let (path, last) ← entryName
  expect ['=']
  skipBlanks
  return (path, last, ← inner)

/-- a table in one piece, its brace taken, of values that a reader reads.  No comma may stand behind
the last -/
def table (inner : Reader Value) : Reader Value := do
  skipBlanks
  if ← accept ['\x7d'] then return .record []
  let next : Reader (List String × String × Value) := do
    let e ← entryOf inner
    skipBlanks
    return e
  let first ← next
  let rest ← many do
    if ← accept [','] then return some (← next) else return none
  expect ['\x7d']
  ofEntries (first :: rest)

def leaf : Reader Value := do
  match ← peek with
  | some '"' => return .text (← text)
  | some '\'' => return .text (← text)
  | _ => scalar

/-- a value that has room for some levels inside it -/
def valueWithin : Nat → Reader Value
  | 0 => leaf
  | room + 1 => do
    match ← peek with
    | some '[' =>
      let _ ← item
      list (valueWithin room)
    | some '\x7b' =>
      let _ ← item
      table (valueWithin room)
    | _ => leaf

def value : Reader Value := valueWithin (depthLimit - 1)

/-! ## statements -/

def header : Reader Statement := do
  if ← accept ['[', '['] then
    let path ← name
    expect [']', ']']
    return .sharedHeader path
  else
    expect ['[']
    let path ← name
    expect [']']
    return .header path

def entry : Reader Statement := do
  let (path, last, v) ← entryOf value
  return .entry path last v

/-- the next line of a document, with a statement or without -/
def line : Reader (Option (List Statement)) := do
  skipBlanks
  match ← peek with
  | none => return none
  | some '[' =>
    let s ← header
    statementEnd
    return some [s]
  | some c =>
    if c == '#' || c == '\n' || c == '\r' then
      statementEnd
      return some []
    else
      let s ← entry
      statementEnd
      return some [s]

/-- the statements of a document, which may begin with a byte order mark -/
def statements : Reader (List Statement) := do
  let _ ← accept ['\ufeff']
  return (← many line).flatten

def ofText? (s : String) : Option Value := (whole statements s.toList).bind ofStatements

end Precinct.Toml
