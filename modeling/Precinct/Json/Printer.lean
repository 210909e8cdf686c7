import Precinct.Data.Value
import Precinct.Text.Digits

/-!
# Writing JSON

* `Json.Layout`  on one line, or with every item on a line of its own, indented by its depth;
* `Json.render`  the text of a value in a layout.
-/

namespace Precinct.Json
open Data (Value)

/-- how the items of lists and records are set out -/
inductive Layout where
  | oneLine
  /-- at a depth, two blanks for each level -/
  | indented (depth : Nat)
  deriving DecidableEq, Repr

namespace Layout

/-- the layout of the items of a list or record -/
def deeper : Layout → Layout
  | oneLine => oneLine
  | indented depth => indented (depth + 1)

def lineBreak : Layout → String
  | oneLine => ""
  | indented depth => "\n" ++ String.ofList (List.replicate (2 * depth) ' ')

/-- what stands between a name and its value -/
def colon : Layout → String
  | oneLine => ":"
  | indented _ => ": "

end Layout

/-! ## texts -/

def escape (c : Char) : List Char :=
  if c = '"' then ['\\', '"']
  else if c = '\\' then ['\\', '\\']
  else if c = '\x08' then ['\\', 'b']
  else if c = '\x0c' then ['\\', 'f']
  else if c = '\n' then ['\\', 'n']
  else if c = '\r' then ['\\', 'r']
  else if c = '\t' then ['\\', 't']
  else if c < ' ' then ['\\', 'u', '0', '0'] ++ Text.twoDigits Text.lowerDigits c.toNat
  else [c]

def renderText (s : String) : String := "\"" ++ String.ofList (s.toList.flatMap escape) ++ "\""

/-! ## values -/

mutual

def render (layout : Layout) : Value → String
  | .null => "null"
  | .flag true => "true"
  | .flag false => "false"
  | .whole n => toString n
  | .fraction literal => literal
  | .text s => renderText s
  | .list [] => "[]"
  | .list (v :: rest) =>
    "[" ++ layout.deeper.lineBreak ++ render layout.deeper v ++ renderItems layout.deeper rest ++
      layout.lineBreak ++ "]"
  | .record [] => "\x7b\x7d"
  | .record ((name, v) :: rest) =>
    "\x7b" ++ layout.deeper.lineBreak ++ renderText name ++ layout.colon ++
      render layout.deeper v ++ renderMembers layout.deeper rest ++ layout.lineBreak ++ "\x7d"

/-- the text of the items after the first -/
def renderItems (layout : Layout) : List Value → String
  | [] => ""
  | v :: rest => "," ++ layout.lineBreak ++ render layout v ++ renderItems layout rest

/-- the text of the members after the first -/
def renderMembers (layout : Layout) : List (String × Value) → String
  | [] => ""
  | (name, v) :: rest =>
    "," ++ layout.lineBreak ++ renderText name ++ layout.colon ++ render layout v ++
      renderMembers layout rest

end

/-- the text of a value on one line -/
def line (v : Value) : String := render .oneLine v

/-- the text of a value over several lines -/
def lines (v : Value) : String := render (.indented 0) v

end Precinct.Json
