import Precinct.Data.Value
import Precinct.Text.Digits

/-!
# Writing documents

* `Toml.renderTable`   the entries of a table, one on each line;
* `Toml.renderTables`  several tables with their headers, a blank line before each but the first.

Settings hold texts, whole numbers and yes or no; a value of another kind has no line.
-/

namespace Precinct.Toml
open Data (Value)

def escape (c : Char) : List Char :=
  if c = '"' then ['\\', '"']
  else if c = '\\' then ['\\', '\\']
  else if c < ' ' ∨ c = '\x7f' then ['\\', 'u', '0', '0'] ++ Text.twoDigits Text.upperDigits c.toNat
  else [c]

def renderText (s : String) : String := "\"" ++ String.ofList (s.toList.flatMap escape) ++ "\""

/-- an entry on a line of its own -/
def renderEntry (name : String) : Value → String
  | .flag true => name ++ " = true\n"
  | .flag false => name ++ " = false\n"
  | .whole n => name ++ " = " ++ toString n ++ "\n"
  | .text s => name ++ " = " ++ renderText s ++ "\n"
  | _ => ""

def renderTable (members : List (String × Value)) : String :=
  String.join (members.map fun (name, v) => renderEntry name v)

def renderTables (tables : List (String × List (String × Value))) : String :=
  "\n".intercalate (tables.map fun (name, members) => "[" ++ name ++ "]\n" ++ renderTable members)

end Precinct.Toml
