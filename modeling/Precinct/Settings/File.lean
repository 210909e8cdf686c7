import Precinct.Data.Settings
import Precinct.Toml.Document
import Precinct.Toml.Printer

/-!
# Settings in files

* `Settings.ofText`, `ProgramSettings.ofText`  the settings that a document holds, checked.  Unknown
                   entries are passed over, and so are items of a list beyond the last field;
* `Place`          what a path leads to;
* `load`           the settings at a place.  Where there is nothing the defaults are written, so
                   that there is something to edit; what is there already is left as it is.
-/

namespace Precinct
open Data (Structured)

/-! ## documents -/

def parseDocument (α : Type) [Structured α] (s : String) : Except SettingsError α :=
  match (Toml.ofText? s).bind (Structured.read α true) with
  | some a => .ok a
  | none => .error .parse

/-- the settings of a cache in a document -/
def Settings.ofText (s : String) : Except SettingsError Settings := do
  let settings ← parseDocument Settings s
  settings.validate
  return settings

def Settings.text (s : Settings) : String := Toml.renderTable (Structured.members s)

/-- the settings of a program in a document -/
def ProgramSettings.ofText (s : String) : Except SettingsError ProgramSettings := do
  let settings ← parseDocument ProgramSettings s
  settings.cache.validate
  return settings

def ProgramSettings.text (s : ProgramSettings) : String :=
  Toml.renderTables
    [("cache", Structured.members s.cache), ("logging", Structured.members s.logging)]

/-! ## files -/

/-- what a path leads to -/
inductive Place where
  | missing
  /-- nothing is there, and nothing can be put there -/
  | unreachable
  | directory
  | file (bytes : ByteArray)

def Place.text? : Place → Option String
  | file bytes => String.fromUTF8? bytes
  | _ => none

/-- read what is at a place, or put a default there; what is there afterwards -/
def load {α : Type} (parse : String → Except SettingsError α) (default : α) (text : String)
    (place : Place) : Except SettingsError α × Place :=
  match place with
  | .missing => (.ok default, .file text.toUTF8)
  | .unreachable => (.error .fileWrite, place)
  | .directory => (.error .fileRead, place)
  | .file bytes =>
    match String.fromUTF8? bytes with
    | some s => (parse s, place)
    | none => (.error .fileRead, place)

/-- the settings of a cache at a place -/
def Settings.load (place : Place) : Except SettingsError Settings × Place :=
  Precinct.load Settings.ofText {} ({} : Settings).text place

/-- the settings of a program at a place -/
def ProgramSettings.load (place : Place) : Except SettingsError ProgramSettings × Place :=
  Precinct.load ProgramSettings.ofText {} ({} : ProgramSettings).text place

end Precinct
