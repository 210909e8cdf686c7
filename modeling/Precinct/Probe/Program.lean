import Precinct.Json.Printer
import Precinct.Probe.Arguments
import Precinct.Settings.File

/-!
# The probe as a program

* `Outcome`          what a run of the program leaves: its exit code, maybe a report, and the
                     settings at their place;
* `Command.perform`  the settings are loaded, and the plan is carried out with them.

The exit code is 0 when cache and store agreed, 1 when they did not or the settings were refused, 2
for wrong arguments, and 101 when the run broke off.
-/

namespace Precinct.Probe

/-- what a run of the program leaves -/
structure Outcome where
  exit : UInt32
  report : Option Report := none
  /-- what is at the place of the settings afterwards -/
  place : Place
  /-- why the settings were refused -/
  complaint : Option SettingsError := none

/-- the exit code for wrong arguments -/
def refusedExit : UInt32 := 2

def Failure.exit : Failure → UInt32
  | broken _ => 101
  | region _ => 1
  | settings _ => 1

def Report.exit (r : Report) : UInt32 := if r.check.passed then 0 else 1

/-- load the settings from a place and carry the plan out with them -/
def Command.perform (c : Command) (place : Place) : Outcome :=
  match ProgramSettings.load place with
  | (.error e, place) => { exit := 1, place, complaint := some e }
  | (.ok settings, place) =>
    match run c.plan settings.cache with
    | .ok report => { exit := report.exit, report := some report, place }
    | .error failure => { exit := failure.exit, place }

def Report.text (r : Report) : String := Json.lines r.toValue

/-- the line that tells why the settings were refused -/
def complaintText (e : SettingsError) : String :=
  "❌ Failed to load configuration: " ++
    match e, e.message with
    | _, some message => message
    | .parse, none => "the file is not a document of settings"
    | .fileWrite, none => "the file cannot be written"
    | _, none => "the file cannot be read"

end Precinct.Probe
