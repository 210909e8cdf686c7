import Precinct.Probe.Program

/-!
# The command line of the probe

Looks at the file system and prints; what is done is decided in `Precinct.Probe.Program`.
-/

namespace Precinct.Probe

/-- what a path leads to; an empty file is put where there is none -/
def lookUp (path : String) : IO Place := do
  try
    return .file (← IO.FS.readBinFile path)
  catch
    | .noFileOrDirectory _ _ _ =>
      try
        IO.FS.writeFile path ""
        return .missing
      catch _ => return .unreachable
    | _ => return .directory

def usage : String :=
  "Usage: region_probe [-c FILE] [-r N] [-q N] [--radius COLUMNS] [-i hash|rtree] [-l LEVEL] " ++
    "[--json-logs]"

def execute (c : Command) : IO UInt32 := do
  let place ← lookUp c.path
  let outcome := c.perform place
  match place, outcome.place with
  | .missing, .file bytes => IO.FS.writeBinFile c.path bytes
  | _, _ => pure ()
  if let some e := outcome.complaint then IO.eprintln (complaintText e)
  if let some report := outcome.report then IO.println report.text
  return outcome.exit

end Precinct.Probe

def main (arguments : List String) : IO UInt32 := do
  match Precinct.Probe.Request.ofArguments arguments with
  | .command c => Precinct.Probe.execute c
  | .about =>
    IO.println Precinct.Probe.usage
    return 0
  | .refused =>
    IO.eprintln Precinct.Probe.usage
    return Precinct.Probe.refusedExit
