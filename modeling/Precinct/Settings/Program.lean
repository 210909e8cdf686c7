import Precinct.Settings.Basic

/-!
# Settings of a program

* `Logging`          how much a program tells of what it does, and in which form;
* `ProgramSettings`  the settings of its cache and of its log.
-/

namespace Precinct

/-- how a program keeps its log -/
structure Logging where
  level : String := "info"
  jsonFormat : Bool := false
  deriving DecidableEq, Inhabited, Repr

/-- the settings of a program that has a cache -/
structure ProgramSettings where
  cache : Settings := {}
  logging : Logging := {}
  deriving DecidableEq, Inhabited, Repr

end Precinct
