import Precinct.Text.Blank

/-!
# Settings of a cache

* `Settings`           the six settings, each with a default;
* `Settings.validate`  the checks, in the order in which they are reported;
* `SettingsError`      why settings are refused, with the wording where there is one;
* `KeepAlive`          the idle time of a worker, in seconds and milliseconds.
-/

namespace Precinct

/-- how a cache and its workers are set up -/
structure Settings where
  /-- workers kept while there is nothing to do -/
  minThreads : UInt64 := 0
  /-- the most workers at one time -/
  maxThreads : UInt64 := 4
  /-- milliseconds without work after which a worker above the minimum goes -/
  keepAliveMs : UInt64 := 60000
  /-- what the names of workers begin with -/
  threadName : String := "region-cache"
  /-- whether the column asked for last is kept at hand -/
  hotColumn : Bool := true
  /-- columns for one background job when many are scheduled together -/
  batchSize : UInt64 := 64
  deriving DecidableEq, Inhabited, Repr

/-- why settings cannot be used -/
inductive SettingsError where
  | noWorkers
  | threadBounds (min max : UInt64)
  | zeroBatchSize
  | emptyThreadName
  /-- the text is no document, or not one of settings -/
  | parse
  /-- the file cannot be read as text -/
  | fileRead
  /-- the file cannot be written -/
  | fileWrite
  deriving DecidableEq, Repr

/-- the wording of an error, for those that have one of their own -/
def SettingsError.message : SettingsError → Option String
  | noWorkers => some "max_threads must be at least 1"
  | threadBounds min max =>
    some ("min_threads (" ++ toString min.toNat ++ ") cannot exceed max_threads (" ++
      toString max.toNat ++ ")")
  | zeroBatchSize => some "rebuild_batch_size must be at least 1"
  | emptyThreadName => some "thread_name cannot be empty"
  | parse => none
  | fileRead => none
  | fileWrite => none

/-- a span of time in whole seconds and the milliseconds over -/
structure KeepAlive where
  secs : Nat
  millis : Nat
  deriving DecidableEq, Repr

namespace Settings

/-- the idle time after which a worker above the minimum goes -/
def keepAlive (s : Settings) : KeepAlive := ⟨s.keepAliveMs.toNat / 1000, s.keepAliveMs.toNat % 1000⟩

def validate (s : Settings) : Except SettingsError Unit :=
  if s.maxThreads = 0 then .error .noWorkers
  else if s.maxThreads < s.minThreads then .error (.threadBounds s.minThreads s.maxThreads)
  else if s.batchSize = 0 then .error .zeroBatchSize
  else if Text.isBlank s.threadName then .error .emptyThreadName
  else .ok ()

end Settings
end Precinct
