import Precinct.Probe.Run
import Precinct.Text.Digits

/-!
# The arguments of the probe

* `Flag`      what an argument can set, by its long name and maybe a letter;
* `Word`      an argument taken apart;
* `Command`   what the arguments ask for;
* `Command.read`  the arguments one after the other.  The first that is wrong has them all refused,
              unless the help or the version was asked for before.

A value is joined to its flag (`--radius=2`, `-r5`, `-r=5`) or is the next argument, which then must
not look like a flag.  No flag may be given twice, and nothing may stand without a flag.
-/

namespace Precinct.Probe

/-- what an argument can set or ask for -/
inductive Flag where
  | config
  | regions
  | queries
  | radius
  | index
  | logLevel
  | jsonLogs
  | help
  | version
  deriving DecidableEq, Repr

namespace Flag

def ofName? : String → Option Flag
  | "config" => some config
  | "regions" => some regions
  | "queries" => some queries
  | "radius" => some radius
  | "index" => some index
  | "log-level" => some logLevel
  | "json-logs" => some jsonLogs
  | "help" => some help
  | "version" => some version
  | _ => none

def ofLetter? : Char → Option Flag
  | 'c' => some config
  | 'r' => some regions
  | 'q' => some queries
  | 'i' => some index
  | 'l' => some logLevel
  | 'h' => some help
  | 'V' => some version
  | _ => none

def hasValue : Flag → Bool
  | jsonLogs => false
  | help => false
  | version => false
  | _ => true

end Flag

/-! ## words -/

/-- an argument taken apart -/
inductive Word where
  /-- two hyphens alone: no flags follow -/
  | flagsEnd
  /-- a long name, maybe with a value -/
  | name (name : String) (value : Option String)
  /-- a letter with what is joined to it -/
  | letter (c : Char) (rest : List Char)
  /-- no flag -/
  | plain (s : String)
  deriving DecidableEq, Repr

/-- take an argument apart; a hyphen alone is no flag -/
def Word.ofText (s : String) : Word :=
  match s.toList with
  | ['-', '-'] => .flagsEnd
  | '-' :: '-' :: cs =>
    .name (String.ofList (cs.takeWhile (· != '='))) <|
      match cs.dropWhile (· != '=') with
      | [] => none
      | _ :: value => some (String.ofList value)
  | '-' :: c :: rest => .letter c rest
  | _ => .plain s

/-- the value that is joined to a letter -/
def joinedValue : List Char → Option String
  | [] => none
  | '=' :: value => some (String.ofList value)
  | value => some (String.ofList value)

/-! ## values -/

/-- a count of 64 bits, which may have a plus -/
def count? (s : String) : Option Nat := do
  let n ← match s.toList with
    | '+' :: cs => Text.natural? cs
    | cs => Text.natural? cs
  if n < UInt64.size then some n else none

/-- the largest radius that may be asked for -/
def maxRadius : Int := 1024

def radius? (s : String) : Option Int32 := do
  let n : Int ← match s.toList with
    | '-' :: cs => (Text.natural? cs).map fun n => -(n : Int)
    | '+' :: cs => (Text.natural? cs).map fun n => (n : Int)
    | cs => (Text.natural? cs).map fun n => (n : Int)
  if 0 ≤ n ∧ n ≤ maxRadius then some (Int32.ofInt n) else none

def storeKind? : String → Option StoreKind
  | "hash" => some .table
  | "rtree" => some .tree
  | _ => none

/-! ## commands -/

/-- what the arguments ask for -/
structure Command where
  /-- where the settings are -/
  path : String := "region_probe.toml"
  plan : Plan := {}
  logLevel : Option String := none
  jsonLogs : Bool := false
  deriving DecidableEq, Repr

/-- what comes of reading the arguments -/
inductive Request where
  | command (c : Command)
  /-- the help or the version was asked for -/
  | about
  | refused
  deriving DecidableEq, Repr

/-- arguments half read -/
structure Reading where
  command : Command := {}
  /-- the flags that were given -/
  given : List Flag := []
  /-- the flag whose value is the next argument -/
  pending : Option Flag := none

namespace Reading

/-- a command with the value of a flag -/
def assigned (c : Command) (flag : Flag) (value : String) : Option Command :=
  match flag with
  | .config => some { c with path := value }
  | .regions => (count? value).map fun n => { c with plan := { c.plan with regions := n } }
  | .queries => (count? value).map fun n => { c with plan := { c.plan with queries := n } }
  | .radius => (radius? value).map fun n => { c with plan := { c.plan with radius := n } }
  | .index => (storeKind? value).map fun kind => { c with plan := { c.plan with kind } }
  | .logLevel => some { c with logLevel := some value }
  | _ => none

/-- give a flag its value, unless it was given before -/
def assign (r : Reading) (flag : Flag) (value : String) : Option Reading :=
  if r.given.contains flag then none
  else (assigned r.command flag value).map fun command => { command, given := flag :: r.given }

/-- meet a flag, with a value joined to it or without -/
def meet (r : Reading) (flag : Flag) (value : Option String) : Option Reading :=
  match flag.hasValue, value with
  | true, some value => r.assign flag value
  | true, none => some { r with pending := some flag }
  | false, some _ => none
  | false, none =>
    if r.given.contains flag then none
    else some { r with command := { r.command with jsonLogs := true }, given := flag :: r.given }

end Reading

/-- read the arguments after some that were read -/
def readFrom (r : Reading) : List String → Request
  | [] => if r.pending.isNone then .command r.command else .refused
  | argument :: rest =>
    match r.pending, Word.ofText argument with
    | some flag, .plain value =>
      match r.assign flag value with
      | some r => readFrom r rest
      | none => .refused
    | none, .flagsEnd => if rest.isEmpty then .command r.command else .refused
    | none, .name name value =>
      match Flag.ofName? name with
      | none => .refused
      | some flag =>
        if (flag = .help ∨ flag = .version) ∧ value.isNone then .about
        else
          match r.meet flag value with
          | some r => readFrom r rest
          | none => .refused
    | none, .letter c joined =>
      match Flag.ofLetter? c with
      | none => .refused
      | some flag =>
        if flag = .help ∨ flag = .version then .about
        else
          match r.meet flag (joinedValue joined) with
          | some r => readFrom r rest
          | none => .refused
    | _, _ => .refused

def Request.ofArguments (arguments : List String) : Request := readFrom {} arguments

end Precinct.Probe
