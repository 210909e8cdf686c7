/-!
# Reading text from the front

* `Reader α`  takes a value of type `α` from the front of a list of characters, or refuses it;
* `many`      values as long as there are any.  Each of them takes a character at least, so there
              are no more of them than characters.
-/

namespace Precinct.Toml

/-- takes a value from the front of a text -/
abbrev Reader (α : Type) := StateT (List Char) Option α

namespace Reader

/-- the next character, which stays -/
def peek : Reader (Option Char) := do return (← get).head?

def item : Reader Char := do
  match ← get with
  | [] => failure
  | c :: rest => set rest; return c

/-- the characters that pass a test, up to the first that does not -/
def takeWhile (p : Char → Bool) : Reader (List Char) := do
  let cs ← get
  set (cs.dropWhile p)
  return cs.takeWhile p

/-- whether some characters come next, which stay -/
def sees (expected : List Char) : Reader Bool := do return expected.isPrefixOf (← get)

/-- take some characters if they come next; whether they did -/
def accept (expected : List Char) : Reader Bool := do
  if ← sees expected then
    set ((← get).drop expected.length)
    return true
  else return false

/-- take some characters, which must come next -/
def expect (expected : List Char) : Reader Unit := do
  unless ← accept expected do failure

/-- values until there are no more, after some that are given latest first, and no more of them than
a list has characters -/
def gather {α : Type} (next : Reader (Option α)) : List Char → List α → Reader (List α)
  | bound, before => do
    match ← next, bound with
    | none, _ => return before.reverse
    | some _, [] => failure
    | some a, _ :: bound => gather next bound (a :: before)

def many {α : Type} (next : Reader (Option α)) : Reader (List α) := do gather next (← get) []

def whole {α : Type} (reader : Reader α) (cs : List Char) : Option α :=
  match reader cs with
  | some (a, []) => some a
  | _ => none

end Reader
end Precinct.Toml
