/-!
# Cancel tokens

* `Tokens`  a family of tokens.  Several tokens may share one flag: cancelling any of them cancels
            all, and a cancelled flag stays cancelled.
-/

namespace Precinct

/-- tokens by number, each with the number of its flag, and which flags are raised -/
structure Tokens where
  flagOf : Array Nat := #[]
  raised : Array Bool := #[]
  deriving Inhabited

namespace Tokens

/-- one more token with a flag of its own -/
def fresh (t : Tokens) : Tokens :=
  { flagOf := t.flagOf.push t.raised.size, raised := t.raised.push false }

/-- one more token that shares the flag of token `i` -/
def share (t : Tokens) (i : Nat) : Tokens :=
  match t.flagOf[i]? with
  | some flag => { t with flagOf := t.flagOf.push flag }
  | none => t

/-- raise the flag of token `i` -/
def cancel (t : Tokens) (i : Nat) : Tokens :=
  match t.flagOf[i]? with
  | some flag => { t with raised := t.raised.setIfInBounds flag true }
  | none => t

def states (t : Tokens) : List Bool := t.flagOf.toList.map fun flag => t.raised[flag]?.getD false

end Tokens
end Precinct
