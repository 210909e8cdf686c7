import Precinct.Text.Quoted

/-!
# Names of regions

* `RegionError`   why a region cannot be described, with its wording;
* `normalizeName` the stored form of a name: only letters, digits and `_ , ' - + /` are allowed, and
                  letters are stored in lower case.  Look-ups lower-case with the full rules of
                  `Text.lowerCase`, which agree with this form on every allowed name.
-/

namespace Precinct

/-- why a region cannot be described -/
inductive RegionError where
  | invalidId (id : String)
  | tooFewPoints (id : String) (count : Nat)
  deriving DecidableEq, Repr

namespace RegionError

def message : RegionError → String
  | invalidId id =>
    "Invalid region id " ++ Text.quoted id ++
      ": only letters, digits and _ , ' - + / are allowed"
  | tooFewPoints id count =>
    "Polygonal region " ++ id ++ " needs at least 3 points, got " ++ toString count

end RegionError

/-- a character that a name may hold -/
def isNameChar (c : Char) : Bool := c.isAlphanum || ['_', ',', '\'', '-', '+', '/'].contains c

/-- the stored form of a name -/
def normalizeName (id : String) : Except RegionError String :=
  if !id.isEmpty && id.toList.all isNameChar then .ok (Text.lowerCase id)
  else .error (.invalidId id)

end Precinct
