import Precinct.Text.CaseTable

/-!
# Lower case of a text

* `lowerChar`  the lower case of one character; only U+0130 becomes two characters;
* `lowerCase`  the lower case of a text.  The one rule that looks around is the capital sigma: it
               becomes the final `ς` when a cased letter stands before it and none after it,
               skipping ignorable characters on both sides, and `σ` otherwise.

`lowerAfter` walks the text once and keeps what it has passed, nearest first, so that both sides of
a sigma are read by the same `startsCased`.
-/

namespace Precinct.Text

/-! ## one character -/

/-- whether one of the ranges holds the number -/
def inRanges (n : Nat) (ranges : List (Nat × Nat)) : Bool :=
  ranges.any fun r => r.1 ≤ n && n ≤ r.2

/-- whether the character is one that the run maps -/
def CaseRun.covers (run : CaseRun) (n : Nat) : Bool :=
  run.first ≤ n && n ≤ run.last && (n - run.first) % run.stride == 0

/-- the lower case of a character beyond ASCII that has a single one -/
def lowerByTable (c : Char) : Char :=
  match lowerRuns.find? (·.covers c.toNat) with
  | some run => Char.ofNat (c.toNat + run.distance).toNat
  | none => c

/-- the lower case of one character, its place in the text left aside -/
def lowerChar (c : Char) : List Char :=
  if c.toNat < 0x80 then [c.toLower]
  else if c.toNat = 0x130 then ['i', Char.ofNat 0x307]
  else [lowerByTable c]

/-- a character with a case that a search for a neighbouring letter stops at -/
def isCased (c : Char) : Bool := inRanges c.toNat casedRanges

/-- a character that a search for a neighbouring letter skips -/
def isIgnorable (c : Char) : Bool := inRanges c.toNat ignorableRanges

/-! ## a text -/

/-- the first character that is not ignorable exists and has a case -/
def startsCased (cs : List Char) : Bool :=
  match cs.dropWhile isIgnorable with
  | [] => false
  | c :: _ => isCased c

/-- lower case of the rest of a text; `before` is what was passed, nearest first -/
def lowerAfter (before : List Char) : List Char → List Char
  | [] => []
  | c :: cs =>
    (if c.toNat = 0x3A3 then
      [Char.ofNat (if startsCased before && !startsCased cs then 0x3C2 else 0x3C3)]
    else lowerChar c) ++ lowerAfter (c :: before) cs

def lowerCase (s : String) : String := String.ofList (lowerAfter [] s.toList)

end Precinct.Text
