/-!
# Trees of values

* `Value`          what a document holds: nothing, a yes or no, a number, a text, a list of values
                   or a record of named values.  A number written with a point or an exponent is
                   kept as it was written, for no field of this library takes one;
* `Value.parts?`   the fields of a structure, from a record by name or from a list by position;
* `Structured`     a type that is written as a structure and read back from one.

A record has its members as they are written, so one name may occur several times.
-/

namespace Precinct.Data

/-- a value of a document -/
inductive Value where
  | null
  | flag (b : Bool)
  | whole (n : Int)
  /-- a number that is not written as a whole one -/
  | fraction (literal : String)
  | text (s : String)
  | list (items : List Value)
  | record (members : List (String × Value))
  deriving Inhabited, Repr

namespace Value

/-! ## plain values -/

def flag? : Value → Option Bool
  | flag b => some b
  | _ => none

def text? : Value → Option String
  | text s => some s
  | _ => none

def int32? : Value → Option Int32
  | whole n =>
    if Int32.minValue.toInt ≤ n ∧ n ≤ Int32.maxValue.toInt then some (Int32.ofInt n) else none
  | _ => none

def uint64? : Value → Option UInt64
  | whole n => if 0 ≤ n ∧ n < UInt64.size then some n.toNat.toUInt64 else none
  | _ => none

def ofInt32 (n : Int32) : Value := whole n.toInt

def ofUInt64 (n : UInt64) : Value := whole n.toNat

/-- a coordinate is read back from its value -/
theorem int32?_ofInt32 (n : Int32) : (ofInt32 n).int32? = some n := by
  have hlo := Int32.minValue_le_toInt n
  have hhi := Int32.toInt_le n
  have h : Int32.minValue.toInt ≤ n.toInt ∧ n.toInt ≤ Int32.maxValue.toInt := ⟨hlo, hhi⟩
  rw [ofInt32, int32?, if_pos h, Int32.ofInt_toInt]

/-- a count is read back from its value -/
theorem uint64?_ofUInt64 (n : UInt64) : (ofUInt64 n).uint64? = some n := by
  have h : (0 : Int) ≤ n.toNat ∧ (n.toNat : Int) < UInt64.size := by
    have := UInt64.toNat_lt_size n
    omega
  rw [ofUInt64, uint64?, if_pos h, Int.toNat_natCast]
  exact congrArg some UInt64.ofNat_toNat

/-! ## structures -/

/-- the values of the fields of a structure, `none` for those that are absent.  No field may be given
twice; other names may.  A list gives the fields in order; whether it may hold more values than there
are fields is up to the document -/
def parts? (names : List String) (surplus : Bool) : Value → Option (List (Option Value))
  | record members =>
    if names.all fun name => members.countP (·.1 = name) ≤ 1 then
      some (names.map fun name => members.lookup name)
    else none
  | list items =>
    if surplus || items.length ≤ names.length then
      some ((List.range names.length).map fun i => items[i]?)
    else none
  | _ => none

end Value

/-- a type that is written as a structure -/
class Structured (α : Type) where
  /-- the names of the fields -/
  names : List String
  /-- the values of the fields, in the order of their names -/
  parts : α → List Value
  /-- the structure with some fields; `surplus` is for the lists within -/
  ofParts? (surplus : Bool) : List (Option Value) → Option α

namespace Structured
variable {α : Type} [Structured α]

/-- the members of the record of a structure -/
def members (a : α) : List (String × Value) := (names α).zip (parts a)

def toRecord (a : α) : Value := .record (members a)

/-- a structure as a list of its fields -/
def toList (a : α) : Value := .list (parts a)

def read (α : Type) [Structured α] (surplus : Bool) (v : Value) : Option α :=
  (v.parts? (names α) surplus).bind (ofParts? surplus)

def optional {β : Type} (absent : β) (read : Value → Option β) : Option Value → Option β
  | none => some absent
  | some v => read v

end Structured
end Precinct.Data
