import Precinct.Data.Value

/-!
# Tables under construction

A document is a sequence of statements: headers, which say what table the statements after them are
about, and entries.  Statements may come in almost any order, so it is kept of every table how it
came about, and a statement is refused that would define something twice.

* `Origin`      a table comes about by a header of its own, as the way to a deeper header, or as the
                way to an entry with a dotted name;
* `Node`        what a name stands for while the document is read;
* `addEntry`    an entry, maybe below tables of the third kind.  A table with a header is not
                entered this way, and a table of the second kind only on the way to one of the
                third;
* `openTable`, `appendTable`  the effect of a header;
* `ofStatements`  the record of a whole document.
-/

namespace Precinct.Toml
open Data (Value)

/-- how a table came about -/
inductive Origin where
  | header
  | implied
  | dotted
  deriving DecidableEq, Repr

/-- what a name stands for while a document is read -/
inductive Node where
  | leaf (v : Value)
  | table (origin : Origin) (members : List (String × Node))
  /-- tables that share a header, the latest first -/
  | tables (items : List Node)

/-- named nodes -/
abbrev Members := List (String × Node)

namespace Node

mutual

def toValue : Node → Value
  | leaf v => v
  | table _ members => .record (membersToValues members)
  | tables items => .list (itemsToValues items).reverse

def membersToValues : List (String × Node) → List (String × Value)
  | [] => []
  | (name, node) :: rest => (name, node.toValue) :: membersToValues rest

def itemsToValues : List Node → List Value
  | [] => []
  | node :: rest => node.toValue :: itemsToValues rest

end

end Node

/-! ## entries -/

/-- give a name its value among some members, in place of the one it had -/
def setMember {α : Type} (name : String) (a : α) : List (String × α) → List (String × α)
  | [] => [(name, a)]
  | m :: rest => if m.1 = name then (name, a) :: rest else m :: setMember name a rest

def addEntry (name : String) (v : Value) : List String → Members → Option Members
  | [], members =>
    match members.lookup name with
    | none => some (setMember name (.leaf v) members)
    | some _ => none
  | step :: path, members =>
    match members.lookup step with
    | none => do
      return setMember step (.table .dotted (← addEntry name v path [])) members
    | some (.table origin inner) => do
      if origin = .header ∨ (path = [] ∧ origin = .implied) then none
      else return setMember step (.table origin (← addEntry name v path inner)) members
    | some (.tables (.table origin inner :: older)) => do
      if path = [] then none
      else
        return setMember step (.tables (.table origin (← addEntry name v path inner) :: older))
          members
    | some _ => none

/-- change the members of the table that a header has opened -/
def within (change : Members → Option Members) : List String → Members → Option Members
  | [], members => change members
  | step :: path, members =>
    match members.lookup step with
    | some (.table origin inner) => do
      return setMember step (.table origin (← within change path inner)) members
    | some (.tables (.table origin inner :: older)) => do
      return setMember step (.tables (.table origin (← within change path inner) :: older)) members
    | _ => none

/-! ## headers -/

/-- change what the last name of a header stands for, the tables on the way implied -/
def define (change : Option Node → Option Node) : List String → Members → Option Members
  | [], _ => none
  | [name], members => do return setMember name (← change (members.lookup name)) members
  | step :: path, members =>
    match members.lookup step with
    | none => do return setMember step (.table .implied (← define change path [])) members
    | some (.table origin inner) => do
      return setMember step (.table origin (← define change path inner)) members
    | some (.tables (.table origin inner :: older)) => do
      return setMember step (.tables (.table origin (← define change path inner) :: older)) members
    | some _ => none

def openTable : Option Node → Option Node
  | none => some (.table .header [])
  | some (.table .implied members) => some (.table .header members)
  | some _ => none

def appendTable : Option Node → Option Node
  | none => some (.tables [.table .header []])
  | some (.tables items) => some (.tables (.table .header [] :: items))
  | some _ => none

/-! ## documents -/

/-- a statement of a document -/
inductive Statement where
  | header (path : List String)
  | sharedHeader (path : List String)
  | entry (path : List String) (name : String) (v : Value)

/-- what is known of a document, and the table that the next entries are about -/
structure Draft where
  root : Members := []
  place : List String := []

def Draft.add (d : Draft) : Statement → Option Draft
  | .header path => do return { root := ← define openTable path d.root, place := path }
  | .sharedHeader path => do return { root := ← define appendTable path d.root, place := path }
  | .entry path name v => do
    return { d with root := ← within (addEntry name v path) d.place d.root }

def ofStatements (statements : List Statement) : Option Value := do
  let d ← statements.foldlM Draft.add {}
  return (Node.table .header d.root).toValue

/-- the record of a table that is written in one piece -/
def ofEntries (entries : List (List String × String × Value)) : Option Value := do
  let members ← entries.foldlM (fun members (path, name, v) => addEntry name v path members) []
  return (Node.table .header members).toValue

end Precinct.Toml
