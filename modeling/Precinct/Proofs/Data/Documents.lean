import Mathlib
import Precinct.Proofs.Data.Restated

/-!
# Documents of every type

* `Structured.decode`, `Shape.decode`  what a text says of a structure, and of a shape;
* `Structured.decode_of_twice`  a field that is given twice is refused;
* `RoundTrips`          documents keep the values of a type: the record that is written, every other way to
                        write it and the list of the fields are all read as the value;
* `documents_keep`      **documents keep the values of every type**, a shape alone in its record among
                        them, and a setting that is left out has its default.

A shape is a record of one member, whose name tells its kind.  Its fields are written inside that member
as those of a structure are, as a record or as a list; other names may stand among them, but none beside
the kind (`Shape.ofValue?_crowded`, `noted_cube`).
-/

namespace Precinct
open Data (Value Structured LawfulStructured Abridges)
open Json (Layout Writable)

/-! ## structures -/

namespace Data

/-- what a text says of a structure -/
def Structured.decode (α : Type) [Structured α] (s : String) : Option α :=
  (Json.ofText? s).bind (Structured.read α false)

theorem Structured.decode_render {α : Type} [Structured α] {w : Value} (hw : Writable w)
    (layout : Layout) : Structured.decode α (Json.render layout w) = Structured.read α false w := by
  rw [Structured.decode, Json.ofText?_render hw, Option.bind_some]

/-- **A field that is given twice** is not read, whichever of its values came last. -/
theorem Structured.decode_of_twice {α : Type} [Structured α] {name : String} (hname : name ∈ names α)
    {ws : List (String × Value)} (twice : 1 < ws.countP (·.1 = name)) (hw : Writable (.record ws))
    (layout : Layout) : Structured.decode α (Json.render layout (.record ws)) = none := by
  rw [Structured.decode_render hw, Structured.read, parts?_of_twice hname twice, Option.bind_none]

/-- documents keep the values of a type -/
structure RoundTrips (α : Type) [Structured α] : Prop where
  /-- what is written is read -/
  encoded (a : α) (layout : Layout) :
    Structured.decode α (Json.render layout (Structured.toRecord a)) = some a
  /-- so is every other way to write it: in another order, with unknown names, as a list of the fields -/
  restated (a : α) (layout : Layout) {w : Value} (h : (Structured.toRecord a).Restates w)
    (hw : Writable w) : Structured.decode α (Json.render layout w) = some a
  /-- so is the list of the fields that the value itself gives -/
  listed (a : α) (layout : Layout) :
    Structured.decode α (Json.render layout (Structured.toList a)) = some a

theorem roundTrips (α : Type) [Structured α] [LawfulStructured α] : RoundTrips α := by
  have hread : ∀ (a : α) (layout : Layout) {w : Value}, (Structured.toRecord a).Restates w →
      Writable w → Structured.decode α (Json.render layout w) = some a := fun a layout w h hw => by
    rw [Structured.decode_render hw, Structured.read_restated h]
  exact
    { encoded := fun a layout => hread a layout (.same _) (Structured.writable_toRecord a)
      restated := hread
      listed := fun a layout =>
        hread a layout (Structured.restates_toList a) (Structured.writable_toList a) }

end Data

/-! ## shapes -/

namespace Shape

/-- what a text says of a shape -/
def decode (s : String) : Option Shape := (Json.ofText? s).bind ofValue?

theorem decode_render {w : Value} (hw : Writable w) (layout : Layout) :
    decode (Json.render layout w) = ofValue? w := by
  rw [decode, Json.ofText?_render hw, Option.bind_some]

theorem writable_toValue (shape : Shape) : Writable shape.toValue := by
  have hblock : ∀ b : Block, Writable (Structured.toRecord b) := Structured.writable_toRecord
  have hfields : ∀ {kind : String} {fields : List (String × Value)}, Writable (.record fields) →
      Writable (.record [(kind, .record fields)]) := fun h =>
    .record fun _ hm => List.mem_singleton.mp hm ▸ h
  cases shape with
  | cuboid min max => exact hfields (.record (by simp [hblock]))
  | polygon outline minY maxY =>
    have houtline : Writable (.list (outline.map Plane.Point.toValue)) := by
      refine .list fun v hv => ?_
      obtain ⟨p, -, rfl⟩ := List.mem_map.mp hv
      exact .list (by simp)
    exact hfields (.record (by simp [houtline]))

/-- **No member may stand beside the kind** of a shape, nor may it be missing. -/
theorem ofValue?_crowded {members : List (String × Value)} (h : members.length ≠ 1) :
    ofValue? (.record members) = none := by
  rcases members with _ | ⟨m, _ | ⟨m', rest⟩⟩
  · rfl
  · exact absurd rfl h
  · unfold ofValue?
    split <;> simp_all

end Shape

/-! ## every type -/

open Data (RoundTrips roundTrips)

/-- **Documents keep the values of every type**, and a setting that is left out has its default. -/
theorem documents_keep :
    (RoundTrips Block ∧ RoundTrips Column ∧ RoundTrips Box ∧ RoundTrips Stats ∧ RoundTrips Settings ∧
      RoundTrips Logging ∧ RoundTrips ProgramSettings) ∧
    (∀ (shape : Shape) (layout : Layout),
      Shape.decode (Json.render layout shape.toValue) = some shape ∧
      ∀ w, shape.Restates w → Writable w → Shape.decode (Json.render layout w) = some shape) ∧
    (∀ (layout : Layout) (members : List (String × Value)), members.length ≠ 1 →
      Writable (.record members) → Shape.decode (Json.render layout (.record members)) = none) ∧
    (∀ (s : Settings) (layout : Layout) (dropped : String → Bool) (ws : List (String × Value)),
      Abridges dropped (Structured.members s) ws → Writable (.record ws) →
      Structured.decode Settings (Json.render layout (.record ws)) = some (s.reset dropped)) ∧
    ∀ (s : ProgramSettings) (layout : Layout) (dropped inCache : String → Bool)
      (cache ws : List (String × Value)) (logging : Value),
      Abridges dropped [("cache", .record cache), ("logging", logging)] ws →
      Abridges inCache (Structured.members s.cache) cache →
      (Structured.toRecord s.logging).Restates logging → Writable (.record ws) →
      Structured.decode ProgramSettings (Json.render layout (.record ws)) =
        some (s.reset dropped inCache) := by
  refine ⟨⟨roundTrips _, roundTrips _, roundTrips _, roundTrips _, roundTrips _, roundTrips _,
    roundTrips _⟩, fun shape layout => ?_, fun layout members hmembers hw => ?_,
    fun s layout dropped ws h hw => ?_,
    fun s layout dropped inCache cache ws logging h hcache hlogging hw => ?_⟩
  · have hread : ∀ w, shape.Restates w → Writable w →
        Shape.decode (Json.render layout w) = some shape := fun w h hw => by
      rw [Shape.decode_render hw, Shape.ofValue?_restated h]
    exact ⟨hread _ shape.restates_toValue shape.writable_toValue, hread⟩
  · rw [Shape.decode_render hw, Shape.ofValue?_crowded hmembers]
  · rw [Structured.decode_render hw, Settings.read_abridged h]
  · rw [Structured.decode_render hw, ProgramSettings.read_abridged h hcache hlogging]

/-! ### a cube and settings without a hot column -/

def cube : Shape := .cuboid ⟨0, 0, 0⟩ ⟨1, 1, 1⟩

def cubeFields : List (String × Value) :=
  [("min", Structured.toRecord (⟨0, 0, 0⟩ : Block)), ("max", Structured.toRecord (⟨1, 1, 1⟩ : Block))]

theorem writable_cubeFields : ∀ m ∈ cubeFields, Writable m.2 :=
  List.forall_mem_cons.mpr ⟨Structured.writable_toRecord _,
    List.forall_mem_singleton.mpr (Structured.writable_toRecord _)⟩

/-- a note among the fields of a cube -/
theorem noted_fields : Abridges (fun _ => false) cubeFields (("note", .null) :: cubeFields) :=
  (Abridges.refl (by decide)).cons .null (by decide)

def plain : Settings := { hotColumn := false }

/-- every other setting is left out -/
theorem plain_abridged :
    Abridges (· != "hot_column") (Structured.members plain) [("hot_column", .flag false)] :=
  ⟨by decide, [], .refl _, nofun⟩

/-- a box with its ends in the other order, one of them a list; a cube with a note among its fields;
settings of which one is given, and those of a program with nothing else -/
theorem documents_keep_noted :
    Structured.decode Box (Json.line (.record [("max", Structured.toList (⟨1, 2, 3⟩ : Block)),
      ("min", Structured.toRecord (⟨0, 0, 0⟩ : Block))])) = some ⟨⟨0, 0, 0⟩, ⟨1, 2, 3⟩⟩ ∧
    Shape.decode (Json.line (.record [("Cuboid", .record (("note", .null) :: cubeFields))])) =
      some cube ∧
    Structured.decode Settings (Json.line (.record [("hot_column", .flag false)])) = some plain ∧
    Structured.decode ProgramSettings (Json.line (.record
      [("cache", .record [("hot_column", .flag false)])])) = some { cache := plain } := by
  have hbox : (Structured.toRecord (⟨⟨0, 0, 0⟩, ⟨1, 2, 3⟩⟩ : Box)).Restates (.record
      [("max", Structured.toList (⟨1, 2, 3⟩ : Block)),
        ("min", Structured.toRecord (⟨0, 0, 0⟩ : Block))]) := by
    refine .named (fun name => if name = "min" then Structured.toRecord (⟨0, 0, 0⟩ : Block)
      else Structured.toList (⟨1, 2, 3⟩ : Block)) ⟨by decide, [], .swap _ _ _, nofun⟩ ?_
    exact List.forall_mem_cons.mpr ⟨.same _, List.forall_mem_singleton.mpr (Structured.restates_toList _)⟩
  have hcube : cube.Restates (.record [("Cuboid", .record (("note", .null) :: cubeFields))]) :=
    ⟨_, cubeFields, _, rfl, .of_abridges noted_fields, rfl⟩
  have hprogram : Abridges (· == "logging") [("cache", .record [("hot_column", .flag false)]),
      ("logging", Structured.toRecord ({} : Logging))]
      [("cache", .record [("hot_column", .flag false)])] := ⟨by decide, [], .refl _, nofun⟩
  have hplain : Writable (.record [("hot_column", .flag false)]) :=
    .record (List.forall_mem_singleton.mpr (.flag false))
  refine ⟨documents_keep.1.2.2.1.restated _ .oneLine hbox (.record ?_),
    (documents_keep.2.1 cube .oneLine).2 _ hcube (.record ?_),
    documents_keep.2.2.2.1 plain .oneLine _ _ plain_abridged hplain,
    documents_keep.2.2.2.2 { cache := plain } .oneLine _ _ _ _ _ hprogram plain_abridged (.same _)
      (.record (List.forall_mem_singleton.mpr hplain))⟩
  · exact List.forall_mem_cons.mpr ⟨Structured.writable_toList _,
      List.forall_mem_singleton.mpr (Structured.writable_toRecord _)⟩
  · exact List.forall_mem_singleton.mpr
      (.record (List.forall_mem_cons.mpr ⟨.null, writable_cubeFields⟩))

/-- **A note beside the kind of a shape** is not passed over: the cube is not read. -/
theorem noted_cube :
    cube.toValue = .record [("Cuboid", .record cubeFields)] ∧
    Abridges (fun _ => false) [("Cuboid", .record cubeFields)]
      [("note", .null), ("Cuboid", .record cubeFields)] ∧
    Writable (.record [("note", .null), ("Cuboid", .record cubeFields)]) ∧
    Shape.decode (Json.line (.record [("note", .null), ("Cuboid", .record cubeFields)])) ≠
      some cube := by
  have hw : Writable (.record [("note", .null), ("Cuboid", .record cubeFields)]) :=
    .record (List.forall_mem_cons.mpr ⟨.null,
      List.forall_mem_singleton.mpr (.record writable_cubeFields)⟩)
  refine ⟨rfl, (Abridges.refl (by decide)).cons .null (by decide), hw, ?_⟩
  rw [Json.line, Shape.decode_render hw, Shape.ofValue?_crowded (by decide)]
  exact nofun

end Precinct
