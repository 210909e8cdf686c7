import Mathlib
import Precinct.Data.Settings
import Precinct.Data.World
import Precinct.Proofs.Json.RoundTrip

/-!
# Structures, written and read

* `Abridges`              the members of a record in any order, some of them left out, with others whose
                          names are new: `Abridges.parts?` for the fields read from them.  A field that
                          is given twice is refused (`parts?_of_twice`);
* `Value.Restates`        another way to write a value: each record may have its members in another order
                          and more of them, or be a list of its values;
* `LawfulStructured`      a type that is read from every such way of writing its fields;
* `Structured.read_restated`  so it is read from every way of writing the whole;
* `Settings.reset`, `ProgramSettings.reset`  some fields at their defaults, the others as they were:
                          `Settings.read_abridged` and `ProgramSettings.read_abridged` for a record that
                          leaves them out;
* `Shape.Restates`        another way to write a shape, which is read as well
                          (`Shape.ofValue?_restated`).

A name tells which field a value is for wherever it stands, so nothing is said of the order of members.
-/

namespace Precinct.Data
open Json (Writable)

/-! ## fewer members, in another order, and more -/

/-- the members of a record in any order, without those that are dropped, and others with new names, of
which one may occur more than once -/
structure Abridges (dropped : String → Bool) (ms ws : List (String × Value)) : Prop where
  distinct : (ms.map Prod.fst).Nodup
  kept : ∃ unknown, ws.Perm (ms.filter (fun m => !dropped m.1) ++ unknown) ∧
    ∀ m ∈ unknown, m.1 ∉ ms.map Prod.fst

section
variable {dropped : String → Bool} {ms ws : List (String × Value)}

theorem Abridges.refl (distinct : (ms.map Prod.fst).Nodup) : Abridges (fun _ => false) ms ms :=
  have hall : ms.filter (fun _ => !false) = ms := List.filter_eq_self.mpr fun _ _ => rfl
  ⟨distinct, [], by rw [hall, List.append_nil], nofun⟩

/-- an unknown member in front -/
theorem Abridges.cons (h : Abridges dropped ms ws) {name : String} (v : Value)
    (hms : name ∉ ms.map Prod.fst) : Abridges dropped ms ((name, v) :: ws) := by
  obtain ⟨unknown, hperm, hunknown⟩ := h.kept
  refine ⟨h.distinct, (name, v) :: unknown,
    (hperm.cons (name, v)).trans List.perm_middle.symm, fun m hm => ?_⟩
  rcases List.mem_cons.mp hm with rfl | hm
  · exact hms
  · exact hunknown m hm

theorem lookup_eq_some {name : String} {v : Value} (h : (name, v) ∈ ws)
    (only : ∀ w ∈ ws, w.1 = name → w = (name, v)) : ws.lookup name = some v := by
  induction ws with
  | nil => cases h
  | cons w ws ih =>
    rw [List.lookup_cons]
    by_cases he : w.1 = name
    · rw [only w List.mem_cons_self he, beq_self_eq_true]
    · rw [beq_eq_false_iff_ne.mpr (Ne.symm he)]
      refine ih ((List.mem_cons.mp h).resolve_left fun hw => he (hw ▸ rfl)) fun u hu => ?_
      exact only u (List.mem_cons_of_mem w hu)

/-- the members with a known name are those of the record -/
theorem Abridges.mem (h : Abridges dropped ms ws) {m : String × Value} (hm : m ∈ ms)
    {w : String × Value} (hw : w ∈ ws) (he : w.1 = m.1) : w = m ∧ dropped m.1 = false := by
  obtain ⟨unknown, hperm, hunknown⟩ := h.kept
  rcases List.mem_append.mp (hperm.mem_iff.mp hw) with hw | hw
  · obtain ⟨hw, hkept⟩ := List.mem_filter.mp hw
    obtain rfl := List.inj_on_of_nodup_map h.distinct hw hm he
    exact ⟨rfl, by simpa using hkept⟩
  · exact absurd (he ▸ List.mem_map_of_mem hm) (hunknown w hw)

/-- the value of a name is the one it had, unless it is dropped -/
theorem Abridges.lookup (h : Abridges dropped ms ws) {m : String × Value} (hm : m ∈ ms) :
    ws.lookup m.1 = if dropped m.1 then none else some m.2 := by
  cases hd : dropped m.1 with
  | false =>
    obtain ⟨unknown, hperm, -⟩ := h.kept
    refine lookup_eq_some (hperm.mem_iff.mpr (List.mem_append_left _ ?_)) fun w hw he => ?_
    · exact List.mem_filter.mpr ⟨hm, by rw [hd]; rfl⟩
    · exact (h.mem hm hw he).1
  | true =>
    refine List.lookup_eq_none_iff.mpr fun w hw => bne_iff_ne.mpr fun he => ?_
    have hkept := (h.mem hm hw he.symm).2
    rw [hd] at hkept
    cases hkept

/-- no known name occurs twice -/
theorem Abridges.countP_le (h : Abridges dropped ms ws) {name : String} (hname : name ∈ ms.map Prod.fst) :
    ws.countP (·.1 = name) ≤ 1 := by
  obtain ⟨unknown, hperm, hunknown⟩ := h.kept
  have hnone : unknown.countP (·.1 = name) = 0 := by
    refine List.countP_eq_zero.mpr fun m hm he => hunknown m hm ?_
    rw [of_decide_eq_true he]
    exact hname
  have hones : (ms.filter fun m => !dropped m.1).countP (·.1 = name) ≤ ms.countP (·.1 = name) :=
    List.filter_sublist.countP_le
  have hone : (ms.map Prod.fst).count name ≤ 1 := List.nodup_iff_count_le_one.mp h.distinct name
  rw [List.count_eq_countP, List.countP_map] at hone
  rw [hperm.countP_eq, List.countP_append, hnone, Nat.add_zero]
  exact hones.trans ((List.countP_mono_left fun m _ he =>
    beq_iff_eq.mpr (of_decide_eq_true he)).trans hone)

/-- **The fields** are those of the record, without the dropped ones. -/
theorem Abridges.parts? (h : Abridges dropped ms ws) (surplus : Bool) :
    (Value.record ws).parts? (ms.map Prod.fst) surplus =
      some (ms.map fun m => if dropped m.1 then none else some m.2) := by
  have honce : ((ms.map Prod.fst).all fun name => ws.countP (·.1 = name) ≤ 1) = true :=
    List.all_eq_true.mpr fun name hname => decide_eq_true (h.countP_le hname)
  rw [Value.parts?, if_pos honce, List.map_map]
  exact congrArg some (List.map_congr_left fun m hm => h.lookup hm)

/-- **A field that is given twice** is refused. -/
theorem parts?_of_twice {names : List String} {name : String} (hname : name ∈ names)
    (twice : 1 < ws.countP (·.1 = name)) (surplus : Bool) :
    (Value.record ws).parts? names surplus = none := by
  refine if_neg fun honce => ?_
  exact absurd (of_decide_eq_true (List.all_eq_true.mp honce name hname)) (Nat.not_le.mpr twice)

end

/-- the value of each name, as a function of the name -/
def valueOf (ms : List (String × Value)) (name : String) : Value := (ms.lookup name).getD .null

theorem valueOf_of_mem {ms : List (String × Value)} (distinct : (ms.map Prod.fst).Nodup)
    {m : String × Value} (hm : m ∈ ms) : valueOf ms m.1 = m.2 := by
  rw [valueOf, lookup_eq_some hm fun w hw he => List.inj_on_of_nodup_map distinct hw hm he,
    Option.getD_some]

/-- a list gives the fields in their order -/
theorem parts?_list (items : List Value) {names : List String} (h : items.length = names.length)
    (surplus : Bool) : (Value.list items).parts? names surplus = some (items.map some) := by
  have hlength : (surplus || decide (items.length ≤ names.length)) = true := by simp [h]
  rw [Value.parts?, if_pos hlength, ← h]
  refine congrArg some (List.ext_getElem? fun i => ?_)
  rcases Nat.lt_or_ge i items.length with hi | hi
  · simp [hi]
  · simp [hi]

/-! ## other ways to write a value -/

/-- `v.Restates w`: what `v` says is said by `w` too, with the members of each record in any order and
unknown ones among them, or with a list of the values in place of a record -/
inductive Value.Restates : Value → Value → Prop
  | same (v : Value) : Restates v v
  | named {ms ws : List (String × Value)} (value : String → Value)
      (members : Abridges (fun _ => false) (ms.map fun m => (m.1, value m.1)) ws)
      (restated : ∀ m ∈ ms, Restates m.2 (value m.1)) : Restates (.record ms) (.record ws)
  | placed {ms : List (String × Value)} (value : String → Value)
      (restated : ∀ m ∈ ms, Restates m.2 (value m.1)) :
      Restates (.record ms) (.list (ms.map fun m => value m.1))

namespace Value.Restates

section
variable {ms ws : List (String × Value)}

/-- the members in another order, with unknown ones -/
theorem of_abridges (h : Abridges (fun _ => false) ms ws) : (record ms).Restates (record ws) := by
  have hms : (ms.map fun m => (m.1, valueOf ms m.1)) = ms :=
    (List.map_congr_left fun m hm => by rw [valueOf_of_mem h.distinct hm]).trans (List.map_id' ms)
  refine .named (valueOf ms) (hms.symm ▸ h) fun m hm => ?_
  rw [valueOf_of_mem h.distinct hm]
  exact .same m.2

/-- the values alone, in their order -/
theorem of_values (distinct : (ms.map Prod.fst).Nodup) :
    (record ms).Restates (list (ms.map Prod.snd)) := by
  rw [← List.map_congr_left fun m hm => valueOf_of_mem distinct hm]
  refine .placed (valueOf ms) fun m hm => ?_
  rw [valueOf_of_mem distinct hm]
  exact .same m.2

end

section
variable {v w : Value}

/-- there is no other way to write a value that is no record -/
theorem eq (h : v.Restates w) (plain : ∀ ms, v ≠ .record ms) : w = v := by
  cases h with
  | same => rfl
  | named => exact absurd rfl (plain _)
  | placed => exact absurd rfl (plain _)

theorem int32? {n : Int32} (h : (ofInt32 n).Restates w) : w.int32? = some n := by
  rw [h.eq nofun, int32?_ofInt32]

theorem uint64? {n : UInt64} (h : (ofUInt64 n).Restates w) : w.uint64? = some n := by
  rw [h.eq nofun, uint64?_ofUInt64]

theorem text? {s : String} (h : (text s).Restates w) : w.text? = some s := by
  rw [h.eq nofun]
  rfl

theorem flag? {b : Bool} (h : (flag b).Restates w) : w.flag? = some b := by
  rw [h.eq nofun]
  rfl

end
end Value.Restates

/-- **The fields of a record** are read from every way of writing it, each written in some way. -/
theorem parts?_restated {ms : List (String × Value)} (distinct : (ms.map Prod.fst).Nodup) {w : Value}
    (h : (Value.record ms).Restates w) (surplus : Bool) :
    ∃ ps, w.parts? (ms.map Prod.fst) surplus = some (ps.map some) ∧
      List.Forall₂ Value.Restates (ms.map Prod.snd) ps := by
  have hplaced : ∀ {value : String → Value}, (∀ m ∈ ms, m.2.Restates (value m.1)) →
      List.Forall₂ Value.Restates (ms.map Prod.snd) (ms.map fun m => value m.1) := fun restated =>
    List.forall₂_map_left_iff.mpr (List.forall₂_map_right_iff.mpr (List.forall₂_same.mpr restated))
  cases h with
  | same =>
    refine ⟨ms.map Prod.snd, ?_, List.forall₂_same.mpr fun v _ => .same v⟩
    rw [(Abridges.refl distinct).parts?, List.map_map]
    rfl
  | named value members restated =>
    have hnames : ∀ ms : List (String × Value),
        (ms.map fun m => (m.1, value m.1)).map Prod.fst = ms.map Prod.fst := fun ms => List.map_map
    refine ⟨_, ?_, hplaced restated⟩
    rw [← hnames ms, members.parts?, List.map_map, List.map_map]
    rfl
  | placed value restated =>
    exact ⟨_, parts?_list _ (by rw [List.length_map, List.length_map]) surplus, hplaced restated⟩

/-! ## types -/

/-- a type that is read from its fields, however they are written -/
class LawfulStructured (α : Type) [Structured α] : Prop where
  distinct : (Structured.names α).Nodup
  length_parts (a : α) : (Structured.parts a).length = (Structured.names α).length
  writable (a : α) : ∀ v ∈ Structured.parts a, Writable v
  ofParts?_restated {a : α} {ps : List Value}
    (h : List.Forall₂ Value.Restates (Structured.parts a) ps) :
    Structured.ofParts? false (ps.map some) = some a

namespace Structured
variable {α : Type} [Structured α] [LawfulStructured α]

theorem map_fst_members (a : α) : (members a).map Prod.fst = names α :=
  List.map_fst_zip (LawfulStructured.length_parts a).ge

theorem map_snd_members (a : α) : (members a).map Prod.snd = parts a :=
  List.map_snd_zip (LawfulStructured.length_parts a).le

theorem distinct_members (a : α) : ((members a).map Prod.fst).Nodup :=
  map_fst_members a ▸ LawfulStructured.distinct

/-- **A value is read** from every way of writing its record. -/
theorem read_restated {a : α} {w : Value} (h : (toRecord a).Restates w) :
    read α false w = some a := by
  obtain ⟨ps, hps, hparts⟩ := parts?_restated (distinct_members a) h false
  rw [map_fst_members] at hps
  rw [map_snd_members] at hparts
  rw [read, hps, Option.bind_some, LawfulStructured.ofParts?_restated hparts]

/-- the list of the fields is one of those ways -/
theorem restates_toList (a : α) : (toRecord a).Restates (toList a) := by
  rw [toList, ← map_snd_members a]
  exact .of_values (distinct_members a)

theorem writable_toRecord (a : α) : Writable (toRecord a) :=
  .record fun _ hm => LawfulStructured.writable a _ (map_snd_members a ▸ List.mem_map_of_mem hm)

theorem writable_toList (a : α) : Writable (toList a) := .list (LawfulStructured.writable a)

end Structured

end Precinct.Data

namespace Precinct
open Data (Value Structured LawfulStructured)
open Json (Writable)

@[simp]
theorem writable_ofInt32 (n : Int32) : Writable (.ofInt32 n) := .whole _

@[simp]
theorem writable_ofUInt64 (n : UInt64) : Writable (.ofUInt64 n) := .whole _

instance : LawfulStructured Block where
  distinct := by decide
  length_parts _ := rfl
  writable b := by simp [Structured.parts]
  ofParts?_restated := by
    rintro b _ (_ | ⟨hx, _ | ⟨hy, _ | ⟨hz, _ | _⟩⟩⟩)
    simp [Structured.ofParts?, hx.int32?, hy.int32?, hz.int32?]

instance : LawfulStructured Column where
  distinct := by decide
  length_parts _ := rfl
  writable c := by simp [Structured.parts]
  ofParts?_restated := by
    rintro c _ (_ | ⟨hx, _ | ⟨hz, _ | _⟩⟩)
    simp [Structured.ofParts?, hx.int32?, hz.int32?]

instance : LawfulStructured Box where
  distinct := by decide
  length_parts _ := rfl
  writable box := by simp [Structured.parts, Structured.writable_toRecord]
  ofParts?_restated := by
    rintro box _ (_ | ⟨hmin, _ | ⟨hmax, _ | _⟩⟩)
    simp [Structured.ofParts?, Structured.read_restated hmin, Structured.read_restated hmax]

instance : LawfulStructured Stats where
  distinct := by decide
  length_parts _ := rfl
  writable s := by simp [Structured.parts]
  ofParts?_restated := by
    rintro s _ (_ | ⟨h₁, _ | ⟨h₂, _ | ⟨h₃, _ | ⟨h₄, _ | ⟨h₅, _ | ⟨h₆, _ | _⟩⟩⟩⟩⟩⟩)
    simp [Structured.ofParts?, h₁.uint64?, h₂.uint64?, h₃.uint64?, h₄.uint64?, h₅.uint64?, h₆.uint64?]

instance : LawfulStructured Settings where
  distinct := by decide
  length_parts _ := rfl
  writable s := by simp [Structured.parts, Writable.text, Writable.flag]
  ofParts?_restated := by
    rintro s _ (_ | ⟨h₁, _ | ⟨h₂, _ | ⟨h₃, _ | ⟨h₄, _ | ⟨h₅, _ | ⟨h₆, _ | _⟩⟩⟩⟩⟩⟩)
    simp [Structured.ofParts?, Structured.optional, h₁.uint64?, h₂.uint64?, h₃.uint64?, h₄.text?,
      h₅.flag?, h₆.uint64?]

instance : LawfulStructured Logging where
  distinct := by decide
  length_parts _ := rfl
  writable l := by simp [Structured.parts, Writable.text, Writable.flag]
  ofParts?_restated := by
    rintro l _ (_ | ⟨hlevel, _ | ⟨hjson, _ | _⟩⟩)
    simp [Structured.ofParts?, hlevel.text?, hjson.flag?]

instance : LawfulStructured ProgramSettings where
  distinct := by decide
  length_parts _ := rfl
  writable s := by simp [Structured.parts, Structured.writable_toRecord]
  ofParts?_restated := by
    rintro s _ (_ | ⟨hcache, _ | ⟨hlogging, _ | _⟩⟩)
    simp [Structured.ofParts?, Structured.optional, Structured.read_restated hcache,
      Structured.read_restated hlogging]

/-! ## fields left out -/

/-- a field with a default, read unless it is dropped -/
theorem optional_dropped {α : Type} {absent a : α} {read : Value → Option α} {v : Value}
    (h : read v = some a) (dropped : Bool) :
    Structured.optional absent read (if dropped then none else some v) =
      some (if dropped then absent else a) := by
  cases dropped with
  | false => exact h
  | true => rfl

/-- some settings at their defaults -/
def Settings.reset (dropped : String → Bool) (s : Settings) : Settings :=
  let absent : Settings := {}
  { minThreads := if dropped "min_threads" then absent.minThreads else s.minThreads
    maxThreads := if dropped "max_threads" then absent.maxThreads else s.maxThreads
    keepAliveMs := if dropped "keep_alive_ms" then absent.keepAliveMs else s.keepAliveMs
    threadName := if dropped "thread_name" then absent.threadName else s.threadName
    hotColumn := if dropped "hot_column" then absent.hotColumn else s.hotColumn
    batchSize := if dropped "rebuild_batch_size" then absent.batchSize else s.batchSize }

/-- some settings of a program at their defaults, and within it some of those of its cache -/
def ProgramSettings.reset (dropped inCache : String → Bool) (s : ProgramSettings) :
    ProgramSettings where
  cache := if dropped "cache" then {} else s.cache.reset inCache
  logging := if dropped "logging" then {} else s.logging

section
variable {dropped : String → Bool} {ws : List (String × Value)}

/-- **Settings that are left out** have their defaults. -/
theorem Settings.read_abridged {s : Settings}
    (h : Data.Abridges dropped (Structured.members s) ws) :
    Structured.read Settings false (.record ws) = some (s.reset dropped) := by
  rw [Structured.read, ← Structured.map_fst_members s, h.parts?, Option.bind_some]
  simp only [Structured.members, Structured.names, Structured.parts, List.zip_cons_cons, List.zip_nil_left,
    List.map_cons, List.map_nil, Structured.ofParts?, optional_dropped (Value.uint64?_ofUInt64 _),
    optional_dropped (show (Value.text _).text? = some _ from rfl),
    optional_dropped (show (Value.flag _).flag? = some _ from rfl)]
  rfl

/-- so have those of a program, and of its cache -/
theorem ProgramSettings.read_abridged {s : ProgramSettings} {inCache : String → Bool}
    {cache : List (String × Value)} {logging : Value}
    (h : Data.Abridges dropped [("cache", .record cache), ("logging", logging)] ws)
    (hcache : Data.Abridges inCache (Structured.members s.cache) cache)
    (hlogging : (Structured.toRecord s.logging).Restates logging) :
    Structured.read ProgramSettings false (.record ws) = some (s.reset dropped inCache) := by
  have hparts := h.parts? false
  simp only [List.map_cons, List.map_nil] at hparts
  rw [Structured.read, show Structured.names ProgramSettings = ["cache", "logging"] from rfl, hparts,
    Option.bind_some]
  simp only [Structured.ofParts?, optional_dropped (Settings.read_abridged hcache),
    optional_dropped (Structured.read_restated hlogging)]
  rfl

end

/-! ## shapes -/

theorem outlineOfValue?_map (outline : List Plane.Point) :
    Plane.outlineOfValue? (.list (outline.map Plane.Point.toValue)) = some outline := by
  rw [Plane.outlineOfValue?]
  induction outline with
  | nil => rfl
  | cons p outline ih =>
    have hp : Plane.Point.ofValue? p.toValue = some p := by
      simp [Plane.Point.toValue, Plane.Point.ofValue?, Value.int32?_ofInt32]
    rw [List.map_cons, List.mapM_cons, hp, ih]
    rfl

namespace Shape

/-- `w` is another way to write a shape: the fields inside the member that tells its kind are restated -/
def Restates (shape : Shape) (w : Value) : Prop :=
  ∃ kind fields restated, shape.toValue = .record [(kind, .record fields)] ∧
    (Value.record fields).Restates restated ∧ w = .record [(kind, restated)]

theorem restates_toValue (shape : Shape) : shape.Restates shape.toValue := by
  cases shape with
  | cuboid min max => exact ⟨_, _, _, rfl, .same _, rfl⟩
  | polygon outline minY maxY => exact ⟨_, _, _, rfl, .same _, rfl⟩

/-- **A shape is read** from every way of writing it. -/
theorem ofValue?_restated {shape : Shape} {w : Value} (h : shape.Restates w) :
    ofValue? w = some shape := by
  obtain ⟨kind, fields, restated, hshape, hrestated, rfl⟩ := h
  cases shape with
  | cuboid min max =>
    cases hshape
    have hnames : ["min", "max"].Nodup := by decide
    obtain ⟨_, hparts, _ | ⟨hmin, _ | ⟨hmax, _ | _⟩⟩⟩ :=
      Data.parts?_restated (by exact hnames) hrestated false
    simp only [List.map_cons, List.map_nil] at hparts
    simp [ofValue?, cuboidOf?, hparts, Structured.read_restated hmin, Structured.read_restated hmax]
  | polygon outline minY maxY =>
    cases hshape
    have hnames : ["points", "min_y", "max_y"].Nodup := by decide
    obtain ⟨_, hparts, _ | ⟨hpoints, _ | ⟨hmin, _ | ⟨hmax, _ | _⟩⟩⟩⟩ :=
      Data.parts?_restated (by exact hnames) hrestated false
    simp only [List.map_cons, List.map_nil] at hparts
    simp [ofValue?, polygonOf?, hparts, hpoints.eq nofun, outlineOfValue?_map, hmin.int32?, hmax.int32?]

end Shape

end Precinct
