import Mathlib
import Precinct.Proofs.Store.Purge

/-!
# The region that stands under a name

* `Entry`, `Table.log`   what a history of writes puts into a table and takes out of it;
* `Stands`             a region was put in under its name and neither taken out nor replaced since; it
                       lost its parent if that was released since.  `stands_concat` is one more entry;
* `standing`           what stands under a name, worked out entry by entry: `standing_iff`;
* `Table.Follows`      the invariant: under each name a table holds what stands there.
                       `Follows.write` is one write, `Follows.writes` a history;
* `Table.Upholds`      names are valid, told apart by their lower case alone, and lead to what stands;
* `Table.upholds_of_writes`  **after any history of writes**.

What a removal takes is read off the table before it, so the log is made along the history.  Which
names those are is said by `Removal.Does`, in terms of the links of that table alone.
-/

namespace Precinct

/-! ## what a history puts in and takes out -/

/-- a region put into a table, or one taken out, and what becomes of its children -/
inductive Entry where
  | put (r : Region)
  | lost (id : String) (removal : Removal)

namespace Entry

def id : Entry → String
  | put r => r.id
  | lost id _ => id

/-- the name whose children lose their parent -/
def released : Entry → Option String
  | lost id .release => some id
  | _ => none

/-- what stands under a name after an entry -/
def note (name : String) (stood : Option Region) : Entry → Option Region
  | put r => if r.id = name then some r else stood
  | lost id removal => if id = name then none else stood.map (removal.leave [id])

end Entry

/-- what a write puts into a table and takes out of it -/
def Write.entries (t : Table) : Write → List Entry
  | .add r => [.put r]
  | .addAll regions => regions.map .put
  | .remove id removal => ((t.remove id removal).1.map Region.id).map (.lost · removal)

/-- the regions that a write may put in -/
def Write.regions : Write → List Region
  | .add r => [r]
  | .addAll regions => regions
  | .remove _ _ => []

/-- what a history of writes puts into a table and takes out of it -/
def Table.log (t : Table) : List Write → List Entry
  | [] => []
  | w :: writes => w.entries t ++ Table.log (w.apply t) writes

/-- a region was put in and nothing happened to its name since; its parent may have been released -/
def Stands (log : List Entry) (q : Region) : Prop :=
  ∃ before r after, log = before ++ .put r :: after ∧ (∀ e ∈ after, e.id ≠ r.id) ∧
    q = r.orphaned (after.filterMap Entry.released)

/-- what stands under a name, worked out entry by entry -/
def standing (log : List Entry) (name : String) : Option Region := log.foldl (Entry.note name) none

/-! ## what stands -/

section
variable {log : List Entry} {e : Entry} {q r : Region} {name : String}

theorem Region.orphaned_id (names : List String) (r : Region) : (r.orphaned names).id = r.id := by
  unfold orphaned
  split <;> rfl

theorem Region.Made.orphaned (h : r.Made) (names : List String) : (r.orphaned names).Made := by
  unfold Region.orphaned
  split
  · exact h.withoutParent
  · exact h

theorem Removal.leave_singleton (removal : Removal) (id : String) (r : Region) :
    removal.leave [id] r = r.orphaned (Entry.lost id removal).released.toList := by
  cases removal with
  | release => rfl
  | cascade => exact (Removal.orphaned_nil r).symm

/-- **What stands after one more entry**: a region just put in, or one that stood before and whose name
is not the entry's. -/
theorem stands_concat : Stands (log ++ [e]) q ↔
    e = .put q ∨ ∃ r, Stands log r ∧ e.id ≠ r.id ∧ q = r.orphaned e.released.toList := by
  constructor
  · rintro ⟨before, r, after, hlog, hsince, rfl⟩
    rcases List.eq_nil_or_concat' after with rfl | ⟨after, e', rfl⟩
    · obtain ⟨-, he⟩ := List.append_inj' hlog rfl
      rw [List.filterMap_nil, Removal.orphaned_nil]
      exact Or.inl (List.singleton_inj.mp he)
    · rw [← List.cons_append, ← List.append_assoc] at hlog
      obtain ⟨hbefore, he⟩ := List.append_inj' hlog rfl
      obtain rfl := List.singleton_inj.mp he
      refine Or.inr ⟨_, ⟨before, r, after, hbefore, fun d hd => ?_, rfl⟩, ?_, ?_⟩
      · exact hsince d (List.mem_append_left _ hd)
      · rw [Region.orphaned_id]
        exact hsince e (List.mem_append_right _ (List.mem_singleton_self e))
      · rw [Removal.orphaned_append, List.filterMap_append]
        cases he : e.released <;> simp [he]
  · rintro (rfl | ⟨_, ⟨before, r, after, rfl, hsince, rfl⟩, hne, rfl⟩)
    · exact ⟨log, q, [], rfl, fun _ hd => absurd hd List.not_mem_nil, (Removal.orphaned_nil q).symm⟩
    · rw [Region.orphaned_id] at hne
      refine ⟨before, r, after ++ [e], ?_, fun d hd => ?_, ?_⟩
      · rw [List.append_assoc, List.cons_append]
      · rcases List.mem_append.mp hd with hd | hd
        · exact hsince d hd
        · exact List.mem_singleton.mp hd ▸ hne
      · rw [Removal.orphaned_append, List.filterMap_append]
        cases he : e.released <;> simp [he]

theorem Stands.exists_put (h : Stands log q) : ∃ r names, .put r ∈ log ∧ q = r.orphaned names := by
  obtain ⟨before, r, after, rfl, -, rfl⟩ := h
  exact ⟨r, _, List.mem_append_right _ List.mem_cons_self, rfl⟩

theorem standing_append (log log' : List Entry) (name : String) :
    standing (log ++ log') name = log'.foldl (Entry.note name) (standing log name) :=
  List.foldl_append

/-- **What is worked out entry by entry** is what stands. -/
theorem standing_iff : standing log name = some q ↔ Stands log q ∧ q.id = name := by
  induction log using List.reverseRecOn generalizing q with
  | nil =>
    refine ⟨nofun, ?_⟩
    rintro ⟨⟨before, r, after, hlog, -⟩, -⟩
    exact absurd hlog.symm (List.append_ne_nil_of_right_ne_nil _ (List.cons_ne_nil _ _))
  | append_singleton log e ih =>
    rw [standing_append, stands_concat, List.foldl_cons, List.foldl_nil]
    cases e with
    | put p =>
      show (if p.id = name then some p else standing log name) = some q ↔ _
      split
      · rename_i hp
        rw [Option.some_inj, ← hp]
        refine ⟨fun he => ⟨Or.inl (he ▸ rfl), he ▸ rfl⟩, ?_⟩
        rintro ⟨he | ⟨r, -, hne, rfl⟩, hid⟩
        · exact Entry.put.inj he
        · rw [Region.orphaned_id] at hid
          exact absurd hid.symm hne
      · rename_i hp
        rw [ih]
        constructor
        · rintro ⟨hstands, rfl⟩
          exact ⟨Or.inr ⟨q, hstands, hp, (Removal.orphaned_nil q).symm⟩, rfl⟩
        · rintro ⟨he | ⟨r, hstands, -, rfl⟩, hid⟩
          · exact absurd (Entry.put.inj he ▸ hid) hp
          · exact ⟨(Removal.orphaned_nil r).symm ▸ hstands, hid⟩
    | lost id removal =>
      show (if id = name then none else (standing log name).map (removal.leave [id])) = some q ↔ _
      split
      · rename_i hid
        refine ⟨nofun, ?_⟩
        rintro ⟨he | ⟨r, -, hne, rfl⟩, hq⟩
        · cases he
        · rw [Region.orphaned_id] at hq
          exact absurd (hid.trans hq.symm) hne
      · rename_i hid
        rw [Option.map_eq_some_iff]
        constructor
        · rintro ⟨r, hr, rfl⟩
          obtain ⟨hstands, rfl⟩ := ih.mp hr
          rw [Removal.leave_singleton, Region.orphaned_id]
          exact ⟨Or.inr ⟨r, hstands, hid, rfl⟩, rfl⟩
        · rintro ⟨he | ⟨r, hstands, -, rfl⟩, hq⟩
          · cases he
          · rw [Region.orphaned_id] at hq
            exact ⟨r, ih.mpr ⟨hstands, hq⟩, Removal.leave_singleton removal id r⟩

/-- names taken out together, one entry after the other -/
theorem foldl_note_lost (names : List String) (removal : Removal) (stood : Option Region) :
    (names.map (.lost · removal)).foldl (Entry.note name) stood =
      if name ∈ names then none else stood.map (removal.leave names) := by
  induction names generalizing stood with
  | nil =>
    cases stood with
    | none => rfl
    | some r => exact congrArg some (Removal.leave_nil removal r).symm
  | cons id names ih =>
    rw [List.map_cons, List.foldl_cons, ih, Entry.note]
    by_cases hmem : name ∈ names
    · rw [if_pos hmem, if_pos (List.mem_cons_of_mem id hmem)]
    rw [if_neg hmem]
    by_cases hid : id = name
    · rw [if_pos hid, if_pos (List.mem_cons.mpr (Or.inl hid.symm))]
      rfl
    · rw [if_neg hid, if_neg fun hc => (List.mem_cons.mp hc).elim (hid ·.symm) hmem, Option.map_map]
      congr 1
      funext r
      exact Removal.leave_append removal [id] names r

end

/-! ## tables -/

namespace Table
variable {t : Table} {log : List Entry}

/-- names of one lower case are one name to a removal -/
theorem remove_congr {a b : String} (h : Text.lowerCase a = Text.lowerCase b) (t : Table)
    (removal : Removal) : t.remove a removal = t.remove b removal := by
  rw [remove, remove, h]

/-- under each name a table holds what stands there, and what was put in was made -/
structure Follows (log : List Entry) (t : Table) : Prop where
  keyed : t.Keyed
  made : ∀ r, .put r ∈ log → r.Made
  stood : ∀ name : String, t.contents[name]? = standing log name

theorem follows_empty : ({} : Table).Follows [] :=
  ⟨keyed_empty, fun _ hr => absurd hr List.not_mem_nil, fun _ => Std.ExtTreeMap.getElem?_empty⟩

theorem Follows.made_of_some (h : t.Follows log) {name : String} {r : Region}
    (hr : t.contents[name]? = some r) : r.Made := by
  obtain ⟨hstands, -⟩ := standing_iff.mp (h.stood name ▸ hr)
  obtain ⟨p, names, hput, rfl⟩ := hstands.exists_put
  exact (h.made p hput).orphaned names

theorem Follows.insert (h : t.Follows log) {r : Region} (hr : r.Made) :
    (t.insert r).Follows (log ++ [.put r]) := by
  refine ⟨h.keyed.insert r, fun q hq => ?_, fun name => ?_⟩
  · rcases List.mem_append.mp hq with hq | hq
    · exact h.made q hq
    · exact Entry.put.inj (List.mem_singleton.mp hq) ▸ hr
  · rw [getElem?_insert, standing_append, h.stood name]
    rfl

theorem Follows.addAll (h : t.Follows log) {regions : List Region} (hr : ∀ r ∈ regions, r.Made) :
    (t.addAll regions).Follows (log ++ regions.map .put) := by
  induction regions generalizing t log with
  | nil => exact (List.append_nil log).symm ▸ h
  | cons r rest ih =>
    rw [List.map_cons, List.append_cons]
    exact ih (h.insert (hr r List.mem_cons_self)) fun q hq => hr q (List.mem_cons_of_mem r hq)

/-- **A removal takes and leaves** what the links say, by whichever spelling the name was given. -/
theorem Follows.does_remove (h : t.Follows log) {id : String} {q : Region}
    (hq : t.contents[Text.lowerCase id]? = some q) (removal : Removal) :
    removal.Does t.contents [q.id] (t.remove id removal).1 (t.remove id removal).2.contents := by
  have hid := h.keyed _ q hq
  have hlower := (h.made_of_some hq).lowerCase_id
  rw [remove_congr (hid.symm.trans hlower.symm)]
  refine Table.does_remove h.keyed hlower ?_
  rw [hid, hq]
  exact Option.some_ne_none q

theorem Follows.remove (h : t.Follows log) (id : String) (removal : Removal) :
    (t.remove id removal).2.Follows (log ++ (Write.remove id removal).entries t) := by
  refine ⟨h.keyed.write (.remove id removal), fun r hr => ?_, fun name => ?_⟩
  · rcases List.mem_append.mp hr with hr | hr
    · exact h.made r hr
    · obtain ⟨name, -, he⟩ := List.mem_map.mp hr
      cases he
  · rw [standing_append, Write.entries, foldl_note_lost, ← h.stood name]
    cases hq : t.contents[Text.lowerCase id]? with
    | none =>
      rw [remove_of_none hq, List.map_nil, if_neg List.not_mem_nil]
      cases t.contents[name]? with
      | none => rfl
      | some r => exact congrArg some (Removal.leave_nil removal r).symm
    | some q => exact (h.does_remove hq removal).left name

/-- **A write** puts in and takes out what its entries say. -/
theorem Follows.write (h : t.Follows log) (w : Write) (hw : ∀ r ∈ w.regions, r.Made) :
    Follows (log ++ w.entries t) (w.apply t) := by
  cases w with
  | add r => exact h.insert (hw r (List.mem_singleton_self r))
  | addAll regions => exact h.addAll hw
  | remove id removal => exact h.remove id removal

theorem Follows.writes (h : t.Follows log) (writes : List Write)
    (hw : ∀ w ∈ writes, ∀ r ∈ w.regions, r.Made) :
    Follows (log ++ t.log writes) (writes.foldl Write.apply t) := by
  induction writes generalizing t log with
  | nil => exact (List.append_nil log).symm ▸ h
  | cons w writes ih =>
    rw [Table.log, ← List.append_assoc]
    exact ih (h.write w (hw w List.mem_cons_self)) fun w' hw' => hw w' (List.mem_cons_of_mem w hw')

/-! ## names -/

/-- names are valid, told apart by their lower case alone, and lead to what stands under them -/
structure Upholds (log : List Entry) (t : Table) : Prop where
  keyed : t.Keyed
  /-- every name is its own stored form, and without capitals -/
  valid : ∀ q ∈ RegionStore.values t,
    normalizeName q.id = .ok q.id ∧ ∀ c ∈ q.id.toList, c.isUpper = false
  /-- no two names differ in the case of their letters only -/
  apart : ∀ q ∈ RegionStore.values t, ∀ q' ∈ RegionStore.values t,
    q.id.toList.map Char.toLower = q'.id.toList.map Char.toLower → q = q'
  /-- all regions are those that stand, once each -/
  listed : ∀ q, q ∈ RegionStore.values t ↔ Stands log q
  named : Region.Named (RegionStore.values t)
  size : RegionStore.size t = (RegionStore.values t).length
  /-- a name leads to the region that stands under its lower case -/
  found : ∀ id q, RegionStore.get? t id = some q ↔ Stands log q ∧ q.id = Text.lowerCase id
  /-- the name that a region was described by leads to what stands under its stored form -/
  described : ∀ id, ∀ q ∈ RegionStore.values t,
    normalizeName id = .ok q.id → RegionStore.get? t id = some q
  /-- a removal takes what the links say, or nothing if nothing stands under the name -/
  removed : ∀ id removal, match RegionStore.get? t id with
    | none => RegionStore.remove t id removal = ([], t)
    | some q => removal.Does t.contents [q.id] (RegionStore.remove t id removal).1
        (RegionStore.remove t id removal).2.contents
  /-- whom a name leads to is the parent that the same name makes -/
  linked : ∀ id q r, RegionStore.get? t id = some q → (Region.withParent r id).parent = some q.id
  /-- names of one lower case cannot be told apart -/
  blind : ∀ a b, Text.lowerCase a = Text.lowerCase b →
    RegionStore.get? t a = RegionStore.get? t b ∧
    (RegionStore.get? t a).isSome = (RegionStore.get? t b).isSome ∧
    (∀ removal, RegionStore.remove t a removal = RegionStore.remove t b removal) ∧
    ∀ r : Region, r.withParent a = r.withParent b

theorem toLower_of_normal {id : String} (h : normalizeName id = .ok id) :
    id.toList.map Char.toLower = id.toList := by
  obtain ⟨-, -, hid⟩ := normalizeName_eq h
  have hlist := congrArg String.toList hid
  rw [String.toList_ofList] at hlist
  exact hlist.symm

theorem Follows.upholds (h : t.Follows log) : t.Upholds log := by
  have hvalue : ∀ {q}, q ∈ RegionStore.values t ↔ t.contents[q.id]? = some q :=
    RegionMap.mem_regions h.keyed
  have hnormal : ∀ {q}, q ∈ RegionStore.values t → normalizeName q.id = .ok q.id := fun hq =>
    (h.made_of_some (hvalue.mp hq)).normalizeName_id
  have hfound : ∀ id q, RegionStore.get? t id = some q ↔ Stands log q ∧ q.id = Text.lowerCase id :=
    fun id q => by rw [← standing_iff, ← h.stood]; rfl
  refine
    { keyed := h.keyed
      valid := fun q hq =>
        ⟨hnormal hq, fun c hc => (isNameChar_of_normalizeName (hnormal hq) hc).2⟩
      apart := fun q hq q' hq' hlower => ?_
      listed := fun q => ?_
      named := h.keyed.named
      size := ?_
      found := hfound
      described := fun id q hq hid => ?_
      removed := fun id removal => ?_
      linked := fun id q r hq => congrArg some ((hfound id q).mp hq).2.symm
      blind := fun a b hab => ?_ }
  · rw [toLower_of_normal (hnormal hq), toLower_of_normal (hnormal hq')] at hlower
    have hget := hvalue.mp hq
    rw [String.toList_injective hlower, hvalue.mp hq'] at hget
    exact (Option.some.inj hget).symm
  · rw [hvalue, h.stood, standing_iff]
    exact and_iff_left rfl
  · show t.contents.size = t.contents.regions.length
    rw [RegionMap.regions_eq, List.length_map, Std.ExtTreeMap.length_toList]
  · have hlower : Text.lowerCase id = q.id := by
      obtain ⟨-, hchars, hname⟩ := normalizeName_eq hid
      rw [hname, Text.lowerCase_of_ascii fun c hc => isNameChar_ascii (hchars c hc)]
    show t.contents[Text.lowerCase id]? = some q
    rw [hlower]
    exact hvalue.mp hq
  · cases hq : RegionStore.get? t id with
    | none => exact remove_of_none hq
    | some q => exact h.does_remove hq removal
  · have hget : RegionStore.get? t a = RegionStore.get? t b :=
      congrArg (fun name : String => t.contents[name]?) hab
    refine ⟨hget, congrArg Option.isSome hget, fun removal => remove_congr hab t removal, fun r => ?_⟩
    rw [Region.withParent, Region.withParent, hab]

/-- **After any history of writes** on a table of regions that were made, its names are valid, are told
apart by their lower case alone, and lead to the region put in last and not removed since. -/
theorem upholds_of_writes (regions : List Region) (writes : List Write)
    (made : ∀ r ∈ regions, r.Made) (put : ∀ w ∈ writes, ∀ r ∈ w.regions, r.Made) :
    Upholds (regions.map .put ++ (Table.ofRegions regions).log writes)
      (writes.foldl Write.apply (Table.ofRegions regions)) := by
  have hstart : (Table.ofRegions regions).Follows (regions.map .put) := by
    have hall := follows_empty.addAll made
    exact ⟨hall.keyed, hall.made, hall.stood⟩
  exact (hstart.writes writes put).upholds

end Table

/-! ## a parent replaced and released -/

def Region.kiln : Region := ofShape "kiln" (.cuboid ⟨0, 0, 0⟩ ⟨4, 3, 4⟩) (by decide)

theorem Region.made_kiln : kiln.Made := by
  have h : Region.cuboid "Kiln" ⟨4, 0, 4⟩ ⟨0, 3, 0⟩ = .ok kiln := by decide +kernel
  exact .cuboid h

/-- a region and its child, to which another region is added before the parent is replaced and removed -/
def Table.replaced : Table :=
  ([.add Region.kiln, .addAll [Region.bar.withPriority 7], .remove "BAR" .release] : List Write).foldl
    Write.apply (Table.ofRegions Region.family)

/-- the child stays without its parent, and the sign for kelvins is a K -/
theorem replaced_upholds : ∃ log, Table.replaced.Upholds log ∧
    RegionStore.values Table.replaced = [Region.hourglass, Region.kiln] ∧
    Stands log Region.hourglass ∧ RegionStore.get? Table.replaced "\u212AILN" = some Region.kiln := by
  have hwrites : ∀ w ∈ ([.add Region.kiln, .addAll [Region.bar.withPriority 7],
      .remove "BAR" .release] : List Write), ∀ r ∈ w.regions, r.Made := by
    simp only [List.forall_mem_cons, Write.regions]
    exact ⟨⟨Region.made_kiln, nofun⟩, ⟨Region.made_bar.withPriority 7, nofun⟩, nofun, nofun⟩
  have hupholds := Table.upholds_of_writes Region.family _ Region.made_family hwrites
  have hvalues : RegionStore.values Table.replaced = [Region.hourglass, Region.kiln] := by
    decide +kernel
  have hkelvin : Text.lowerCase "\u212AILN" = Text.lowerCase "kiln" := by decide +kernel
  refine ⟨_, hupholds, hvalues, (hupholds.listed Region.hourglass).mp ?_, ?_⟩
  · show _ ∈ RegionStore.values Table.replaced
    rw [hvalues]
    exact List.mem_cons_self
  · refine (hupholds.blind _ _ hkelvin).1.trans (hupholds.described "kiln" Region.kiln ?_ ?_)
    · show _ ∈ RegionStore.values Table.replaced
      rw [hvalues]
      exact List.mem_cons_of_mem _ List.mem_cons_self
    · decide +kernel

end Precinct
