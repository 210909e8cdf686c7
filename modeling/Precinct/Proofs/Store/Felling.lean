import Mathlib
import Precinct.Proofs.Store.Descent
import Precinct.Proofs.Store.Saves

/-!
# Removing a region with its descendants

* `Felling`            where the loop that takes descendants stands; `Felling.Round` is one round of it,
                       in which the children of a name may be listed in any order;
* `Felling.Sound`      the invariant of the loop: `Sound.round` for a round, `Sound.rounds` for a run;
* `Table.Felled`       what the removal comes to: which regions go, what is recorded of them, and
                       that nothing is left below any of them;
* `Felling.Ends`       the loop comes to an end, and with the table felled;
* `Table.felled_remove`  a table, **`felled_of_used`** any store that was used in any way.

The children are looked for in the table as it is by then, so the links downwards are cut as the loop
goes on.  The invariant does not follow them: it says that a region taken has no child left in the table
unless its name is still pending.  When nothing is pending the names taken are closed under links of the
table at first, for a child that was not taken would still be there.  Circles do no harm, since a region
that was taken is no child of anything.
-/

namespace Precinct
open Relation (ReflTransGen)

/-! ## taking regions out -/

namespace Table
variable {t t' : Table}

theorem ledger_take {id : String} {r : Region} (ht : t.take id = some (r, t')) :
    t'.ledger = t.ledger.recordRemoval r ∧ t'.dirty = true := by
  unfold take at ht
  split at ht
  · cases ht
  · cases ht
    exact ⟨rfl, rfl⟩

theorem ledger_takeAll (t : Table) (ids : List String) :
    (t.takeAll ids).2.ledger = (t.takeAll ids).1.foldl Ledger.recordRemoval t.ledger := by
  induction ids generalizing t with
  | nil => rfl
  | cons id ids ih =>
    rw [takeAll]
    cases ht : t.take id with
    | none => exact ih t
    | some e =>
      show (e.2.takeAll ids).2.ledger = (e.2.takeAll ids).1.foldl _ (t.ledger.recordRemoval e.1)
      rw [ih, (ledger_take ht).1]

/-- the children of a name, listed in any order, can all be taken out -/
theorem lost_children (h : t.Keyed) {a : String} {children : List Region}
    (listed : children.Perm (t.childrenOf a)) :
    t.Lost (t.takeAll (children.map Region.id)).1 (t.takeAll (children.map Region.id)).2 ∧
      ∀ b, b ∈ (t.takeAll (children.map Region.id)).1.map Region.id ↔ t.contents.ChildOf a b := by
  obtain ⟨hlost, hmem⟩ := lost_takeAll h (children.map Region.id)
  refine ⟨hlost, fun b => ?_⟩
  rw [hmem, (listed.map Region.id).mem_iff, mem_childrenOf h]
  refine ⟨fun hb => hb.1, fun hb => ⟨hb, ?_⟩⟩
  obtain ⟨q, hq, -⟩ := hb
  rw [hq]
  exact Option.some_ne_none q

/-- going through regions that were lost does to one name what the region of that name does, if it is
one of them -/
theorem Lost.view_foldl {β γ : Type} {l : List Region} {id : String} (h : t.Lost l t')
    {f : β → Region → β} (view : β → γ) (g : Option Region → γ)
    (hf : ∀ x r, view (f x r) = if r.id = id then g (some r) else view x) (x : β) :
    view (l.foldl f x) = if id ∈ l.map Region.id then g t.contents[id]? else view x := by
  rcases RegionMap.view_foldl_of_named id view (g <| some ·) hf l x h.named with
    ⟨hne, hview⟩ | ⟨r, hr, rfl, hview⟩
  · rw [if_neg fun hid => ?_]
    · exact hview
    · obtain ⟨r, hr, he⟩ := List.mem_map.mp hid
      exact hne r hr he
  · rw [if_pos (List.mem_map_of_mem hr), h.present r hr]
    exact hview

end Table

/-! ## what the removal comes to -/

/-- a table after a region was removed from it with all its descendants -/
structure Table.Felled (t : Table) (r : Region) (removed : List Region) (t' : Table) : Prop where
  first : removed.head? = some r
  /-- no name comes twice, so no region does -/
  named : Region.Named removed
  /-- removed are the regions that links lead to downwards -/
  reached : ∀ q, q ∈ removed ↔
    t.contents[q.id]? = some q ∧ ReflTransGen t.contents.ChildOf r.id q.id
  /-- they leave the table, and every other region stays as it was -/
  contents : ∀ id : String, t'.contents[id]? =
    if id ∈ removed.map Region.id then none else t.contents[id]?
  /-- they are recorded as removed, and nothing else is -/
  recorded : ∀ id : String, t'.ledger.removed[id]? =
    if id ∈ removed.map Region.id then t.contents[id]? else t.ledger.removed[id]?
  changed : ∀ id : String, t'.ledger.changed[id]? =
    if id ∈ removed.map Region.id then none else t.ledger.changed[id]?
  dirty : t'.dirty = true
  /-- no region that is left has a removed one for its parent -/
  unlinked : ∀ (id : String) (q : Region), t'.contents[id]? = some q →
    ∀ p ∈ removed, q.parent ≠ some p.id

/-! ## the loop -/

/-- where the loop that takes descendants stands -/
structure Felling where
  table : Table
  /-- names of regions taken whose children were not yet looked for -/
  pending : List String
  removed : List Region

namespace Felling

/-- one round: the children of the first name are taken out, in the order in which they happen to be
listed -/
inductive Round : Felling → Felling → Prop
  | take {t : Table} {a : String} {pending : List String} {removed children : List Region}
      (listed : children.Perm (t.childrenOf a)) :
      Round ⟨t, a :: pending, removed⟩
        ⟨(t.takeAll (children.map Region.id)).2,
          pending ++ (t.takeAll (children.map Region.id)).1.map Region.id,
          removed ++ (t.takeAll (children.map Region.id)).1⟩

inductive Rounds : ℕ → Felling → Felling → Prop
  | none (f : Felling) : Rounds 0 f f
  | next {n : ℕ} {f g h : Felling} (first : Round f g) (rest : Rounds n g h) : Rounds (n + 1) f h

/-- the invariant of the loop -/
structure Sound (t : Table) (r : Region) (f : Felling) : Prop where
  lost : t.Lost f.removed f.table
  first : f.removed.head? = some r
  ledger : f.table.ledger = f.removed.foldl Ledger.recordRemoval t.ledger
  dirty : f.table.dirty = true
  size : f.removed.length + f.table.contents.size = t.contents.size
  reached : ∀ q ∈ f.removed, ReflTransGen t.contents.ChildOf r.id q.id
  pending : ∀ a ∈ f.pending, a ∈ f.removed.map Region.id
  /-- a region taken has no child left, unless its name is still pending -/
  childless : ∀ q ∈ f.removed, q.id ∈ f.pending ∨ ∀ b, ¬f.table.contents.ChildOf q.id b

/-- the loop comes to an end, whatever the order of the children: it never goes through more rounds than
the table has regions, it stops only if nothing is pending, and then the table is felled -/
structure Ends (t : Table) (r : Region) (f : Felling) : Prop where
  bounded : ∀ {n g}, Rounds n f g → n ≤ t.contents.size
  goesOn : ∀ {n g}, Rounds n f g → g.pending ≠ [] → ∃ h, Round g h
  felled : ∀ {n g}, Rounds n f g → g.pending = [] → t.Felled r g.removed g.table

variable {t t' : Table} {r : Region} {f g : Felling}

theorem sound_start {id : String} (h : t.Keyed) (ht : t.take id = some (r, t')) :
    Sound t r ⟨t', [r.id], [r]⟩ := by
  obtain ⟨hlost, -⟩ := Table.lost_take h ht
  obtain ⟨hledger, hdirty⟩ := Table.ledger_take ht
  refine ⟨hlost, rfl, hledger, hdirty, (Nat.add_comm _ _).trans (Table.size_take ht), ?_, ?_, ?_⟩
  · intro q hq
    rw [List.mem_singleton.mp hq]
  · exact fun a ha => ha
  · intro q hq
    rw [List.mem_singleton.mp hq]
    exact Or.inl (List.mem_singleton.mpr rfl)

/-- **A round keeps the invariant.** -/
theorem Sound.round (h : Sound t r f) (hround : Round f g) : Sound t r g := by
  obtain @⟨u, a, pending, removed, children, listed⟩ := hround
  obtain ⟨hlost, hchild⟩ := Table.lost_children h.lost.keyed listed
  have hledger := Table.ledger_takeAll u (children.map Region.id)
  have hsize := Table.size_takeAll u (children.map Region.id)
  have hdirty := Table.takeAll_induct (P := fun t => t.dirty = true)
    (fun _ _ _ _ _ ht => (Table.ledger_take ht).2) (children.map Region.id) h.dirty
  generalize u.takeAll (children.map Region.id) = taken at *
  have hmono : ∀ {b c}, taken.2.contents.ChildOf b c → u.contents.ChildOf b c := fun hc =>
    (hlost.without.childOf.mp hc).1
  refine ⟨h.lost.trans hlost, ?_, ?_, hdirty, ?_, ?_, ?_, ?_⟩
  · rw [List.head?_append, h.first]
    rfl
  · rw [hledger, h.ledger, List.foldl_append]
  · have := h.size
    simp only [List.length_append] at this ⊢
    omega
  · intro q hq
    rcases List.mem_append.mp hq with hq | hq
    · exact h.reached q hq
    · obtain ⟨p, hp, rfl⟩ := List.mem_map.mp (h.pending a List.mem_cons_self)
      have hstep := (hchild q.id).mp (List.mem_map_of_mem hq)
      exact (h.reached p hp).tail (h.lost.without.childOf.mp hstep).1
  · intro b hb
    rw [List.map_append, List.mem_append]
    rcases List.mem_append.mp hb with hb | hb
    · exact Or.inl (h.pending b (List.mem_cons_of_mem a hb))
    · exact Or.inr hb
  · intro q hq
    rcases List.mem_append.mp hq with hq | hq
    · rcases h.childless q hq with hpending | hnone
      · rcases List.mem_cons.mp hpending with ha | hpending
        · -- its children have just been taken
          refine Or.inr fun b hb => ?_
          obtain ⟨hb', hstays⟩ := hlost.without.childOf.mp hb
          exact hstays ((hchild b).mpr (ha ▸ hb'))
        · exact Or.inl (List.mem_append_left _ hpending)
      · exact Or.inr fun b hb => hnone b (hmono hb)
    · exact Or.inl (List.mem_append_right _ (List.mem_map_of_mem hq))

theorem Sound.rounds {n : ℕ} (h : Sound t r f) (hrounds : Rounds n f g) : Sound t r g := by
  induction hrounds with
  | none => exact h
  | next first _ ih => exact ih (h.round first)

/-- every round takes a name off, and every region taken puts one on -/
theorem Rounds.count {n : ℕ} (h : Rounds n f g) :
    n + g.pending.length + f.removed.length = f.pending.length + g.removed.length := by
  induction h with
  | none f => omega
  | next first _ ih =>
    obtain @⟨u, a, pending, removed, children, listed⟩ := first
    simp only [List.length_append, List.length_map, List.length_cons] at ih ⊢
    omega

theorem Sound.not_childOf (h : Sound t r f) (hpending : f.pending = []) {q : Region}
    (hq : q ∈ f.removed) (b : String) : ¬f.table.contents.ChildOf q.id b := by
  rcases h.childless q hq with hin | hnone
  · rw [hpending] at hin
    exact absurd hin List.not_mem_nil
  · exact hnone b

theorem Sound.mem_removed (h : Sound t r f) (hpending : f.pending = []) {id : String}
    (hreach : ReflTransGen t.contents.ChildOf r.id id) : id ∈ f.removed.map Region.id := by
  induction hreach with
  | refl => exact List.mem_map_of_mem (List.mem_of_mem_head? h.first)
  | @tail b c _ hchild ih =>
    obtain ⟨q, hq, rfl⟩ := List.mem_map.mp ih
    by_contra hstays
    exact h.not_childOf hpending hq c (h.lost.without.childOf.mpr ⟨hchild, hstays⟩)

/-- **With nothing pending the table is felled.** -/
theorem Sound.felled (h : Sound t r f) (hpending : f.pending = []) :
    t.Felled r f.removed f.table := by
  have hcontents : ∀ id : String, f.table.contents[id]? =
      if id ∈ f.removed.map Region.id then none else t.contents[id]? := by
    intro id
    split
    · exact h.lost.without.lost id ‹_›
    · exact h.lost.without.kept id ‹_›
  refine ⟨h.first, h.lost.named, fun q => ⟨fun hq => ⟨h.lost.present q hq, h.reached q hq⟩, ?_⟩,
    hcontents, fun id => ?_, fun id => ?_, h.dirty, ?_⟩
  · rintro ⟨hq, hreach⟩
    obtain ⟨p, hp, hid⟩ := List.mem_map.mp (h.mem_removed hpending hreach)
    have hpq := h.lost.present p hp
    rw [hid, hq] at hpq
    exact Option.some.inj hpq ▸ hp
  · rw [h.ledger]
    exact h.lost.view_foldl (f := Ledger.recordRemoval) (fun l => l.removed[id]?) (fun old => old)
      (fun l q => RegionMap.getElem?_insert_id l.removed q id) t.ledger
  · rw [h.ledger]
    exact h.lost.view_foldl (f := Ledger.recordRemoval) (fun l => l.changed[id]?) (fun _ => none)
      (fun l q => RegionMap.getElem?_erase_id l.changed q id) t.ledger
  · intro id q hq p hp hparent
    exact h.not_childOf hpending hp id ⟨q, hq, hparent⟩

/-- **The loop comes to an end, with the table felled.** -/
theorem ends_start {id : String} (h : t.Keyed) (ht : t.take id = some (r, t')) :
    Ends t r ⟨t', [r.id], [r]⟩ := by
  have hsound := sound_start h ht
  refine ⟨fun {n g} hrounds => ?_, fun {n g} _ hpending => ?_,
    fun hrounds hpending => (hsound.rounds hrounds).felled hpending⟩
  · have hcount := hrounds.count
    have hsize := (hsound.rounds hrounds).size
    simp only [List.length_singleton] at hcount
    omega
  · obtain ⟨u, pending, removed⟩ := g
    obtain ⟨a, pending, rfl⟩ := List.exists_cons_of_ne_nil hpending
    exact ⟨_, .take (.refl _)⟩

/-- the cascade goes through rounds until nothing is pending -/
theorem rounds_cascade (t : Table) (pending : List String) (removed : List Region) :
    ∃ n, Rounds n ⟨t, pending, removed⟩
      ⟨(t.cascade pending).2, [], removed ++ (t.cascade pending).1⟩ := by
  induction t, pending using Table.cascade.induct generalizing removed with
  | case1 t =>
    rw [Table.cascade, List.append_nil]
    exact ⟨0, .none _⟩
  | case2 t a pending children _ _ _ ih =>
    obtain ⟨n, hrest⟩ := ih (removed ++ children.1)
    rw [Table.cascade]
    refine ⟨n + 1, ?_⟩
    show Rounds (n + 1) _ ⟨_, [], removed ++ (children.1 ++ _)⟩
    rw [← List.append_assoc]
    exact .next (.take (.refl _)) hrest

end Felling

/-! ## removing a region -/

namespace Table
variable {t t' : Table} {r : Region} {removed : List Region} {id : String}

theorem remove_of_none {removal : Removal} (hnone : t.contents[Text.lowerCase id]? = none) :
    t.remove id removal = ([], t) := by
  unfold remove
  dsimp only
  rw [take_eq_none_iff.mpr hnone]

theorem remove_release (ht : t.take (Text.lowerCase id) = some (r, t')) :
    t.remove id .release = ([r], t'.release (Text.lowerCase id)) := by
  unfold remove
  dsimp only
  rw [ht]

theorem remove_cascade (ht : t.take (Text.lowerCase id) = some (r, t')) :
    t.remove id .cascade =
      (r :: (t'.cascade [Text.lowerCase id]).1, (t'.cascade [Text.lowerCase id]).2) := by
  unfold remove
  dsimp only
  rw [ht]

theorem Felled.mem_names (h : t.Felled r removed t') (hkeyed : t.Keyed) :
    id ∈ removed.map Region.id ↔ ReflTransGen t.contents.ChildOf r.id id := by
  constructor
  · intro hid
    obtain ⟨q, hq, rfl⟩ := List.mem_map.mp hid
    exact ((h.reached q).mp hq).2
  · intro hreach
    -- a name that links lead to is that of a region
    have hthere : ∃ q : Region, t.contents[id]? = some q := by
      rcases hreach.cases_tail with rfl | ⟨_, _, q, hq, _⟩
      · exact ⟨r, ((h.reached r).mp (List.mem_of_mem_head? h.first)).1⟩
      · exact ⟨q, hq⟩
    obtain ⟨q, hq⟩ := hthere
    obtain rfl := hkeyed id q hq
    exact List.mem_map_of_mem ((h.reached q).mpr ⟨hq, hreach⟩)

/-- **Removing a region that there is** with its descendants fells the table.  The loop that does it
ends in any order of the children, and the removal is one of its runs. -/
theorem felled_remove (h : t.Keyed) (hr : t.contents[Text.lowerCase id]? = some r) :
    t.Felled r (t.remove id .cascade).1 (t.remove id .cascade).2 ∧
      ∃ taken, t.take (Text.lowerCase id) = some (r, taken) ∧
        Felling.Ends t r ⟨taken, [Text.lowerCase id], [r]⟩ ∧
        Felling.Rounds (t.remove id .cascade).1.length ⟨taken, [Text.lowerCase id], [r]⟩
          ⟨(t.remove id .cascade).2, [], (t.remove id .cascade).1⟩ := by
  have hid := h _ r hr
  obtain ⟨taken, htake⟩ := exists_take hr
  have hremove := remove_cascade htake
  have hends := Felling.ends_start h htake
  obtain ⟨n, hrounds⟩ := Felling.rounds_cascade taken [Text.lowerCase id] [r]
  have hcount := hrounds.count
  simp only [List.length_nil, List.length_singleton, List.singleton_append] at hcount
  rw [hid] at hends
  rw [hremove]
  refine ⟨hends.felled hrounds rfl, taken, htake, hends, ?_⟩
  have hn : n = (r :: (taken.cascade [Text.lowerCase id]).1).length := by omega
  exact hn ▸ hrounds

end Table

/-- **Removing a region with its descendants from a store.**  An unknown name removes nothing and changes
nothing.  Otherwise the removal ends, whatever links there are and however the children of a region are
listed, and the regions that links lead to downwards are gone. -/
theorem felled_of_used {σ : Type} [RegionStore σ] [Tabled σ] [TabledRemoval σ] {s : σ}
    (used : Used s) (id : String) :
    ((Tabled.table s).contents[Text.lowerCase id]? = none →
      (RegionStore.remove s id .cascade).1 = [] ∧
      Tabled.table (RegionStore.remove s id .cascade).2 = Tabled.table s) ∧
    ∀ r, (Tabled.table s).contents[Text.lowerCase id]? = some r →
      (Tabled.table s).Felled r (RegionStore.remove s id .cascade).1
        (Tabled.table (RegionStore.remove s id .cascade).2) ∧
      ∃ taken, (Tabled.table s).take (Text.lowerCase id) = some (r, taken) ∧
        Felling.Ends (Tabled.table s) r ⟨taken, [Text.lowerCase id], [r]⟩ ∧
        Felling.Rounds (RegionStore.remove s id .cascade).1.length
          ⟨taken, [Text.lowerCase id], [r]⟩
          ⟨Tabled.table (RegionStore.remove s id .cascade).2, [],
            (RegionStore.remove s id .cascade).1⟩ := by
  have htable : Tabled.table (RegionStore.remove s id .cascade).2 =
      ((Tabled.table s).remove id .cascade).2 := Tabled.table_write s (.remove id .cascade)
  rw [htable, TabledRemoval.removed_eq]
  refine ⟨fun hnone => ?_, fun r hr => Table.felled_remove used.sound.1 hr⟩
  rw [Table.remove_of_none hnone]
  exact ⟨rfl, rfl⟩

/-- a circle of two with a leaf on it, a region that is its own parent, and one whose parent is missing -/
def Region.tangle : List Region :=
  let plot (id : String) : Region := ofShape id (.cuboid ⟨0, 0, 0⟩ ⟨3, 3, 3⟩) (by decide)
  [hourglass.withParent "bar", bar.withParent "hourglass", (plot "leaf").withParent "bar",
    (plot "eddy").withParent "eddy", (plot "stray").withParent "nowhere"]

theorem tangle_felled :
    (∃ r taken, (Table.ofRegions Region.tangle).take "hourglass" = some (r, taken) ∧
      Felling.Ends (Table.ofRegions Region.tangle) r ⟨taken, ["hourglass"], [r]⟩ ∧
      (Table.ofRegions Region.tangle).Felled r
        ((Table.ofRegions Region.tangle).remove "Hourglass" .cascade).1
        ((Table.ofRegions Region.tangle).remove "Hourglass" .cascade).2) ∧
    ((Table.ofRegions Region.tangle).remove "Hourglass" .cascade).1.map Region.id =
      ["hourglass", "bar", "leaf"] ∧
    ((Table.ofRegions Region.tangle).remove "eddy" .cascade).1.map Region.id = ["eddy"] ∧
    ((Table.ofRegions Region.tangle).remove "nowhere" .cascade).2 = Table.ofRegions Region.tangle := by
  have used : Used (Table.ofRegions Region.tangle) := ⟨_, _, rfl, .refl⟩
  have hlower : Text.lowerCase "Hourglass" = "hourglass" := by decide +kernel
  have hthere : (Table.ofRegions Region.tangle).contents["hourglass"]? =
      some (Region.hourglass.withParent "bar") := by decide +kernel
  obtain ⟨hfelled, taken, htaken, hends, -⟩ :=
    (felled_of_used used "Hourglass").2 _ (hlower ▸ hthere)
  rw [hlower] at htaken hends
  refine ⟨⟨_, taken, htaken, hends, hfelled⟩, by decide +kernel, by decide +kernel, ?_⟩
  exact ((felled_of_used used "nowhere").1 (by decide +kernel)).2

end Precinct
