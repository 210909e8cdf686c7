import Mathlib
import Precinct.Proofs.Cache.Custody
import Precinct.Proofs.Cache.Runs
import Precinct.Proofs.Cache.Sheets
import Precinct.Proofs.Store.Indexed

/-!
# A cache answers like its store

* `Cache.regionsOver`  what a query ought to answer;
* `Cache.answer_exact`  a query that found a loaded sheet answers that, and so does one that found
                       nothing;
* `Step.store`         only a write changes the regions of the store, and `Step.current` once none is
                       going on the sheets hold what they ought to;
* `Exact`              the invariant: the sheets are filed and, but for the moment between the two
                       halves of a write, current;
* `Exact.step`         every step keeps it, so it holds in every scene that can be reached;
* `Scene.Faithful`     what follows for whoever asks: **`faithful_of_reach`**.

A region with a block of a column intersects the region over the column, so nothing is sorted out
that a query needs.
-/

namespace Precinct

/-- what a query ought to answer -/
def Cache.regionsOver {σ : Type} [RegionStore σ] (c : Cache σ) (p : Block) : List Region :=
  Region.inLayers ((RegionStore.values c.store.store).filter (·.contains p))

section
variable {σ : Type} [RegionStore σ] {c c' : Cache σ}

/-! ## queries -/

/-- **A loaded column is as good as the store.** -/
theorem Cache.columnRegions_filter [ExactStore σ] (h : ExactStore.Sound c.store.store) (p : Block) :
    (c.columnRegions p.column).filter (·.contains p) = c.regionsOver p := by
  rw [Cache.columnRegions, Cache.regionsOver, Region.filter_inLayers ((ExactStore.named h).filter _),
    List.filter_filter]
  congr 1
  refine List.filter_congr fun r _ => ?_
  cases hr : r.contains p with
  | false => rfl
  | true =>
    rw [Region.intersects_of_common hr (Region.column_contains p), Bool.and_self]

/-- **A query that found what a loaded column ought to hold, or nothing, is answered exactly.** -/
theorem Cache.answer_exact [ExactStore σ] (h : ExactStore.Sound c.store.store) (p : Block)
    (found : Option (List Region))
    (hfound : ∀ regions, found = some regions → regions = c.columnRegions p.column) :
    (c.answer p found).1 = c.regionsOver p ∧
      RegionStore.values (c.answer p found).2.store.store = RegionStore.values c.store.store ∧
      ExactStore.Sound (c.answer p found).2.store.store := by
  cases found with
  | some regions =>
    refine ⟨?_, rfl, h⟩
    show Region.inLayers
      (Cache.visitWhere (·.contains p) (Sighting.note none) regions {}).shown = _
    rw [Cache.visitWhere_eq, shown_visitEach_note, hfound regions rfl, Cache.columnRegions_filter h]
    exact Region.inLayers_of_pairwise (Region.pairwise_inLayers _)
  | none =>
    refine ⟨?_, ExactStore.values_containing _ _, ExactStore.sound_containing h p⟩
    show Region.inLayers (sightings none (RegionStore.containing c.store.store p).1).shown = _
    rw [sightings, shown_visitEach_note, ExactStore.inLayers_containing h, Cache.regionsOver]

/-- what is found when the column is looked up decides -/
theorem Cache.regionsAt_exact [ExactStore σ] (h : ExactStore.Sound c.store.store) (p : Block)
    (hfound : ∀ regions, (c.resolve p.column).1 = some regions →
      regions = c.columnRegions p.column) : (c.regionsAt p).1 = c.regionsOver p := by
  obtain ⟨hst, -⟩ := (c.resolved p.column).frame
  have hcolumns : (c.resolve p.column).2.columnRegions p.column = c.columnRegions p.column := by
    rw [Cache.columnRegions, hst, Cache.columnRegions]
  have hexact := Cache.answer_exact (c := (c.resolve p.column).2) (hst ▸ h) p
    (c.resolve p.column).1 fun regions hf => hcolumns ▸ hfound regions hf
  rw [Cache.regionsAt_eq, hexact.1, Cache.regionsOver, hst, ← Cache.regionsOver]

end

/-! ## every step -/

section
variable {σ : Type} [RegionStore σ] [ExactStore σ] {s s' : Scene σ}

/-- **Only a write changes the regions of the store**, and no step makes the store unsound. -/
theorem Step.store (hs : Step s s') (h : ExactStore.Sound s.cache.store.store) :
    ExactStore.Sound s'.cache.store.store ∧
      (s'.doing = .writing ∨
        RegionStore.values s'.cache.store.store = RegionStore.values s.cache.store.store) := by
  have hsame : ∀ {w : Watched σ}, w.store = s.cache.store.store → ExactStore.Sound w.store ∧
      (s'.doing = .writing ∨
        RegionStore.values w.store = RegionStore.values s.cache.store.store) := by
    intro w hw
    rw [hw]
    exact ⟨h, Or.inr rfl⟩
  cases hs with
  | write w rest => exact ⟨ExactStore.sound_write w h, Or.inl rfl⟩
  | chore t rest =>
    exact ⟨ExactStore.sound_chore t h, Or.inr (ExactStore.values_chore s.cache.store.store t)⟩
  | @renew known listed rest =>
    obtain ⟨hst, -⟩ := s.cache.turn.2.insertAllMissing_frame known
    exact hsame (congrArg Watched.store hst)
  | warm columns rest =>
    obtain ⟨hst, -⟩ := s.cache.insertAllMissing_frame columns
    exact hsame (congrArg Watched.store hst)
  | @scheduled renewal doing => cases renewal <;> exact hsame rfl
  | ask p rest => exact hsame (congrArg Watched.store (s.cache.resolved p.column).frame.1)
  | @answer p found doing =>
    cases found with
    | some regions => exact hsame rfl
    | none =>
      exact ⟨ExactStore.sound_containing h p, Or.inr (ExactStore.values_containing _ p)⟩
  | overlap r rest =>
    have hasked : (s.cache.store.enter .owner).collect r = s.cache.store.intersecting r := rfl
    obtain ⟨hvalues, hstore⟩ := Watched.collect_store hasked
    exact ⟨hstore h, Or.inr hvalues⟩
  | consult p rest =>
    exact ⟨ExactStore.sound_containing h p, Or.inr (ExactStore.values_containing _ p)⟩
  | @dismissed pools stopped doing => cases stopped <;> exact hsame rfl
  | work makes =>
    obtain ⟨hvalues, hstore⟩ := (Cache.worked_of_step? makes).store
    exact ⟨hstore h, Or.inr hvalues⟩
  | _ => exact hsame rfl

/-- what makes every answer exact -/
structure Exact (s : Scene σ) : Prop where
  custody : Custody s
  store : ExactStore.Sound s.cache.store.store
  filed : Filed s.cache
  /-- between the two halves of a write a sheet may still hold what the store said before -/
  current : s.doing ≠ .writing → Current s.cache
  asked : ∀ p regions, s.doing = .asking p (some regions) →
    regions = s.cache.columnRegions p.column
  answered : ∀ p regions, s.doing = .answered p regions → regions = s.cache.regionsOver p

/-- **Once no write is going on sheets hold what they ought to**: when it is over an epoch has begun,
and but for that nothing said of the store changes. -/
theorem Step.current (hs : Step s s') (hc : Crews s) (hf : Filed s.cache)
    (hstore : ExactStore.Sound s.cache.store.store) (h : s.doing ≠ .writing → Current s.cache)
    (hw : s'.doing ≠ .writing) : Current s'.cache := by
  by_cases hbefore : s.doing = .writing
  · obtain ⟨known, hrestart⟩ := (hs.of_writing hbefore).resolve_left hw
    rw [hrestart]
    exact (reported_turn s.cache).insertAllMissing (hf.turn hc.current) _
  · have hvalues := (hs.store hstore).2.resolve_left hw
    rcases (h hbefore).step hf hc hstore (fun _ => rfl) hs with ⟨-, hsaid⟩ | ⟨-, hnone⟩
    · refine hsaid.mono fun column regions hr => ?_
      rw [hr, Cache.columnRegions, Cache.columnRegions, hvalues]
    · exact hnone.mono fun _ _ => False.elim

/-- a sheet that is found holds what the column ought to hold -/
theorem Exact.resolved (h : Exact s) (hw : s.doing ≠ .writing) {column : Column}
    {found : Option (List Region)} {d : Cache σ} (hr : Cache.Resolved s.cache column found d) :
    ∀ regions, found = some regions → regions = s.cache.columnRegions column := by
  intro regions hf
  obtain ⟨i, hi, hregions⟩ := (h.filed.resolved hr).2 regions hf
  exact (h.current hw).loaded column i regions hi hregions

/-- **Every step keeps every answer exact.** -/
theorem Exact.step (h : Exact s) (hs : Step s s') : Exact s' := by
  obtain ⟨hsound, hwrites⟩ := hs.store h.store
  refine ⟨h.custody.step hs, hsound, h.filed.step h.custody.toCrews hs,
    hs.current h.custody.toCrews h.filed h.store h.current, fun p regions hd => ?_,
    fun p regions hd => ?_⟩
  · have hvalues := hwrites.resolve_left (by simp [hd])
    have hasked : regions = s.cache.columnRegions p.column := by
      rcases hs.to_asking hd with hbefore | ⟨rest, -, hfound⟩
      · exact h.asked p regions hbefore
      · exact h.resolved rest.ne_writing (s.cache.resolved p.column) regions hfound.symm
    rw [hasked, Cache.columnRegions, Cache.columnRegions, hvalues]
  · have hvalues := hwrites.resolve_left (by simp [hd])
    have hanswered : regions = s.cache.regionsOver p := by
      rcases hs.to_answered hd with hbefore | ⟨found, hbefore, rfl⟩
      · exact h.answered p regions hbefore
      · exact (Cache.answer_exact h.store p found fun rs hf =>
          h.asked p rs (by rw [hbefore, hf])).1
    rw [hanswered, Cache.regionsOver, Cache.regionsOver, hvalues]

theorem exact_start {store : σ} (h : ExactStore.Sound store) (settings : Settings) :
    Exact (Scene.start (Cache.ofSettings store settings)) :=
  ⟨custody_start store settings, h, filed_start store settings,
    fun _ => reported_start store settings, nofun, nofun⟩

theorem exact_of_reach {store : σ} (h : ExactStore.Sound store) {settings : Settings}
    (hs : Scene.Reach (.start (Cache.ofSettings store settings)) s) : Exact s :=
  hs.invariant (fun _ _ he hstep => he.step hstep) (exact_start h settings)

theorem exact_of_make {store : σ} {settings : Settings} {c : Cache σ} (h : ExactStore.Sound store)
    (hc : Cache.make store settings = .ok c) (hs : (Scene.start c).Reach s) : Exact s := by
  rw [(Cache.make_eq_ok hc).2] at hs
  exact exact_of_reach h hs

/-! ## whoever asks -/

/-- the answer to a query: the regions of the store that hold the block, each once, the higher
priority first, then the smaller name -/
def Cache.Answers (c : Cache σ) (p : Block) (answer : List Region) : Prop :=
  (∀ r, r ∈ answer ↔ r ∈ RegionStore.values c.store.store ∧ r.contains p = true) ∧
    answer.Pairwise Region.Above

theorem Cache.answers_regionsOver {c : Cache σ} (h : ExactStore.Sound c.store.store) (p : Block) :
    c.Answers p (c.regionsOver p) := by
  refine ⟨fun r => ?_, Region.strict_inLayers ((ExactStore.named h).filter _)⟩
  rw [Cache.regionsOver, Region.mem_inLayers, List.mem_filter]

/-- every answer is the one answer.  Between the two halves of a write the host cannot ask -/
structure Scene.Faithful (s : Scene σ) : Prop where
  asks : s.doing ≠ .writing → ∀ p, s.cache.Answers p (s.cache.regionsAt p).1
  /-- also if the workers went on while the block was looked up -/
  answered : ∀ p regions, s.doing = .answered p regions → s.cache.Answers p regions
  /-- the sheet that answered last and the sheet of a column say what the store says -/
  agree : s.doing ≠ .writing → ∀ p i regions,
    s.cache.recent = some i ∧ (s.cache.sheet i).column = p.column ∨
      s.cache.sheetOf? p.column = some i →
    (s.cache.sheet i).regions = some regions →
    (s.cache.answer p (some regions)).1 = (s.cache.answer p none).1
  /-- whatever the host does next is a run of steps again, if the store is changed through the cache
  only -/
  goesOn : s.doing.AtRest → ∀ (op : CacheOp) (shelf : Shelf), (∀ behind, op ≠ .behind behind) →
    s.Leads (op.perform s.cache shelf).2.1

theorem Exact.regionsAt_eq (h : Exact s) (hw : s.doing ≠ .writing) (p : Block) :
    (s.cache.regionsAt p).1 = s.cache.regionsOver p :=
  Cache.regionsAt_exact h.store p (h.resolved hw (s.cache.resolved p.column))

theorem Exact.faithful (h : Exact s) : s.Faithful := by
  have hfound : s.doing ≠ .writing → ∀ p found,
      (∀ regions, found = some regions →
        ∃ i, s.cache.sheetOf? p.column = some i ∧ (s.cache.sheet i).regions = some regions) →
      (s.cache.answer p found).1 = s.cache.regionsOver p := by
    intro hw p found hsheet
    refine (Cache.answer_exact h.store p found fun regions hf => ?_).1
    obtain ⟨i, hi, hregions⟩ := hsheet regions hf
    exact (h.current hw).loaded p.column i regions hi hregions
  refine ⟨fun hw p => ?_, fun p regions hd => ?_, fun hw p i regions hi hregions => ?_,
    fun rest op shelf hop => Scene.leads_perform op hop shelf rest⟩
  · rw [h.regionsAt_eq hw p]
    exact Cache.answers_regionsOver h.store p
  · rw [h.answered p regions hd]
    exact Cache.answers_regionsOver h.store p
  · have hknown : s.cache.sheetOf? p.column = some i := by
      rcases hi with ⟨hrecent, hcolumn⟩ | hknown
      · rw [← hcolumn]
        exact (h.filed.recent i hrecent).2.1
      · exact hknown
    rw [hfound hw p (some regions) fun rs hrs => ⟨i, hknown, hrs ▸ hregions⟩,
      hfound hw p none nofun]

theorem faithful_of_sound {store : σ} {settings : Settings} {c : Cache σ}
    (h : ExactStore.Sound store) (hc : Cache.make store settings = .ok c)
    (hs : (Scene.start c).Reach s) : s.Faithful := (exact_of_make h hc hs).faithful

end

open Relation (ReflTransGen)

/-- **A cache over either store answers exactly in every scene that can be reached**, whatever was
done to the store before, under all settings that pass the checks.  The store with a snapshot may look
regions up with any spatial index, and in whatever order that one finds them. -/
theorem faithful_of_reach :
    (∀ (regions : List Region) (store : Table) (settings : Settings) (c : Cache Table)
      (s : Scene Table), ReflTransGen StoreStep (Table.ofRegions regions) store →
      Cache.make store settings = .ok c → (Scene.start c).Reach s → s.Faithful) ∧
    (∀ (regions : List Region) (store : Tree) (settings : Settings) (c : Cache Tree)
      (s : Scene Tree), ReflTransGen StoreStep (Tree.ofRegions regions) store →
      Cache.make store settings = .ok c → (Scene.start c).Reach s → s.Faithful) ∧
    ∀ {κ : Type} [LinearOrder κ] (index : SpatialIndex κ) [index.Exact] (regions : List Region)
      (store : Indexed index) (settings : Settings) (c : Cache (Indexed index))
      (s : Scene (Indexed index)), ReflTransGen StoreStep (Indexed.ofRegions index regions) store →
      Cache.make store settings = .ok c → (Scene.start c).Reach s → s.Faithful :=
  ⟨fun regions _ _ _ _ hstore hc hs => faithful_of_sound
      (ExactStore.sound_of_steps (Table.keyed_ofRegions regions) hstore) hc hs,
    fun regions _ _ _ _ hstore hc hs => faithful_of_sound
      (ExactStore.sound_of_steps (Tree.sound_ofRegions regions) hstore) hc hs,
    fun _ _ regions _ _ _ _ hstore hc hs => faithful_of_sound
      (ExactStore.sound_of_steps (Indexed.sound_ofRegions regions) hstore) hc hs⟩

/-- a column was surveyed and then asked for twice -/
def Cache.surveyed {σ : Type} [RegionStore σ] (store : σ) (p : Block) : Cache σ :=
  ((((Cache.ofSettings store {}).warmAll [p.column]).2.drain 10).2.regionsAt p).2

theorem Scene.leads_surveyed {σ : Type} [RegionStore σ] (store : σ) (p : Block) :
    (Scene.start (Cache.ofSettings store {})).Leads (Cache.surveyed store p) := by
  have hwarm : Leads (.start (Cache.ofSettings store {}))
      ((Cache.ofSettings store {}).warmAll [p.column]).2 :=
    leads_after (reach_warmAll [p.column] trivial)
  exact (hwarm.drain 10).regionsAt p

theorem hourglass_and_bar_answered :
    (∃ s : Scene Table,
      s.cache = Cache.surveyed (Table.ofRegions [Region.hourglass, Region.bar]) ⟨0, 3, 1⟩ ∧
      s.cache.recent = some 0 ∧ s.cache.isLoaded ⟨0, 0⟩ = true ∧ s.Faithful) ∧
    (∃ s : Scene Tree,
      s.cache = Cache.surveyed (Tree.ofRegions [Region.hourglass, Region.bar]) ⟨0, 3, 1⟩ ∧
      s.cache.recent = some 0 ∧ s.cache.isLoaded ⟨0, 0⟩ = true ∧ s.Faithful) ∧
    ∃ s : Scene (Indexed .scanBackwards), s.cache = Cache.surveyed
        (Indexed.ofRegions .scanBackwards [Region.hourglass, Region.bar]) ⟨0, 3, 1⟩ ∧
      s.cache.recent = some 0 ∧ s.cache.isLoaded ⟨0, 0⟩ = true ∧ s.Faithful := by
  refine ⟨?_, ?_, ?_⟩
  · obtain ⟨s, hreach, -, hs⟩ :=
      Scene.leads_surveyed (Table.ofRegions [Region.hourglass, Region.bar]) ⟨0, 3, 1⟩
    refine ⟨s, hs, ?_, ?_, faithful_of_reach.1 _ _ {} _ s .refl rfl hreach⟩
    · rw [hs]
      decide +kernel
    · rw [hs]
      decide +kernel
  · obtain ⟨s, hreach, -, hs⟩ :=
      Scene.leads_surveyed (Tree.ofRegions [Region.hourglass, Region.bar]) ⟨0, 3, 1⟩
    refine ⟨s, hs, ?_, ?_, faithful_of_reach.2.1 _ _ {} _ s .refl rfl hreach⟩
    · rw [hs]
      decide +kernel
    · rw [hs]
      decide +kernel
  · obtain ⟨s, hreach, -, hs⟩ := Scene.leads_surveyed
      (Indexed.ofRegions .scanBackwards [Region.hourglass, Region.bar]) ⟨0, 3, 1⟩
    refine ⟨s, hs, ?_, ?_, faithful_of_reach.2.2 _ _ _ {} _ s .refl rfl hreach⟩
    · rw [hs]
      decide +kernel
    · rw [hs]
      decide +kernel

end Precinct
