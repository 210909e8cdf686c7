import Mathlib
import Precinct.Proofs.Cache.Backlog
import Precinct.Proofs.Cache.InSight
import Precinct.Proofs.World.Box

/-!
# Areas that are loaded

* `Deed.forgets`, `Deed.named`  whether a deed forgets columns, and which ones it makes known;
* `Cache.known_restart`  a renewal knows the columns that were known before;
* `Does.known`         a deed that forgets none makes known what it names and nothing else;
* `Course.known`       so what is known stays known through any course of such deeds;
* `Coverage.allLoaded`  when the surveys have ended, all of it is loaded;
* `Filed.sheet_answers`  and then the store is not asked;
* `area_answered`      **the columns of an area, what telling of it makes known, and who answers for its
                       blocks** once the surveys have ended.
-/

namespace Precinct

/-- whether it forgets columns -/
def Deed.forgets : Deed → Bool
  | drop _ | dropAll | dropAllAndWait => true
  | write _ | chore _ | renew | warm _ | ask _ | overlap _ | consult _ | await => false

/-- the columns that it makes known -/
def Deed.named : Deed → List Column
  | warm columns => columns
  | write _ | chore _ | renew | drop _ | dropAll | dropAllAndWait | ask _ | overlap _ | consult _
  | await => []

/-! ## what is known -/

section
variable {σ : Type} {c : Cache σ} {s s' s₀ : Scene σ} {d : Deed} {ds : List Deed} {column : Column}

theorem Cache.known_restart (hf : Filed c) (hc : c.current < c.pools.size) {known : List Column}
    (listed : known.Perm c.columns.keys) (column : Column) :
    ((c.restart known).sheetOf? column).isSome = true ↔ (c.sheetOf? column).isSome = true := by
  rw [Cache.restart, (learnt (hf.turn hc) known).known, Cache.sheetOf?_turn, listed.mem_iff,
    Grid.mem_keys]
  exact or_iff_left Bool.false_ne_true

theorem Cache.known_of_columns {c' : Cache σ} (h : c'.columns = c.columns) (column : Column) :
    (c'.sheetOf? column).isSome = true ↔ (c.sheetOf? column).isSome = true := by
  rw [Cache.sheetOf?_congr h]

variable [RegionStore σ]

theorem Aside.columns (h : Aside s s') : s'.cache.columns = s.cache.columns := by
  cases h with
  | work makes => exact (Cache.worked_of_step? makes).frame.2.2.1
  | _ => rfl

/-- while no deed is begun no column becomes known, and none is forgotten -/
theorem Scene.Continues.known (hs : s.Continues s') (h : Coverage s) (column : Column) :
    (s'.cache.sheetOf? column).isSome = true ↔ (s.cache.sheetOf? column).isSome = true := by
  rcases hs with ha | ⟨busy, hs⟩
  · exact Cache.known_of_columns ha.columns column
  · cases hs with
    | renew listed rest => exact Cache.known_restart h.filed h.custody.current listed column
    | submit doing taken => exact Iff.rfl
    | breakOff doing refused => exact Iff.rfl
    | @scheduled renewal doing => cases renewal <;> exact Iff.rfl
    | @answer p found doing =>
      exact Cache.known_of_columns (s.cache.answer_frame p found).2.2.1 column
    | close doing => exact Iff.rfl
    | drained doing => exact Iff.rfl
    | observe doing => exact Iff.rfl
    | @dismissed pools stopped doing => cases stopped <;> exact Iff.rfl
    | closeGate => exact Iff.rfl
    | openGate => exact Iff.rfl
    | failNext => exact Iff.rfl
    | work makes => exact Cache.known_of_columns (Aside.work makes).columns column
    | elapse ms => exact Iff.rfl
    | _ => exact absurd ‹s.doing.AtRest› busy

theorem Scene.GoesOn.known (hs : s.GoesOn s') (h : Coverage s) (column : Column) : Coverage s' ∧
    ((s'.cache.sheetOf? column).isSome = true ↔ (s.cache.sheetOf? column).isSome = true) := by
  induction hs with
  | refl => exact ⟨h, Iff.rfl⟩
  | tail _ hlast ih => exact ⟨ih.1.step hlast.step, (hlast.known ih.1 column).trans ih.2⟩

theorem Deed.known_begin (h : Coverage s) (hd : d.forgets = false) {known : List Column}
    (listed : known.Perm s.cache.columns.keys) (column : Column) :
    ((d.begin s known).cache.sheetOf? column).isSome = true ↔
      (s.cache.sheetOf? column).isSome = true ∨ column ∈ d.named := by
  have hsame : ∀ {c' : Cache σ}, c'.columns = s.cache.columns →
      ((c'.sheetOf? column).isSome = true ↔
        (s.cache.sheetOf? column).isSome = true ∨ column ∈ ([] : List Column)) := fun hcolumns => by
    rw [Cache.known_of_columns hcolumns]
    exact (or_iff_left List.not_mem_nil).symm
  cases d with
  | renew =>
    exact (Cache.known_restart h.filed h.custody.current listed column).trans
      (or_iff_left List.not_mem_nil).symm
  | warm columns => exact ((learnt h.filed columns).known column).trans or_comm
  | ask p => exact hsame (s.cache.resolved p.column).frame.2.2.2.1
  | drop column => cases hd
  | dropAll => cases hd
  | dropAllAndWait => cases hd
  | _ => exact hsame rfl

/-- **A deed that forgets nothing** makes known what it names and nothing else. -/
theorem Scene.Does.known (hs : Scene.Does d s s') (h : Coverage s) (hd : d.forgets = false)
    (column : Column) : (s'.cache.sheetOf? column).isSome = true ↔
      (s.cache.sheetOf? column).isSome = true ∨ column ∈ d.named := by
  obtain ⟨t, known, hbefore, rest, listed, hafter, -⟩ := hs
  obtain ⟨ht, hbegan⟩ := hbefore.known h column
  rw [(hafter.known (ht.step (d.step_begin rest listed)) column).2, Deed.known_begin ht hd listed,
    hbegan]

theorem Scene.Reach.coverage (hs : s.Reach s') (h : Coverage s) : Coverage s' :=
  hs.invariant (fun _ _ ht hstep => ht.step hstep) h

/-- **What is known stays known** as long as nothing is forgotten. -/
theorem Scene.Course.known (hs : s₀.Course ds s) (h : Coverage s₀)
    (hkeep : ∀ d ∈ ds, d.forgets = false) (hk : (s₀.cache.sheetOf? column).isSome = true) :
    (s.cache.sheetOf? column).isSome = true := by
  induction hs with
  | nil => exact hk
  | next before does ih =>
    have hbefore := ih fun d hd => hkeep d (List.mem_cons_of_mem _ hd)
    exact (does.known (before.reach.coverage h) (hkeep _ List.mem_cons_self) column).mpr
      (Or.inl hbefore)
  | aside before step ih => exact (Cache.known_of_columns step.columns column).mpr (ih hkeep)

/-! ## who answers -/

omit [RegionStore σ] in
/-- when the surveys have ended nothing is left to be loaded -/
theorem Coverage.allLoaded (h : Coverage s) (rest : s.doing.AtRest) (hm : s.mishap = false)
    (idle : ∀ k, (s.cache.pool k).jobs = []) : s.cache.AllLoaded := by
  intro column hk
  obtain ⟨i, hi⟩ := Option.isSome_iff_exists.mp hk
  rw [Cache.isLoaded, hi, Option.any_some]
  by_contra hl
  rcases h.covered hm column i hi (Bool.eq_false_iff.mpr hl) with (hp | ho) | ⟨k, -, v, hv, -⟩
  · rw [rest.pending] at hp
    exact absurd hp List.not_mem_nil
  · exact ho
  · rw [idle k] at hv
    exact absurd hv List.not_mem_nil

/-- a loaded sheet answers, to every visitor, and the store is not asked -/
theorem Filed.sheet_answers (hf : Filed c) {p : Block} (hl : c.isLoaded p.column = true)
    (limit : Option Nat) : (c.visitContaining p limit).2.1 = true ∧
      (c.visitContaining p limit).2.2.store = c.store ∧
      (c.visitContaining p limit).2.2.counters.storeFallbacks = c.counters.storeFallbacks := by
  have hsome := Cache.isSome_resolve hf p.column
  obtain ⟨hstore, -⟩ := (c.resolved p.column).frame
  obtain ⟨hot, own, hcounters, -⟩ := c.counters_resolve p.column
  unfold Cache.visitContaining
  cases hr : c.resolve p.column with
  | mk found c' =>
    rw [hr] at hsome hstore hcounters
    rw [hl] at hsome
    cases found with
    | none => cases hsome
    | some regions => exact ⟨rfl, hstore, by rw [hcounters]⟩

end

/-! ## areas -/

/-- **Loading an area.**  The columns of the box of two corners come row by row, none of them twice, and
are those that its blocks stand in.  Telling a cache of the area, in whatever state it is and whatever the
workers do meanwhile, makes just these known beside those known before.  When all surveys have ended, none
of them lost, sheets answer for every block of the area, whatever was done in between but for forgetting. -/
theorem area_answered {σ : Type} [RegionStore σ] (a b : Block) :
    (Box.ofCorners a b).columns.Pairwise Column.Before ∧
    (∀ column, column ∈ (Box.ofCorners a b).columns ↔
      ∃ p, (Box.ofCorners a b).contains p = true ∧ p.column = column) ∧
    ∀ (store : σ) (settings : Settings) (c : Cache σ) (s t : Scene σ),
      Cache.make store settings = .ok c → (Scene.start c).Reach s →
      Scene.Does (WorldEvent.areaLoaded (Box.ofCorners a b)).hint.deed s t →
      (∀ column, (t.cache.sheetOf? column).isSome = true ↔
        (s.cache.sheetOf? column).isSome = true ∨
          ∃ p, (Box.ofCorners a b).contains p = true ∧ p.column = column) ∧
      ∀ (ds : List Deed) (u : Scene σ), t.Course ds u → (∀ d ∈ ds, d.forgets = false) →
        u.mishap = false → (∀ k, (u.cache.pool k).jobs = []) →
        ∀ p, (Box.ofCorners a b).contains p = true → ∀ limit,
          (u.cache.visitContaining p limit).2.1 = true ∧
          (u.cache.visitContaining p limit).2.2.store = u.cache.store ∧
          (u.cache.visitContaining p limit).2.2.counters.storeFallbacks =
            u.cache.counters.storeFallbacks := by
  refine ⟨Box.pairwise_columns _, fun column => Box.mem_columns_ofCorners a b, ?_⟩
  intro store settings c s t hmake hs hdoes
  obtain ⟨hv, rfl⟩ := Cache.make_eq_ok hmake
  have hcoverage := coverage_of_reach (Settings.batchSize_of_validate hv) hs
  have hknown : ∀ column, (t.cache.sheetOf? column).isSome = true ↔
      (s.cache.sheetOf? column).isSome = true ∨
        ∃ p, (Box.ofCorners a b).contains p = true ∧ p.column = column := fun column => by
    rw [hdoes.known hcoverage rfl, ← Box.mem_columns_ofCorners]
    rfl
  refine ⟨hknown, fun ds u hlater hkeep hm idle p hp limit => ?_⟩
  have ht := hdoes.reach.coverage hcoverage
  have hu := hlater.reach.coverage ht
  have hall := hu.allLoaded (hlater.rest hdoes.rest) hm idle
  refine hu.filed.sheet_answers (hall p.column ?_) limit
  exact hlater.known ht hkeep ((hknown p.column).mpr (Or.inr ⟨p, hp, rfl⟩))

/-- a cache that was told of three columns, by two blocks at their outermost edges -/
def Cache.grounds : Cache Table :=
  ((Cache.ofSettings ({} : Table) {}).hint
    (WorldEvent.areaLoaded (Box.ofCorners ⟨31, 5, 0⟩ ⟨-1, 0, 15⟩)).hint).2

/-- then a region was added, and the workers have settled -/
def Cache.builtUpon : Cache Table :=
  (Cache.grounds.modifyStore (Write.apply · (.add .bar))).renew.2.settle

theorem Scene.course_builtUpon : (Scene.start Cache.grounds).Course [.write (.add .bar)]
    (.start Cache.builtUpon) := by
  have hadded := Course.nil.next (does_write (s := .start Cache.grounds) (.add .bar) trivial)
  rw [after_start (by decide +kernel)] at hadded
  obtain ⟨lost, hsettle, hlost⟩ := goesOn_settle
    (.start (Cache.grounds.modifyStore (Write.apply · (.add .bar))).renew.2)
  rw [hlost (by decide +kernel)] at hsettle
  exact (hadded.goesOn trivial hsettle).1

/-- three columns are known, and the sheet of the last of them answers for a block at its edge -/
theorem grounds_answered :
    (∀ column, (Cache.grounds.sheetOf? column).isSome = true ↔
      ∃ p, (Box.ofCorners ⟨31, 5, 0⟩ ⟨-1, 0, 15⟩).contains p = true ∧ p.column = column) ∧
    (Box.ofCorners ⟨31, 5, 0⟩ ⟨-1, 0, 15⟩).columns = [⟨-1, 0⟩, ⟨0, 0⟩, ⟨1, 0⟩] ∧
    (Cache.builtUpon.visitContaining ⟨31, 5, 15⟩ none).2.1 = true ∧
    (Cache.builtUpon.visitContaining ⟨31, 5, 15⟩ none).2.2.counters.storeFallbacks = 0 := by
  have hmake : Cache.make ({} : Table) {} = .ok (Cache.ofSettings {} {}) := rfl
  have htold := Scene.does_hint (s := .start (Cache.ofSettings ({} : Table) {}))
    (WorldEvent.areaLoaded (Box.ofCorners ⟨31, 5, 0⟩ ⟨-1, 0, 15⟩)).hint trivial
  rw [Scene.after_start (by decide +kernel)] at htold
  obtain ⟨-, -, hloads⟩ := area_answered (σ := Table) ⟨31, 5, 0⟩ ⟨-1, 0, 15⟩
  obtain ⟨hknown, hanswers⟩ := hloads {} {} _ _ _ hmake .refl htold
  have idle : ∀ k, (Cache.builtUpon.pool k).jobs = [] := by
    intro k
    have hsize : Cache.builtUpon.pools.size = 2 := by decide +kernel
    rcases Nat.lt_or_ge k 2 with hk | hk
    · revert k
      decide +kernel
    · rw [Cache.pool_of_size_le (hsize ▸ hk)]
      rfl
  obtain ⟨hsheet, -, hfallbacks⟩ := hanswers _ _ Scene.course_builtUpon (by simp [Deed.forgets]) rfl
    idle ⟨31, 5, 15⟩ (by decide) none
  refine ⟨fun column => (hknown column).trans (or_iff_right ?_), by decide, hsheet, ?_⟩
  · rw [show (Scene.start (Cache.ofSettings ({} : Table) {})).cache.sheetOf? column = none from
      Cache.sheetOf?_ofSettings _ _ column]
    exact Bool.false_ne_true
  · exact hfallbacks.trans (by decide +kernel)

end Precinct
