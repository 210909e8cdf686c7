import Mathlib
import Precinct.Proofs.Cache.Deeds
import Precinct.Proofs.Cache.Waits

/-!
# Cancelled pools stay in sight

* `Cache.Lingers`      a pool was cancelled and a worker of it is still live;
* `Scene.Course`       several deeds one after the other, the workers and the clock coming between as
                       they like;
* `Scene.Undrained`    no drain goes on and none gave up on a pool, which stays so as long as nothing is
                       awaited;
* `Custody.lingers_iff`  then the pools that linger are those with a live worker, but for the one that
                       takes new jobs;
* `Scene.InSight`      such pools are on the list of dismissed ones, whatever a wait reported;
* `inSight_of_course`  **so it is after any course of deeds**, however often the wait for dismissed
                       pools ended too early and however often the list was sifted.

A pool in the hands of nobody else is waited for or on the list (`Kept`), and nothing that a client does
without awaiting work gives a pool to anybody else.  So the list need not be followed through the steps
that take it, sift it and give it back.
-/

namespace Precinct

/-- a pool was cancelled and a worker of it is still live -/
def Cache.Lingers {σ : Type} (c : Cache σ) (k : Nat) : Prop :=
  (c.pool k).cancelled = true ∧ c.isLive k = true

/-- whether a drain goes on -/
def Doing.Drains : Doing → Prop
  | swapped _ | draining _ => True
  | nothing | writing | scheduling _ _ | asking _ _ | answered _ _ | drained _ | dismissing _ _ _
  | dismissed _ => False

/-- whether a new epoch begins with it -/
def Deed.turns : Deed → Bool
  | write _ | renew | dropAll | dropAllAndWait => true
  | chore _ | warm _ | drop _ | ask _ | overlap _ | consult _ | await => false

theorem Deed.ne_await_of_turns {d : Deed} (h : d.turns = true) : d ≠ .await := by
  rintro rfl
  cases h

section
variable {σ : Type} [RegionStore σ] {s₀ s s' t : Scene σ} {d : Deed} {ds : List Deed} {k : Nat}

namespace Scene

/-- several deeds one after the other, the latest first -/
inductive Course (s₀ : Scene σ) : List Deed → Scene σ → Prop
  | nil : Course s₀ [] s₀
  | next {d : Deed} {ds : List Deed} {s s' : Scene σ} (before : Course s₀ ds s) (does : Does d s s') :
      Course s₀ (d :: ds) s'
  | aside {ds : List Deed} {s s' : Scene σ} (before : Course s₀ ds s) (step : Aside s s') :
      Course s₀ ds s'

theorem Course.reach (h : s₀.Course ds s) : s₀.Reach s := by
  induction h with
  | nil => exact .refl
  | next before does ih => exact ih.trans does.reach
  | aside before step ih => exact ih.step step.step

theorem Course.rest (h : s₀.Course ds s) (rest : s₀.doing.AtRest) : s.doing.AtRest := by
  induction h with
  | nil => exact rest
  | next before does ih => exact does.rest
  | aside before step ih =>
    rw [step.doing]
    exact ih

theorem Course.goesOn (h : s₀.Course ds s) (rest : s.doing.AtRest) (hs : s.GoesOn s') :
    s₀.Course ds s' ∧ s'.doing.AtRest := by
  induction hs with
  | refl => exact ⟨h, rest⟩
  | tail _ hstep ih =>
    rcases hstep with ha | ⟨busy, -⟩
    · refine ⟨ih.1.aside ha, ?_⟩
      rw [ha.doing]
      exact ih.2
    · exact absurd ih.2 busy

/-! ## without drains -/

/-- no drain goes on and none gave up on a pool -/
def Undrained (s : Scene σ) : Prop := s.abandoned = [] ∧ ¬s.doing.Drains

theorem Undrained.continues (h : s.Undrained) (hs : s.Continues s') : s'.Undrained := by
  rcases hs with ha | ⟨busy, hs⟩
  · cases ha <;> exact h
  · cases hs with
    | swap rest => exact absurd rest busy
    | close doing =>
      refine absurd ?_ h.2
      rw [doing]
      trivial
    | drained doing =>
      refine absurd ?_ h.2
      rw [doing]
      trivial
    | closeGate => exact h
    | openGate => exact h
    | failNext => exact h
    | work makes => exact h
    | elapse ms => exact h
    | _ => exact ⟨h.1, id⟩

theorem Undrained.goesOn (h : s.Undrained) (hs : s.GoesOn s') : s'.Undrained := by
  induction hs with
  | refl => exact h
  | tail _ hstep ih => exact ih.continues hstep

theorem Undrained.begin (h : s.Undrained) (hd : d ≠ .await) (known : List Column) :
    (d.begin s known).Undrained := by
  cases d with
  | await => exact absurd rfl hd
  | _ => exact ⟨h.1, id⟩

theorem Undrained.does (h : s.Undrained) (hs : Does d s s') (hd : d ≠ .await) : s'.Undrained := by
  obtain ⟨t, known, hbefore, -, -, hafter, -⟩ := hs
  exact ((h.goesOn hbefore).begin hd known).goesOn hafter

/-- **As long as nothing is awaited**, no pool is given up. -/
theorem Undrained.course (h : s₀.Undrained) (hs : s₀.Course ds s) (hd : Deed.await ∉ ds) :
    s.Undrained := by
  induction hs with
  | nil => exact h
  | next before does ih =>
    rw [List.mem_cons, not_or] at hd
    exact (ih hd.2).does does (Ne.symm hd.1)
  | aside before step ih => exact (ih hd).continues (Or.inl step)

end Scene

/-! ## pools that linger -/

omit [RegionStore σ] in
theorem Cache.lt_size_of_isLive {c : Cache σ} (h : c.isLive k = true) : k < c.pools.size :=
  Cache.lt_size_of_pool fun hdef => by
    rw [Cache.isLive, hdef] at h
    cases h

omit [RegionStore σ] in
/-- a pool with a live worker takes the new jobs, or it is on the list, or it is waited for -/
theorem Custody.listed_of_isLive (h : Custody s) (hu : s.Undrained) (hk : k ≠ s.cache.current)
    (hlive : s.cache.isLive k = true) : k ∈ s.cache.dismissed ∨ k ∈ s.doing.pools := by
  cases h.kept k (Cache.lt_size_of_isLive hlive) with
  | current here => exact absurd here hk
  | dismissed here => exact Or.inl here
  | waited here => exact Or.inr here
  | abandoned here =>
    rw [hu.1] at here
    exact absurd here List.not_mem_nil
  | empty none =>
    rw [(Cache.isLive_eq_false_iff (h.sound k)).mpr none] at hlive
    cases hlive

omit [RegionStore σ] in
theorem Custody.ne_current_of_lingers (h : Custody s) (hk : s.cache.Lingers k) :
    k ≠ s.cache.current := by
  rintro rfl
  rw [Cache.Lingers, h.not_cancelled] at hk
  cases hk.1

omit [RegionStore σ] in
/-- **The pools that linger** are all those with a live worker, but for the one that takes new jobs. -/
theorem Custody.lingers_iff (h : Custody s) (hu : s.Undrained) (rest : s.doing.AtRest) :
    s.cache.Lingers k ↔ k ≠ s.cache.current ∧ s.cache.isLive k = true := by
  refine ⟨fun hk => ⟨h.ne_current_of_lingers hk, hk.2⟩, fun ⟨hk, hlive⟩ => ⟨?_, hlive⟩⟩
  rcases h.listed_of_isLive hu hk hlive with here | here
  · exact h.cancelled k here
  · rw [rest.pools] at here
    exact absurd here List.not_mem_nil

/-! ## pools that were replaced -/

theorem Step.current_le (hs : Step s s') (h : Crews s) : s.cache.current ≤ s'.cache.current := by
  have hcurrent := h.current
  rcases (hs.reshaped hcurrent).current with he | ⟨hle, -⟩
  · exact he.ge
  · omega

theorem Scene.Reach.current_le (hs : s.Reach s') (h : Crews s) :
    Crews s' ∧ s.cache.current ≤ s'.cache.current := by
  induction hs with
  | refl => exact ⟨h, le_refl _⟩
  | tail _ hstep ih => exact ⟨ih.1.step hstep, ih.2.trans (hstep.current_le ih.1)⟩

omit [RegionStore σ] in
theorem Cache.current_lt_turn {c : Cache σ} (h : c.current < c.pools.size) :
    c.current < c.turn.2.current := by
  rw [c.current_turn]
  exact h

omit [RegionStore σ] in
theorem Cache.current_lt_restart {c : Cache σ} (h : c.current < c.pools.size)
    (known : List Column) : c.current < (c.restart known).current := by
  obtain ⟨-, -, -, -, hcurrent, -⟩ := c.turn.2.insertAllMissing_frame known
  rw [Cache.restart, hcurrent]
  exact Cache.current_lt_turn h

/-- a write goes on until another pool takes the new jobs -/
theorem Scene.GoesOn.current_lt (hs : s.GoesOn s') (h : Crews s) (hd : s.doing = .writing) :
    Crews s' ∧ (s'.doing = .writing ∧ s.cache.current ≤ s'.cache.current ∨
      s.cache.current < s'.cache.current) := by
  induction hs with
  | refl => exact ⟨h, Or.inl ⟨hd, le_refl _⟩⟩
  | tail _ hstep ih =>
    obtain ⟨hcrews, hcases⟩ := ih
    have hle := hstep.step.current_le hcrews
    refine ⟨hcrews.step hstep.step, ?_⟩
    rcases hcases with ⟨hw, hc⟩ | hc
    · -- only the renewal ends the first half, and it turns to a fresh pool
      rcases hstep.step.of_writing hw with hw' | ⟨known, he⟩
      · exact Or.inl ⟨hw', hc.trans hle⟩
      · rw [he]
        exact Or.inr (hc.trans_lt (Cache.current_lt_restart hcrews.current known))
    · exact Or.inr (hc.trans_le hle)

/-- **A new epoch replaces the pool** that took the new jobs. -/
theorem Scene.Does.current_lt (hs : Scene.Does d s s') (h : Crews s) (hd : d.turns = true) :
    s.cache.current < s'.cache.current := by
  obtain ⟨t, known, hbefore, rest, listed, hafter, rest'⟩ := hs
  obtain ⟨ht, hle⟩ := hbefore.reach.current_le h
  have hbegun : Crews (d.begin t known) := ht.step (d.step_begin rest listed)
  have hlater := (hafter.reach.current_le hbegun).2
  cases d with
  | write w =>
    obtain ⟨-, ⟨hw, -⟩ | hlt⟩ := hafter.current_lt hbegun rfl
    · exact absurd hw rest'.ne_writing
    · exact hle.trans_lt hlt
  | renew => exact hle.trans_lt ((Cache.current_lt_restart ht.current known).trans_le hlater)
  | dropAll => exact hle.trans_lt ((Cache.current_lt_turn ht.current).trans_le hlater)
  | dropAllAndWait => exact hle.trans_lt ((Cache.current_lt_turn ht.current).trans_le hlater)
  | _ => cases hd

/-! ## in sight -/

/-- the host loses sight of no pool that was cancelled and has a live worker -/
structure Scene.InSight (s : Scene σ) : Prop where
  /-- it is on the list of dismissed pools -/
  listed : ∀ k, s.cache.Lingers k → k ∈ s.cache.dismissed
  /-- the wait that ended just now, if there was one, did not report that all have stopped -/
  reported : ∀ k, s.cache.Lingers k → s.doing ≠ .dismissed true
  /-- the next one waits for it -/
  awaited : ∀ k, s.cache.Lingers k → k ∈ (Deed.dropAllAndWait.begin s).doing.pools

theorem Custody.inSight (h : Custody s) (hu : s.Undrained) (rest : s.doing.AtRest) : s.InSight := by
  have listed : ∀ k, s.cache.Lingers k → k ∈ s.cache.dismissed := by
    intro k hk
    rcases h.listed_of_isLive hu (h.ne_current_of_lingers hk) hk.2 with here | here
    · exact here
    · rw [rest.pools] at here
      exact absurd here List.not_mem_nil
  refine ⟨listed, fun k hk hd => ?_, fun k hk => ?_⟩
  · have hnone : s.cache.dismissed = [] := h.taken (by rw [hd]; trivial)
    exact absurd (hnone ▸ listed k hk) List.not_mem_nil
  · exact Cache.mem_dismissed_turn.mpr ⟨Or.inl (listed k hk), hk.2⟩

variable {store : σ} {settings : Settings} {c : Cache σ}

/-- **Cancelled work stays in sight.**  After deeds of any kind, none of which awaits work, every pool
that was cancelled and has a live worker is on the list, the wait for such pools has not reported that
they stopped, and the next one waits for them.  Cancelled is every pool that a new epoch replaced.  An
operation on the cache is such a deed, and the wait answers no as long as a worker outlives it. -/
theorem inSight_of_course (hc : Cache.make store settings = .ok c)
    (hs : (Scene.start c).Course ds s) (undrained : Deed.await ∉ ds) :
    s.InSight ∧
    (∀ d ds' s' t, d.turns = true → Scene.Does d s s' → s'.Course ds' t → Deed.await ∉ ds' →
      t.cache.isLive s.cache.current = true →
      t.cache.Lingers s.cache.current ∧ s.cache.current ∈ t.cache.dismissed) ∧
    (∀ (op : CacheOp) (shelf : Shelf) (d : Deed), op.deed? shelf = some d → d ≠ .await → ∀ k,
      (op.perform s.cache shelf).2.1.Lingers k → k ∈ (op.perform s.cache shelf).2.1.dismissed) ∧
    ∀ ms k, (s.cache.dropAllAndWait ms).2.Lingers k →
      (s.cache.dropAllAndWait ms).1 = false ∧ k ∈ (s.cache.dropAllAndWait ms).2.dismissed ∧
        k ∈ (s.cache.dropAllAndWait ms).2.turn.2.takeDismissed.1 := by
  obtain ⟨-, rfl⟩ := Cache.make_eq_ok hc
  have sight : ∀ {ds s}, (Scene.start (Cache.ofSettings store settings)).Course ds s →
      Deed.await ∉ ds → Custody s ∧ s.Undrained ∧ s.doing.AtRest := fun hs hd =>
    ⟨custody_of_reach hs.reach, Scene.Undrained.course ⟨rfl, id⟩ hs hd, hs.rest trivial⟩
  obtain ⟨hcustody, hundrained, rest⟩ := sight hs undrained
  refine ⟨hcustody.inSight hundrained rest, ?_, ?_, ?_⟩
  · intro d ds' s' t hturns hdoes hlater hd hlive
    have hcustody' : Custody t :=
      custody_of_reach ((hs.reach.trans hdoes.reach).trans hlater.reach)
    have hundrained' : t.Undrained :=
      (hundrained.does hdoes (Deed.ne_await_of_turns hturns)).course hlater hd
    have hrest' := hlater.rest hdoes.rest
    have hlt : s.cache.current < t.cache.current :=
      (hdoes.current_lt hcustody.toCrews hturns).trans_le
        (hlater.reach.current_le (hdoes.reach.current_le hcustody.toCrews).1).2
    have hlingers := (hcustody'.lingers_iff hundrained' hrest').mpr ⟨hlt.ne, hlive⟩
    exact ⟨hlingers, (hcustody'.inSight hundrained' hrest').listed _ hlingers⟩
  · intro op shelf d hop hd k hk
    obtain ⟨s', hdoes, hs'⟩ := Scene.does_perform hop rest
    obtain ⟨hcustody', hundrained', rest'⟩ := sight (hs.next hdoes)
      (List.not_mem_cons_of_ne_of_not_mem (Ne.symm hd) undrained)
    rw [← hs'] at hk ⊢
    exact (hcustody'.inSight hundrained' rest').listed k hk
  · intro ms k hk
    obtain ⟨lost, hdoes, -⟩ := Scene.does_dropAllAndWait ms rest
    obtain ⟨hcustody', hundrained', rest'⟩ := sight (hs.next hdoes)
      (List.not_mem_cons_of_ne_of_not_mem nofun undrained)
    obtain ⟨listed, reported, awaited⟩ := hcustody'.inSight hundrained' rest'
    refine ⟨Bool.eq_false_iff.mpr fun hstopped => reported k hk ?_, listed k hk, awaited k hk⟩
    exact congrArg Doing.dismissed hstopped

end

/-- a worker is held up at the gate, another pool has taken its place, and the client has just looked
whether the workers of both have stopped -/
def Scene.stuck : Scene Table where
  cache := (Cache.held.renew.2.dropAllAndWait 0).2
  doing := .dismissed false

theorem Scene.course_stuck : (Scene.start (Cache.ofSettings ({} : Table) {})).Course
    [.dropAllAndWait, .renew, .warm [⟨0, 0⟩]] Scene.stuck := by
  have hbarred : (Scene.start (Cache.ofSettings ({} : Table) {})).Course []
      (.start Cache.barred) := .aside .nil .closeGate
  have htold := hbarred.next (does_warm [⟨0, 0⟩] trivial)
  rw [after_start (by decide +kernel)] at htold
  obtain ⟨lost, hgate, hlost⟩ := goesOn_awaitGate (.start (Cache.barred.warmAll [⟨0, 0⟩]).2) 1000
  rw [hlost (by decide +kernel)] at hgate
  have hheld : Course _ _ (.start Cache.held) := (htold.goesOn trivial hgate).1
  have hrenewed := hheld.next (does_renew trivial)
  rw [after_start (by decide +kernel)] at hrenewed
  obtain ⟨lost', hdrop, hlost'⟩ := does_dropAllAndWait (s := .start Cache.held.renew.2) 0 trivial
  have hfalse : (Cache.held.renew.2.dropAllAndWait 0).1 = false := by decide +kernel
  have hdrop' : Does .dropAllAndWait (.start Cache.held.renew.2) Scene.stuck := by
    rw [hlost' (by decide +kernel), Scene.start, hfalse] at hdrop
    exact hdrop
  exact hrenewed.next hdrop'

/-- two pools linger; a longer wait sees one of them stop, and not the other before the gate opens -/
theorem stuck_in_sight :
    Scene.stuck.InSight ∧ Scene.stuck.cache.dismissed = [0, 1] ∧ Scene.stuck.cache.Lingers 0 ∧
    Scene.stuck.cache.Lingers 1 ∧ (Scene.stuck.cache.dropAllAndWait 15).1 = false ∧
    (Scene.stuck.cache.dropAllAndWait 15).2.dismissed = [0] ∧
    (let c := (Scene.stuck.cache.dropAllAndWait 15).2
     ({ c with store := c.store.openGate.2 }.dropAllAndWait 15).1 = true) := by
  have hmake : Cache.make ({} : Table) {} = .ok (Cache.ofSettings {} {}) := rfl
  obtain ⟨hsight, -, -, hwait⟩ := inSight_of_course hmake Scene.course_stuck (by simp)
  have hlingers : (Scene.stuck.cache.dropAllAndWait 15).2.Lingers 0 :=
    ⟨by decide +kernel, by decide +kernel⟩
  exact ⟨hsight, by decide +kernel, ⟨by decide +kernel, by decide +kernel⟩,
    ⟨by decide +kernel, by decide +kernel⟩, (hwait 15 0 hlingers).1, by decide +kernel,
    by decide +kernel⟩

end Precinct
