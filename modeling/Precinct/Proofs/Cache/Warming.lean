import Mathlib
import Precinct.Proofs.Cache.Errands
import Precinct.Proofs.Cache.Sturdy

/-!
# Each column is asked about once

* `Asking`             a step that is not the host's, with the column about which it asks the store;
* `Scene.Warming`      a run in which the host does no more than tell of columns: which columns the calls
                       named, which batches were submitted, and about which columns the store was asked;
                       `Warming.hint` and `Warming.goesOn` say that hints and waits make such runs;
* `HandedOver`         the batches submitted and those still to be are the newcomers;
* `Warming.dispatched`  **a run keeps track of every newcomer**, if nothing goes wrong;
* `warming_once`       what there is to say when the surveys have ended.

A run begins when nobody has a job.  What went wrong before that makes no difference to it, for a pool
without jobs needs no worker (`Custody.forgive`).
-/

namespace Precinct
open List (Perm)

section
variable {σ : Type} [RegionStore σ] {s₀ s s' : Scene σ} {calls handed batches : List (List Column)}
  {asked asked' pending columns batch : List Column}

/-! ## runs -/

/-- a step that is not the host's, and the column about which it asks the store, if it does -/
inductive Asking (s : Scene σ) : List Column → Scene σ → Prop
  | closeGate : Asking s [] { s with cache := { s.cache with store := s.cache.store.closeGate } }
  | openGate : Asking s [] { s with cache := { s.cache with store := s.cache.store.openGate.2 } }
  | failNext : Asking s [] { s with cache := { s.cache with store := s.cache.store.failNext } }
  | work {k number : Nat} {w : WorkerStep} {c : Cache σ}
      (makes : s.cache.step? k number w = some c) :
      Asking s (s.cache.inquires k number w)
        { s with cache := c, mishap := s.mishap || s.cache.breaksOff k number w }
  | elapse (ms : Nat) : Asking s [] { s with cache := s.cache.elapse ms }

theorem Asking.aside (h : Asking s asked s') : Aside s s' := by
  cases h with
  | closeGate => exact .closeGate
  | openGate => exact .openGate
  | failNext => exact .failNext
  | work makes => exact .work makes
  | elapse ms => exact .elapse ms

theorem Aside.asking (h : Aside s s') : ∃ asked, Asking s asked s' := by
  cases h with
  | closeGate => exact ⟨_, .closeGate⟩
  | openGate => exact ⟨_, .openGate⟩
  | failNext => exact ⟨_, .failNext⟩
  | work makes => exact ⟨_, .work makes⟩
  | elapse ms => exact ⟨_, .elapse ms⟩

namespace Scene

/-- a run in which the host does no more than tell of columns, and no submission breaks off: the columns
that the calls named, the batches that were submitted, and the columns about which the store was
asked -/
inductive Warming (s₀ : Scene σ) :
    List (List Column) → List (List Column) → List Column → Scene σ → Prop
  | start : Warming s₀ [] [] [] s₀
  | call {calls handed : List (List Column)} {asked : List Column} {s : Scene σ}
      (before : Warming s₀ calls handed asked s) (columns : List Column) (rest : s.doing.AtRest) :
      Warming s₀ (calls ++ [columns]) handed asked ((Deed.warm columns).begin s)
  | submit {calls handed batches : List (List Column)} {batch asked : List Column} {s : Scene σ}
      {denied : Bool} {p : Pool Survey} (before : Warming s₀ calls handed asked s)
      (doing : s.doing = .scheduling (batch :: batches) false)
      (taken : (s.cache.pool s.cache.current).submit
        { epoch := s.cache.epoch, columns := batch } denied = (.ok (), p)) :
      Warming s₀ calls (handed ++ [batch]) asked { s with
        cache := s.cache.setPool s.cache.current p
        doing := .scheduling batches false
        mishap := denied || s.mishap
        denied := denied || s.denied }
  | scheduled {calls handed : List (List Column)} {asked : List Column} {s : Scene σ}
      (before : Warming s₀ calls handed asked s) (doing : s.doing = .scheduling [] false) :
      Warming s₀ calls handed asked { s with doing := .nothing }
  | aside {calls handed : List (List Column)} {asked asked' : List Column} {s s' : Scene σ}
      (before : Warming s₀ calls handed asked s) (step : Asking s asked' s') :
      Warming s₀ calls handed (asked ++ asked') s'

namespace Warming

theorem reach (h : s₀.Warming calls handed asked s) : s₀.Reach s := by
  induction h with
  | start => exact .refl
  | call before columns rest ih => exact ih.step (.warm columns rest)
  | submit before doing taken ih => exact ih.step (.submit doing taken)
  | scheduled before doing ih => exact ih.step (.scheduled doing)
  | aside before step ih => exact ih.step step.aside.step

theorem goesOn (h : s₀.Warming calls handed asked s) (rest : s.doing.AtRest) (hs : s.GoesOn s') :
    ∃ asked', s₀.Warming calls handed asked' s' ∧ s'.doing.AtRest := by
  induction hs with
  | refl => exact ⟨asked, h, rest⟩
  | tail _ hstep ih =>
    obtain ⟨before, hbefore, hrest⟩ := ih
    rcases hstep with ha | ⟨busy, -⟩
    · obtain ⟨asked', hasks⟩ := ha.asking
      refine ⟨before ++ asked', hbefore.aside hasks, ?_⟩
      rw [ha.doing]
      exact hrest
    · exact absurd hrest busy

theorem submitAll (h : s₀.Warming calls handed asked s)
    (doing : s.doing = .scheduling batches false)
    (hok : (s.cache.submitAll batches).1.isOk = true) :
    s₀.Warming calls (handed ++ batches) asked
      { s with cache := (s.cache.submitAll batches).2, doing := .nothing } := by
  induction batches generalizing handed s with
  | nil =>
    rw [List.append_nil]
    exact h.scheduled doing
  | cons batch batches ih =>
    rw [Cache.submitAll] at hok ⊢
    cases hp : (s.cache.pool s.cache.current).submit { epoch := s.cache.epoch, columns := batch } with
    | mk outcome p =>
      rw [hp] at hok
      cases outcome with
      | error fault => cases hok
      | ok done =>
        rw [List.append_cons]
        exact ih (h.submit doing hp) rfl hok

/-- **Telling of several columns** is such a run: the newcomers among them are submitted in batches. -/
theorem warmAll (h : s₀.Warming calls handed asked s) (rest : s.doing.AtRest)
    (hok : (s.cache.warmAll columns).1.isOk = true) :
    s₀.Warming (calls ++ [columns]) (handed ++ s.cache.cut (s.cache.newcomers columns)) asked
      (s.after (s.cache.warmAll columns)) := by
  obtain ⟨-, hset, -⟩ := s.cache.insertAllMissing_frame columns
  have hcut : s.cache.cut (s.cache.newcomers columns) =
      (s.cache.insertAllMissing columns).2.cut (s.cache.insertAllMissing columns).1 := by
    rw [Cache.cut, Cache.cut, hset, Cache.newcomers_eq]
  rw [hcut]
  have hdone : s.after (s.cache.warmAll columns) =
      { s with cache := (s.cache.warmAll columns).2, doing := .nothing } := by
    rw [Scene.after, hok, Bool.not_true, Bool.or_false]
  rw [hdone]
  rw [warmAll_eq_schedule] at hok ⊢
  refine (h.call columns rest).submitAll ?_ hok
  show Doing.scheduling (s.cache.cut _) false = _
  rw [Cache.cut, Cache.cut, hset]

theorem hint {hint : Hint} (h : s₀.Warming calls handed asked s) (rest : s.doing.AtRest)
    (tells : hint.deed = .warm columns) (hok : (s.cache.hint hint).1.isOk = true) :
    s₀.Warming (calls ++ [columns]) (handed ++ s.cache.cut (s.cache.newcomers columns)) asked
      (s.after (s.cache.hint hint)) := by
  cases hint with
  | warm column =>
    cases tells
    rw [Cache.hint, warm_eq_warmAll] at hok ⊢
    exact h.warmAll rest hok
  | warmAll columns =>
    cases tells
    exact h.warmAll rest hok
  | drop column => cases tells
  | dropAll => cases tells

theorem hint_start {c : Cache σ} {hint : Hint} (h : s₀.Warming calls handed asked (.start c))
    (tells : hint.deed = .warm columns) (cuts : c.cut (c.newcomers columns) = batches)
    (hok : (c.hint hint).1.isOk = true) :
    s₀.Warming (calls ++ [columns]) (handed ++ batches) asked (.start (c.hint hint).2) := by
  rw [← cuts, ← after_start hok]
  exact h.hint trivial tells hok

theorem settle_start {c : Cache σ} (h : s₀.Warming calls handed asked (.start c))
    (hf : c.store.failing = false) :
    ∃ asked', s₀.Warming calls handed asked' (.start c.settle) := by
  obtain ⟨lost, hsettle, hlost⟩ := goesOn_settle (.start c)
  rw [hlost hf] at hsettle
  obtain ⟨asked', hsettled, -⟩ := h.goesOn trivial hsettle
  exact ⟨asked', hsettled⟩

end Warming
end Scene
end

/-! ## a whole run -/

/-- the batches submitted and those that are still to be are the newcomers among the columns named -/
structure HandedOver {σ : Type} (c₀ : Cache σ) (calls handed : List (List Column)) (s : Scene σ) :
    Prop where
  settings : s.cache.settings = c₀.settings
  known : ∀ column, (s.cache.sheetOf? column).isSome = true ↔
    (c₀.sheetOf? column).isSome = true ∨ column ∈ calls.flatten
  newcomers : handed.flatten ++ s.doing.pending.flatten = c₀.newcomers calls.flatten
  bound : ∀ batch ∈ handed ++ s.doing.pending,
    batch ≠ [] ∧ batch.length ≤ c₀.settings.batchSize.toNat

section
variable {σ : Type} {s₀ s s' : Scene σ} {calls handed : List (List Column)}
  {asked asked' : List Column}

/-- while nobody has a job it makes no difference what went wrong before -/
theorem Custody.forgive (h : Custody s) (idle : ∀ k, (s.cache.pool k).jobs = []) :
    Custody { s with mishap := false } := by
  refine ⟨⟨h.sound, h.settings, fun _ k hqueue => ?_, h.current⟩, h.accepting, h.closed,
    fun k hk => ?_, h.waited, h.fresh, h.cancelled, h.taken, h.stopping⟩
  · exact absurd (List.append_eq_nil_iff.mp (idle k)).1 hqueue
  · cases h.kept k hk with
    | current here => exact .current here
    | dismissed here => exact .dismissed here
    | waited here => exact .waited here
    | abandoned here => exact .abandoned here
    | empty none => exact .empty none

theorem HandedOver.newcomers_call (h : HandedOver s₀.cache calls handed s) (columns : List Column) :
    s₀.cache.newcomers (calls ++ [columns]).flatten =
      s₀.cache.newcomers calls.flatten ++ s.cache.newcomers columns := by
  rw [List.flatten_append, List.flatten_singleton, Cache.newcomers_append h.known]

variable [RegionStore σ]

theorem Asking.columns (h : Asking s asked s') : s'.cache.columns = s.cache.columns := by
  cases h with
  | work makes => exact (Cache.worked_of_step? makes).frame.2.2.1
  | _ => rfl

theorem Dispatched.asking {c₀ : Cache σ} {created pending : List Column}
    (h : Dispatched c₀ created asked pending s.cache) (hc : Custody s)
    (hf : Filed s.cache) (hs : Asking s asked' s') (hm : s'.mishap = false) :
    Dispatched c₀ created (asked ++ asked') pending s'.cache := by
  have hstore : ∀ {w : Watched σ}, w.intersectingCalls = s.cache.store.intersectingCalls →
      Dispatched c₀ created (asked ++ []) pending { s.cache with store := w } := fun hcalls => by
    rw [List.append_nil]
    exact ⟨h.others, h.errands.of_frame rfl rfl rfl rfl hcalls⟩
  cases hs with
  | closeGate => exact hstore rfl
  | openGate => exact hstore rfl
  | failNext => exact hstore rfl
  | @work k number w c makes =>
    have hkept := (Bool.or_eq_false_iff.mp hm).2
    exact h.labour hf hc.not_cancelled ((Cache.worked_of_step? makes).labour (hc.sound k) hkept)
  | elapse ms =>
    rw [List.append_nil]
    exact h.elapse hc.sound ms

theorem Scene.Reach.sound (hs : s₀.Reach s) (hc : Custody s₀) (hf : Filed s₀.cache) :
    Custody s ∧ Filed s.cache :=
  hs.invariant (P := fun s => Custody s ∧ Filed s.cache)
    (fun _ _ h hstep => ⟨h.1.step hstep, h.2.step h.1.toCrews hstep⟩) ⟨hc, hf⟩

namespace Scene.Warming

/-- **The batches are the newcomers**, in the order in which they were named first. -/
theorem handedOver (run : s₀.Warming calls handed asked s) (hc : Custody s₀) (hf : Filed s₀.cache)
    (hbatch : s₀.cache.settings.batchSize.toNat ≠ 0) (rest : s₀.doing.AtRest) :
    HandedOver s₀.cache calls handed s := by
  induction run with
  | start =>
    refine ⟨rfl, fun column => by simp, ?_, fun batch hb => ?_⟩
    · rw [rest.pending]
      rfl
    · rw [rest.pending] at hb
      exact absurd hb List.not_mem_nil
  | @call calls handed asked s before columns rest' ih =>
    have hl := learnt (before.reach.sound hc hf).2 columns
    have hcut : (Deed.begin s (.warm columns)).doing.pending = s.cache.cut (s.cache.newcomers columns) :=
      congrArg s.cache.cut (s.cache.newcomers_eq columns)
    have hflat : (s.cache.cut (s.cache.newcomers columns)).flatten = s.cache.newcomers columns :=
      Cache.flatten_batches (by rw [ih.settings]; exact hbatch) _
    -- at rest all batches are handed over, so the new ones come after them
    have hpending := ih.newcomers
    rw [rest'.pending, List.flatten_nil, List.append_nil] at hpending
    refine ⟨?_, fun column => ?_, ?_, fun batch hb => ?_⟩
    · obtain ⟨-, hset, -⟩ := s.cache.insertAllMissing_frame columns
      exact hset.trans ih.settings
    · rw [show (Deed.begin s (.warm columns)).cache = (s.cache.insertAllMissing columns).2 from rfl,
        hl.known, ih.known, List.flatten_append, List.flatten_singleton, List.mem_append]
      tauto
    · rw [hcut, hflat, ih.newcomers_call, hpending]
    · rw [hcut] at hb
      rcases List.mem_append.mp hb with hb | hb
      · exact ih.bound batch (List.mem_append_left _ hb)
      · rw [← ih.settings]
        exact Cache.bound_batches hb
  | @submit calls handed batches batch asked s denied p before doing taken ih =>
    have hnewcomers := ih.newcomers
    have hbound := ih.bound
    rw [doing] at hnewcomers hbound
    refine ⟨ih.settings, ih.known, ?_, fun b hb => hbound b ?_⟩
    · rw [← hnewcomers, List.flatten_append, List.flatten_singleton, List.append_assoc]
      rfl
    · rwa [List.append_assoc] at hb
  | scheduled before doing ih =>
    have hnewcomers := ih.newcomers
    have hbound := ih.bound
    rw [doing] at hnewcomers hbound
    exact ⟨ih.settings, ih.known, hnewcomers, hbound⟩
  | aside before step ih =>
    refine ⟨step.aside.step.settings.trans ih.settings, fun column => ?_, ?_, ?_⟩
    · rw [Cache.sheetOf?_congr step.columns]
      exact ih.known column
    · rw [step.aside.doing]
      exact ih.newcomers
    · rw [step.aside.doing]
      exact ih.bound

/-- **A run keeps track of every newcomer**, if nothing goes wrong. -/
theorem dispatched (run : s₀.Warming calls handed asked s) (hc : Custody s₀) (hf : Filed s₀.cache)
    (hbatch : s₀.cache.settings.batchSize.toNat ≠ 0) (rest : s₀.doing.AtRest)
    (idle : ∀ k, (s₀.cache.pool k).jobs = []) (hm : s.mishap = false) :
    Dispatched s₀.cache (s₀.cache.newcomers calls.flatten) asked s.doing.pending.flatten s.cache := by
  induction run with
  | start =>
    rw [rest.pending]
    refine ⟨fun j _ => idle j, ?_⟩
    rw [idle]
    exact ⟨nofun, List.nodup_nil, fun _ h => absurd h List.not_mem_nil,
      fun _ h => absurd h List.not_mem_nil, rfl, .refl _, rfl⟩
  | @call calls handed asked s before columns rest' ih =>
    obtain ⟨-, hf'⟩ := before.reach.sound hc hf
    have hover := before.handedOver hc hf hbatch rest
    have hbefore := ih hm
    rw [rest'.pending] at hbefore
    have hcut : (Deed.begin s (.warm columns)).doing.pending.flatten = s.cache.newcomers columns := by
      show (s.cache.cut (s.cache.insertAllMissing columns).1).flatten = _
      rw [Cache.newcomers_eq]
      exact Cache.flatten_batches (by rw [hover.settings]; exact hbatch) _
    rw [hcut, hover.newcomers_call]
    exact hbefore.call hf' columns
  | submit before doing taken ih =>
    have hbefore := ih (Bool.or_eq_false_iff.mp hm).2
    rw [doing] at hbefore
    exact hbefore.submit (before.reach.sound hc hf).1 taken
  | scheduled before doing ih =>
    have hbefore := ih hm
    rw [doing] at hbefore
    exact hbefore
  | aside before step ih =>
    obtain ⟨hc', hf'⟩ := before.reach.sound hc hf
    rw [step.aside.doing]
    -- a mishap is never taken back, so there was none before
    exact (ih (step.aside.step.mishap hm)).asking hc' hf' step hm

end Scene.Warming

variable {store : σ} {settings : Settings} {c : Cache σ} {before : Scene σ}

/-- **Each column is asked about once**, however it was told of.  Before, nobody has a job; then the host
tells of columns, in calls of any kind and with workers and clock coming between.  Told all at once or one
after the other, the same columns are known.  The batches submitted are the newcomers in the order in
which they were named first, none of them twice, and none is longer than batches may be.  When the
surveys have ended and nothing went wrong, the store was asked about each newcomer once and about
nothing else, and each was counted as loaded once. -/
theorem warming_once (hmake : Cache.make store settings = .ok c) (hs : (Scene.start c).Reach before)
    (rest : before.doing.AtRest) (idle : ∀ k, (before.cache.pool k).jobs = [])
    (run : Scene.Warming { before with mishap := false } calls handed asked s)
    (done : s.doing.AtRest) :
    (∀ columns, (s.cache.warmAll columns).2.columns =
      (columns.foldl (fun c column => (c.warm column).2) s.cache).columns) ∧
    (∀ column, (s.cache.sheetOf? column).isSome = true ↔
      (before.cache.sheetOf? column).isSome = true ∨ column ∈ calls.flatten) ∧
    handed.flatten = before.cache.newcomers calls.flatten ∧ handed.flatten.Nodup ∧
    (∀ batch ∈ handed, batch ≠ [] ∧ batch.length ≤ settings.batchSize.toNat) ∧
    (s.mishap = false → (∀ k, (s.cache.pool k).jobs = []) →
      Perm asked handed.flatten ∧
      s.cache.store.intersectingCalls =
        before.cache.store.intersectingCalls + handed.flatten.length ∧
      s.cache.counters.columnsLoaded =
        before.cache.counters.columnsLoaded + handed.flatten.length ∧
      ∀ column ∈ handed.flatten, s.cache.isLoaded column = true) := by
  obtain ⟨hv, rfl⟩ := Cache.make_eq_ok hmake
  have hcoverage := coverage_of_reach (Settings.batchSize_of_validate hv) hs
  have hc := hcoverage.custody.forgive idle
  have hover := run.handedOver hc hcoverage.filed hcoverage.batchSize rest
  have hflat := hover.newcomers
  have hbound := hover.bound
  rw [done.pending, List.flatten_nil, List.append_nil] at hflat
  rw [done.pending, List.append_nil, hs.settings] at hbound
  refine ⟨fun columns => (s.cache.columns_warmAll columns).1, hover.known, hflat, ?_, hbound,
    fun hm hidle => ?_⟩
  · have hl := learnt hcoverage.filed calls.flatten
    rw [Cache.newcomers_eq] at hl
    rw [hflat]
    exact hl.nodup
  · have hended := (run.dispatched hc hcoverage.filed hcoverage.batchSize rest idle hm).errands
    rw [done.pending, hidle, ← hflat] at hended
    have honce : Perm asked handed.flatten := by
      have h := hended.once
      rwa [show unasked [].flatten [] = [] from rfl, List.append_nil] at h
    refine ⟨honce, ?_, hended.loaded, fun column hcolumn => ?_⟩
    · rw [hended.calls, honce.length_eq]
    · exact (hended.seen column hcolumn).resolve_left List.not_mem_nil

end

/-- a cache with batches of two, over a store that was told to fail -/
def Cache.doomed : Cache Table :=
  { Cache.ofSettings ({} : Table) { batchSize := 2 } with
    store := Watched.failNext { store := ({} : Table) } }

/-- it has lost the survey of the one column it was told of -/
def Cache.bereft : Cache Table := (Cache.doomed.hint (.warm ⟨9, 9⟩)).2.settle

/-- then one column was loaded, and with it a world in which it comes again -/
def Cache.settled : Cache Table :=
  ((Cache.bereft.hint (WorldEvent.columnLoaded ⟨0, 0⟩).hint).2.hint
    (WorldEvent.worldLoaded [⟨0, 0⟩, ⟨2, 0⟩, ⟨1, 0⟩, ⟨2, 0⟩, ⟨3, 0⟩]).hint).2

/-- and later an area around them -/
def Cache.widened : Cache Table :=
  (Cache.settled.settle.hint (WorldEvent.areaLoaded ⟨⟨0, 0, 0⟩, ⟨79, 0, 0⟩⟩).hint).2.settle

theorem Cache.idle_of_single {σ : Type} {c : Cache σ} (hsize : c.pools.size = 1)
    (hnone : (c.pool 0).jobs = []) (k : Nat) : (c.pool k).jobs = [] := by
  rcases Nat.eq_zero_or_pos k with rfl | hk
  · exact hnone
  · rw [Cache.pool_of_size_le (hsize ▸ hk)]
    rfl

theorem Scene.reach_bereft : ∃ lost, (Scene.start (Cache.ofSettings ({} : Table)
    { batchSize := 2 })).Reach { cache := Cache.bereft, mishap := lost } := by
  have hdoomed : (Scene.start (Cache.ofSettings ({} : Table) { batchSize := 2 })).Reach
      (.start Cache.doomed) := reach_step .failNext
  have htold := hdoomed.trans (reach_hint (.warm ⟨9, 9⟩) trivial)
  rw [after_start (by decide +kernel)] at htold
  obtain ⟨lost, hsettle, -⟩ := goesOn_settle (.start (Cache.doomed.hint (.warm ⟨9, 9⟩)).2)
  exact ⟨lost, htold.trans hsettle.reach⟩

theorem Scene.warming_widened : ∃ asked, (Scene.start Cache.bereft).Warming
    [[⟨0, 0⟩], [⟨0, 0⟩, ⟨2, 0⟩, ⟨1, 0⟩, ⟨2, 0⟩, ⟨3, 0⟩], [⟨0, 0⟩, ⟨1, 0⟩, ⟨2, 0⟩, ⟨3, 0⟩, ⟨4, 0⟩]]
    [[⟨0, 0⟩], [⟨2, 0⟩, ⟨1, 0⟩], [⟨3, 0⟩], [⟨4, 0⟩]] asked (.start Cache.widened) := by
  have hone := Warming.start.hint_start (c := Cache.bereft)
    (rfl : (WorldEvent.columnLoaded ⟨0, 0⟩).hint.deed = _)
    (by decide +kernel : _ = [[⟨0, 0⟩]]) (by decide +kernel)
  have hworld := hone.hint_start
    (rfl : (WorldEvent.worldLoaded [⟨0, 0⟩, ⟨2, 0⟩, ⟨1, 0⟩, ⟨2, 0⟩, ⟨3, 0⟩]).hint.deed = _)
    (by decide +kernel : _ = [[⟨2, 0⟩, ⟨1, 0⟩], [⟨3, 0⟩]]) (by decide +kernel)
  obtain ⟨asked, hsettled⟩ := hworld.settle_start (by decide +kernel)
  have harea := Warming.hint_start (c := Cache.settled.settle) hsettled
    (rfl : (WorldEvent.areaLoaded ⟨⟨0, 0, 0⟩, ⟨79, 0, 0⟩⟩).hint.deed = _)
    (by decide +kernel : _ = [[⟨4, 0⟩]]) (by decide +kernel)
  obtain ⟨asked', hdone⟩ := harea.settle_start (by decide +kernel)
  exact ⟨asked', hdone⟩

/-- the lost column is not made up for; the newcomers are asked about once each, whoever told of them -/
theorem widened_once : ∃ asked, (Scene.start Cache.bereft).Warming
    [[⟨0, 0⟩], [⟨0, 0⟩, ⟨2, 0⟩, ⟨1, 0⟩, ⟨2, 0⟩, ⟨3, 0⟩], [⟨0, 0⟩, ⟨1, 0⟩, ⟨2, 0⟩, ⟨3, 0⟩, ⟨4, 0⟩]]
    [[⟨0, 0⟩], [⟨2, 0⟩, ⟨1, 0⟩], [⟨3, 0⟩], [⟨4, 0⟩]] asked (.start Cache.widened) ∧
    Perm asked [⟨0, 0⟩, ⟨2, 0⟩, ⟨1, 0⟩, ⟨3, 0⟩, ⟨4, 0⟩] ∧
    Cache.widened.counters.columnsLoaded = 5 ∧ Cache.widened.isLoaded ⟨9, 9⟩ = false := by
  obtain ⟨lost, hreach⟩ := Scene.reach_bereft
  obtain ⟨asked, run⟩ := Scene.warming_widened
  have hmake : Cache.make ({} : Table) { batchSize := 2 } =
    .ok (Cache.ofSettings {} { batchSize := 2 }) := rfl
  have idle : ∀ k, (Cache.bereft.pool k).jobs = [] :=
    Cache.idle_of_single (by decide +kernel) (by decide +kernel)
  obtain ⟨-, -, -, -, -, hended⟩ := warming_once hmake hreach trivial idle run trivial
  obtain ⟨honce, -, hloaded, -⟩ := hended rfl
    (Cache.idle_of_single (by decide +kernel) (by decide +kernel))
  have hbefore : Cache.bereft.counters.columnsLoaded = 0 := by decide +kernel
  have hcount : Cache.widened.counters.columnsLoaded = Cache.bereft.counters.columnsLoaded + 5 :=
    hloaded
  rw [hbefore] at hcount
  exact ⟨asked, run, honce, hcount, by decide +kernel⟩

end Precinct
