import Mathlib
import Precinct.Proofs.Cache.Deeds
import Precinct.Proofs.Cache.Waits
import Precinct.Proofs.Store.Saves

/-!
# A cache whose surveys take no time

* `Prompt`             what a client sees of a cache when nothing is left to be done;
* `Prompt.after`       what each deed makes of it.  Settings are not mentioned;
* `Resembles`          a cache has the store, the known columns and the counts of such a one, but for
                       what surveys change;
* `Settled`            and nothing is left to be done;
* `Quiet.step`         **a deed that schedules nothing keeps a cache settled**, and has the effect it
                       ought to have;
* `Step.counted`       what a step has to do with the counts, of whatever cache it is.

Nothing is scheduled, so every worker is idle: it may wait, rest or leave, but it does not come near
the store, and the tasks counted as cancelled stay none.
-/

namespace Precinct

/-- queries that were answered, from a sheet or by the store -/
def Counters.queries (c : Counters) : Nat := c.hotColumnHits + c.columnHits + c.storeFallbacks

/-- what a client sees of a cache whose surveys take no time -/
structure Prompt where
  table : Table
  known : Finset Column := ∅
  /-- queries answered from a sheet, whichever it was -/
  hits : Nat := 0
  fallbacks : Nat := 0
  loaded : Nat := 0
  renewals : Nat := 0
  /-- queries of the store for the regions that hold a block -/
  containing : Nat := 0
  /-- queries of the store for the regions that may share a block with a region -/
  intersecting : Nat := 0

namespace Prompt

/-- some columns are surveyed -/
def surveyed (P : Prompt) (n : Nat) : Prompt :=
  { P with loaded := P.loaded + n, intersecting := P.intersecting + n }

/-- all known columns are surveyed anew -/
def renewed (P : Prompt) : Prompt :=
  { P.surveyed P.known.card with renewals := P.renewals + 1 }

/-- the store answers for a column that is not loaded -/
def fellBack (P : Prompt) : Prompt :=
  { P with fallbacks := P.fallbacks + 1, containing := P.containing + 1 }

/-- what a deed makes of it -/
def after (P : Prompt) : Deed → Prompt
  | .write w => { P with table := w.apply P.table }.renewed
  | .chore t => { P with table := t.apply P.table }
  | .renew => P.renewed
  | .warm columns =>
    { P.surveyed (columns.toFinset \ P.known).card with known := columns.toFinset ∪ P.known }
  | .drop column => { P with known := P.known.erase column }
  | .dropAll | .dropAllAndWait => { P with known := ∅ }
  | .ask p => if p.column ∈ P.known then { P with hits := P.hits + 1 } else P.fellBack
  | .overlap _ => { P with intersecting := P.intersecting + 1 }
  | .consult _ => { P with containing := P.containing + 1 }
  | .await => P

/-- what several deeds make of it, the latest first -/
def run (P : Prompt) : List Deed → Prompt
  | [] => P
  | d :: ds => (P.run ds).after d

end Prompt

namespace Doing

/-- what the rest of an operation makes of it -/
def finish (P : Prompt) : Doing → Prompt
  | writing => P.renewed
  | scheduling _ true => { P with renewals := P.renewals + 1 }
  | asking _ none => P.fellBack
  | _ => P

/-- nothing is going to be scheduled -/
def Calm : Doing → Prop
  | writing | scheduling _ _ => False
  | nothing | asking _ _ | answered _ _ | swapped _ | draining _ | drained _ | dismissing _ _ _
  | dismissed _ => True

theorem AtRest.calm {d : Doing} (h : d.AtRest) : d.Calm := by
  cases d with
  | writing => exact h
  | scheduling batches renewal => exact h
  | _ => trivial

theorem AtRest.finish {d : Doing} (h : d.AtRest) (P : Prompt) : d.finish P = P := by
  cases d with
  | writing => exact h.elim
  | scheduling batches renewal => exact h.elim
  | asking p found => exact h.elim
  | _ => rfl

end Doing

/-- the store, the known columns and the counts are as they ought to be, but for what surveys
change -/
structure Resembles {σ : Type} [RegionStore σ] [Tabled σ] (P : Prompt) (c : Cache σ) : Prop where
  table : Tabled.table c.store.store = P.table
  known : ∀ column, column ∈ P.known ↔ (c.sheetOf? column).isSome = true
  size : c.columns.size = P.known.card
  hits : c.counters.hotColumnHits + c.counters.columnHits = P.hits
  fallbacks : c.counters.storeFallbacks = P.fallbacks
  renewals : c.counters.rebuilds = P.renewals
  cancelled : c.counters.tasksCancelled = 0
  containing : c.store.containingCalls = P.containing

/-- and nothing is left to be done -/
structure Settled {σ : Type} [RegionStore σ] [Tabled σ] (P : Prompt) (c : Cache σ) : Prop
    extends Resembles P c where
  idle : ∀ k, (c.pool k).jobs = []
  allLoaded : c.AllLoaded
  loaded : c.counters.columnsLoaded = P.loaded
  calls : c.store.intersectingCalls = P.intersecting

namespace Cache
variable {σ : Type} {c c' : Cache σ}

theorem isLoaded_congr (hcolumns : c'.columns = c.columns) (hsheets : c'.sheets = c.sheets)
    (column : Column) : c'.isLoaded column = c.isLoaded column := by
  simp only [isLoaded, sheetOf?_congr hcolumns, sheet_congr hsheets]

theorem counters_insertAllMissing (c : Cache σ) (columns : List Column) :
    (c.insertAllMissing columns).2.counters = c.counters := by
  refine insertAllMissing_induct (P := fun d => d.counters = c.counters) (fun d column hd => ?_) rfl
    columns
  unfold insertMissing
  split
  · exact hd
  · exact hd

/-! ## queries -/

/-- a query that a sheet answers is counted, as one kind of hit or the other -/
theorem counters_resolve (c : Cache σ) (column : Column) : ∃ hot own,
    (c.resolve column).2.counters = { c.counters with
      hotColumnHits := c.counters.hotColumnHits + hot
      columnHits := c.counters.columnHits + own } ∧
    hot + own = (c.resolve column).1.isSome.toNat ∧
    (c.settings.hotColumn = false → hot = 0) := by
  unfold resolve
  dsimp only
  split
  · rename_i regions hvia
    refine ⟨1, 0, rfl, rfl, fun hcold => ?_⟩
    rw [hcold, if_neg Bool.false_ne_true] at hvia
    cases hvia
  · split
    · exact ⟨0, 0, rfl, rfl, fun _ => rfl⟩
    · split
      · exact ⟨0, 0, rfl, rfl, fun _ => rfl⟩
      · exact ⟨0, 1, rfl, rfl, fun _ => rfl⟩

/-- a sheet answers just if the column is loaded, whichever sheet answered last -/
theorem isSome_resolve (hf : Filed c) (column : Column) :
    (c.resolve column).1.isSome = c.isLoaded column := by
  rw [Bool.eq_iff_iff]
  constructor
  · intro h
    obtain ⟨regions, hr⟩ := Option.isSome_iff_exists.mp h
    obtain ⟨i, hi, hregions⟩ := (hf.resolved (c.resolved column)).2 regions hr
    rw [isLoaded, hi, Option.any_some, Sheet.isLoaded, hregions]
    rfl
  · intro h
    unfold resolve
    dsimp only
    split
    · rfl
    · cases hi : c.sheetOf? column with
      | none =>
        rw [isLoaded, hi] at h
        cases h
      | some i =>
        rw [isLoaded, hi, Option.any_some, Sheet.isLoaded] at h
        dsimp only
        cases hr : (c.sheet i).regions with
        | none =>
          rw [hr] at h
          cases h
        | some regions => rfl

end Cache

/-! ## counts -/

section
variable {σ : Type} [RegionStore σ] {s s' : Scene σ}

/-- what a step has to do with the counts -/
inductive Scene.Counted (s : Scene σ) (s' : Scene σ) : Prop
  | same (counters : s'.cache.counters = s.cache.counters)
  | asked {p : Block} {found : Option (List Region)} (doing : s'.doing = .asking p found)
      (cache : s'.cache = (s.cache.resolve p.column).2)
  | fellBack {p : Block} (doing : s.doing = .asking p none)
      (counters : s'.cache.counters =
        { s.cache.counters with storeFallbacks := s.cache.counters.storeFallbacks + 1 })
  | renewed (counters : s'.cache.counters =
      { s.cache.counters with rebuilds := s.cache.counters.rebuilds + 1 })
  | worked {k n : Nat} {w : WorkerStep} (makes : s.cache.step? k n w = some s'.cache)

/-- **What a step has to do with the counts.** -/
theorem Step.counted (hs : Step s s') : s.Counted s' := by
  cases hs with
  | renew listed rest => exact .same (s.cache.turn.2.counters_insertAllMissing _)
  | warm columns rest => exact .same (s.cache.counters_insertAllMissing columns)
  | @scheduled renewal doing =>
    cases renewal with
    | true => exact .renewed rfl
    | false => exact .same rfl
  | ask p rest => exact .asked rfl rfl
  | @answer p found doing =>
    cases found with
    | some regions => exact .same rfl
    | none => exact .fellBack doing rfl
  | @dismissed pools stopped doing => cases stopped <;> exact .same rfl
  | work makes => exact .worked makes
  | _ => exact .same rfl

end

section
variable {σ : Type} [RegionStore σ] [Tabled σ] {P Q : Prompt} {c c' : Cache σ} {s s' : Scene σ}

theorem Resembles.of_frame (h : Resembles P c)
    (htable : Tabled.table c'.store.store = Tabled.table c.store.store)
    (hcolumns : c'.columns = c.columns) (hcounters : c'.counters = c.counters)
    (hcontaining : c'.store.containingCalls = c.store.containingCalls) : Resembles P c' where
  table := htable.trans h.table
  known column := by rw [Cache.sheetOf?_congr hcolumns, h.known]
  size := by rw [hcolumns, h.size]
  hits := by rw [hcounters, h.hits]
  fallbacks := by rw [hcounters, h.fallbacks]
  renewals := by rw [hcounters, h.renewals]
  cancelled := by rw [hcounters, h.cancelled]
  containing := hcontaining.trans h.containing

theorem Settled.of_frame (h : Settled P c) (hidle : ∀ k, (c'.pool k).jobs = [])
    (htable : Tabled.table c'.store.store = Tabled.table c.store.store)
    (hcolumns : c'.columns = c.columns) (hsheets : c'.sheets = c.sheets)
    (hcounters : c'.counters = c.counters)
    (hcontaining : c'.store.containingCalls = c.store.containingCalls)
    (hcalls : c'.store.intersectingCalls = c.store.intersectingCalls) : Settled P c' where
  toResembles := h.toResembles.of_frame htable hcolumns hcounters hcontaining
  idle := hidle
  allLoaded column hk := by
    rw [Cache.isLoaded_congr hcolumns hsheets]
    exact h.allLoaded column (Cache.sheetOf?_congr hcolumns column ▸ hk)
  loaded := by rw [hcounters, h.loaded]
  calls := hcalls.trans h.calls

/-- only the pools change -/
theorem Settled.of_pools (h : Settled P c) {d : Cache σ} (hidle : ∀ k, (d.pool k).jobs = [])
    (hstore : d.store = c.store) (hcolumns : d.columns = c.columns) (hsheets : d.sheets = c.sheets)
    (hcounters : d.counters = c.counters) : Settled P d :=
  h.of_frame hidle (by rw [hstore]) hcolumns hsheets hcounters (by rw [hstore]) (by rw [hstore])

omit [Tabled σ] in
theorem Watched.calls_collect {w w' : Watched σ} {region : Region}
    {outcome : Except Fault (List Region)} (hc : w.collect region = (outcome, w')) :
    w'.intersectingCalls = w.intersectingCalls := by
  unfold Watched.collect at hc
  split at hc
  · cases hc
    rfl
  · cases hc
    rfl

/-- an answer of the store, or none, counts nothing and changes no region -/
theorem Watched.collect_frame {w w' : Watched σ} {region : Region}
    {outcome : Except Fault (List Region)} (hc : w.collect region = (outcome, w')) :
    Tabled.table w'.store = Tabled.table w.store ∧ w'.containingCalls = w.containingCalls ∧
      w'.intersectingCalls = w.intersectingCalls := by
  unfold Watched.collect at hc
  split at hc
  · cases hc
    exact ⟨rfl, rfl, rfl⟩
  · cases hc
    exact ⟨Tabled.table_intersecting _ _, rfl, rfl⟩

/-! ## steps that are not the host's -/

/-- idle workers change nothing but their pool -/
theorem Settled.worked {k n : Nat} {w : WorkerStep} (h : Settled P c) (hp : (c.pool k).Sound)
    (hwork : Cache.Worked c k n w c') : Settled P c' := by
  rcases hwork.cases with ⟨m, p, makes, rfl⟩ | ⟨v, r, d, hruns, -, -⟩
  · refine h.of_pools (fun j => ?_) rfl rfl rfl rfl
    have hadvance : (c.pool k).Advance p := .move makes
    rw [Cache.pool_setPool]
    split
    · exact hadvance.jobs_nil hp (h.idle k)
    · exact h.idle j
  · have hjob := hruns.mem_jobs
    rw [h.idle k] at hjob
    exact absurd hjob List.not_mem_nil

theorem Settled.aside (h : Settled P s.cache) (hp : ∀ k, (s.cache.pool k).Sound)
    (hs : Aside s s') : Settled P s'.cache := by
  cases hs with
  | closeGate => exact h.of_frame h.idle rfl rfl rfl rfl rfl rfl
  | openGate => exact h.of_frame h.idle rfl rfl rfl rfl rfl rfl
  | failNext => exact h.of_frame h.idle rfl rfl rfl rfl rfl rfl
  | work makes => exact h.worked (hp _) (Cache.worked_of_step? makes)
  | elapse ms =>
    refine h.of_pools (fun k => ?_) rfl rfl rfl rfl
    have hperm := Cache.jobs_elapse (hp k) ms
    rw [h.idle k] at hperm
    exact hperm.eq_nil

/-! ## deeds that schedule nothing -/

theorem Settled.modifyStore (h : Settled P c) (f : σ → σ) (table : Table)
    (ht : Tabled.table (f c.store.store) = table) :
    Settled { P with table } (c.modifyStore f) :=
  ⟨⟨ht, h.known, h.size, h.hits, h.fallbacks, h.renewals, h.cancelled, h.containing⟩, h.idle,
    h.allLoaded, h.loaded, h.calls⟩

theorem Settled.drop (h : Settled P c) (column : Column) :
    Settled (P.after (.drop column)) (c.drop column) := by
  have hknown : ∀ other, other ∈ P.known.erase column ↔
      ((c.drop column).sheetOf? other).isSome = true := by
    intro other
    rw [Finset.mem_erase, h.known, Cache.sheetOf?_drop]
    by_cases he : column = other
    · simp [he]
    · simp [he, Ne.symm he]
  refine ⟨⟨h.table, hknown, ?_, h.hits, h.fallbacks, h.renewals, h.cancelled, h.containing⟩, h.idle,
    fun other hother => ?_, h.loaded, h.calls⟩
  · show (c.columns.remove column).2.size = (P.known.erase column).card
    rw [Grid.size_remove, h.size, Finset.card_erase_eq_ite]
    exact if_congr (h.known column).symm rfl rfl
  · rw [Cache.isLoaded]
    rw [Cache.sheetOf?_drop] at hother ⊢
    split at hother
    · cases hother
    · rename_i he
      rw [if_neg he]
      exact h.allLoaded other hother

theorem Settled.turn (h : Settled P c) (hc : c.current < c.pools.size) :
    Settled (P.after .dropAll) c.turn.2 := by
  have hnone : ∀ column, (c.turn.2.sheetOf? column).isSome = false := by
    intro column
    rw [Cache.sheetOf?_turn]
    rfl
  refine ⟨⟨h.table, fun column => ?_, Grid.size_empty, h.hits, h.fallbacks, h.renewals, h.cancelled,
    h.containing⟩, fun k => ?_, fun column hk => ?_, h.loaded, h.calls⟩
  · rw [hnone]
    exact ⟨fun hmem => absurd hmem (Finset.notMem_empty _), nofun⟩
  · have hon : (c.pool k).Onward (fun _ => False) (c.turn.2.pool k) := Cache.onward_turn hc k
    refine List.eq_nil_iff_forall_not_mem.mpr fun v hv => ?_
    have hbefore := (hon.jobs hv).resolve_right id
    rw [h.idle k] at hbefore
    exact absurd hbefore List.not_mem_nil
  · rw [hnone] at hk
    cases hk

/-- a sheet answers, or else the store is going to -/
theorem Settled.resolve (h : Settled P c) (hf : Filed c) (p : Block) :
    ∃ Q, Settled Q (c.resolve p.column).2 ∧
      (Doing.asking p (c.resolve p.column).1).finish Q = P.after (.ask p) := by
  obtain ⟨hot, own, hcounters, hsum, -⟩ := c.counters_resolve p.column
  obtain ⟨hstore, -, -, hcolumns, hsheets, hpools, -⟩ := (c.resolved p.column).frame
  have hknown : (c.resolve p.column).1.isSome = true ↔ p.column ∈ P.known := by
    rw [Cache.isSome_resolve hf, h.known]
    refine ⟨fun hl => ?_, h.allLoaded p.column⟩
    by_contra hn
    rw [Cache.isLoaded, Option.not_isSome_iff_eq_none.mp hn] at hl
    cases hl
  have hsettled : Settled { P with hits := P.hits + (hot + own) } (c.resolve p.column).2 := by
    refine ⟨⟨?_, fun column => ?_, ?_, ?_, ?_, ?_, ?_, ?_⟩, fun k => ?_, fun column hk => ?_, ?_, ?_⟩
    · rw [hstore]; exact h.table
    · rw [Cache.sheetOf?_congr hcolumns]; exact h.known column
    · rw [hcolumns]; exact h.size
    · have := h.hits
      rw [hcounters]
      show _ + hot + (_ + own) = P.hits + (hot + own)
      omega
    · rw [hcounters]; exact h.fallbacks
    · rw [hcounters]; exact h.renewals
    · rw [hcounters]; exact h.cancelled
    · rw [hstore]; exact h.containing
    · rw [Cache.pool_congr hpools]; exact h.idle k
    · rw [Cache.sheetOf?_congr hcolumns] at hk
      rw [Cache.isLoaded_congr hcolumns hsheets]
      exact h.allLoaded column hk
    · rw [hcounters]; exact h.loaded
    · rw [hstore]; exact h.calls
  refine ⟨_, hsettled, ?_⟩
  rw [hsum, Prompt.after]
  cases hr : (c.resolve p.column).1 with
  | none =>
    rw [hr] at hknown
    rw [if_neg fun hmem => absurd (hknown.mpr hmem) Bool.false_ne_true]
    rfl
  | some regions =>
    rw [hr] at hknown
    rw [if_pos (hknown.mp rfl)]
    rfl

theorem Settled.intersecting (h : Settled P c) (r : Region) :
    Settled (P.after (.overlap r)) (c.intersecting r).2 := by
  have hgives : (c.store.enter .owner).collect r = c.store.intersecting r := rfl
  obtain ⟨htable, hcontaining, hcalls⟩ := Watched.collect_frame hgives
  exact ⟨⟨htable.trans h.table, h.known, h.size, h.hits, h.fallbacks, h.renewals, h.cancelled,
    hcontaining.trans h.containing⟩, h.idle, h.allLoaded, h.loaded,
    hcalls.trans (congrArg Nat.succ h.calls)⟩

theorem Settled.consult (h : Settled P c) (p : Block) :
    Settled (P.after (.consult p)) { c with store := (c.store.containing p).2 } :=
  ⟨⟨(Tabled.table_containing _ p).trans h.table, h.known, h.size, h.hits, h.fallbacks, h.renewals,
    h.cancelled, congrArg Nat.succ h.containing⟩, h.idle, h.allLoaded, h.loaded, h.calls⟩

theorem Settled.answer (h : Settled P c) (p : Block) (found : Option (List Region)) :
    Settled ((Doing.asking p found).finish P) (c.answer p found).2 := by
  cases found with
  | some regions => exact h
  | none =>
    exact ⟨⟨(Tabled.table_containing _ p).trans h.table, h.known, h.size, h.hits,
      congrArg Nat.succ h.fallbacks, h.renewals, h.cancelled, congrArg Nat.succ h.containing⟩,
      h.idle, h.allLoaded, h.loaded, h.calls⟩

theorem Settled.freshPool (h : Settled P c) : Settled P c.freshPool :=
  h.of_pools (fun k => (c.jobs_freshPool k).trans (h.idle k)) rfl rfl rfl rfl

/-- a deed that schedules nothing has begun, and there is a rest of it that makes the cache what it
ought to be -/
def Quiet (P : Prompt) (s : Scene σ) : Prop :=
  ∃ Q, Settled Q s.cache ∧ s.doing.Calm ∧ s.doing.finish Q = P

theorem Settled.begin (h : Settled P s.cache) (hf : Filed s.cache)
    (hc : s.cache.current < s.cache.pools.size) {d : Deed} (hd : d.schedules = false)
    (known : List Column) : Quiet (P.after d) (d.begin s known) := by
  have hturn := h.turn hc
  cases d with
  | write w => cases hd
  | renew => cases hd
  | warm columns => cases hd
  | chore t =>
    refine ⟨_, h.modifyStore t.apply _ ?_, trivial, rfl⟩
    rw [Tabled.table_chore, h.table]
  | drop column => exact ⟨_, h.drop column, trivial, rfl⟩
  | dropAll => exact ⟨_, hturn, trivial, rfl⟩
  | dropAllAndWait =>
    exact ⟨_, hturn.of_pools hturn.idle rfl rfl rfl rfl, trivial, rfl⟩
  | ask p =>
    obtain ⟨Q, hQ, hfinish⟩ := h.resolve hf p
    exact ⟨Q, hQ, trivial, hfinish⟩
  | overlap r => exact ⟨_, h.intersecting r, trivial, rfl⟩
  | consult p => exact ⟨_, h.consult p, trivial, rfl⟩
  | await => exact ⟨_, h.freshPool, trivial, rfl⟩

/-- **While nothing is scheduled a cache stays settled.** -/
theorem Quiet.step (h : Quiet P s) (hp : ∀ k, (s.cache.pool k).Sound) (hs : s.Continues s') :
    Quiet P s' := by
  obtain ⟨Q, hQ, calm, hfinish⟩ := h
  have haside : Aside s s' → Quiet P s' := fun ha =>
    ⟨Q, hQ.aside hp ha, by rw [ha.doing]; exact calm, by rw [ha.doing]; exact hfinish⟩
  rcases hs with ha | ⟨busy, hs⟩
  · exact haside ha
  cases hs with
  | renew listed rest =>
    rcases rest with rest | he
    · exact absurd rest busy
    · rw [he] at calm
      exact calm.elim
  | submit doing taken =>
    rw [doing] at calm
    exact calm.elim
  | breakOff doing refused =>
    rw [doing] at calm
    exact calm.elim
  | scheduled doing =>
    rw [doing] at calm
    exact calm.elim
  | @answer p found doing =>
    rw [doing] at hfinish
    exact ⟨_, hQ.answer p found, trivial, hfinish⟩
  | @close k doing =>
    rw [doing] at hfinish
    refine ⟨Q, hQ.of_pools (fun j => ?_) rfl rfl rfl rfl, trivial, hfinish⟩
    rw [Cache.closePool, Cache.pool_setPool]
    split
    · exact hQ.idle k
    · exact hQ.idle j
  | drained doing =>
    rw [doing] at hfinish
    exact ⟨Q, hQ, trivial, hfinish⟩
  | observe doing =>
    rw [doing] at hfinish
    exact ⟨Q, hQ, trivial, hfinish⟩
  | @dismissed pools stopped doing =>
    rw [doing] at hfinish
    cases stopped with
    | true => exact ⟨Q, hQ, trivial, hfinish⟩
    | false => exact ⟨Q, hQ.of_pools hQ.idle rfl rfl rfl rfl, trivial, hfinish⟩
  | closeGate => exact haside .closeGate
  | openGate => exact haside .openGate
  | failNext => exact haside .failNext
  | work makes => exact haside (.work makes)
  | elapse ms => exact haside (.elapse ms)
  | _ => exact absurd ‹s.doing.AtRest› busy

theorem settled_start (store : σ) (settings : Settings) :
    Settled { table := Tabled.table store } (Cache.ofSettings store settings) := by
  have hnone := Cache.sheetOf?_ofSettings store settings
  refine ⟨⟨rfl, fun column => ?_, Grid.size_empty, rfl, rfl, rfl, rfl, rfl⟩,
    Cache.jobs_ofSettings store settings, fun column hk => ?_, rfl, rfl⟩
  · rw [hnone]
    exact ⟨fun hmem => absurd hmem (Finset.notMem_empty _), nofun⟩
  · rw [hnone] at hk
    cases hk

end
end Precinct
