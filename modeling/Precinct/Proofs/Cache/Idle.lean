import Mathlib
import Precinct.Proofs.Cache.Runs
import Precinct.Proofs.Cache.Sheets

/-!
# A cache that is left to its workers

* `Cache.Stirs`        a worker makes a step, or time passes;
* `Cache.Idles`        what becomes of a cache by such steps alone (`idles_settle_elapse`), and what
                       does not: `Cache.LeftAlone`;
* `Idles.leftAlone`    **a cache that is left to its workers keeps its columns, and its store**;
* `Cache.Undergone`    what becomes of a cache by operations as well.
-/

namespace Precinct
open Relation (ReflTransGen)

theorem Watched.containingCalls_collect {σ : Type} [RegionStore σ] {w w' : Watched σ} {r : Region}
    {answer : Except Fault (List Region)} (h : w.collect r = (answer, w')) :
    w'.containingCalls = w.containingCalls := by
  unfold Watched.collect at h
  split at h
  · cases h
    rfl
  · cases h
    rfl

namespace Cache
variable {σ : Type} [RegionStore σ] {c c' : Cache σ}

/-- a worker makes a step, or time passes -/
inductive Stirs (c : Cache σ) : Cache σ → Prop
  | works {k number : Nat} {w : WorkerStep} {c' : Cache σ} (makes : c.step? k number w = some c') :
      Stirs c c'
  | ages (ms : Nat) : Stirs c (c.elapse ms)

/-- the workers go on, and time passes -/
def Idles : Cache σ → Cache σ → Prop := ReflTransGen Stirs

theorem idles_run (n : Nat) (c : Cache σ) : c.Idles (run n c) := by
  induction n generalizing c with
  | zero => exact .refl
  | succ n ih =>
    rw [run]
    cases ha : c.advance with
    | none => exact .refl
    | some d =>
      obtain ⟨k, number, w, hw⟩ := exists_step?_of_advance ha
      exact (ih d).head (.works hw)

/-- so do those that are not waited for -/
theorem idles_settle_elapse (c : Cache σ) (ms : Nat) : c.Idles (c.settle.elapse ms) :=
  (idles_run c.work c).tail (.ages ms)

/-- what a cache that is left to its workers keeps.  Its counts change by the surveys that load a
column or stop early -/
structure LeftAlone (c c' : Cache σ) : Prop where
  columns : c'.columns = c.columns
  /-- sheets that are loaded keep their contents -/
  sheets : ∀ i regions, (c.sheet i).regions = some regions → (c'.sheet i).regions = some regions
  recent : c'.recent = c.recent
  settings : c'.settings = c.settings
  epoch : c'.epoch = c.epoch
  /-- the store is asked for the regions of columns and for nothing else -/
  store : ReflTransGen (fun s t => ∃ column, t = (RegionStore.intersecting s (Region.column column)).2)
    c.store.store c'.store.store
  containingCalls : c'.store.containingCalls = c.store.containingCalls
  counters : { c'.counters with
    columnsLoaded := c.counters.columnsLoaded
    tasksCancelled := c.counters.tasksCancelled } = c.counters

theorem LeftAlone.trans {c'' : Cache σ} (h : c.LeftAlone c') (h' : c'.LeftAlone c'') :
    c.LeftAlone c'' where
  columns := h'.columns.trans h.columns
  sheets i regions hi := h'.sheets i regions (h.sheets i regions hi)
  recent := h'.recent.trans h.recent
  settings := h'.settings.trans h.settings
  epoch := h'.epoch.trans h.epoch
  store := h.store.trans h'.store
  containingCalls := h'.containingCalls.trans h.containingCalls
  counters := by rw [← h.counters, ← h'.counters]

omit [RegionStore σ] in
theorem sheets_publishSheet (c : Cache σ) (i : Nat) (regions : List Region) (j : Nat)
    {old : List Region} (h : (c.sheet j).regions = some old) :
    ((c.publishSheet i regions).sheet j).regions = some old := by
  rw [sheet_publishSheet]
  split
  · rename_i he
    rw [Sheet.regions_publish, ← he, h]
    rfl
  · exact h

omit [RegionStore σ] in
/-- whether the sheet was loaded before or not, no other count changes -/
theorem counters_publishSheet_eq (c : Cache σ) (i : Nat) (regions : List Region) :
    (c.publishSheet i regions).counters = { c.counters with
      columnsLoaded := (c.publishSheet i regions).counters.columnsLoaded } := by
  unfold publishSheet
  dsimp only
  split <;> rfl

theorem Surveyed.leftAlone {k n : Nat} {v : Survey} {r : SurveyResult} (h : Surveyed c k n v r c') :
    c.LeftAlone c' := by
  obtain ⟨hsettings, hepoch, hcolumns, -, -, hrecent, -⟩ := h.frame
  have hcollect : ∀ {column : Column} {answer : Except Fault (List Region)} {store : Watched σ},
      c.store.collect (Region.column column) = (answer, store) → c.LeftAlone { c with store } := by
    intro column answer store hgives
    refine ⟨rfl, fun _ _ h => h, rfl, rfl, rfl, ?_, ?_, rfl⟩
    · unfold Watched.collect at hgives
      split at hgives
      · cases hgives
        exact .refl
      · cases hgives
        exact .single ⟨column, rfl⟩
    · exact Watched.containingCalls_collect hgives
  cases h with
  | failed head phase gives => exact hcollect gives
  | collected head phase gives => exact hcollect gives
  | @published column i regions head phase =>
    obtain ⟨hstore, -⟩ := c.publishSheet_frame i regions
    exact ⟨hcolumns, fun j _ => c.sheets_publishSheet i regions j, hrecent, hsettings, hepoch,
      hstore ▸ .refl, by rw [hstore], by rw [c.counters_publishSheet_eq i regions]⟩
  | _ => exact ⟨rfl, fun _ _ h => h, rfl, rfl, rfl, .refl, rfl, rfl⟩

theorem leftAlone_of_pools (c : Cache σ) (pools : Array (Pool Survey)) :
    c.LeftAlone { c with pools } := ⟨rfl, fun _ _ h => h, rfl, rfl, rfl, .refl, rfl, rfl⟩

theorem Stirs.leftAlone (h : c.Stirs c') : c.LeftAlone c' := by
  cases h with
  | works makes =>
    rcases (worked_of_step? makes).cases with ⟨m, p, -, rfl⟩ | ⟨v, r, d, -, hdoes, rfl⟩
    · exact c.leftAlone_of_pools _
    · exact hdoes.leftAlone.trans (d.leftAlone_of_pools _)
  | ages ms => exact c.leftAlone_of_pools _

/-- **What a cache that is left to its workers keeps.** -/
theorem Idles.leftAlone (h : c.Idles c') : c.LeftAlone c' := by
  induction h with
  | refl => exact c.leftAlone_of_pools c.pools
  | tail _ hlast ih => exact ih.trans hlast.leftAlone

/-! ## what is done to a cache -/

/-- one operation on a cache, or something it does by itself; whether anything goes behind its back -/
inductive Undergoes (behind : Prop) (c : Cache σ) : Cache σ → Prop
  | itself {c' : Cache σ} (stirs : c.Stirs c') : Undergoes behind c c'
  | performs (op : CacheOp) (shelf : Shelf) (through : ∀ o, op = .behind o → behind) :
      Undergoes behind c (op.perform c shelf).2.1

/-- several of them, one after the other -/
def Undergone (behind : Prop) : Cache σ → Cache σ → Prop := ReflTransGen (Undergoes behind)

variable {behind : Prop}

theorem Undergoes.mono {behind' : Prop} (h : Undergoes behind c c') (hb : behind → behind') :
    Undergoes behind' c c' := by
  cases h with
  | itself stirs => exact .itself stirs
  | performs op shelf through => exact .performs op shelf fun o he => hb (through o he)

theorem Undergone.mono {behind' : Prop} (h : Undergone behind c c') (hb : behind → behind') :
    Undergone behind' c c' :=
  ReflTransGen.mono (fun _ _ hu => hu.mono hb) _ _ h

theorem Undergone.trans {c'' : Cache σ} (h : Undergone behind c c') (h' : Undergone behind c' c'') :
    Undergone behind c c'' := ReflTransGen.trans h h'

theorem Idles.undergone (h : c.Idles c') : Undergone behind c c' :=
  ReflTransGen.mono (fun _ _ hs => .itself hs) _ _ h

theorem undergone_hint (c : Cache σ) (h : Hint) : Undergone behind c (c.hint h).2 :=
  .single (.performs (.ofStore (.hint h)) ∅ nofun)

theorem undergone_dropAll (c : Cache σ) : Undergone behind c c.dropAll := c.undergone_hint .dropAll

theorem undergone_dropAllAndWait (c : Cache σ) (ms : Nat) :
    Undergone behind c (c.dropAllAndWait ms).2 := .single (.performs (.dropAllAndWait ms) ∅ nofun)

end Cache
end Precinct
