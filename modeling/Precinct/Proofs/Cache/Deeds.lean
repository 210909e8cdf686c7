import Mathlib
import Precinct.Proofs.Cache.Runs

/-!
# What a client does with a cache

* `Deed`               an operation of a client;
* `Deed.begin`         its first step.  A step of a scene begins a deed or goes on with what there is
                       (`Step.begins_or_continues`), so there are no other operations;
* `Scene.Does`         a client does a deed, the workers and the clock coming between as they like;
* `Scene.Run`          it does several, and awaits whatever work a deed schedules before it does
                       anything else;
* `does_perform`       **the operations of a session do these deeds**, each the one that `CacheOp.deed?`
                       names;
* `Scene.RunsTo`       several of them, one after the other.

Nothing is said of the order in which workers go on, so a run of deeds is any interleaving there can
be.  A client may await when nothing is to be awaited, with whatever answer.
-/

namespace Precinct
open Relation (ReflTransGen)

/-- an operation of a client on a cache -/
inductive Deed where
  | write (w : Write)
  | chore (t : Chore)
  | renew
  | warm (columns : List Column)
  | drop (column : Column)
  | dropAll
  | dropAllAndWait
  | ask (p : Block)
  | overlap (r : Region)
  /-- the store is asked directly -/
  | consult (p : Block)
  /-- scheduled work is waited for -/
  | await

/-- whether it has columns surveyed -/
def Deed.schedules : Deed → Bool
  | write _ | renew | warm _ => true
  | chore _ | drop _ | dropAll | dropAllAndWait | ask _ | overlap _ | consult _ | await => false

/-- the deed that a hint is -/
def Hint.deed : Hint → Deed
  | warm column => .warm [column]
  | warmAll columns => .warm columns
  | drop column => .drop column
  | dropAll => .dropAll

/-- the deed that an operation on a store is, if it is just one -/
def StoreOp.deed? (shelf : Shelf) : StoreOp → Option Deed
  | add r => some (.write (.add r))
  | addAll regions => some (.write (.addAll regions))
  | remove id removal => some (.write (.remove id removal))
  | setDirty dirty => some (.chore (.setDirty dirty))
  | takeLedger _ => some (.chore .takeLedger)
  | restoreShelved name => some (.chore (.restoreLedger (shelf[name]?.getD {})))
  | restoreLedger l => some (.chore (.restoreLedger l))
  | visitContaining p _ => some (.ask p)
  | visitIntersecting r _ => some (.overlap r)
  | hint h => some h.deed
  -- what only looks at the store is none, and a purge is several
  | contains _ | get _ | values | size | isDirty | visitAll _ | purgeContaining _ _ | purgeAll _ =>
    none

/-- the deed that an operation on a cache is, if it is just one -/
def CacheOp.deed? (shelf : Shelf) : CacheOp → Option Deed
  | ofStore op => op.deed? shelf
  | regionsAt p | visit p _ => some (.ask p)
  | renew => some .renew
  | drain _ => some .await
  | dropAllAndWait _ => some .dropAllAndWait
  | behind _ | isLoaded _ | settings | stats | calls | crossCheck _ | closeGate | awaitGate _
  | openGate | failNext | awaitCount _ _ _ => none

section
variable {σ : Type} [RegionStore σ] {s s' : Scene σ}

/-- the first step of a deed; a renewal lists the known columns in some order -/
def Deed.begin (s : Scene σ) (d : Deed) (known : List Column := s.cache.columns.keys) : Scene σ :=
  match d with
  | write w => { s with cache := s.cache.modifyStore w.apply, doing := .writing }
  | chore t => { s with cache := s.cache.modifyStore t.apply, doing := .nothing }
  | renew =>
    { s with
      cache := s.cache.restart known
      doing := .scheduling (s.cache.cut known) true }
  | warm columns =>
    { s with
      cache := (s.cache.insertAllMissing columns).2
      doing := .scheduling (s.cache.cut (s.cache.insertAllMissing columns).1) false }
  | drop column => { s with cache := s.cache.drop column, doing := .nothing }
  | dropAll => { s with cache := s.cache.dropAll, doing := .nothing }
  | dropAllAndWait =>
    { s with
      cache := s.cache.turn.2.takeDismissed.2
      doing := .dismissing s.cache.turn.2.dismissed s.cache.turn.2.dismissed true }
  | ask p =>
    { s with
      cache := (s.cache.resolve p.column).2
      doing := .asking p (s.cache.resolve p.column).1 }
  | overlap r => { s with cache := (s.cache.intersecting r).2, doing := .nothing }
  | consult p =>
    { s with
      cache := { s.cache with store := (s.cache.store.containing p).2 }
      doing := .nothing }
  | await => { s with cache := s.cache.freshPool, doing := .swapped s.cache.current }

theorem Deed.step_begin (d : Deed) (rest : s.doing.AtRest) {known : List Column}
    (listed : known.Perm s.cache.columns.keys) : Step s (d.begin s known) := by
  cases d with
  | write w => exact .write w rest
  | chore t => exact .chore t rest
  | renew => exact .renew listed (Or.inl rest)
  | warm columns => exact .warm columns rest
  | drop column => exact .drop column rest
  | dropAll => exact .dropAll rest
  | dropAllAndWait => exact .dismiss rest
  | ask p => exact .ask p rest
  | overlap r => exact .overlap r rest
  | consult p => exact .consult p rest
  | await => exact .swap rest

/-- **A step begins a deed or goes on with what there is.** -/
theorem Step.begins_or_continues (hs : Step s s') :
    s.Continues s' ∨ s.doing.AtRest ∧ ∃ (d : Deed) (known : List Column),
      known.Perm s.cache.columns.keys ∧ s' = d.begin s known := by
  by_cases rest : s.doing.AtRest
  · have hbusy : ∀ {d : Doing}, s.doing = d → ¬d.AtRest → s.Continues s' := fun he hd =>
      absurd (he ▸ rest) hd
    cases hs with
    | write w _ => exact Or.inr ⟨rest, .write w, _, .refl _, rfl⟩
    | chore t _ => exact Or.inr ⟨rest, .chore t, _, .refl _, rfl⟩
    | @renew known listed _ => exact Or.inr ⟨rest, .renew, known, listed, rfl⟩
    | warm columns _ => exact Or.inr ⟨rest, .warm columns, _, .refl _, rfl⟩
    | drop column _ => exact Or.inr ⟨rest, .drop column, _, .refl _, rfl⟩
    | dropAll _ => exact Or.inr ⟨rest, .dropAll, _, .refl _, rfl⟩
    | ask p _ => exact Or.inr ⟨rest, .ask p, _, .refl _, rfl⟩
    | overlap r _ => exact Or.inr ⟨rest, .overlap r, _, .refl _, rfl⟩
    | consult p _ => exact Or.inr ⟨rest, .consult p, _, .refl _, rfl⟩
    | swap _ => exact Or.inr ⟨rest, .await, _, .refl _, rfl⟩
    | dismiss _ => exact Or.inr ⟨rest, .dropAllAndWait, _, .refl _, rfl⟩
    | submit doing taken => exact Or.inl (hbusy doing id)
    | breakOff doing refused => exact Or.inl (hbusy doing id)
    | scheduled doing => exact Or.inl (hbusy doing id)
    | answer doing => exact Or.inl (hbusy doing id)
    | close doing => exact Or.inl (hbusy doing id)
    | drained doing => exact Or.inl (hbusy doing id)
    | observe doing => exact Or.inl (hbusy doing id)
    | dismissed doing => exact Or.inl (hbusy doing id)
    | closeGate => exact Or.inl (Or.inl .closeGate)
    | openGate => exact Or.inl (Or.inl .openGate)
    | failNext => exact Or.inl (Or.inl .failNext)
    | work makes => exact Or.inl (Or.inl (.work makes))
    | elapse ms => exact Or.inl (Or.inl (.elapse ms))
  · exact Or.inl (Or.inr ⟨rest, hs⟩)

namespace Scene

/-- a client at rest does something, and is at rest again when it is done -/
def Does (d : Deed) (s s' : Scene σ) : Prop :=
  ∃ (t : Scene σ) (known : List Column), s.GoesOn t ∧ t.doing.AtRest ∧
    known.Perm t.cache.columns.keys ∧ (d.begin t known).GoesOn s' ∧ s'.doing.AtRest

/-- several deeds, the latest first; work that one of them schedules is awaited, with success, before
anything else is done -/
inductive Run (s₀ : Scene σ) : List Deed → Scene σ → Prop
  | nil : Run s₀ [] s₀
  | next {d : Deed} {ds : List Deed} {s s' : Scene σ} (before : Run s₀ ds s) (does : Does d s s')
      (awaited : ds.head?.any Deed.schedules = true → d = .await ∧ s'.doing = .drained true) :
      Run s₀ (d :: ds) s'

theorem Does.reach {d : Deed} (h : Does d s s') : s.Reach s' := by
  obtain ⟨t, known, hbefore, rest, listed, hafter, -⟩ := h
  exact (hbefore.reach.step (d.step_begin rest listed)).trans hafter.reach

theorem Does.rest {d : Deed} (h : Does d s s') : s'.doing.AtRest := by
  obtain ⟨t, known, -, -, -, -, rest⟩ := h
  exact rest

theorem Run.reach {s₀ : Scene σ} {ds : List Deed} (h : s₀.Run ds s) : s₀.Reach s := by
  induction h with
  | nil => exact .refl
  | next before does awaited ih => exact ih.trans does.reach

/-! ## the operations of a cache -/

theorem does_of_goesOn {d : Deed} (rest : s.doing.AtRest) (h : (d.begin s).GoesOn s')
    (rest' : s'.doing.AtRest) : Does d s s' := ⟨s, _, .refl, rest, .refl _, h, rest'⟩

theorem does_at_once {d : Deed} (rest : s.doing.AtRest) (rest' : (d.begin s).doing.AtRest) :
    Does d s (d.begin s) := does_of_goesOn rest .refl rest'

theorem does_warm (columns : List Column) (rest : s.doing.AtRest) :
    Does (.warm columns) s (s.after (s.cache.warmAll columns)) :=
  does_of_goesOn rest (s.goesOn_warmAll columns) trivial

theorem does_renew (rest : s.doing.AtRest) : Does .renew s (s.after s.cache.renew) :=
  does_of_goesOn rest s.goesOn_renew trivial

theorem does_write (w : Write) (rest : s.doing.AtRest) :
    Does (.write w) s (s.after (s.cache.modifyStore w.apply).renew) := by
  refine does_of_goesOn rest ?_ trivial
  have hrenew := goesOn_step (s := (Deed.write w).begin s) id (.renew (.refl _) (Or.inr rfl))
  exact hrenew.trans (goesOn_renew ((Deed.write w).begin s))

theorem does_ask (p : Block) (rest : s.doing.AtRest) :
    Does (.ask p) s { s with
      cache := (s.cache.regionsAt p).2, doing := .answered p (s.cache.regionsAt p).1 } := by
  rw [Cache.regionsAt_eq]
  exact does_of_goesOn rest (goesOn_step (s := (Deed.ask p).begin s) id (.answer rfl)) trivial

theorem does_await (ms : Nat) (rest : s.doing.AtRest) : ∃ lost,
    Does .await s { s with
      cache := (s.cache.drain ms).2
      doing := .drained (s.cache.drain ms).1
      abandoned :=
        if (s.cache.drain ms).1 then s.abandoned else s.cache.current :: s.abandoned
      mishap := s.mishap || lost } ∧ (s.cache.store.failing = false → lost = false) := by
  obtain ⟨lost, hdrain, hlost⟩ := s.goesOn_drain ms
  exact ⟨lost, does_of_goesOn rest hdrain trivial, hlost⟩

theorem does_remove (id : String) (removal : Removal) (rest : s.doing.AtRest) :
    Does (.write (.remove id removal)) s (s.after (s.cache.remove id removal)) := by
  rw [after_remove]
  exact does_write (.remove id removal) rest

theorem does_dropAllAndWait (ms : Nat) (rest : s.doing.AtRest) : ∃ lost,
    Does .dropAllAndWait s { s with
      cache := (s.cache.dropAllAndWait ms).2
      doing := .dismissed (s.cache.dropAllAndWait ms).1
      mishap := s.mishap || lost } ∧ (s.cache.store.failing = false → lost = false) := by
  obtain ⟨lost, hdrop, hlost⟩ := s.goesOn_dropAllAndWait ms
  exact ⟨lost, does_of_goesOn rest hdrop trivial, hlost⟩

theorem does_hint (h : Hint) (rest : s.doing.AtRest) :
    Does h.deed s (s.after (s.cache.hint h)) := by
  cases h with
  | warm column =>
    rw [Cache.hint, warm_eq_warmAll]
    exact does_warm [column] rest
  | warmAll columns => exact does_warm columns rest
  | drop column =>
    rw [Cache.hint, after_ok]
    exact does_at_once (d := .drop column) rest trivial
  | dropAll =>
    rw [Cache.hint, after_ok]
    exact does_at_once (d := .dropAll) rest trivial

theorem does_perform_store {op : StoreOp} {shelf : Shelf} {d : Deed} (h : op.deed? shelf = some d)
    (rest : s.doing.AtRest) : ∃ s', Does d s s' ∧ s'.cache = (op.performOn s.cache shelf).2.1 := by
  cases op with
  | add r =>
    cases h
    exact ⟨_, does_write (.add r) rest, rfl⟩
  | addAll regions =>
    cases h
    exact ⟨_, does_write (.addAll regions) rest, rfl⟩
  | remove id removal =>
    cases h
    refine ⟨_, does_remove id removal rest, ?_⟩
    rw [StoreOp.performOn, after]
    split
    · rename_i gone c hr
      rw [hr]
    · rename_i fault c hr
      rw [hr]
  | setDirty dirty =>
    cases h
    exact ⟨_, does_at_once rest trivial, rfl⟩
  | takeLedger name =>
    cases h
    exact ⟨_, does_at_once rest trivial, rfl⟩
  | restoreShelved name =>
    cases h
    exact ⟨_, does_at_once rest trivial, rfl⟩
  | restoreLedger l =>
    cases h
    exact ⟨_, does_at_once rest trivial, rfl⟩
  | visitContaining p limit =>
    cases h
    exact ⟨_, does_ask p rest, (s.cache.cache_visitContaining p limit).symm⟩
  | visitIntersecting r limit =>
    cases h
    refine ⟨_, does_at_once rest trivial, ?_⟩
    show (s.cache.intersecting r).2 = _
    rw [StoreOp.performOn]
    split
    · rename_i regions c hr
      rw [hr]
    · rename_i fault c hr
      rw [hr]
  | hint h' =>
    cases h
    exact ⟨_, does_hint h' rest, rfl⟩
  | _ => cases h

/-- **The operations of a session do the deeds they are named for.** -/
theorem does_perform {op : CacheOp} {shelf : Shelf} {d : Deed} (h : op.deed? shelf = some d)
    (rest : s.doing.AtRest) : ∃ s', Does d s s' ∧ s'.cache = (op.perform s.cache shelf).2.1 := by
  cases op with
  | ofStore op => exact does_perform_store h rest
  | regionsAt p =>
    cases h
    exact ⟨_, does_ask p rest, rfl⟩
  | visit p limit =>
    cases h
    exact ⟨_, does_ask p rest, (s.cache.cache_visitContaining p limit).symm⟩
  | renew =>
    cases h
    exact ⟨_, does_renew rest, rfl⟩
  | drain ms =>
    cases h
    obtain ⟨lost, hdoes, -⟩ := does_await ms rest
    exact ⟨_, hdoes, rfl⟩
  | dropAllAndWait ms =>
    cases h
    obtain ⟨lost, hdoes, -⟩ := does_dropAllAndWait ms rest
    exact ⟨_, hdoes, rfl⟩
  | _ => cases h

/-! ## sessions -/

/-- several deeds, and nothing goes wrong -/
def RunsTo (s₀ : Scene σ) (ds : List Deed) (c : Cache σ) : Prop :=
  ∃ s, s₀.Run ds s ∧ s.doing.AtRest ∧ s.mishap = false ∧ s.cache = c

variable {s₀ : Scene σ} {ds : List Deed} {c : Cache σ}

theorem RunsTo.next {d : Deed} (h : s₀.RunsTo ds c) (hd : ds.head?.any Deed.schedules = false)
    {c' : Cache σ} (hdoes : ∀ s : Scene σ, s.doing.AtRest → s.mishap = false → s.cache = c →
      ∃ s', Does d s s' ∧ s'.mishap = false ∧ s'.cache = c') : s₀.RunsTo (d :: ds) c' := by
  obtain ⟨s, hrun, rest, hm, hs⟩ := h
  obtain ⟨s', hdo, hm', hs'⟩ := hdoes s rest hm hs
  exact ⟨s', hrun.next hdo fun h => absurd (h.symm.trans hd) nofun, hdo.rest, hm', hs'⟩

theorem RunsTo.after {α : Type} {d : Deed} {outcome : Except Fault α × Cache σ}
    (h : s₀.RunsTo ds c) (hd : ds.head?.any Deed.schedules = false)
    (hdoes : ∀ s : Scene σ, s.doing.AtRest → s.cache = c → Does d s (s.after outcome))
    (hok : outcome.1.isOk = true) : s₀.RunsTo (d :: ds) outcome.2 := by
  refine h.next hd fun s rest hm hs => ⟨_, hdoes s rest hs, ?_, rfl⟩
  show (s.mishap || !outcome.1.isOk) = false
  rw [hm, hok]
  rfl

theorem RunsTo.warm (h : s₀.RunsTo ds c) (hd : ds.head?.any Deed.schedules = false)
    (columns : List Column) (hok : (c.warmAll columns).1.isOk = true) :
    s₀.RunsTo (.warm columns :: ds) (c.warmAll columns).2 := by
  refine h.after hd (fun s rest hs => ?_) hok
  rw [← hs]
  exact does_warm columns rest

theorem RunsTo.write (h : s₀.RunsTo ds c) (hd : ds.head?.any Deed.schedules = false) (w : Write)
    (hok : (c.modifyStore w.apply).renew.1.isOk = true) :
    s₀.RunsTo (.write w :: ds) (c.modifyStore w.apply).renew.2 := by
  refine h.after hd (fun s rest hs => ?_) hok
  rw [← hs]
  exact does_write w rest

theorem RunsTo.ask (h : s₀.RunsTo ds c) (hd : ds.head?.any Deed.schedules = false) (p : Block) :
    s₀.RunsTo (.ask p :: ds) (c.regionsAt p).2 := by
  refine h.next hd fun s rest hm hs => ⟨_, does_ask p rest, hm, ?_⟩
  rw [hs]

theorem RunsTo.await (h : s₀.RunsTo ds c) (hf : c.store.failing = false) {ms : Nat}
    (hfinished : (c.drain ms).1 = true) : s₀.RunsTo (.await :: ds) (c.drain ms).2 := by
  obtain ⟨s, hrun, rest, hm, rfl⟩ := h
  obtain ⟨lost, hdoes, hlost⟩ := does_await ms rest
  rw [hlost hf, hfinished] at hdoes
  exact ⟨_, hrun.next hdoes fun _ => ⟨rfl, rfl⟩, trivial, by rw [hm]; rfl, rfl⟩

end Scene
end
end Precinct
