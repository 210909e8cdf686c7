import Mathlib
import Precinct.Cache.Session
import Precinct.Proofs.Cache.Frame

/-!
# Operations as runs

Every operation of a cache is a sequence of steps of the scene it belongs to, so what holds of all
scenes that can be reached holds after all operations.

* `Scene.after`        the scene after an operation that may have broken off;
* `goesOn_settle`      while the workers go on nothing else happens;
* `goesOn_renew`, `goesOn_warmAll`, `goesOn_drain`, `goesOn_dropAllAndWait`  how an operation goes on
                       once it has begun;
* `reach_renew`, `reach_warmAll`, `reach_hint`, `reach_write`  changes and hints;
* `reach_regionsAt`    a query;
* `reach_drain`, `reach_dropAllAndWait`  the waits, together with what they answer;
* `leads_perform`      **every operation of a session is a run**, but for those that go behind the
                       back of the cache;
* `Leads.add`, `Leads.drain`, `Leads.regionsAt`  one operation after the other.

An operation does its steps without anything between them, and a wait lets the workers go on at one
place only, so there are many more runs than operations.
-/

namespace Precinct
open Relation (ReflTransGen)

section
variable {σ : Type} [RegionStore σ] {s : Scene σ}

/-- the scene after an operation that may have broken off -/
def Scene.after {α : Type} (s : Scene σ) (outcome : Except Fault α × Cache σ) : Scene σ :=
  { s with cache := outcome.2, doing := .nothing, mishap := s.mishap || !outcome.1.isOk }

namespace Scene

theorem Reach.step {s₀ s s' : Scene σ} (h : s₀.Reach s) (hs : Step s s') : s₀.Reach s' := h.tail hs

theorem Reach.trans {s₀ s s' : Scene σ} (h : s₀.Reach s) (h' : s.Reach s') : s₀.Reach s' :=
  ReflTransGen.trans h h'

theorem reach_step {s' : Scene σ} (hs : Step s s') : s.Reach s' := .single hs

theorem GoesOn.step {s₀ s s' : Scene σ} (h : s₀.GoesOn s) (busy : ¬s.doing.AtRest) (hs : Step s s') :
    s₀.GoesOn s' := h.tail (Or.inr ⟨busy, hs⟩)

theorem GoesOn.trans {s₀ s s' : Scene σ} (h : s₀.GoesOn s) (h' : s.GoesOn s') : s₀.GoesOn s' :=
  ReflTransGen.trans h h'

theorem goesOn_aside {s' : Scene σ} (h : Aside s s') : s.GoesOn s' := .single (Or.inl h)

theorem goesOn_step {s' : Scene σ} (busy : ¬s.doing.AtRest) (hs : Step s s') : s.GoesOn s' :=
  .single (Or.inr ⟨busy, hs⟩)

/-! ## the workers go on -/

end Scene

namespace Cache
variable {c c' : Cache σ}

theorem exists_step?_of_advance (h : c.advance = some c') :
    ∃ k number w, c.step? k number w = some c' := by
  obtain ⟨k, -, hk⟩ := List.exists_of_findSome?_eq_some h
  obtain ⟨v, -, hv⟩ := List.exists_of_findSome?_eq_some hk
  obtain ⟨w, -, hw⟩ := Option.bind_eq_some_iff.mp hv
  exact ⟨k, v.number, w, hw⟩

/-- a survey that asks a store not told to fail is not lost, and the store stays so -/
theorem Surveyed.not_lost {k n : Nat} {v : Survey} {r : SurveyResult} (h : Surveyed c k n v r c')
    (hf : c.store.failing = false) : r ≠ .breaksOff ∧ c'.store.failing = false := by
  have hcollect : ∀ {answer : Except Fault (List Region)} {store : Watched σ} {region : Region},
      c.store.collect region = (answer, store) → answer.isOk = true ∧ store.failing = false := by
    intro answer store region hgives
    rw [Watched.collect, hf] at hgives
    cases hgives
    exact ⟨rfl, rfl⟩
  cases h with
  | failed head phase gives => exact nomatch (hcollect gives).1
  | collected head phase gives => exact ⟨nofun, (hcollect gives).2⟩
  | published head phase =>
    refine ⟨nofun, ?_⟩
    rw [show (c.publishSheet _ _).store = c.store by unfold publishSheet; dsimp only; split <;> rfl]
    exact hf
  | _ => exact ⟨nofun, hf⟩

theorem Worked.not_lost {k n : Nat} {w : WorkerStep} (h : Worked c k n w c')
    (hf : c.store.failing = false) : c.breaksOff k n w = false ∧ c'.store.failing = false := by
  have hlost : c.breaksOff k n .survey = false := by
    rw [Cache.breaksOff]
    split
    · rename_i v hv
      cases hstep : c.surveyStep? k n v with
      | none => rfl
      | some e =>
        have hdoes : Surveyed c k n v e.1 e.2 := surveyed_of_surveyStep? hstep
        rw [Option.any_some, decide_eq_false_iff_not]
        exact (hdoes.not_lost hf).1
    · rfl
  cases h with
  | moved makes => exact ⟨rfl, hf⟩
  | goesOn worker phase does => exact ⟨hlost, (does.not_lost hf).2⟩
  | ends worker phase does => exact ⟨hlost, (does.not_lost hf).2⟩
  | breaksOff worker phase does lost =>
    rw [hlost] at lost
    cases lost

end Cache

namespace Scene

/-- a number of steps of the workers; a survey is lost only if the store was told to fail -/
theorem goesOn_run (n : Nat) (s : Scene σ) : ∃ lost,
    s.GoesOn { s with cache := Cache.run n s.cache, mishap := s.mishap || lost } ∧
      (s.cache.store.failing = false → lost = false) := by
  induction n generalizing s with
  | zero => exact ⟨false, by rw [Bool.or_false]; exact .refl, fun _ => rfl⟩
  | succ n ih =>
    rw [Cache.run]
    cases ha : s.cache.advance with
    | none => exact ⟨false, by rw [Bool.or_false]; exact .refl, fun _ => rfl⟩
    | some c =>
      obtain ⟨k, number, w, hw⟩ := Cache.exists_step?_of_advance ha
      obtain ⟨lost, hrun, hlost⟩ :=
        ih { s with cache := c, mishap := s.mishap || s.cache.breaksOff k number w }
      refine ⟨s.cache.breaksOff k number w || lost, ?_, fun hf => ?_⟩
      · rw [← Bool.or_assoc]
        exact (goesOn_aside (.work hw)).trans hrun
      · obtain ⟨hnot, hf'⟩ := (Cache.worked_of_step? hw).not_lost hf
        rw [hnot, hlost hf']
        rfl

theorem goesOn_settle (s : Scene σ) : ∃ lost,
    s.GoesOn { s with cache := s.cache.settle, mishap := s.mishap || lost } ∧
      (s.cache.store.failing = false → lost = false) := goesOn_run _ s

/-! ## submissions -/

theorem goesOn_submitAll (batches : List (List Column)) {renewal : Bool}
    (h : s.doing = .scheduling batches renewal) :
    (∀ c, s.cache.submitAll batches = (.ok (), c) →
      s.GoesOn { s with cache := c, doing := .scheduling [] renewal }) ∧
    ∀ fault c, s.cache.submitAll batches = (.error fault, c) →
      s.GoesOn { s with cache := c, doing := .nothing, mishap := true } := by
  induction batches generalizing s with
  | nil =>
    rw [Cache.submitAll]
    constructor
    · rintro c ⟨⟩
      rw [← h]
      exact .refl
    · rintro fault c ⟨⟩
  | cons batch batches ih =>
    have hbusy : ¬s.doing.AtRest := by rw [h]; exact id
    cases hp : (s.cache.pool s.cache.current).submit { epoch := s.cache.epoch, columns := batch } with
    | mk outcome p =>
      rw [Cache.submitAll, hp]
      cases outcome with
      | ok done =>
        obtain ⟨hok, herr⟩ := ih (s := { s with
          cache := s.cache.setPool s.cache.current p, doing := .scheduling batches renewal }) rfl
        exact ⟨fun c hc => (goesOn_step hbusy (.submit h hp)).trans (hok c hc),
          fun fault c hc => (goesOn_step hbusy (.submit h hp)).trans (herr fault c hc)⟩
      | error fault =>
        constructor
        · rintro c ⟨⟩
        · rintro fault' c ⟨⟩
          exact goesOn_step hbusy (.breakOff h hp)

omit [RegionStore σ] in
theorem after_ok {α : Type} (s : Scene σ) (a : α) (c : Cache σ) :
    s.after (.ok a, c) = { s with cache := c, doing := .nothing } := by
  rw [Scene.after, show (!(Except.ok a : Except Fault α).isOk) = false from rfl, Bool.or_false]

omit [RegionStore σ] in
theorem after_error {α : Type} (s : Scene σ) (fault : Fault) (c : Cache σ) :
    s.after ((.error fault : Except Fault α), c) =
      { s with cache := c, doing := .nothing, mishap := true } := by
  rw [Scene.after, show (!(Except.error fault : Except Fault α).isOk) = true from rfl, Bool.or_true]

omit [RegionStore σ] in
theorem after_start {α : Type} {c : Cache σ} {outcome : Except Fault α × Cache σ}
    (hok : outcome.1.isOk = true) : (Scene.start c).after outcome = .start outcome.2 := by
  rw [Scene.after, hok]
  rfl

/-- columns are submitted in batches that were cut before -/
theorem goesOn_schedule {columns : List Column}
    (h : s.doing = .scheduling (s.cache.cut columns) false) :
    s.GoesOn (s.after (s.cache.schedule columns)) := by
  obtain ⟨hok, herr⟩ := goesOn_submitAll _ h
  cases hs : s.cache.schedule columns with
  | mk outcome c =>
    cases outcome with
    | ok done =>
      rw [after_ok]
      have hdone := (hok c hs).step id (.scheduled rfl)
      exact hdone
    | error fault =>
      rw [after_error]
      exact herr fault c hs

/-! ## hints -/

omit [RegionStore σ] in
theorem warm_eq_warmAll (c : Cache σ) (column : Column) : c.warm column = c.warmAll [column] := by
  unfold Cache.warm Cache.warmAll
  rw [Cache.insertAllMissing]
  cases hi : c.insertMissing column with
  | mk new c' => cases new <;> rfl

omit [RegionStore σ] in
/-- nothing is submitted for no columns -/
theorem warmAll_eq_schedule (c : Cache σ) (columns : List Column) :
    c.warmAll columns = (c.insertAllMissing columns).2.schedule (c.insertAllMissing columns).1 := by
  unfold Cache.warmAll
  cases hi : c.insertAllMissing columns with
  | mk created c' =>
    cases created with
    | nil =>
      show (.ok (), c') = c'.submitAll (Cache.batches _ [])
      rw [Cache.batches, dif_pos (Or.inr rfl), Cache.submitAll]
    | cons column rest => rfl

theorem goesOn_warmAll (s : Scene σ) (columns : List Column) :
    GoesOn { s with
      cache := (s.cache.insertAllMissing columns).2
      doing := .scheduling (s.cache.cut (s.cache.insertAllMissing columns).1) false }
      (s.after (s.cache.warmAll columns)) := by
  rw [warmAll_eq_schedule]
  refine goesOn_schedule ?_
  obtain ⟨-, hset, -⟩ := s.cache.insertAllMissing_frame columns
  dsimp only
  rw [Cache.cut, Cache.cut, hset]

theorem reach_warmAll (columns : List Column) (rest : s.doing.AtRest) :
    s.Reach (s.after (s.cache.warmAll columns)) :=
  (reach_step (.warm columns rest)).trans (s.goesOn_warmAll columns).reach

theorem reach_hint (h : Hint) (rest : s.doing.AtRest) : s.Reach (s.after (s.cache.hint h)) := by
  cases h with
  | warm column =>
    rw [Cache.hint, warm_eq_warmAll]
    exact reach_warmAll [column] rest
  | warmAll columns => exact reach_warmAll columns rest
  | drop column =>
    rw [Cache.hint, after_ok]
    exact reach_step (.drop column rest)
  | dropAll =>
    rw [Cache.hint, after_ok]
    exact reach_step (.dropAll rest)

/-! ## renewals and writes -/

theorem goesOn_renew (s : Scene σ) :
    GoesOn { s with
      cache := s.cache.restart s.cache.columns.keys
      doing := .scheduling (s.cache.cut s.cache.columns.keys) true } (s.after s.cache.renew) := by
  have hcut : s.cache.cut s.cache.columns.keys =
      (s.cache.restart s.cache.columns.keys).cut s.cache.columns.keys := by
    obtain ⟨-, hset, -⟩ := s.cache.turn.2.insertAllMissing_frame s.cache.columns.keys
    rw [Cache.cut, Cache.cut, Cache.restart, hset]
    rfl
  obtain ⟨hok, herr⟩ := goesOn_submitAll (s := { s with
    cache := s.cache.restart s.cache.columns.keys
    doing := .scheduling (s.cache.cut s.cache.columns.keys) true }) _ rfl
  rw [hcut] at hok herr ⊢
  cases hs : (s.cache.restart s.cache.columns.keys).schedule s.cache.columns.keys with
  | mk outcome c =>
    cases outcome with
    | ok done =>
      rw [Cache.renew_of_ok hs, after_ok]
      have hdone := (hok c hs).step id (.scheduled rfl)
      exact hdone
    | error fault =>
      rw [Cache.renew_of_error hs, after_error]
      exact herr fault c hs

theorem reach_renew (h : s.doing.AtRest ∨ s.doing = .writing) : s.Reach (s.after s.cache.renew) :=
  (reach_step (.renew (.refl _) h)).trans s.goesOn_renew.reach

theorem reach_write (w : Write) (rest : s.doing.AtRest) :
    s.Reach (s.after (s.cache.modifyStore w.apply).renew) :=
  (reach_step (.write w rest)).trans (reach_renew (Or.inr rfl))

theorem reach_add (r : Region) (rest : s.doing.AtRest) : s.Reach (s.after (s.cache.add r)) :=
  reach_write (.add r) rest

theorem reach_addAll (regions : List Region) (rest : s.doing.AtRest) :
    s.Reach (s.after (s.cache.addAll regions)) := reach_write (.addAll regions) rest

/-- what a removal gives back makes no difference to the cache -/
theorem after_remove (s : Scene σ) (id : String) (removal : Removal) :
    s.after (s.cache.remove id removal) =
      s.after (s.cache.modifyStore (Write.apply · (.remove id removal))).renew := by
  have hmod : s.cache.modifyStore (Write.apply · (.remove id removal)) =
      s.cache.modifyStore fun _ => (RegionStore.remove s.cache.store.store id removal).2 := rfl
  unfold Cache.remove
  rw [hmod]
  dsimp only
  cases hr : (s.cache.modifyStore fun _ =>
      (RegionStore.remove s.cache.store.store id removal).2).renew with
  | mk outcome c => cases outcome <;> rfl

theorem reach_remove (id : String) (removal : Removal) (rest : s.doing.AtRest) :
    s.Reach (s.after (s.cache.remove id removal)) := by
  rw [after_remove]
  exact reach_write (.remove id removal) rest

/-! ## queries -/

theorem reach_regionsAt (p : Block) (rest : s.doing.AtRest) :
    s.Reach { s with
      cache := (s.cache.regionsAt p).2, doing := .answered p (s.cache.regionsAt p).1 } := by
  rw [Cache.regionsAt_eq]
  exact (reach_step (.ask p rest)).step (.answer rfl)

/-! ## waits -/

/-- a wait looks once whether it is over, at first or when the workers can do no more; whatever
passes after that is time -/
theorem goesOn_wait (s : Scene σ) (ms : Nat) (holds : Cache σ → Bool) : ∃ (lost : Bool) (c : Cache σ),
    s.GoesOn { s with cache := c, mishap := s.mishap || lost } ∧
      (s.cache.store.failing = false → lost = false) ∧ (s.cache.wait ms holds).1 = holds c ∧
      ∀ s' : Scene σ, s'.cache = c → s'.GoesOn { s' with cache := (s.cache.wait ms holds).2 } := by
  unfold Cache.wait
  split
  · obtain ⟨lost, hsettle, hlost⟩ := goesOn_settle s
    refine ⟨lost, s.cache.settle, hsettle, hlost, ?_⟩
    dsimp only
    split
    · rename_i hover
      refine ⟨hover.symm, fun s' he => ?_⟩
      rw [← he]
      exact goesOn_aside (.elapse 0)
    · rename_i hover
      refine ⟨(Bool.eq_false_iff.mpr hover).symm, fun s' he => ?_⟩
      rw [← he]
      exact goesOn_aside (.elapse ms)
  · refine ⟨false, s.cache, ?_, fun _ => rfl, rfl, fun s' he => ?_⟩
    · rw [Bool.or_false]
      exact .refl
    · rw [← he]
      exact .refl

/-- a wait that is no more than that -/
theorem goesOn_waited (s : Scene σ) (ms : Nat) (holds : Cache σ → Bool) : ∃ lost,
    s.GoesOn { s with cache := (s.cache.wait ms holds).2, mishap := s.mishap || lost } ∧
      (s.cache.store.failing = false → lost = false) := by
  obtain ⟨lost, c, hwait, hlost, -, htime⟩ := goesOn_wait s ms holds
  exact ⟨lost, hwait.trans (htime _ rfl), hlost⟩

theorem reach_waited (s : Scene σ) (ms : Nat) (holds : Cache σ → Bool) : ∃ lost,
    s.Reach { s with cache := (s.cache.wait ms holds).2, mishap := s.mishap || lost } ∧
      (s.cache.store.failing = false → lost = false) := by
  obtain ⟨lost, hwait, hlost⟩ := goesOn_waited s ms holds
  exact ⟨lost, hwait.reach, hlost⟩

theorem goesOn_awaitGate (s : Scene σ) (ms : Nat) : ∃ lost,
    s.GoesOn { s with cache := (s.cache.awaitGate ms).2, mishap := s.mishap || lost } ∧
      (s.cache.store.failing = false → lost = false) := by
  unfold Cache.awaitGate
  split
  · exact ⟨false, by rw [Bool.or_false]; exact .refl, fun _ => rfl⟩
  · exact goesOn_waited s ms _

theorem reach_awaitGate (s : Scene σ) (ms : Nat) : ∃ lost,
    s.Reach { s with cache := (s.cache.awaitGate ms).2, mishap := s.mishap || lost } ∧
      (s.cache.store.failing = false → lost = false) := by
  obtain ⟨lost, hwait, hlost⟩ := goesOn_awaitGate s ms
  exact ⟨lost, hwait.reach, hlost⟩

theorem goesOn_drain (s : Scene σ) (ms : Nat) : ∃ lost,
    GoesOn { s with cache := s.cache.freshPool, doing := .swapped s.cache.current } { s with
      cache := (s.cache.drain ms).2
      doing := .drained (s.cache.drain ms).1
      abandoned :=
        if (s.cache.drain ms).1 then s.abandoned else s.cache.current :: s.abandoned
      mishap := s.mishap || lost } ∧ (s.cache.store.failing = false → lost = false) := by
  have hclosed := goesOn_step (s := { s with
    cache := s.cache.freshPool, doing := .swapped s.cache.current }) id (.close rfl)
  obtain ⟨lost, c, hwait, hlost, hover, htime⟩ := goesOn_wait
    { s with cache := s.cache.freshPool.closePool s.cache.current, doing := .draining s.cache.current }
    ms fun c => !c.isLive s.cache.current
  refine ⟨lost, ?_, hlost⟩
  have hdrain : s.cache.drain ms = (s.cache.freshPool.closePool s.cache.current).wait ms
      fun c => !c.isLive s.cache.current := rfl
  have hdone := (hclosed.trans hwait).step id (.drained rfl)
  rw [hdrain, hover]
  refine hdone.trans ?_
  have hpassed := htime { s with
    cache := c
    doing := .drained (!c.isLive s.cache.current)
    abandoned := if c.isLive s.cache.current then s.cache.current :: s.abandoned else s.abandoned
    mishap := s.mishap || lost } rfl
  cases hlive : c.isLive s.cache.current with
  | false =>
    rw [hlive] at hpassed
    exact hpassed
  | true =>
    rw [hlive] at hpassed
    exact hpassed

/-- waiting for scheduled work, and what the wait answers -/
theorem reach_drain (ms : Nat) (rest : s.doing.AtRest) : ∃ lost,
    s.Reach { s with
      cache := (s.cache.drain ms).2
      doing := .drained (s.cache.drain ms).1
      abandoned :=
        if (s.cache.drain ms).1 then s.abandoned else s.cache.current :: s.abandoned
      mishap := s.mishap || lost } ∧ (s.cache.store.failing = false → lost = false) := by
  obtain ⟨lost, hdrain, hlost⟩ := s.goesOn_drain ms
  exact ⟨lost, (reach_step (.swap rest)).trans hdrain.reach, hlost⟩

theorem goesOn_observe (pending : List Nat) {pools : List Nat} {stopped : Bool}
    (h : s.doing = .dismissing pools pending stopped) :
    s.GoesOn { s with
      doing := .dismissing pools [] (stopped && !pending.any s.cache.isLive) } := by
  induction pending generalizing s stopped with
  | nil =>
    rw [List.any_nil, Bool.not_false, Bool.and_true, ← h]
    exact .refl
  | cons k pending ih =>
    rw [List.any_cons, Bool.not_or, ← Bool.and_assoc]
    exact (goesOn_step (by rw [h]; exact id) (.observe h)).trans (ih rfl)

theorem goesOn_dropAllAndWait (s : Scene σ) (ms : Nat) : ∃ lost,
    GoesOn { s with
        cache := s.cache.turn.2.takeDismissed.2
        doing := .dismissing s.cache.turn.2.dismissed s.cache.turn.2.dismissed true } { s with
      cache := (s.cache.dropAllAndWait ms).2
      doing := .dismissed (s.cache.dropAllAndWait ms).1
      mishap := s.mishap || lost } ∧ (s.cache.store.failing = false → lost = false) := by
  obtain ⟨lost, c, hwait, hlost, hover, htime⟩ := goesOn_wait
    { s with
      cache := s.cache.turn.2.takeDismissed.2
      doing := .dismissing s.cache.turn.2.dismissed s.cache.turn.2.dismissed true }
    ms fun c => !s.cache.turn.2.dismissed.any c.isLive
  refine ⟨lost, ?_, hlost⟩
  have hseen := hwait.trans (goesOn_observe _ rfl)
  have hdrop : ∀ {b d}, (s.cache.turn.2.takeDismissed.2.wait ms fun c =>
        !s.cache.turn.2.dismissed.any c.isLive) = (b, d) →
      s.cache.dropAllAndWait ms =
        (b, if b then d else d.giveBack s.cache.turn.2.dismissed) := by
    intro b d hw
    unfold Cache.dropAllAndWait
    dsimp only
    rw [show s.cache.turn.2.takeDismissed.1 = s.cache.turn.2.dismissed from rfl, hw]
    cases b <;> rfl
  cases hw : s.cache.turn.2.takeDismissed.2.wait ms fun c =>
      !s.cache.turn.2.dismissed.any c.isLive with
  | mk stopped d =>
    rw [hw] at hover htime
    have hpassed := (hseen.trans (htime _ rfl)).step id (.dismissed rfl)
    dsimp only at hover hpassed
    rw [Bool.true_and, ← hover] at hpassed
    rw [hdrop hw]
    exact hpassed

/-- waiting for surveys to stop, and what the wait answers -/
theorem reach_dropAllAndWait (ms : Nat) (rest : s.doing.AtRest) : ∃ lost,
    s.Reach { s with
      cache := (s.cache.dropAllAndWait ms).2
      doing := .dismissed (s.cache.dropAllAndWait ms).1
      mishap := s.mishap || lost } ∧ (s.cache.store.failing = false → lost = false) := by
  obtain ⟨lost, hdrop, hlost⟩ := s.goesOn_dropAllAndWait ms
  exact ⟨lost, (reach_step (.dismiss rest)).trans hdrop.reach, hlost⟩

/-! ## sessions -/

/-- an operation takes the cache to another state, and the host can begin the next one -/
def Leads (s : Scene σ) (c : Cache σ) : Prop := ∃ s', s.Reach s' ∧ s'.doing.AtRest ∧ s'.cache = c

theorem leads_self (rest : s.doing.AtRest) : s.Leads s.cache := ⟨s, .refl, rest, rfl⟩

theorem leads_step {s' : Scene σ} (hs : Step s s') (rest : s'.doing.AtRest) : s.Leads s'.cache :=
  ⟨s', reach_step hs, rest, rfl⟩

theorem Leads.trans {c c' : Cache σ} (h : s.Leads c)
    (hnext : ∀ s' : Scene σ, s'.doing.AtRest → s'.cache = c → s'.Leads c') : s.Leads c' := by
  obtain ⟨s', hreach, rest, he⟩ := h
  obtain ⟨s'', hreach', rest', he'⟩ := hnext s' rest he
  exact ⟨s'', hreach.trans hreach', rest', he'⟩

theorem leads_after {α : Type} {outcome : Except Fault α × Cache σ} (h : s.Reach (s.after outcome)) :
    s.Leads outcome.2 := ⟨_, h, trivial, rfl⟩

theorem leads_visitEach {τ : Type} {visitor : Region → τ → Bool × τ} (cache : τ → Cache σ)
    (hvisit : ∀ (s' : Scene σ) r t, s'.doing.AtRest → s'.cache = cache t →
      s'.Leads (cache (visitor r t).2))
    (regions : List Region) {t : τ} (h : s.Leads (cache t)) :
    s.Leads (cache (visitEach visitor regions t)) := by
  exact visitEach_induct (P := fun t => s.Leads (cache t))
    (fun r t ht => ht.trans fun s' rest he => hvisit s' r t rest he) regions h

theorem leads_purge (removal : Removal) (regions : List Region) {p : Cache.Purge σ}
    (h : s.Leads p.cache) :
    s.Leads (visitEach (Cache.Purge.visit removal) regions p).cache := by
  refine leads_visitEach Cache.Purge.cache (fun s' r p rest he => ?_) regions h
  have hremove := leads_after (reach_remove r.id removal rest)
  rw [he] at hremove
  unfold Cache.Purge.visit
  split
  · rename_i gone c hr
    rw [hr] at hremove
    exact hremove
  · rename_i fault c hr
    rw [hr] at hremove
    exact hremove

theorem leads_visitContaining (p : Block) (limit : Option Nat) (rest : s.doing.AtRest) :
    s.Leads (s.cache.visitContaining p limit).2.2 := by
  rw [Cache.cache_visitContaining]
  exact ⟨_, reach_regionsAt p rest, trivial, rfl⟩

theorem leads_purgeContaining (p : Block) (removal : Removal) (rest : s.doing.AtRest) :
    s.Leads (s.cache.purgeContaining p removal).cache := by
  have hvisit := leads_visitContaining p none rest
  unfold Cache.visitContaining at hvisit
  unfold Cache.purgeContaining
  cases hr : s.cache.resolve p.column with
  | mk found c =>
    rw [hr] at hvisit
    cases found with
    | some regions =>
      dsimp only
      rw [Cache.visitWhere_eq]
      exact leads_purge removal _ hvisit
    | none => exact leads_purge removal _ hvisit

theorem leads_performOn (op : StoreOp) (shelf : Shelf) (rest : s.doing.AtRest) :
    s.Leads (op.performOn s.cache shelf).2.1 := by
  cases op with
  | add r => exact leads_after (reach_add r rest)
  | addAll regions => exact leads_after (reach_addAll regions rest)
  | remove id removal =>
    have hremove := leads_after (reach_remove id removal rest)
    rw [StoreOp.performOn]
    split
    · rename_i gone c hr
      rw [hr] at hremove
      exact hremove
    · rename_i fault c hr
      rw [hr] at hremove
      exact hremove
  | contains | get | values | size | isDirty | visitAll => exact leads_self rest
  | setDirty dirty => exact leads_step (.chore (.setDirty dirty) rest) trivial
  | takeLedger name => exact leads_step (.chore .takeLedger rest) trivial
  | restoreShelved name =>
    exact leads_step (.chore (.restoreLedger (shelf[name]?.getD {})) rest) trivial
  | restoreLedger l => exact leads_step (.chore (.restoreLedger l) rest) trivial
  | visitContaining p limit => exact leads_visitContaining p limit rest
  | visitIntersecting r limit =>
    have hoverlap := leads_step (.overlap r rest) trivial
    rw [StoreOp.performOn]
    split
    · rename_i regions c hr
      dsimp only at hoverlap
      rw [hr] at hoverlap
      exact hoverlap
    · rename_i fault c hr
      dsimp only at hoverlap
      rw [hr] at hoverlap
      exact hoverlap
  | purgeContaining p removal =>
    have hpurge := leads_purgeContaining p removal rest
    rw [StoreOp.performOn]
    split <;> exact hpurge
  | purgeAll removal =>
    have hpurge : s.Leads (s.cache.purgeAll removal).cache := leads_purge removal _ (leads_self rest)
    rw [StoreOp.performOn]
    split <;> exact hpurge
  | hint h => exact leads_after (reach_hint h rest)

theorem leads_checkAll (points : List Block) (before : List Finding) {c : Cache σ}
    (h : s.Leads c) : s.Leads (c.checkAll before points).2 := by
  induction points generalizing c before with
  | nil => exact h
  | cons p points ih =>
    obtain ⟨s', hreach, rest, rfl⟩ := h
    exact ih _ ⟨_, (hreach.trans (reach_regionsAt p rest)).step (.consult p trivial), trivial, rfl⟩

theorem leads_crossCheck (points : List Block) (rest : s.doing.AtRest) :
    s.Leads (s.cache.crossCheck points).2 := by
  unfold Cache.crossCheck
  split
  · exact leads_self rest
  · exact leads_checkAll points [] (leads_self rest)

/-- **Every operation of a session is a run**, unless it goes behind the back of the cache. -/
theorem leads_perform (op : CacheOp) (hop : ∀ behind, op ≠ .behind behind) (shelf : Shelf)
    (rest : s.doing.AtRest) : s.Leads (op.perform s.cache shelf).2.1 := by
  cases op with
  | ofStore op => exact leads_performOn op shelf rest
  | behind op => exact absurd rfl (hop op)
  | regionsAt p => exact ⟨_, reach_regionsAt p rest, trivial, rfl⟩
  | visit p limit => exact leads_visitContaining p limit rest
  | isLoaded | settings | stats | calls => exact leads_self rest
  | renew => exact leads_after (reach_renew (Or.inl rest))
  | drain ms =>
    obtain ⟨lost, hdrain, -⟩ := reach_drain ms rest
    exact ⟨_, hdrain, trivial, rfl⟩
  | dropAllAndWait ms =>
    obtain ⟨lost, hdrop, -⟩ := reach_dropAllAndWait ms rest
    exact ⟨_, hdrop, trivial, rfl⟩
  | crossCheck points => exact leads_crossCheck points rest
  | closeGate => exact leads_step .closeGate rest
  | awaitGate ms =>
    obtain ⟨lost, hwait, -⟩ := reach_awaitGate s ms
    exact ⟨_, hwait, rest, rfl⟩
  | openGate => exact leads_step .openGate rest
  | failNext => exact leads_step .failNext rest
  | awaitCount counter value ms =>
    obtain ⟨lost, hwait, -⟩ := reach_waited s ms fun c => c.counters.get counter == value
    exact ⟨_, hwait, rest, rfl⟩

/-! ## one operation after the other -/

theorem Leads.add {c : Cache σ} (h : s.Leads c) (r : Region) : s.Leads (c.add r).2 :=
  h.trans fun _ rest he => he ▸ leads_after (reach_add r rest)

theorem Leads.drain {c : Cache σ} (h : s.Leads c) (ms : Nat) : s.Leads (c.drain ms).2 :=
  h.trans fun _ rest he => he ▸ leads_perform (.drain ms) nofun ∅ rest

theorem Leads.regionsAt {c : Cache σ} (h : s.Leads c) (p : Block) : s.Leads (c.regionsAt p).2 :=
  h.trans fun _ rest he => he ▸ leads_perform (.regionsAt p) nofun ∅ rest

end Scene
end
end Precinct
