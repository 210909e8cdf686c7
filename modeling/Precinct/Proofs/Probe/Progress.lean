import Mathlib
import Precinct.Proofs.Probe.Phases

/-!
# A probe is never stuck

* `Scene.Well`         the host goes on, or others do, in a store that nobody has told to fail, and no
                       worker is denied;
* `Scene.Fit.exists_rest`  **a host can finish what it is in the middle of**, and needs nobody for it;
* `Trial.exists_well`  so can queries;
* `Stands.exists_finished`  **however far a trial is, it can be finished.**

No step here is made by a worker.  A wait may end before the work is done, and then says so.
-/

namespace Precinct
open Relation (ReflTransGen)

section
variable {σ : Type} [RegionStore σ] {s s' : Scene σ}

/-- the host goes on in a store that nobody has told to fail, and is denied no worker -/
def Scene.Well (s s' : Scene σ) : Prop :=
  s.cache.store.failing = false ∧ s.Continues s' ∧ s'.denied = s.denied

/-- what is begun can be finished -/
def Scene.Finishes (s : Scene σ) : Prop :=
  ∃ s', ReflTransGen Scene.Well s s' ∧ s'.doing.AtRest ∧ s'.cache.store.failing = false

theorem Scene.finishes_of_rest (hf : s.cache.store.failing = false) (rest : s.doing.AtRest) :
    s.Finishes := ⟨s, .refl, rest, hf⟩

theorem Scene.Finishes.of_step (hs : Step s s') (busy : ¬s.doing.AtRest)
    (hf : s.cache.store.failing = false) (hd : s'.denied = s.denied) (h : s'.Finishes) :
    s.Finishes := by
  obtain ⟨u, hu, rest, hf'⟩ := h
  exact ⟨u, hu.head ⟨hf, Or.inr ⟨busy, hs⟩, hd⟩, rest, hf'⟩

theorem Scene.finishes_of_dismissing {pools pending : List Nat} {stopped : Bool}
    (hf : s.cache.store.failing = false) (hd : s.doing = .dismissing pools pending stopped) :
    s.Finishes := by
  have busy : ∀ {u : Scene σ} {pending : List Nat} {stopped : Bool},
      u.doing = .dismissing pools pending stopped → ¬u.doing.AtRest := by
    intro u pending stopped hu
    rw [hu]
    exact id
  induction pending generalizing s stopped with
  | nil =>
    refine .of_step (.dismissed hd) (busy hd) hf rfl (finishes_of_rest ?_ trivial)
    cases stopped <;> exact hf
  | cons k pending ih => exact .of_step (.observe hd) (busy hd) hf rfl (ih hf rfl)

variable [ExactStore σ]

/-- all batches are taken up, one after the other -/
theorem Scene.Fit.finishes_of_scheduling {batches : List (List Column)} {renewal : Bool}
    (fit : s.Fit) (hf : s.cache.store.failing = false)
    (hd : s.doing = .scheduling batches renewal) : s.Finishes := by
  have busy : ∀ {u : Scene σ} {batches : List (List Column)},
      u.doing = .scheduling batches renewal → ¬u.doing.AtRest := by
    intro u batches hu
    rw [hu]
    exact id
  induction batches generalizing s with
  | nil =>
    refine .of_step (.scheduled hd) (busy hd) hf rfl (finishes_of_rest ?_ trivial)
    cases renewal <;> exact hf
  | cons batch batches ih =>
    have htaken := fit.sturdy.takes hd false
    cases hsubmit : (s.cache.pool s.cache.current).submit
        { epoch := s.cache.epoch, columns := batch } with
    | mk outcome p =>
      rw [hsubmit] at htaken
      cases htaken
      have hstep := Step.submit hd hsubmit
      exact .of_step hstep (busy hd) hf rfl (ih (fit.step hstep) hf rfl)

/-- **A host can finish what it is in the middle of.** -/
theorem Scene.Fit.finishes (fit : s.Fit) (hf : s.cache.store.failing = false) : s.Finishes := by
  cases hd : s.doing with
  | writing =>
    have hstep : Step s _ := .renew (.refl s.cache.columns.keys) (Or.inr hd)
    refine .of_step hstep (by rw [hd]; exact id) hf rfl
      ((fit.step hstep).finishes_of_scheduling ?_ rfl)
    show (s.cache.turn.2.insertAllMissing s.cache.columns.keys).2.store.failing = false
    rw [(s.cache.turn.2.insertAllMissing_frame s.cache.columns.keys).1]
    exact hf
  | scheduling batches renewal => exact fit.finishes_of_scheduling hf hd
  | asking p found =>
    refine .of_step (.answer hd) (by rw [hd]; exact id) hf rfl (finishes_of_rest ?_ trivial)
    cases found <;> exact hf
  | swapped k =>
    have hdrain : Scene.Finishes { s with cache := s.cache.closePool k, doing := .draining k } :=
      .of_step (.drained rfl) id hf rfl (finishes_of_rest hf trivial)
    exact .of_step (.close hd) (by rw [hd]; exact id) hf rfl hdrain
  | draining k =>
    exact .of_step (.drained hd) (by rw [hd]; exact id) hf rfl (finishes_of_rest hf trivial)
  | dismissing pools pending stopped => exact finishes_of_dismissing hf hd
  | _ => exact finishes_of_rest hf (by rw [hd]; trivial)

end

namespace Probe

section
variable {σ : Type} [RegionStore σ] {scene : Scene σ} {q q' : Inquiry} {c c' : Cache σ}

/-! ## queries -/

theorem Inquiry.Step.failing (hs : q.Step c q' c') : c'.store.failing = c.store.failing := by
  cases hs with
  | lookUp stage => rw [(c.resolved q.block.column).frame.1]
  | @answer found stage => cases found <;> rfl
  | compare stage => rfl

/-- queries can be finished in a store that nobody has told to fail -/
theorem Trial.exists_well (rest : scene.doing.AtRest) (hf : scene.cache.store.failing = false)
    (queries : List Inquiry) :
    ∃ t : Trial σ, ReflTransGen Trial.Well ⟨scene, [], queries⟩ t ∧ t.Finished :=
  exists_asked (P := fun c => c.store.failing = false) (fun hs hf => hs.failing.trans hf) rest hf []
    queries nofun

/-! ## deeds -/

theorem failing_begin (hf : scene.cache.store.failing = false) (d : Deed) :
    (d.begin scene).cache.store.failing = false := by
  cases d with
  | renew =>
    show (scene.cache.turn.2.insertAllMissing scene.cache.columns.keys).2.store.failing = false
    rw [(scene.cache.turn.2.insertAllMissing_frame scene.cache.columns.keys).1]
    exact hf
  | warm columns =>
    show (scene.cache.insertAllMissing columns).2.store.failing = false
    rw [(scene.cache.insertAllMissing_frame columns).1]
    exact hf
  | ask p =>
    show (scene.cache.resolve p.column).2.store.failing = false
    rw [(scene.cache.resolved p.column).frame.1]
    exact hf
  | overlap r =>
    show (Watched.collect (scene.cache.store.enter .owner) r).2.failing = false
    unfold Watched.collect
    split
    · rfl
    · exact hf
  | _ => exact hf

theorem denied_begin (d : Deed) : (d.begin scene).denied = scene.denied := by cases d <;> rfl

variable {t : Trial σ}

theorem Trial.wells_of_wells {s : Scene σ} (h : ReflTransGen Scene.Well t.scene s) :
    ReflTransGen Trial.Well t { t with scene := s } := by
  induction h with
  | refl => exact .refl
  | tail _ hlast ih => exact ih.tail ⟨hlast.1, .goesOn hlast.2.1, hlast.2.2⟩

theorem wells_reach {s s' : Scene σ} (h : ReflTransGen Scene.Well s s') : s.Reach s' :=
  Relation.ReflTransGen.mono (fun _ _ hstep => hstep.2.1.step) _ _ h

variable [ExactStore σ]

/-- all deeds can be done, one after the other -/
theorem Trial.exists_prepared (fit : t.scene.Fit) (hf : t.scene.cache.store.failing = false) :
    ∃ s : Scene σ, ReflTransGen Trial.Well t ⟨s, [], t.queries⟩ ∧ s.doing.AtRest ∧
      s.cache.store.failing = false := by
  induction hahead : t.ahead generalizing t with
  | nil =>
    obtain ⟨s, hwell, rest, hf'⟩ := fit.finishes hf
    have hsteps := wells_of_wells hwell
    rw [hahead] at hsteps
    exact ⟨s, hsteps, rest, hf'⟩
  | cons d ds ih =>
    obtain ⟨s, hwell, rest, hf'⟩ := fit.finishes hf
    have hbegins : Trial.Well { t with scene := s } { t with scene := d.begin s, ahead := ds } :=
      ⟨hf', .begins rest (.refl s.cache.columns.keys) hahead, denied_begin d⟩
    obtain ⟨u, hu, rest', hf''⟩ := ih (t := { t with scene := d.begin s, ahead := ds })
      ((fit.reach (wells_reach hwell)).step (d.step_begin rest (.refl _))) (failing_begin hf' d) rfl
    exact ⟨u, ((wells_of_wells hwell).tail hbegins).trans hu, rest', hf''⟩

variable [Tabled σ] {P : Prompt} {regions : List Region} {columns : List Column}
  {points : List Block}

/-- **However far a trial is, it can be finished.** -/
theorem Stands.exists_finished (h : Stands P regions columns points t)
    (hf : t.scene.cache.store.failing = false) :
    ∃ t', ReflTransGen Trial.Well t t' ∧ t'.Finished := by
  have hunasked : Unasked points t → ∃ t', ReflTransGen Trial.Well t t' ∧ t'.Finished := by
    intro unasked
    obtain ⟨s, hsteps, rest, hf'⟩ := Trial.exists_prepared unasked.fit hf
    obtain ⟨t', hasks, hfinished⟩ := Trial.exists_well rest hf' t.queries
    exact ⟨t', hsteps.trans hasks, hfinished⟩
  have hprepared : t.ahead = [] → t.scene.doing.AtRest →
      ∃ t', ReflTransGen Trial.Well t t' ∧ t'.Finished := by
    intro ahead rest
    obtain ⟨scene, _, queries⟩ := t
    cases ahead
    exact Trial.exists_well rest hf queries
  cases h with
  | opening ahead unasked rest settled => exact hunasked unasked
  | adding ahead unasked adds => exact hunasked unasked
  | warming ahead unasked submits => exact hunasked unasked
  | awaiting ahead unasked doing underway => exact hunasked unasked
  | asking ahead doing polled => exact hprepared ahead polled.rest
  | gaveUp ahead doing asked => exact hprepared ahead asked.rest

end
end Probe
end Precinct
