import Mathlib
import Precinct.Proofs.Cache.Crowd
import Precinct.Proofs.Cache.Exactness

/-!
# No answer is older than a write that was over

Clients write and ask all at once.  What a query answers was so at some moment, and that moment is
after every write that was over when the query began.

* `Crowd.said`         what the store said of a column at some moment of the present epoch;
* `IsRun.reported`     this is what loaded sheets hold, and what surveys are about to publish;
* `IsRun.asked`        so a query that found a sheet has what the store said in an epoch no earlier
                       than the one it began in;
* `Crowd.Wrote`        a client changed the store at one moment and was done with it at another;
* `IsRun.write_then_ask`  whoever is at rest can do so, and whoever asks is answered;
* `answered_after_writes`  **the answer is that of the store at a moment after all such writes**.

Between changing the store and renewing the cache a write leaves sheets behind that the store has
gone beyond.  They are of an earlier epoch than the one the write brings (`IsRun.epoch_lt`), so a
query that begins when the write is over does not get them.  Two writes at once need nothing more:
each brings an epoch of its own.
-/

namespace Precinct
open Relation (ReflTransGen)

namespace Crowd
variable {σ : Type} [RegionStore σ] {run : Nat → Crowd σ}

/-- what the store has said of a column in the epoch of a moment -/
def said (run : Nat → Crowd σ) (t : Nat) (column : Column) (regions : List Region) : Prop :=
  ∃ u ≤ t, (run u).cache.epoch = (run t).cache.epoch ∧ regions = (run u).cache.columnRegions column

/-- a client began to write at one moment, and at a later one it was done with that -/
structure Wrote (run : Nat → Crowd σ) (n w r : Nat) : Prop where
  rested : ((run w).doing n).AtRest
  wrote : (run (w + 1)).doing n = .writing
  later : w < r
  done : ((run r).doing n).AtRest

/-- a client at rest may write at any moment, and once the workers have settled another one may ask -/
theorem IsRun.write_then_ask {c : Cache σ} (h : IsRun c run) {t n m : Nat} (hne : m ≠ n)
    (hn : ((run t).doing n).AtRest) (hm : ((run t).doing m).AtRest) (w : Write) (p : Block) :
    ∃ (run' : Nat → Crowd σ) (r : Nat), IsRun c run' ∧ Wrote run' n t r ∧ ((run' r).doing m).AtRest ∧
      (run' r).cache = ((run t).cache.modifyStore w.apply).renew.2.settle ∧
      (run' (r + 1)).doing m = .asking p ((run' r).cache.resolve p.column).1 ∧
      (run' (r + 2)).doing m = .answered p ((run' r).cache.regionsAt p).1 := by
  -- the write changes the store
  obtain ⟨run₁, hrun₁, hwrites, hsame₁⟩ := h.goOn_step t (.act n (.write w hn))
  have hn₁ : (run₁ (t + 1)).doing n = .writing := by rw [hwrites, doing_after, if_pos rfl]
  have hm₁ : (run₁ (t + 1)).doing m = (run t).doing m := by rw [hwrites, doing_after, if_neg hne]
  have hc₁ : (run₁ (t + 1)).cache = (run t).cache.modifyStore w.apply := by rw [hwrites]; rfl
  -- it renews the cache, and the workers settle
  have hrenew := Scene.reach_renew (s := (run₁ (t + 1)).seenBy n) (Or.inr hn₁)
  obtain ⟨lost, hsettle, -⟩ :=
    Scene.goesOn_settle (((run₁ (t + 1)).seenBy n).after (run₁ (t + 1)).cache.renew)
  obtain ⟨run₂, r, hrun₂, htr, hdone, hsame₂⟩ :=
    hrun₁.goOn (t + 1) (steps_of_reach (hrenew.trans hsettle.reach))
  have hn₂ : (run₂ r).doing n = .nothing := by rw [hdone, doing_after, if_pos rfl]; rfl
  have hm₂ : ((run₂ r).doing m).AtRest := by
    rw [hdone, doing_after, if_neg hne, hm₁]
    exact hm
  have hc₂ : (run₂ r).cache = ((run t).cache.modifyStore w.apply).renew.2.settle := by
    rw [hdone, ← hc₁]
    rfl
  -- the other client asks
  obtain ⟨run₃, hrun₃, hasks, hsame₃⟩ := hrun₂.goOn_step r (.act m (.ask p hm₂))
  have hm₃ : (run₃ (r + 1)).doing m = .asking p ((run₂ r).cache.resolve p.column).1 := by
    rw [hasks, doing_after, if_pos rfl]
    rfl
  obtain ⟨run₄, hrun₄, hanswers, hsame₄⟩ := hrun₃.goOn_step (r + 1) (.act m (.answer hm₃))
  have hm₄ : (run₄ (r + 2)).doing m = .answered p ((run₂ r).cache.regionsAt p).1 := by
    have hc₃ : (run₃ (r + 1)).cache = ((run₂ r).cache.resolve p.column).2 := by rw [hasks]; rfl
    rw [hanswers, doing_after, if_pos rfl, Cache.regionsAt_eq, ← hc₃]
    rfl
  have hr : run₄ r = run₂ r := by rw [hsame₄ r (by omega), hsame₃ r (le_refl r)]
  refine ⟨run₄, r, hrun₄, ⟨?_, ?_, htr, ?_⟩, ?_, ?_, ?_, ?_⟩
  · rw [hsame₄ t (by omega), hsame₃ t (by omega), hsame₂ t (by omega), hsame₁ t (le_refl t)]
    exact hn
  · rw [hsame₄ _ (by omega), hsame₃ _ (by omega), hsame₂ _ (le_refl _)]
    exact hn₁
  · rw [hr, hn₂]
    trivial
  · rw [hr]
    exact hm₂
  · rw [hr]
    exact hc₂
  · rw [hr, hsame₄ _ (le_refl _)]
    exact hm₃
  · rw [hr]
    exact hm₄

namespace IsRun
variable [ExactStore σ] {store : σ} {settings : Settings} (hstore : ExactStore.Sound store)
  (h : IsRun (.ofSettings store settings) run)
include hstore h

theorem sound (t : Nat) : ExactStore.Sound (run t).cache.store.store := by
  refine h.invariant (P := fun s => ExactStore.Sound s.cache.store.store) hstore ?_ t
  rintro s s' hs ⟨n, makes⟩
  exact (makes.store hs).1

/-- **Sheets hold what the store has said in the present epoch.** -/
theorem reported (t : Nat) : Reported (said run t) (run t).cache := by
  induction t with
  | zero =>
    rw [h.start]
    exact reported_start store settings
  | succ t ih =>
    -- in the same epoch no more is said than before, and what is said now
    have hwiden : (run (t + 1)).cache.epoch = (run t).cache.epoch →
        ∀ column regions, said run t column regions → said run (t + 1) column regions := by
      rintro hepoch column regions ⟨u, hu, he, hr⟩
      exact ⟨u, Nat.le_succ_of_le hu, he.trans hepoch.symm, hr⟩
    have hnow : ∀ column, said run t column ((run t).cache.columnRegions column) :=
      fun column => ⟨t, le_refl t, rfl, rfl⟩
    rcases h.acts t with he | ⟨n, s, makes, he⟩
    · have hcache : (run (t + 1)).cache = (run t).cache := by rw [he]
      rw [hcache]
      exact ih.mono (hwiden (by rw [he]))
    · have hcache : (run (t + 1)).cache = s.cache := by rw [he]; rfl
      have horder := h.orderly t
      rw [hcache]
      rcases ih.step horder.filed (horder.crews n) (h.sound hstore t) hnow makes with
        ⟨hepoch, hsame⟩ | ⟨-, hnone⟩
      · exact hsame.mono (hwiden (by rw [hcache]; exact hepoch))
      · exact hnone.mono fun _ _ => False.elim

/-- **What a query has found** is what the store said in the epoch it began in, or a later one. -/
theorem asked {m t : Nat} {p : Block} {regions : List Region}
    (hd : (run t).doing m = .asking p (some regions)) :
    ∃ u ≤ t, regions = (run u).cache.columnRegions p.column ∧
      ∀ b ≤ t, ((run b).doing m).AtRest → (run b).cache.epoch ≤ (run u).cache.epoch := by
  induction t with
  | zero =>
    rw [h.start] at hd
    cases hd
  | succ t ih =>
    -- nobody who asks is at rest
    have hlast : ∀ {u : Nat},
        (∀ b ≤ t, ((run b).doing m).AtRest → (run b).cache.epoch ≤ (run u).cache.epoch) →
        ∀ b ≤ t + 1, ((run b).doing m).AtRest → (run b).cache.epoch ≤ (run u).cache.epoch := by
      intro u hu b hb hrest
      rcases Nat.le_or_eq_of_le_succ hb with hb | rfl
      · exact hu b hb hrest
      · rw [hd] at hrest
        exact hrest.elim
    have hbefore : (run t).doing m = .asking p (some regions) → ∃ u ≤ t + 1,
        regions = (run u).cache.columnRegions p.column ∧
          ∀ b ≤ t + 1, ((run b).doing m).AtRest → (run b).cache.epoch ≤ (run u).cache.epoch := by
      intro hd
      obtain ⟨u, hu, hr, hb⟩ := ih hd
      exact ⟨u, Nat.le_succ_of_le hu, hr, hlast hb⟩
    rcases h.acts t with he | ⟨n, s, makes, he⟩
    · exact hbefore (he ▸ hd)
    · rw [he, doing_after] at hd
      split at hd
      · rename_i hm
        subst hm
        rcases makes.to_asking hd with hold | ⟨-, -, hfound⟩
        · exact hbefore hold
        · have hsheets := (h.orderly t).filed.resolved ((run t).cache.resolved p.column)
          obtain ⟨i, hi, hr⟩ := hsheets.2 regions hfound.symm
          obtain ⟨u, hu, hepoch, hsaid⟩ := (h.reported hstore t).loaded p.column i regions hi hr
          refine ⟨u, Nat.le_succ_of_le hu, hsaid, hlast fun b hb _ => ?_⟩
          rw [hepoch]
          exact h.epoch_mono hb
      · exact hbefore hd

end IsRun
end Crowd

open Crowd in
/-- **No answer is older than a write that was over.**  The answer to a query is that of the store at
some moment before the query ended, and that moment is after every change of the store by a write
that was over when the query began. -/
theorem answered_after_writes {σ : Type} [RegionStore σ] [ExactStore σ] {store : σ}
    {settings : Settings} {c : Cache σ} {run : Nat → Crowd σ} (hstore : ExactStore.Sound store)
    (hc : Cache.make store settings = .ok c) (h : IsRun c run) {m e : Nat} {p : Block}
    {found : Option (List Region)} {regions : List Region}
    (hasks : (run e).doing m = .asking p found)
    (hanswers : (run (e + 1)).doing m = .answered p regions) :
    ∃ t ≤ e, (run t).cache.Answers p regions ∧
      ∀ n w r b, Wrote run n w r → r ≤ b → b ≤ e → ((run b).doing m).AtRest → w < t := by
  obtain ⟨-, rfl⟩ := Cache.make_eq_ok hc
  have hanswer : regions = ((run e).cache.answer p found).1 := by
    rcases h.acts e with he | ⟨n, s, makes, he⟩
    · rw [he, hasks] at hanswers
      cases hanswers
    · rw [he, doing_after] at hanswers
      split at hanswers
      · rename_i hm
        subst hm
        rcases makes.to_answered hanswers with hold | ⟨found', hold, hr⟩
        · exact nomatch hasks.symm.trans hold
        · cases hasks.symm.trans hold
          exact hr
      · exact nomatch hasks.symm.trans hanswers
  cases hf : found with
  | none =>
    -- the store answered just now
    have hsound := h.sound hstore e
    refine ⟨e, le_refl e, ?_, fun n w r b hw hr hb _ => hw.later.trans_le (hr.trans hb)⟩
    rw [hanswer, hf, (Cache.answer_exact hsound p none nofun).1]
    exact Cache.answers_regionsOver hsound p
  | some contents =>
    obtain ⟨u, hu, hcontents, hepochs⟩ := h.asked hstore (hf ▸ hasks)
    have hsound := h.sound hstore u
    refine ⟨u, hu, ?_, fun n w r b hw hr hb hrest => ?_⟩
    · have hexact := Cache.answer_exact hsound p (some contents) fun rs hrs => by
        cases hrs
        exact hcontents
      have hsame : regions = ((run u).cache.answer p (some contents)).1 := by
        rw [hanswer, hf]
        rfl
      rw [hsame, hexact.1]
      exact Cache.answers_regionsOver hsound p
    · -- the epoch of the write came after it changed the store, and that of the sheet no earlier
      by_contra hle
      have hbefore : (run u).cache.epoch ≤ (run (w + 1)).cache.epoch := h.epoch_mono (by omega)
      have hwrite := h.epoch_lt hw.wrote hw.later hw.done
      have hbegan := h.epoch_mono hr
      have hsheet := hepochs b hb hrest
      omega

open Crowd in
theorem hourglass_answered_once_added : ∃ (run : Nat → Crowd Table) (w r t : Nat),
    IsRun (.ofSettings {} {}) run ∧ Wrote run 1 w r ∧
      (run (r + 1)).doing 0 = .asking ⟨0, 3, 1⟩ (some [.hourglass]) ∧
      w < t ∧ t ≤ r + 1 ∧ (run t).cache.Answers ⟨0, 3, 1⟩ [.hourglass] := by
  -- the first client has had the column surveyed while there was no region
  obtain ⟨s, hreach, hrest, hcache⟩ := Scene.leads_surveyed ({} : Table) ⟨0, 3, 1⟩
  obtain ⟨run₀, w, hrun₀, -, hs, -⟩ := (IsRun.still (.ofSettings ({} : Table) {})).goOn 0
    (steps_of_reach (s := { cache := .ofSettings ({} : Table) {} }) (n := 0) hreach)
  have hfirst : ((run₀ w).doing 0).AtRest := by rw [hs, doing_after]; exact hrest
  have hsecond : ((run₀ w).doing 1).AtRest := by rw [hs, doing_after]; trivial
  obtain ⟨run, r, hrun, hwrote, hasker, hsettled, hasks, hanswers⟩ :=
    hrun₀.write_then_ask (by decide) hsecond hfirst (.add .hourglass) ⟨0, 3, 1⟩
  have hfound : ((((Cache.surveyed ({} : Table) ⟨0, 3, 1⟩).modifyStore
      (Write.apply · (.add .hourglass))).renew.2.settle.resolve ⟨0, 0⟩).1 = some [.hourglass]) := by
    decide +kernel
  have hanswer : ((((Cache.surveyed ({} : Table) ⟨0, 3, 1⟩).modifyStore
      (Write.apply · (.add .hourglass))).renew.2.settle.regionsAt ⟨0, 3, 1⟩).1 = [.hourglass]) := by
    decide +kernel
  have hcache₀ : (run₀ w).cache = Cache.surveyed {} ⟨0, 3, 1⟩ := by rw [hs]; exact hcache
  rw [hcache₀] at hsettled
  rw [hsettled, show (Block.column ⟨0, 3, 1⟩) = ⟨0, 0⟩ by decide, hfound] at hasks
  rw [hsettled, hanswer] at hanswers
  have hmake : Cache.make ({} : Table) {} = .ok (Cache.ofSettings {} {}) := rfl
  obtain ⟨t, ht, htrue, hafter⟩ :=
    answered_after_writes Table.keyed_empty hmake hrun hasks hanswers
  exact ⟨run, w, r, t, hrun, hwrote, hasks,
    hafter 1 w r r hwrote (le_refl r) (Nat.le_succ r) hasker, ht, htrue⟩

end Precinct
