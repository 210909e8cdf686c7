import Mathlib
import Precinct.Proofs.Cache.Coverage

/-!
# A cache and its clients

Any number of clients use one cache, and each of them does one operation at a time.

* `Crowd σ`            a cache and what each client is in the middle of, or what it was last answered;
* `Crowd.Step`         one step: a client takes its own part in a `Scene`, or a worker goes on, or time
                       passes;
* `Crowd.IsRun`        what becomes of a crowd, moment by moment.  At any moment nothing may happen;
* `IsRun.goOn_step`, `IsRun.goOn_work`, `IsRun.goOn`  a run may go on in any way from any moment on;
* `Crowd.Orderly`      the invariant: pools and sheets are as they should be, and the pool that takes
                       new jobs takes them;
* `IsRun.epoch_mono`   epochs pass and do not come again;
* `IsRun.epoch_lt`     **while a write is going on an epoch begins**, and that is after the store was
                       changed.

The lock of a cache keeps other clients out while columns become known and surveys of them are
submitted.  Here they may come between, so every order of steps that can occur is one of these.
-/

namespace Precinct
open Relation (ReflTransGen)

/-- a cache and its clients, who are numbered -/
structure Crowd (σ : Type) where
  cache : Cache σ
  /-- what a client is in the middle of -/
  doing : Nat → Doing := fun _ => .nothing
  /-- the pools that a drain gave up on -/
  abandoned : List Nat := []
  /-- a survey was lost or a worker could not be started -/
  mishap : Bool := false
  /-- the system denied a worker -/
  denied : Bool := false

namespace Crowd
variable {σ : Type}

/-- the scene in which a client acts -/
def seenBy (s : Crowd σ) (n : Nat) : Scene σ :=
  ⟨s.cache, s.doing n, s.abandoned, s.mishap, s.denied⟩

/-- a client has acted, and its scene has become another one -/
def after (s : Crowd σ) (n : Nat) (t : Scene σ) : Crowd σ where
  cache := t.cache
  doing := Function.update s.doing n t.doing
  abandoned := t.abandoned
  mishap := t.mishap
  denied := t.denied

/-- one step of a client, of a worker, or of time -/
inductive Step [RegionStore σ] (s : Crowd σ) : Crowd σ → Prop
  | act (n : Nat) {t : Scene σ} (makes : Precinct.Step (s.seenBy n) t) : Step s (s.after n t)

/-- what becomes of a cache and its clients -/
structure IsRun [RegionStore σ] (c : Cache σ) (run : Nat → Crowd σ) : Prop where
  start : run 0 = { cache := c }
  next : ∀ t, run (t + 1) = run t ∨ Step (run t) (run (t + 1))

/-! ## what a client does by itself -/

theorem doing_after (s : Crowd σ) (n m : Nat) (t : Scene σ) :
    (s.after n t).doing m = if m = n then t.doing else s.doing m := Function.update_apply _ _ _ _

theorem seenBy_after (s : Crowd σ) (n : Nat) (t : Scene σ) : (s.after n t).seenBy n = t := by
  rw [seenBy, doing_after, if_pos rfl]
  rfl

theorem after_after (s : Crowd σ) (n : Nat) (t u : Scene σ) :
    (s.after n t).after n u = s.after n u := by
  rw [after, after, Function.update_idem]
  rfl

theorem after_seenBy (s : Crowd σ) (n : Nat) : s.after n (s.seenBy n) = s := by
  rw [after, seenBy, Function.update_eq_self]

variable [RegionStore σ]

theorem steps_of_reach {s : Crowd σ} {n : Nat} {t : Scene σ} (h : (s.seenBy n).Reach t) :
    ReflTransGen Step s (s.after n t) := by
  induction h with
  | refl =>
    rw [after_seenBy]
  | @tail t u _ hstep ih =>
    have hact := Step.act (s := s.after n t) n (by rw [seenBy_after]; exact hstep)
    rw [after_after] at hact
    exact ih.tail hact

/-- the clients have done nothing in between that is left to see -/
theorem steps_of_start {c c' : Cache σ} (h : (Scene.start c).Reach (.start c')) :
    ReflTransGen Step { cache := c } { cache := c' } := by
  have hsteps := steps_of_reach (s := { cache := c }) (n := 0) h
  rw [show (after { cache := c } 0 (.start c')) = { cache := c' } from
    after_seenBy { cache := c' } 0] at hsteps
  exact hsteps

/-! ## runs -/

namespace IsRun
variable {c : Cache σ} {run : Nat → Crowd σ}

theorem invariant {P : Crowd σ → Prop} (h : IsRun c run) (hstart : P { cache := c })
    (hstep : ∀ s s', P s → Step s s' → P s') (t : Nat) : P (run t) := by
  induction t with
  | zero =>
    rw [h.start]
    exact hstart
  | succ t ih =>
    rcases h.next t with he | hs
    · rw [he]
      exact ih
    · exact hstep _ _ ih hs

/-- at any moment nothing happens, or somebody acts -/
theorem acts (h : IsRun c run) (t : Nat) : run (t + 1) = run t ∨
    ∃ n s, Precinct.Step ((run t).seenBy n) s ∧ run (t + 1) = (run t).after n s := by
  refine (h.next t).imp id fun hs => ?_
  generalize run (t + 1) = s' at hs
  cases hs with
  | act n makes => exact ⟨n, _, makes, rfl⟩

theorem still (c : Cache σ) : IsRun c fun _ => { cache := c } := ⟨rfl, fun _ => Or.inl rfl⟩

/-- after any moment another step may come, and then nothing more -/
theorem goOn_step (h : IsRun c run) (t : Nat) {s : Crowd σ} (hs : Step (run t) s) :
    ∃ run' : Nat → Crowd σ, IsRun c run' ∧ run' (t + 1) = s ∧ ∀ u ≤ t, run' u = run u := by
  have hbefore : ∀ u ≤ t, (if u ≤ t then run u else s) = run u := fun u hu => if_pos hu
  have hafter : ∀ u > t, (if u ≤ t then run u else s) = s := fun u hu => if_neg (by omega)
  refine ⟨fun u => if u ≤ t then run u else s, ⟨?_, fun u => ?_⟩, hafter _ (by omega), hbefore⟩
  · exact (hbefore 0 (Nat.zero_le t)).trans h.start
  · rcases Nat.lt_trichotomy u t with hu | rfl | hu
    · rw [hbefore u hu.le, hbefore (u + 1) hu]
      exact h.next u
    · rw [hbefore u (le_refl u), hafter (u + 1) (by omega)]
      exact Or.inr hs
    · rw [hafter u hu, hafter (u + 1) (by omega)]
      exact Or.inl rfl

theorem goOn_work (h : IsRun c run) (t : Nat) {k n : Nat} {w : WorkerStep} {c' : Cache σ}
    (makes : (run t).cache.step? k n w = some c') :
    ∃ run' : Nat → Crowd σ, IsRun c run' ∧ (run' (t + 1)).cache = c' ∧ ∀ u ≤ t, run' u = run u := by
  obtain ⟨run', hrun, hlast, hsame⟩ := h.goOn_step t (.act 0 (.work makes))
  exact ⟨run', hrun, by rw [hlast]; rfl, hsame⟩

theorem goOn (h : IsRun c run) (t : Nat) {s : Crowd σ} (hs : ReflTransGen Step (run t) s) :
    ∃ (run' : Nat → Crowd σ) (t' : Nat), IsRun c run' ∧ t ≤ t' ∧ run' t' = s ∧
      ∀ u ≤ t, run' u = run u := by
  induction hs with
  | refl => exact ⟨run, t, h, le_refl t, rfl, fun _ _ => rfl⟩
  | @tail s s' _ hstep ih =>
    obtain ⟨run', t', hrun, hle, rfl, hsame⟩ := ih
    obtain ⟨run'', hrun', hlast, hsame'⟩ := hrun.goOn_step t' hstep
    exact ⟨run'', t' + 1, hrun', Nat.le_succ_of_le hle, hlast,
      fun u hu => (hsame' u (hu.trans hle)).trans (hsame u hu)⟩

end IsRun

/-! ## the invariant -/

/-- what holds of the pools and the sheets, whoever does what -/
structure Orderly (s : Crowd σ) : Prop where
  crews : ∀ n, Crews (s.seenBy n)
  filed : Filed s.cache
  /-- one pool takes the new jobs -/
  accepting : (s.cache.pool s.cache.current).accepting = true
  /-- it is none of those that are about to be closed -/
  swapped : ∀ n k, s.doing n = .swapped k → k < s.cache.pools.size ∧ k ≠ s.cache.current

end Crowd

section
variable {σ : Type} [RegionStore σ] {s s' : Scene σ}

/-- a pool is about to be closed once another one takes the new jobs -/
theorem Step.to_swapped (hs : Step s s') {k : Nat} (hd : s'.doing = .swapped k) :
    s.doing = .swapped k ∨ k = s.cache.current ∧ s'.cache.current = s.cache.pools.size := by
  cases hs with
  | swap rest =>
    cases hd
    exact Or.inr ⟨rfl, rfl⟩
  | closeGate => exact Or.inl hd
  | openGate => exact Or.inl hd
  | failNext => exact Or.inl hd
  | work makes => exact Or.inl hd
  | elapse ms => exact Or.inl hd
  | _ => cases hd

omit [RegionStore σ] in
theorem Cache.accepting_turn {c : Cache σ} (h : c.current < c.pools.size) :
    (c.turn.2.pool c.turn.2.current).accepting = true := by
  obtain ⟨now, hpool⟩ := c.pool_turn h c.turn.2.current
  rw [hpool, if_pos c.current_turn]

/-- **The pool that takes new jobs takes them** unless it is closed, or another one does. -/
theorem Step.accepting (hs : Step s s') (hc : Crews s)
    (h : (s.cache.pool s.cache.current).accepting = true)
    (hopen : ∀ k, s.doing = .swapped k → k ≠ s.cache.current) :
    (s'.cache.pool s'.cache.current).accepting = true := by
  have hpools : ∀ {d c : Cache σ}, (d.pool d.current).accepting = true → c.pools = d.pools →
      c.current = d.current → (c.pool c.current).accepting = true := by
    intro d c hd hp hcur
    rw [Cache.pool_congr hp, hcur]
    exact hd
  have hset : ∀ {p : Pool Survey}, p.accepting = true →
      ((s.cache.setPool s.cache.current p).pool s.cache.current).accepting = true := by
    intro p hp
    rw [Cache.pool_setPool, if_pos ⟨rfl, hc.current⟩]
    exact hp
  cases hs with
  | @renew known listed rest =>
    obtain ⟨-, -, -, hp, hcur, -⟩ := s.cache.turn.2.insertAllMissing_frame known
    exact hpools (Cache.accepting_turn hc.current) hp hcur
  | warm columns rest =>
    obtain ⟨-, -, -, hp, hcur, -⟩ := s.cache.insertAllMissing_frame columns
    exact hpools h hp hcur
  | dropAll rest => exact Cache.accepting_turn hc.current
  | @submit batch batches renewal denied p doing taken =>
    have hsub := Pool.submitted (s.cache.pool s.cache.current) ⟨s.cache.epoch, batch, .checking⟩ denied
    rw [taken] at hsub
    exact hset (hsub.frame.2.1.trans h)
  | @breakOff batch batches renewal p fault doing refused =>
    have hsub := Pool.submitted (s.cache.pool s.cache.current) ⟨s.cache.epoch, batch, .checking⟩ false
    rw [refused] at hsub
    exact hset (hsub.frame.2.1.trans h)
  | @scheduled renewal doing => cases renewal <;> exact h
  | ask p rest =>
    obtain ⟨-, -, -, -, -, hp, hcur, -⟩ := (s.cache.resolved p.column).frame
    exact hpools h hp hcur
  | @answer p found doing =>
    obtain ⟨-, -, -, -, hp, hcur, -⟩ := s.cache.answer_frame p found
    exact hpools h hp hcur
  | swap rest =>
    show (s.cache.freshPool.pool s.cache.pools.size).accepting = true
    rw [Cache.pool_freshPool, if_pos rfl]
  | @close k doing =>
    show ((s.cache.closePool k).pool s.cache.current).accepting = true
    rw [Cache.closePool, Cache.pool_setPool, if_neg fun he => hopen k doing he.1.symm]
    exact h
  | dismiss rest => exact Cache.accepting_turn hc.current
  | @dismissed pools stopped doing => cases stopped <;> exact h
  | @work k n w c makes =>
    have hwork := Cache.worked_of_step? makes
    show (c.pool c.current).accepting = true
    rw [hwork.frame.2.2.2.1]
    rcases hwork.pool s.cache.current with he | ha
    · rw [he]
      exact h
    · rw [(ha.frame (hc.sound _)).2.1]
      exact h
  | elapse ms =>
    rcases s.cache.pool_elapse ms s.cache.current with he | he
    · show ((s.cache.elapse ms).pool s.cache.current).accepting = true
      rw [he]
      exact h
    · show ((s.cache.elapse ms).pool s.cache.current).accepting = true
      rw [he, (Pool.elapse_frame _ (hc.sound _) ms).2.1]
      exact h
  | _ => exact h

end

namespace Crowd
variable {σ : Type} [RegionStore σ] {c : Cache σ} {run : Nat → Crowd σ}

omit [RegionStore σ] in
theorem crews_seenBy {s : Scene σ} (h : Crews s) {t : Crowd σ} (hcache : t.cache = s.cache)
    (hmishap : t.mishap = s.mishap) (n : Nat) : Crews (t.seenBy n) := by
  refine ⟨?_, ?_, ?_, ?_⟩
  · show ∀ k, (t.cache.pool k).Sound
    rw [hcache]
    exact h.sound
  · show ∀ k < t.cache.pools.size, (t.cache.pool k).settings = t.cache.settings.pool
    rw [hcache]
    exact h.settings
  · show t.mishap = false → ∀ k, (t.cache.pool k).Staffed
    rw [hcache, hmishap]
    exact h.staffed
  · show t.cache.current < t.cache.pools.size
    rw [hcache]
    exact h.current

/-- **Every step keeps order.** -/
theorem Orderly.step {s s' : Crowd σ} (h : s.Orderly) (hs : Step s s') : s'.Orderly := by
  cases hs with
  | @act n t makes =>
    have hcrews := h.crews n
    have hshape := makes.reshaped hcrews.current
    refine ⟨crews_seenBy (hcrews.step makes) rfl rfl, h.filed.step hcrews makes,
      makes.accepting hcrews h.accepting fun k hk => (h.swapped n k hk).2, fun m k hm => ?_⟩
    have hold : s.doing m = .swapped k →
        k < t.cache.pools.size ∧ k ≠ t.cache.current := by
      intro hk
      obtain ⟨hlt, hne⟩ := h.swapped m k hk
      refine ⟨hlt.trans_le hshape.size, ?_⟩
      rcases hshape.current with he | ⟨hge, -⟩
      · rw [he]
        exact hne
      · exact (hlt.trans_le hge).ne
    rw [doing_after] at hm
    split at hm
    · rename_i he
      rcases makes.to_swapped hm with hk | ⟨rfl, hcur⟩
      · exact hold (he ▸ hk)
      · refine ⟨hcrews.current.trans_le hshape.size, ?_⟩
        show s.cache.current ≠ t.cache.current
        rw [hcur]
        exact hcrews.current.ne
    · exact hold hm

omit [RegionStore σ] in
theorem orderly_start (store : σ) (settings : Settings) :
    Orderly { cache := Cache.ofSettings store settings } :=
  ⟨fun n => crews_seenBy (crews_start store settings) rfl rfl n, filed_start store settings, rfl,
    nofun⟩

theorem Step.epoch_le {s s' : Crowd σ} (h : s.Orderly) (hs : Step s s') :
    s.cache.epoch ≤ s'.cache.epoch := by
  cases hs with
  | act n makes => exact (makes.refiled (h.crews n)).epoch_le

/-- a client that writes goes on writing, or an epoch begins -/
theorem Step.of_writing {s s' : Crowd σ} (hs : Step s s') {n : Nat} (hd : s.doing n = .writing) :
    s'.doing n = .writing ∨ s.cache.epoch < s'.cache.epoch := by
  cases hs with
  | @act m t makes =>
    rw [doing_after]
    split
    · rename_i he
      refine (makes.of_writing (he ▸ hd)).imp id fun ⟨known, hrestart⟩ => ?_
      show s.cache.epoch < t.cache.epoch
      rw [hrestart, Cache.epoch_restart]
      exact Nat.lt_succ_self _
    · exact Or.inl hd

namespace IsRun

theorem orderly {store : σ} {settings : Settings} (h : IsRun (.ofSettings store settings) run)
    (t : Nat) : (run t).Orderly :=
  h.invariant (orderly_start store settings) (fun _ _ hs hstep => hs.step hstep) t

variable {store : σ} {settings : Settings} (h : IsRun (.ofSettings store settings) run)
include h

/-- **Epochs pass and do not come again.** -/
theorem epoch_mono {t u : Nat} (htu : t ≤ u) : (run t).cache.epoch ≤ (run u).cache.epoch := by
  refine monotone_nat_of_le_succ (f := fun t => (run t).cache.epoch) (fun t => ?_) htu
  rcases h.next t with he | hs
  · rw [he]
  · exact hs.epoch_le (h.orderly t)

/-- **A write that is over has brought an epoch**, after it changed the store. -/
theorem epoch_lt {n t r : Nat} (hd : (run t).doing n = .writing) (htr : t ≤ r)
    (hr : ((run r).doing n).AtRest) : (run t).cache.epoch < (run r).cache.epoch := by
  have hgoes : ∀ u, t ≤ u →
      (run u).doing n = .writing ∨ (run t).cache.epoch < (run u).cache.epoch := by
    intro u hu
    induction u, hu using Nat.le_induction with
    | base => exact Or.inl hd
    | succ u hu ih =>
      rcases ih with hwrites | hlt
      · rcases h.next u with he | hs
        · rw [he]
          exact Or.inl hwrites
        · exact (hs.of_writing hwrites).imp id (h.epoch_mono hu).trans_lt
      · exact Or.inr (hlt.trans_le (h.epoch_mono (Nat.le_succ u)))
  exact (hgoes r htr).resolve_left hr.ne_writing

end IsRun
end Crowd
end Precinct
