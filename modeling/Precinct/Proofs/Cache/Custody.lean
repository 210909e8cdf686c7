import Mathlib
import Precinct.Proofs.Cache.Crews

/-!
# Where the pools of a cache are kept

Every pool with a live worker is in somebody's hands: it takes the new jobs, or it is on the list of
dismissed pools, or the host waits for it, or a drain gave up on it.

* `Doing.pools`        the pools that the host waits for;
* `Kept`               in whose hands a pool is;
* `Custody`            the invariant; what a scene has to do with its pools;
* `Custody.of_frame`   steps that hand no pool on keep it;
* `Custody.turn`       a new epoch keeps it: the pool that took new jobs is cancelled and, if a
                       worker of it is live, dismissed;
* `custody_of_reach`   it holds in every scene that can be reached.

Pools in other hands than those of the cache itself are closed, they take no more jobs.  A dismissed
pool was cancelled, and so were those that are waited for one after the other; a pool that was
drained or abandoned was not.  This is what the answers of the two waits rest on.
-/

namespace Precinct

namespace Doing

/-- the pools that the host waits for, or is about to -/
def pools : Doing → List Nat
  | swapped k | draining k => [k]
  | dismissing pools _ _ => pools
  | nothing | writing | scheduling _ _ | asking _ _ | answered _ _ | drained _ | dismissed _ => []

/-- whether nobody has submitted a job since the present pool was started -/
def Fresh : Doing → Prop
  | swapped _ | draining _ | drained _ | dismissing _ _ _ | dismissed _ => True
  | nothing | writing | scheduling _ _ | asking _ _ | answered _ _ => False

/-- whether the list of dismissed pools was taken and nothing put back -/
def Taken : Doing → Prop
  | dismissing _ _ _ | dismissed true => True
  | _ => False

theorem Taken.fresh {d : Doing} (h : d.Taken) : d.Fresh := by
  cases d with
  | dismissing pools pending stopped => trivial
  | dismissed b => trivial
  | _ => exact h.elim

theorem pools_of_not_fresh {d : Doing} (h : ¬d.Fresh) : d.pools = [] := by
  cases d with
  | swapped k => exact absurd trivial h
  | draining k => exact absurd trivial h
  | dismissing pools pending stopped => exact absurd trivial h
  | _ => rfl

theorem AtRest.pools {d : Doing} (h : d.AtRest) : d.pools = [] := by
  cases d with
  | swapped k => exact h.elim
  | draining k => exact h.elim
  | dismissing pools pending stopped => exact h.elim
  | _ => rfl

theorem ne_swapped {d : Doing} (h : d.pools = []) (k : Nat) : d ≠ .swapped k := by
  rintro rfl
  cases h

end Doing

/-- in whose hands a pool is, if anybody works in it -/
inductive Kept {σ : Type} (s : Scene σ) (k : Nat) : Prop
  | current (here : k = s.cache.current)
  | dismissed (here : k ∈ s.cache.dismissed)
  | waited (here : k ∈ s.doing.pools)
  | abandoned (here : k ∈ s.abandoned)
  | empty (none : (s.cache.pool k).workers = [])

/-- what a scene has to do with its pools -/
structure Custody {σ : Type} (s : Scene σ) : Prop extends Crews s where
  /-- one pool takes the new jobs -/
  accepting : (s.cache.pool s.cache.current).accepting = true
  /-- the others take none -/
  closed : ∀ k < s.cache.pools.size, k ≠ s.cache.current → s.doing ≠ .swapped k →
    (s.cache.pool k).accepting = false
  kept : ∀ k < s.cache.pools.size, Kept s k
  waited : ∀ k ∈ s.doing.pools, k ≠ s.cache.current
  fresh : s.doing.Fresh → (s.cache.pool s.cache.current).jobs = []
  /-- dismissed pools were cancelled -/
  cancelled : ∀ k ∈ s.cache.dismissed, (s.cache.pool k).cancelled = true
  taken : s.doing.Taken → s.cache.dismissed = []
  stopping : ∀ pools pending stopped, s.doing = .dismissing pools pending stopped →
    ∀ k ∈ pools, (s.cache.pool k).cancelled = true ∧
      (stopped = true → k ∈ pending ∨ (s.cache.pool k).workers = [])

section
variable {σ : Type} {s s' : Scene σ} {c : Cache σ}

theorem Custody.not_cancelled (h : Custody s) :
    (s.cache.pool s.cache.current).cancelled = false := (h.sound _).not_cancelled h.accepting

/-! ## steps that hand no pool on -/

/-- pools that go on by themselves, or take a job, stay where they are -/
theorem Custody.of_frame (h : Custody s) (hcrews : Crews s')
    (hsize : s'.cache.pools.size = s.cache.pools.size)
    (hcurrent : s'.cache.current = s.cache.current)
    (hdismissed : s'.cache.dismissed = s.cache.dismissed)
    (habandoned : s'.abandoned = s.abandoned)
    (haccepting : ∀ k, (s'.cache.pool k).accepting = (s.cache.pool k).accepting)
    (hcancelled : ∀ k, (s'.cache.pool k).cancelled = (s.cache.pool k).cancelled)
    (hworkers : ∀ k ≠ s.cache.current,
      (s.cache.pool k).workers = [] → (s'.cache.pool k).workers = [])
    (hdoing : (s'.doing = s.doing ∧ ((s.cache.pool s.cache.current).jobs = [] →
        (s'.cache.pool s.cache.current).jobs = [])) ∨
      s.doing.pools = [] ∧ ¬s'.doing.Fresh) : Custody s' := by
  -- the host waits for the same pools as before
  have hpools : s'.doing.pools = s.doing.pools := by
    rcases hdoing with ⟨he, -⟩ | ⟨hnil, hfresh⟩
    · rw [he]
    · rw [hnil, Doing.pools_of_not_fresh hfresh]
  refine ⟨hcrews, ?_, ?_, ?_, ?_, ?_, ?_, ?_, ?_⟩
  · rw [hcurrent, haccepting]
    exact h.accepting
  · intro k hk hne hswap
    rw [haccepting]
    refine h.closed k (hsize ▸ hk) (hcurrent ▸ hne) fun he => ?_
    rcases hdoing with ⟨hd, -⟩ | ⟨hnil, -⟩
    · exact hswap (hd.trans he)
    · exact Doing.ne_swapped hnil k he
  · intro k hk
    by_cases hc : k = s.cache.current
    · exact .current (hc.trans hcurrent.symm)
    cases h.kept k (hsize ▸ hk) with
    | current here => exact absurd here hc
    | dismissed here => exact .dismissed (hdismissed ▸ here)
    | waited here => exact .waited (hpools ▸ here)
    | abandoned here => exact .abandoned (habandoned ▸ here)
    | empty none => exact .empty (hworkers k hc none)
  · intro k hk
    rw [hcurrent]
    exact h.waited k (hpools ▸ hk)
  · intro hf
    rw [hcurrent]
    rcases hdoing with ⟨hd, hjobs⟩ | ⟨-, hfresh⟩
    · exact hjobs (h.fresh (hd ▸ hf))
    · exact absurd hf hfresh
  · intro k hk
    rw [hcancelled]
    exact h.cancelled k (hdismissed ▸ hk)
  · intro ht
    rw [hdismissed]
    rcases hdoing with ⟨hd, -⟩ | ⟨-, hfresh⟩
    · exact h.taken (hd ▸ ht)
    · exact absurd ht.fresh hfresh
  · intro pools pending stopped hd k hk
    rcases hdoing with ⟨he, -⟩ | ⟨-, hfresh⟩
    · have hdoing := he ▸ hd
      obtain ⟨hc, hstop⟩ := h.stopping pools pending stopped hdoing k hk
      rw [hcancelled]
      refine ⟨hc, fun hs => (hstop hs).imp id (hworkers k ?_)⟩
      exact h.waited k (by rw [hdoing]; exact hk)
    · rw [hd] at hfresh
      exact absurd trivial hfresh

/-- pools that go on by themselves stay where they are -/
theorem Custody.advance (h : Custody s) (hcrews : Crews s')
    (hpool : ∀ k, s'.cache.pool k = s.cache.pool k ∨
      Pool.Advance (s.cache.pool k) (s'.cache.pool k))
    (hsize : s'.cache.pools.size = s.cache.pools.size)
    (hcurrent : s'.cache.current = s.cache.current)
    (hdismissed : s'.cache.dismissed = s.cache.dismissed)
    (habandoned : s'.abandoned = s.abandoned)
    (hdoing : s'.doing = s.doing ∨ s.doing.pools = [] ∧ ¬s'.doing.Fresh) : Custody s' := by
  refine h.of_frame hcrews hsize hcurrent hdismissed habandoned (fun k => ?_) (fun k => ?_)
    (fun k _ hk => ?_) (hdoing.imp_left fun hd => ⟨hd, fun hnil => ?_⟩)
  · rcases hpool k with he | ha
    · rw [he]
    · exact (ha.frame (h.sound k)).2.1
  · rcases hpool k with he | ha
    · rw [he]
    · exact (ha.frame (h.sound k)).2.2
  · rcases hpool k with he | ha
    · rw [he, hk]
    · exact ha.workers_nil (h.sound k) hk
  · rcases hpool s.cache.current with he | ha
    · rw [he, hnil]
    · exact ha.jobs_nil (h.sound _) hnil

theorem Custody.of_pools (h : Custody s) (hcrews : Crews s')
    (hpools : s'.cache.pools = s.cache.pools) (hcurrent : s'.cache.current = s.cache.current)
    (hdismissed : s'.cache.dismissed = s.cache.dismissed)
    (habandoned : s'.abandoned = s.abandoned)
    (hdoing : s'.doing = s.doing ∨ s.doing.pools = [] ∧ ¬s'.doing.Fresh) : Custody s' :=
  h.advance hcrews (fun k => Or.inl (Cache.pool_congr hpools k)) (congrArg Array.size hpools)
    hcurrent hdismissed habandoned hdoing

/-- a job was submitted, whatever came of it -/
theorem Custody.submitted {survey : Survey} {no : Bool} {outcome : Except Fault Unit}
    {p : Pool Survey} {d : Doing} {mishap denied : Bool} (h : Custody s) (hrest : s.doing.pools = []) (hd : ¬d.Fresh)
    (hcrews : Crews { s with
      cache := s.cache.setPool s.cache.current p, doing := d, mishap, denied })
    (hsubmit : Pool.Submitted (s.cache.pool s.cache.current) survey no outcome p) :
    Custody { s with cache := s.cache.setPool s.cache.current p, doing := d, mishap, denied } := by
  obtain ⟨-, hacc, hcan⟩ := hsubmit.frame
  refine h.of_frame hcrews (Cache.size_setPool _ _ _) rfl rfl rfl (fun k => ?_) (fun k => ?_)
    (fun k hk hnil => ?_) (Or.inr ⟨hrest, hd⟩)
  · show ((s.cache.setPool s.cache.current p).pool k).accepting = _
    rw [Cache.pool_setPool]
    split
    · rename_i hk
      rw [hacc, hk.1]
    · rfl
  · show ((s.cache.setPool s.cache.current p).pool k).cancelled = _
    rw [Cache.pool_setPool]
    split
    · rename_i hk
      rw [hcan, hk.1]
    · rfl
  · show ((s.cache.setPool s.cache.current p).pool k).workers = []
    rw [Cache.pool_setPool, if_neg fun he => hk he.1]
    exact hnil

/-! ## a new epoch -/

theorem Cache.jobs_turn (h : c.current < c.pools.size) :
    (c.turn.2.pool c.turn.2.current).jobs = [] := by
  obtain ⟨now, hpool⟩ := c.pool_turn h c.turn.2.current
  rw [hpool, if_pos c.current_turn]
  rfl

/-- cancelling a pool sends nobody away -/
theorem Cache.isLive_cancel (c : Cache σ) (k : Nat) :
    (c.setPool c.current (c.pool c.current).cancel.2).isLive k = c.isLive k := by
  have hlive : (c.pool c.current).cancel.2.live = (c.pool c.current).live := by
    unfold Pool.cancel
    split <;> rfl
  rw [Cache.isLive, Cache.pool_setPool, Cache.isLive]
  split
  · rename_i hk
    rw [hlive, hk.1]
  · rfl

/-- the pools that a new epoch dismisses or has dismissed already: those with a live worker -/
theorem Cache.mem_dismissed_turn {k : Nat} : k ∈ c.turn.2.dismissed ↔
    (k ∈ c.dismissed ∨ k = c.current) ∧ c.isLive k = true := by
  let stopped := c.setPool c.current (c.pool c.current).cancel.2
  have hlist : c.turn.2.dismissed = if stopped.isLive c.current
      then c.dismissed.filter stopped.isLive ++ [c.current]
      else c.dismissed.filter stopped.isLive := rfl
  rw [hlist, show stopped.isLive = c.isLive from funext c.isLive_cancel]
  split
  · rename_i hlive
    rw [List.mem_append, List.mem_filter, List.mem_singleton]
    constructor
    · rintro (⟨hk, hl⟩ | rfl)
      · exact ⟨Or.inl hk, hl⟩
      · exact ⟨Or.inr rfl, hlive⟩
    · rintro ⟨hk | hk, hl⟩
      · exact Or.inl ⟨hk, hl⟩
      · exact Or.inr hk
  · rename_i hlive
    rw [List.mem_filter]
    constructor
    · rintro ⟨hk, hl⟩
      exact ⟨Or.inl hk, hl⟩
    · rintro ⟨hk | rfl, hl⟩
      · exact ⟨hk, hl⟩
      · exact absurd hl hlive

/-- a new epoch brings nobody to a pool -/
theorem Cache.workers_turn {k : Nat} (h : c.current < c.pools.size)
    (hnil : (c.pool k).workers = []) : (c.turn.2.pool k).workers = [] := by
  obtain ⟨now, hpool⟩ := c.pool_turn h k
  rw [hpool]
  split
  · rfl
  · split
    · rename_i hk
      subst hk
      unfold Pool.cancel
      split
      · exact hnil
      · exact hnil
    · exact hnil

/-- **A new epoch keeps every pool in somebody's hands.** -/
theorem Custody.turn (h : Custody s) (hrest : s.doing.pools = []) :
    Custody { s with cache := s.cache.turn.2, doing := .nothing } := by
  have hsize : s.cache.turn.2.pools.size = s.cache.pools.size + 1 := s.cache.size_turn
  have hcurrent : s.cache.turn.2.current = s.cache.pools.size := s.cache.current_turn
  have hcancel := Pool.cancel_of_accepting h.accepting
  refine ⟨h.of_reshaped (Cache.reshaped_turn h.current) rfl id, ?_, ?_, ?_,
    fun k hk => absurd hk List.not_mem_nil, fun hf => hf.elim, ?_, fun ht => ht.elim,
    fun _ _ _ hd => nomatch hd⟩
  · show (s.cache.turn.2.pool s.cache.turn.2.current).accepting = true
    obtain ⟨now, hpool⟩ := s.cache.pool_turn h.current s.cache.turn.2.current
    rw [hpool, if_pos hcurrent]
  · intro k (hk : k < s.cache.turn.2.pools.size) (hne : k ≠ s.cache.turn.2.current) _
    show (s.cache.turn.2.pool k).accepting = false
    obtain ⟨now, hpool⟩ := s.cache.pool_turn h.current k
    rw [hpool, if_neg (hcurrent ▸ hne)]
    split
    · rw [hcancel]
    · rename_i hother
      exact h.closed k (by omega) hother (Doing.ne_swapped hrest k)
  · intro k (hk : k < s.cache.turn.2.pools.size)
    by_cases hc : k = s.cache.turn.2.current
    · exact .current hc
    -- dismissed pools without a live worker are forgotten
    cases hl : s.cache.isLive k with
    | false =>
      have hnil := (Cache.isLive_eq_false_iff (h.sound k)).mp hl
      exact .empty (Cache.workers_turn h.current hnil)
    | true =>
      cases h.kept k (by omega) with
      | current here => exact .dismissed (Cache.mem_dismissed_turn.mpr ⟨Or.inr here, hl⟩)
      | dismissed here => exact .dismissed (Cache.mem_dismissed_turn.mpr ⟨Or.inl here, hl⟩)
      | waited here => exact absurd (hrest ▸ here) List.not_mem_nil
      | abandoned here => exact .abandoned here
      | empty none => exact .empty (Cache.workers_turn h.current none)
  · intro k hk
    show (s.cache.turn.2.pool k).cancelled = true
    have hlt : k < s.cache.pools.size := Cache.lt_size_of_pool fun hdef => by
      have hl := (Cache.mem_dismissed_turn.mp hk).2
      rw [Cache.isLive, hdef] at hl
      cases hl
    obtain ⟨now, hpool⟩ := s.cache.pool_turn h.current k
    rw [hpool, if_neg (by omega)]
    split
    · rw [hcancel]
    · rename_i hother
      exact h.cancelled k ((Cache.mem_dismissed_turn.mp hk).1.resolve_right hother)

/-! ## steps of the host that hand a pool on -/

/-- a fresh pool takes new jobs, the one before is waited for -/
theorem Custody.swap (h : Custody s) (hrest : s.doing.pools = []) :
    Custody { s with cache := s.cache.freshPool, doing := .swapped s.cache.current } := by
  have hsize := Cache.size_freshPool s.cache
  have hnew : s.cache.freshPool.pool s.cache.pools.size =
      { settings := s.cache.settings.pool, now := s.cache.now } := by
    rw [Cache.pool_freshPool, if_pos rfl]
  have hold : ∀ k < s.cache.pools.size, s.cache.freshPool.pool k = s.cache.pool k := by
    intro k hk
    rw [Cache.pool_freshPool, if_neg hk.ne]
  refine ⟨h.of_reshaped (Cache.reshaped_freshPool _) rfl id, congrArg Pool.accepting hnew,
    ?_, ?_, ?_, fun _ => congrArg Pool.jobs hnew, ?_, fun ht => ht.elim,
    fun _ _ _ hd => nomatch hd⟩
  · intro k (hk : k < s.cache.freshPool.pools.size) (hne : k ≠ s.cache.pools.size) hswap
    show (s.cache.freshPool.pool k).accepting = false
    rw [hold k (by omega)]
    exact h.closed k (by omega) (fun he => hswap (congrArg Doing.swapped he.symm))
      (Doing.ne_swapped hrest k)
  · intro k (hk : k < s.cache.freshPool.pools.size)
    by_cases hc : k = s.cache.pools.size
    · exact .current hc
    cases h.kept k (by omega) with
    | current here => exact .waited (List.mem_singleton.mpr here)
    | dismissed here => exact .dismissed here
    | waited here => exact absurd (hrest ▸ here) List.not_mem_nil
    | abandoned here => exact .abandoned here
    | empty none => exact .empty ((congrArg Pool.workers (hold k (by omega))).trans none)
  · intro k hk
    rw [show k = s.cache.current from List.mem_singleton.mp hk]
    exact h.current.ne
  · intro k hk
    have hc := h.cancelled k hk
    have hlt : k < s.cache.pools.size := Cache.lt_size_of_pool fun hdef => by
      rw [hdef] at hc
      cases hc
    exact (congrArg Pool.cancelled (hold k hlt)).trans hc

theorem Custody.close {k : Nat} (h : Custody s) (hdoing : s.doing = .swapped k) :
    Custody { s with cache := s.cache.closePool k, doing := .draining k } := by
  have hsize : (s.cache.closePool k).pools.size = s.cache.pools.size :=
    Cache.size_setPool _ _ _
  have hne : k ≠ s.cache.current :=
    h.waited k (by rw [hdoing]; exact List.mem_singleton_self k)
  have hold : ∀ j ≠ k, (s.cache.closePool k).pool j = s.cache.pool j := by
    intro j hj
    rw [Cache.closePool, Cache.pool_setPool, if_neg fun he => hj he.1]
  have hclosed : ∀ hk : k < s.cache.pools.size,
      (s.cache.closePool k).pool k = (s.cache.pool k).close := by
    intro hk
    rw [Cache.closePool, Cache.pool_setPool, if_pos ⟨rfl, hk⟩]
  refine ⟨h.of_reshaped (Cache.reshaped_setPool .close) rfl id, ?_, ?_, ?_, ?_, ?_, ?_,
    fun ht => ht.elim, fun _ _ _ hd => nomatch hd⟩
  · exact (congrArg Pool.accepting (hold _ hne.symm)).trans h.accepting
  · intro j (hj : j < (s.cache.closePool k).pools.size) hjc _
    show ((s.cache.closePool k).pool j).accepting = false
    by_cases hjk : j = k
    · subst hjk
      rw [hclosed (by omega)]
      rfl
    · rw [hold j hjk]
      refine h.closed j (by omega) hjc fun he => ?_
      rw [hdoing] at he
      cases he
      exact hjk rfl
  · intro j (hj : j < (s.cache.closePool k).pools.size)
    by_cases hjk : j = k
    · exact .waited (List.mem_singleton.mpr hjk)
    cases h.kept j (by omega) with
    | current here => exact .current here
    | dismissed here => exact .dismissed here
    | waited here =>
      rw [hdoing] at here
      exact absurd (List.mem_singleton.mp here) hjk
    | abandoned here => exact .abandoned here
    | empty none => exact .empty ((congrArg Pool.workers (hold j hjk)).trans none)
  · intro j hj
    rw [show j = k from List.mem_singleton.mp hj]
    exact hne
  · intro _
    exact (congrArg Pool.jobs (hold _ hne.symm)).trans (h.fresh (by rw [hdoing]; trivial))
  · intro j hj
    show ((s.cache.closePool k).pool j).cancelled = true
    by_cases hjk : j = k
    · subst hjk
      have hc := h.cancelled j hj
      have hlt : j < s.cache.pools.size := Cache.lt_size_of_pool fun hdef => by
        rw [hdef] at hc
        cases hc
      rw [hclosed hlt]
      exact hc
    · rw [hold j hjk]
      exact h.cancelled j hj

/-- the host stops waiting for a pool; if a worker of it is live the pool is abandoned -/
theorem Custody.drained {k : Nat} (h : Custody s) (hdoing : s.doing = .draining k) :
    Custody { s with
      doing := .drained (!s.cache.isLive k)
      abandoned := if s.cache.isLive k then k :: s.abandoned else s.abandoned } := by
  refine ⟨⟨h.sound, h.settings, h.staffed, h.current⟩, h.accepting,
    fun j hj hne _ => h.closed j hj hne (by rw [hdoing]; nofun), ?_,
    fun j hj => absurd hj List.not_mem_nil, fun _ => h.fresh (by rw [hdoing]; trivial), h.cancelled,
    fun ht => ht.elim, fun _ _ _ hd => nomatch hd⟩
  intro j hj
  cases h.kept j hj with
  | current here => exact .current here
  | dismissed here => exact .dismissed here
  | waited here =>
    rw [hdoing] at here
    have he : j = k := List.mem_singleton.mp here
    subst he
    cases hl : s.cache.isLive j with
    | true => exact .abandoned List.mem_cons_self
    | false => exact .empty ((Cache.isLive_eq_false_iff (h.sound j)).mp hl)
  | abandoned here =>
    refine .abandoned ?_
    show j ∈ if s.cache.isLive k then k :: s.abandoned else s.abandoned
    split
    · exact List.mem_cons_of_mem k here
    · exact here
  | empty none => exact .empty none

/-- the list of dismissed pools is taken, all of them are to be waited for -/
theorem Custody.dismiss (h : Custody s) (hrest : s.doing.pools = []) :
    Custody { s with
      cache := s.cache.turn.2.takeDismissed.2
      doing := .dismissing s.cache.turn.2.dismissed s.cache.turn.2.dismissed true } := by
  have ht := h.turn hrest
  refine ⟨⟨ht.sound, ht.settings, ht.staffed, ht.current⟩, ht.accepting,
    fun j hj hne _ => ht.closed j hj hne nofun, ?_, ?_, fun _ => Cache.jobs_turn h.current,
    fun j hj => absurd hj List.not_mem_nil, fun _ => rfl, ?_⟩
  · intro j hj
    cases ht.kept j hj with
    | current here => exact .current here
    | dismissed here => exact .waited here
    | waited here => exact absurd here List.not_mem_nil
    | abandoned here => exact .abandoned here
    | empty none => exact .empty none
  · rintro j hj rfl
    have hc : (s.cache.turn.2.pool s.cache.turn.2.current).cancelled = true := ht.cancelled _ hj
    rw [show (s.cache.turn.2.pool s.cache.turn.2.current).cancelled = false from
      ht.not_cancelled] at hc
    cases hc
  · intro pools pending stopped hd j hj
    cases hd
    exact ⟨ht.cancelled j hj, fun _ => Or.inl hj⟩

theorem Custody.observe {pools pending : List Nat} {k : Nat} {stopped : Bool} (h : Custody s)
    (hdoing : s.doing = .dismissing pools (k :: pending) stopped) :
    Custody { s with doing := .dismissing pools pending (stopped && !s.cache.isLive k) } := by
  have hfresh : s.doing.Fresh := by rw [hdoing]; trivial
  have htaken : s.doing.Taken := by rw [hdoing]; trivial
  have hpools : s.doing.pools = pools := by rw [hdoing]; rfl
  refine ⟨⟨h.sound, h.settings, h.staffed, h.current⟩, h.accepting,
    fun j hj hne _ => h.closed j hj hne (by rw [hdoing]; nofun), ?_, fun j hj => h.waited j (hpools ▸ hj),
    fun _ => h.fresh hfresh, h.cancelled, fun _ => h.taken htaken, ?_⟩
  · intro j hj
    cases h.kept j hj with
    | current here => exact .current here
    | dismissed here => exact .dismissed here
    | waited here => exact .waited (hpools ▸ here)
    | abandoned here => exact .abandoned here
    | empty none => exact .empty none
  · intro pools' pending' stopped' hd j hj
    cases hd
    obtain ⟨hc, hstop⟩ := h.stopping _ _ _ hdoing j hj
    refine ⟨hc, fun hs => ?_⟩
    rw [Bool.and_eq_true, Bool.not_eq_true'] at hs
    rcases hstop hs.1 with hmem | hn
    · rcases List.mem_cons.mp hmem with rfl | hmem
      · exact Or.inr ((Cache.isLive_eq_false_iff (h.sound j)).mp hs.2)
      · exact Or.inl hmem
    · exact Or.inr hn

/-- the wait for dismissed pools is over, and all have stopped -/
theorem Custody.dismissed_of_stopped {pools : List Nat} (h : Custody s)
    (hdoing : s.doing = .dismissing pools [] true) :
    Custody { s with doing := .dismissed true } := by
  have hfresh : s.doing.Fresh := by rw [hdoing]; trivial
  have htaken : s.cache.dismissed = [] := h.taken (by rw [hdoing]; trivial)
  refine ⟨⟨h.sound, h.settings, h.staffed, h.current⟩, h.accepting,
    fun j hj hne _ => h.closed j hj hne (by rw [hdoing]; nofun), ?_, fun j hj => absurd hj List.not_mem_nil,
    fun _ => h.fresh hfresh, h.cancelled, fun _ => htaken, fun _ _ _ hd => nomatch hd⟩
  intro j hj
  cases h.kept j hj with
  | current here => exact .current here
  | dismissed here => exact .dismissed here
  | waited here =>
    rw [hdoing] at here
    have hstop := (h.stopping _ _ _ hdoing j here).2 rfl
    exact .empty (hstop.resolve_left List.not_mem_nil)
  | abandoned here => exact .abandoned here
  | empty none => exact .empty none

/-- the wait is over, and the pools with a live worker are put back on the list -/
theorem Custody.dismissed_of_giveBack {pools : List Nat} (h : Custody s)
    (hdoing : s.doing = .dismissing pools [] false) :
    Custody { s with cache := s.cache.giveBack pools, doing := .dismissed false } := by
  have hfresh : s.doing.Fresh := by rw [hdoing]; trivial
  have htaken : s.cache.dismissed = [] := h.taken (by rw [hdoing]; trivial)
  have hlist : (s.cache.giveBack pools).dismissed = pools.filter s.cache.isLive := by
    show s.cache.dismissed ++ pools.filter s.cache.isLive = _
    rw [htaken, List.nil_append]
  refine ⟨⟨h.sound, h.settings, h.staffed, h.current⟩, h.accepting,
    fun j hj hne _ => h.closed j hj hne (by rw [hdoing]; nofun), ?_, fun j hj => absurd hj List.not_mem_nil,
    fun _ => h.fresh hfresh, ?_, fun ht => ht.elim, fun _ _ _ hd => nomatch hd⟩
  · intro j hj
    cases h.kept j hj with
    | current here => exact .current here
    | dismissed here => exact absurd (htaken ▸ here) List.not_mem_nil
    | waited here =>
      rw [hdoing] at here
      cases hl : s.cache.isLive j with
      | true => exact .dismissed (hlist ▸ List.mem_filter.mpr ⟨here, hl⟩)
      | false => exact .empty ((Cache.isLive_eq_false_iff (h.sound j)).mp hl)
    | abandoned here => exact .abandoned here
    | empty none => exact .empty none
  · intro j (hj : j ∈ (s.cache.giveBack pools).dismissed)
    rw [hlist] at hj
    exact (h.stopping _ _ _ hdoing j (List.mem_filter.mp hj).1).1

/-! ## every step -/

variable [RegionStore σ]

/-- **Every step keeps every pool in somebody's hands.** -/
theorem Custody.step (h : Custody s) (hs : Step s s') : Custody s' := by
  have hcrews := h.toCrews.step hs
  cases hs with
  | write w rest => exact h.of_pools hcrews rfl rfl rfl rfl (Or.inr ⟨rest.pools, id⟩)
  | chore t rest => exact h.of_pools hcrews rfl rfl rfl rfl (Or.inr ⟨rest.pools, id⟩)
  | @renew known listed rest =>
    have hpools : s.doing.pools = [] := by
      rcases rest with rest | he
      · exact rest.pools
      · rw [he]
        rfl
    obtain ⟨-, -, -, hp, hc, -, hd⟩ := s.cache.turn.2.insertAllMissing_frame known
    have hturn := h.turn hpools
    exact hturn.of_pools hcrews hp hc hd rfl (Or.inr ⟨rfl, id⟩)
  | warm columns rest =>
    obtain ⟨-, -, -, hp, hc, -, hd⟩ := s.cache.insertAllMissing_frame columns
    exact h.of_pools hcrews hp hc hd rfl (Or.inr ⟨rest.pools, id⟩)
  | drop column rest => exact h.of_pools hcrews rfl rfl rfl rfl (Or.inr ⟨rest.pools, id⟩)
  | dropAll rest => exact h.turn rest.pools
  | @submit batch batches renewal denied p doing taken =>
    have hsub := Pool.submitted (s.cache.pool s.cache.current) ⟨s.cache.epoch, batch, .checking⟩ denied
    rw [taken] at hsub
    exact h.submitted (by rw [doing]; rfl) id hcrews hsub
  | @breakOff batch batches renewal p fault doing refused =>
    have hsub := Pool.submitted (s.cache.pool s.cache.current) ⟨s.cache.epoch, batch, .checking⟩ false
    rw [refused] at hsub
    exact h.submitted (by rw [doing]; rfl) id hcrews hsub
  | @scheduled renewal doing =>
    have hnil : s.doing.pools = [] := by rw [doing]; rfl
    cases renewal <;> exact h.of_pools hcrews rfl rfl rfl rfl (Or.inr ⟨hnil, id⟩)
  | ask p rest =>
    obtain ⟨-, -, -, -, -, hp, hc, hd⟩ := (s.cache.resolved p.column).frame
    exact h.of_pools hcrews hp hc hd rfl (Or.inr ⟨rest.pools, id⟩)
  | @answer p found doing =>
    have hnil : s.doing.pools = [] := by rw [doing]; rfl
    obtain ⟨-, -, -, -, hp, hc, -, hd⟩ := s.cache.answer_frame p found
    exact h.of_pools hcrews hp hc hd rfl (Or.inr ⟨hnil, id⟩)
  | overlap r rest => exact h.of_pools hcrews rfl rfl rfl rfl (Or.inr ⟨rest.pools, id⟩)
  | consult p rest => exact h.of_pools hcrews rfl rfl rfl rfl (Or.inr ⟨rest.pools, id⟩)
  | swap rest => exact h.swap rest.pools
  | close doing => exact h.close doing
  | drained doing => exact h.drained doing
  | dismiss rest => exact h.dismiss rest.pools
  | observe doing => exact h.observe doing
  | @dismissed pools stopped doing =>
    cases stopped with
    | true => exact h.dismissed_of_stopped doing
    | false => exact h.dismissed_of_giveBack doing
  | closeGate => exact h.of_pools hcrews rfl rfl rfl rfl (Or.inl rfl)
  | openGate => exact h.of_pools hcrews rfl rfl rfl rfl (Or.inl rfl)
  | failNext => exact h.of_pools hcrews rfl rfl rfl rfl (Or.inl rfl)
  | work makes =>
    have hwork := Cache.worked_of_step? makes
    obtain ⟨-, -, -, hc, -, hd, hsize⟩ := hwork.frame
    exact h.advance hcrews hwork.pool hsize hc hd rfl (Or.inl rfl)
  | elapse ms =>
    refine h.advance hcrews (fun k => ?_) (s.cache.size_elapse ms) rfl rfl rfl (Or.inl rfl)
    rcases s.cache.pool_elapse ms k with he | he
    · exact Or.inl he
    · exact Or.inr (he.symm ▸ .elapse ms)

omit [RegionStore σ] in
theorem custody_start (store : σ) (settings : Settings) :
    Custody (Scene.start (Cache.ofSettings store settings)) := by
  have hzero : ∀ k < (Cache.ofSettings store settings).pools.size, k = 0 := fun k hk =>
    Nat.lt_one_iff.mp hk
  exact ⟨crews_start store settings, rfl, fun k hk hne _ => absurd (hzero k hk) hne,
    fun k hk => .current (hzero k hk), fun k hk => absurd hk List.not_mem_nil, fun hf => hf.elim,
    fun k hk => absurd hk List.not_mem_nil, fun ht => ht.elim, fun _ _ _ hd => nomatch hd⟩

theorem custody_of_reach {store : σ} {settings : Settings}
    (hs : Scene.Reach (.start (Cache.ofSettings store settings)) s) : Custody s :=
  hs.invariant (fun _ _ h hstep => h.step hstep) (custody_start store settings)

end
end Precinct
