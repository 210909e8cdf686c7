import Mathlib
import Precinct.Proofs.Cache.Crowd
import Precinct.Proofs.Cache.Idle
import Precinct.Proofs.Cache.Prompt

/-!
# Queries and renewals are counted

* `Crowd.begun`        how many operations of a kind clients have begun before a moment;
* `Crowd.engaged`      how many of them are in the middle of something;
* `Scene.Tallied`      what a step is to the counts of queries and renewals (`Step.tallied`): it says
                       everything there is to say about them, so that each count is one case for each
                       way in which it may change;
* `IsRun.account`      **a count and what is under way add up to what was begun**, if they do so in
                       every step;
* `IsRun.queries`, `IsRun.forwarded`, `IsRun.renewals`  so it is of the queries, of those that reached
                       the store, and of the renewals.

Only one client begins something at one moment, so such moments are counted.  A query that a sheet
answers is counted when the column is looked up, one that the store answers when it is answered, and a
renewal when its last batch was submitted.
-/

namespace Precinct

namespace Doing

/-- whether a query is left to the store, which has not answered yet -/
def isUnanswered : Doing → Bool
  | asking _ none => true
  | asking _ (some _) | nothing | writing | scheduling _ _ | answered _ _ | swapped _ | draining _
  | drained _ | dismissing _ _ _ | dismissed _ => false

/-- whether the cache is being renewed, or about to be -/
def isRenewing : Doing → Bool
  | writing | scheduling _ true => true
  | scheduling _ false | nothing | asking _ _ | answered _ _ | swapped _ | draining _ | drained _
  | dismissing _ _ _ | dismissed _ => false

theorem AtRest.isUnanswered {d : Doing} (h : d.AtRest) : d.isUnanswered = false := by
  cases d with
  | asking p found => exact h.elim
  | _ => rfl

theorem AtRest.isRenewing {d : Doing} (h : d.AtRest) : d.isRenewing = false := by
  cases d with
  | writing => exact h.elim
  | scheduling batches renewal => exact h.elim
  | _ => rfl

end Doing

namespace Deed

/-- whether it is a query for a block -/
def asks : Deed → Bool
  | ask _ => true
  | write _ | chore _ | renew | warm _ | drop _ | dropAll | dropAllAndWait | overlap _ | consult _
  | await => false

/-- whether the store is queried for a block, past the cache -/
def consults : Deed → Bool
  | consult _ => true
  | write _ | chore _ | renew | warm _ | drop _ | dropAll | dropAllAndWait | ask _ | overlap _
  | await => false

/-- whether the cache is renewed -/
def renews : Deed → Bool
  | write _ | renew => true
  | chore _ | warm _ | drop _ | dropAll | dropAllAndWait | ask _ | overlap _ | consult _
  | await => false

end Deed

/-! ## one step -/

section
variable {σ : Type} [RegionStore σ] {s s' : Scene σ}

/-- what a step is to the counts of queries and renewals -/
inductive Scene.Tallied (s : Scene σ) : Scene σ → Prop
  | begun (d : Deed) {known : List Column} (rest : s.doing.AtRest)
      (listed : known.Perm s.cache.columns.keys)
      (counted : d.asks = true ∨ d.consults = true ∨ d.renews = true) : Tallied s (d.begin s known)
  | answered {p : Block} (doing : s.doing = .asking p none) :
      Tallied s { s with
        cache := (s.cache.fallBack p).2
        doing := .answered p (s.cache.answer p none).1 }
  | renewed (doing : s.doing = .scheduling [] true) :
      Tallied s { s with cache := s.cache.submitted true, doing := .nothing }
  | brokeOff {batch : List Column} {batches : List (List Column)} {renewal : Bool} {s' : Scene σ}
      (before : s.doing = .scheduling (batch :: batches) renewal) (after : s'.doing = .nothing)
      (counters : s'.cache.counters = s.cache.counters)
      (calls : s'.cache.store.containingCalls = s.cache.store.containingCalls) : Tallied s s'
  | other {s' : Scene σ} (queries : s'.cache.counters.queries = s.cache.counters.queries)
      (fallbacks : s'.cache.counters.storeFallbacks = s.cache.counters.storeFallbacks)
      (rebuilds : s'.cache.counters.rebuilds = s.cache.counters.rebuilds)
      (calls : s'.cache.store.containingCalls = s.cache.store.containingCalls)
      (unanswered : s'.doing.isUnanswered = s.doing.isUnanswered)
      (renewing : s'.doing.isRenewing = s.doing.isRenewing) : Tallied s s'

namespace Cache
variable {c c' : Cache σ} {k n : Nat} {v : Survey} {r : SurveyResult}

/-- the background work counts no queries and no renewals -/
theorem Surveyed.tallied (h : Surveyed c k n v r c') :
    c'.counters.queries = c.counters.queries ∧
      c'.counters.storeFallbacks = c.counters.storeFallbacks ∧
      c'.counters.rebuilds = c.counters.rebuilds ∧
      c'.store.containingCalls = c.store.containingCalls := by
  have halone := h.leftAlone
  rw [← halone.counters]
  exact ⟨rfl, rfl, rfl, halone.containingCalls⟩

theorem containingCalls_intersecting (c : Cache σ) (r : Region) :
    (c.intersecting r).2.store.containingCalls = c.store.containingCalls := by
  unfold intersecting
  dsimp only
  exact Watched.containingCalls_collect (w := c.store.enter .owner) (Prod.mk.eta).symm

end Cache

/-- **What a step is to the counts of queries and renewals.** -/
theorem Step.tallied (hs : Step s s') : s.Tallied s' := by
  have hother : ∀ {s' : Scene σ}, s'.cache.counters = s.cache.counters →
      s'.cache.store.containingCalls = s.cache.store.containingCalls →
      s'.doing.isUnanswered = s.doing.isUnanswered →
      s'.doing.isRenewing = s.doing.isRenewing → s.Tallied s' := by
    intro s' hcounters hcalls hunanswered hrenewing
    exact .other (by rw [hcounters]) (by rw [hcounters]) (by rw [hcounters]) hcalls hunanswered
      hrenewing
  have hbegins : ∀ {s' : Scene σ}, s.doing.AtRest → s'.cache.counters = s.cache.counters →
      s'.cache.store.containingCalls = s.cache.store.containingCalls →
      s'.doing.isUnanswered = false → s'.doing.isRenewing = false → s.Tallied s' := by
    intro s' rest hcounters hcalls hunanswered hrenewing
    exact hother hcounters hcalls (hunanswered.trans rest.isUnanswered.symm)
      (hrenewing.trans rest.isRenewing.symm)
  cases hs with
  | write w rest => exact .begun (.write w) rest (.refl _) (Or.inr (Or.inr rfl))
  | chore t rest => exact hbegins rest rfl rfl rfl rfl
  | @renew known listed rest =>
    rcases rest with rest | doing
    · exact .begun .renew rest listed (Or.inr (Or.inr rfl))
    · obtain ⟨hstore, -⟩ := s.cache.turn.2.insertAllMissing_frame known
      refine hother (s.cache.turn.2.counters_insertAllMissing _) ?_ ?_ ?_
      · exact congrArg Watched.containingCalls hstore
      · rw [doing]
        rfl
      · rw [doing]
        rfl
  | warm columns rest =>
    obtain ⟨hstore, -⟩ := s.cache.insertAllMissing_frame columns
    exact hbegins rest (s.cache.counters_insertAllMissing columns)
      (congrArg Watched.containingCalls hstore) rfl rfl
  | drop column rest => exact hbegins rest rfl rfl rfl rfl
  | dropAll rest => exact hbegins rest rfl rfl rfl rfl
  | @submit batch batches renewal denied p doing taken =>
    exact hother rfl rfl (by rw [doing]; rfl) (by rw [doing]; cases renewal <;> rfl)
  | breakOff doing refused => exact .brokeOff doing rfl rfl rfl
  | @scheduled renewal doing =>
    cases renewal with
    | true => exact .renewed doing
    | false =>
      exact hother rfl rfl (by rw [doing]; rfl) (by rw [doing]; rfl)
  | ask p rest => exact .begun (.ask p) rest (.refl _) (Or.inl rfl)
  | @answer p found doing =>
    cases found with
    | none => exact .answered doing
    | some regions =>
      exact hother rfl rfl (by rw [doing]; rfl) (by rw [doing]; rfl)
  | overlap r rest => exact hbegins rest rfl (s.cache.containingCalls_intersecting r) rfl rfl
  | consult p rest => exact .begun (.consult p) rest (.refl _) (Or.inr (Or.inl rfl))
  | swap rest => exact hbegins rest rfl rfl rfl rfl
  | close doing =>
    exact hother rfl rfl (by rw [doing]; rfl) (by rw [doing]; rfl)
  | drained doing =>
    exact hother rfl rfl (by rw [doing]; rfl) (by rw [doing]; rfl)
  | dismiss rest => exact hbegins rest rfl rfl rfl rfl
  | observe doing =>
    exact hother rfl rfl (by rw [doing]; rfl) (by rw [doing]; rfl)
  | @dismissed pools stopped doing =>
    exact hother (by cases stopped <;> rfl) (by cases stopped <;> rfl) (by rw [doing]; rfl)
      (by rw [doing]; rfl)
  | closeGate => exact hother rfl rfl rfl rfl
  | openGate => exact hother rfl rfl rfl rfl
  | failNext => exact hother rfl rfl rfl rfl
  | work makes =>
    rcases (Cache.worked_of_step? makes).cases with ⟨m, p, -, rfl⟩ | ⟨v, r, d, -, hdoes, rfl⟩
    · exact hother rfl rfl rfl rfl
    · obtain ⟨hqueries, hfallbacks, hrebuilds, hcalls⟩ := hdoes.tallied
      exact .other hqueries hfallbacks hrebuilds hcalls rfl rfl
  | elapse ms => exact hother rfl rfl rfl rfl

end

/-! ## clients -/

namespace Crowd
variable {σ : Type}

/-- how many clients are in the middle of something -/
noncomputable def engaged (f : Doing → Bool) (s : Crowd σ) : Nat := {n | f (s.doing n) = true}.ncard

theorem finite_after {s : Crowd σ} (h : {n | s.doing n ≠ .nothing}.Finite) (n : Nat) (t : Scene σ) :
    {m | (s.after n t).doing m ≠ .nothing}.Finite := by
  refine (h.insert n).subset fun m hm => ?_
  rw [Set.mem_ofPred_eq, doing_after] at hm
  split at hm
  · rename_i he
    exact Or.inl he
  · exact Or.inr hm

theorem finite_engaged {f : Doing → Bool} (hf : f .nothing = false) {s : Crowd σ}
    (h : {n | s.doing n ≠ .nothing}.Finite) : {n | f (s.doing n) = true}.Finite := by
  refine h.subset fun n hn he => ?_
  rw [Set.mem_ofPred_eq, he, hf] at hn
  cases hn

theorem engaged_after {f : Doing → Bool} {s : Crowd σ} (h : {n | f (s.doing n) = true}.Finite)
    (n : Nat) (t : Scene σ) :
    (s.after n t).engaged f + (f (s.doing n)).toNat = s.engaged f + (f t.doing).toNat := by
  have hset : {m | f ((s.after n t).doing m) = true} =
      if f t.doing = true then insert n {m | f (s.doing m) = true}
      else {m | f (s.doing m) = true} \ {n} := by
    ext m
    rw [Set.mem_ofPred_eq, doing_after]
    by_cases hm : m = n
    · cases ht : f t.doing <;> simp [hm, ht]
    · cases ht : f t.doing <;> simp [hm]
  rw [engaged, engaged, hset]
  cases hn : f (s.doing n) <;> cases ht : f t.doing
  · rw [if_neg Bool.false_ne_true, Set.sdiff_singleton_eq_self (by simp [hn])]
  · rw [if_pos rfl, Set.ncard_insert_of_notMem (by simp [hn]) h]
    rfl
  · rw [if_neg Bool.false_ne_true]
    exact Set.ncard_sdiff_singleton_add_one hn h
  · have hmem : n ∈ {m | f (s.doing m) = true} := hn
    rw [if_pos rfl, Set.insert_eq_of_mem hmem]

theorem engaged_eq_zero {f : Doing → Bool} {s : Crowd σ} (h : ∀ n, f (s.doing n) = false) :
    s.engaged f = 0 := by
  simp [engaged, h]

/-- at a moment a client cannot schedule what is to be surveyed, and its operation breaks off -/
def BreaksOff (run : Nat → Crowd σ) (t : Nat) : Prop :=
  ∃ n batch batches renewal, (run t).doing n = .scheduling (batch :: batches) renewal ∧
    (run (t + 1)).doing n = .nothing

variable [RegionStore σ]

/-- at a moment a client begins an operation of a kind -/
def Begins (kind : Deed → Bool) (run : Nat → Crowd σ) (t : Nat) : Prop :=
  ∃ (n : Nat) (d : Deed) (known : List Column), kind d = true ∧ ((run t).doing n).AtRest ∧
    known.Perm (run t).cache.columns.keys ∧
    run (t + 1) = (run t).after n (d.begin ((run t).seenBy n) known)

open Classical in
/-- how many operations of a kind clients have begun before a moment -/
noncomputable def begun (kind : Deed → Bool) (run : Nat → Crowd σ) (t : Nat) : Nat :=
  Nat.count (Begins kind run) t

variable {c : Cache σ} {run : Nat → Crowd σ}

namespace IsRun

theorem finite (h : IsRun c run) (t : Nat) : {n | (run t).doing n ≠ .nothing}.Finite := by
  refine h.invariant (P := fun s => {n | s.doing n ≠ .nothing}.Finite) (by simp) ?_ t
  rintro s s' hs ⟨n, makes⟩
  exact finite_after hs n _

/-- **A count and what is under way add up to what was begun**, and to a count on the other side, if they
do so in every step. -/
theorem account (h : IsRun c run) (kind : Deed → Bool) (f : Doing → Bool)
    (gain loss : Cache σ → Nat) (hstart : gain c = loss c) (hnothing : f .nothing = false)
    (hbegins : ∀ (s : Scene σ) d known, kind d = true → s.doing.AtRest →
      gain (d.begin s known).cache + (f (d.begin s known).doing).toNat + loss s.cache =
        gain s.cache + (f s.doing).toNat + loss (d.begin s known).cache + 1) {T : Nat}
    (hgoesOn : ∀ t < T, ∀ n s, Precinct.Step ((run t).seenBy n) s → run (t + 1) = (run t).after n s →
      (∀ d known, kind d = true → ((run t).doing n).AtRest →
        known.Perm (run t).cache.columns.keys → s ≠ d.begin ((run t).seenBy n) known) →
      gain s.cache + (f s.doing).toNat + loss (run t).cache =
        gain (run t).cache + (f ((run t).doing n)).toNat + loss s.cache) :
    gain (run T).cache + (run T).engaged f = loss (run T).cache + begun kind run T := by
  classical
  induction T with
  | zero =>
    have hnone : (run 0).engaged f = 0 := engaged_eq_zero fun n => by rw [h.start]; exact hnothing
    rw [hnone, h.start, begun, Nat.count_zero]
    exact congrArg (· + 0) hstart
  | succ t ih =>
    have hbefore := ih fun u hu => hgoesOn u (Nat.lt_succ_of_lt hu)
    have hafter : ∀ n s, run (t + 1) = (run t).after n s → (run (t + 1)).cache = s.cache ∧
        (run (t + 1)).engaged f + (f ((run t).doing n)).toNat =
          (run t).engaged f + (f s.doing).toNat := by
      intro n s he
      rw [he]
      exact ⟨rfl, engaged_after (finite_engaged hnothing (h.finite t)) n s⟩
    rw [begun] at hbefore ⊢
    rw [Nat.count_succ]
    by_cases hb : Begins kind run t
    · obtain ⟨n, d, known, hd, rest, listed, he⟩ := hb
      have hlaw := hbegins ((run t).seenBy n) d known hd rest
      obtain ⟨hcache, hengaged⟩ := hafter n _ he
      rw [if_pos ⟨n, d, known, hd, rest, listed, he⟩, hcache]
      simp only [seenBy] at hlaw hengaged ⊢
      omega
    · rw [if_neg hb]
      rcases h.acts t with he | ⟨n, s, makes, he⟩
      · rw [he]
        exact hbefore
      · have hlaw := hgoesOn t (Nat.lt_succ_self t) n s makes he fun d known hd rest listed hs =>
          hb ⟨n, d, known, hd, rest, listed, hs ▸ he⟩
        obtain ⟨hcache, hengaged⟩ := hafter n s he
        rw [hcache]
        omega

/-! ### queries -/

theorem queries (h : IsRun c run) (hc : c.counters.queries = 0) (t : Nat) :
    (run t).cache.counters.queries + (run t).engaged Doing.isUnanswered =
      begun Deed.asks run t := by
  have hsum := h.account Deed.asks Doing.isUnanswered (fun c => c.counters.queries) (fun _ => 0) hc
    rfl ?_ (T := t) ?_
  · omega
  · intro s d known hd rest
    cases d with
    | ask p =>
      obtain ⟨hot, own, hcounters, hfound, -⟩ := s.cache.counters_resolve p.column
      rw [rest.isUnanswered]
      simp only [Deed.begin, hcounters, Counters.queries]
      cases hr : (s.cache.resolve p.column).1 <;> rw [hr] at hfound <;>
        simp [Doing.isUnanswered] at hfound ⊢ <;> omega
    | _ => cases hd
  · intro u _ n s makes _ hno
    cases makes.tallied with
    | @begun d known rest listed counted =>
      have hsame : (d.begin ((run u).seenBy n) known).cache.counters = (run u).cache.counters ∧
          (d.begin ((run u).seenBy n) known).doing.isUnanswered = false := by
        cases d with
        | ask p => exact absurd rfl (hno _ _ rfl rest listed)
        | write w => exact ⟨rfl, rfl⟩
        | renew => exact ⟨(run u).cache.turn.2.counters_insertAllMissing _, rfl⟩
        | consult p => exact ⟨rfl, rfl⟩
        | _ => simp [Deed.asks, Deed.consults, Deed.renews] at counted
      rw [hsame.1, hsame.2, show ((run u).doing n).isUnanswered = false from rest.isUnanswered]
    | answered doing =>
      rw [show (run u).doing n = _ from doing]
      simp only [Cache.fallBack, Counters.queries, Doing.isUnanswered, seenBy, Bool.toNat_false,
        Bool.toNat_true]
      omega
    | renewed doing =>
      rw [show (run u).doing n = _ from doing]
      rfl
    | brokeOff before after counters calls =>
      rw [show (run u).doing n = _ from before, after, counters]
      rfl
    | other queries fallbacks rebuilds calls unanswered renewing =>
      rw [queries, unanswered]
      rfl

/-- the store is asked for what falls back on it, and by those who go past the cache -/
theorem forwarded (h : IsRun c run) (hc : c.store.containingCalls = c.counters.storeFallbacks)
    (t : Nat) : (run t).cache.store.containingCalls =
      (run t).cache.counters.storeFallbacks + begun Deed.consults run t := by
  have hsum := h.account Deed.consults (fun _ => false) (fun c => c.store.containingCalls)
    (fun c => c.counters.storeFallbacks) hc rfl ?_ (T := t) ?_
  · rwa [engaged_eq_zero fun _ => rfl] at hsum
  · intro s d known hd rest
    cases d with
    | consult p =>
      simp only [Deed.begin, Watched.containing]
      omega
    | _ => cases hd
  · intro u _ n s makes _ hno
    cases makes.tallied with
    | @begun d known rest listed counted =>
      cases d with
      | consult p => exact absurd rfl (hno _ _ rfl rest listed)
      | ask p =>
        obtain ⟨hot, own, hcounters, -⟩ := (run u).cache.counters_resolve p.column
        obtain ⟨hstore, -⟩ := ((run u).cache.resolved p.column).frame
        simp only [Deed.begin, seenBy, hcounters, hstore]
      | write w => rfl
      | renew =>
        obtain ⟨hstore, -⟩ := (run u).cache.turn.2.insertAllMissing_frame known
        have hcounters := (run u).cache.turn.2.counters_insertAllMissing known
        simp only [Deed.begin, seenBy, Cache.restart, hcounters, hstore]
        rfl
      | _ => simp [Deed.asks, Deed.consults, Deed.renews] at counted
    | answered doing =>
      simp only [Cache.fallBack, Watched.containing, seenBy]
      omega
    | renewed doing => rfl
    | brokeOff before after counters calls =>
      rw [counters, calls]
      rfl
    | other queries fallbacks rebuilds calls unanswered renewing =>
      rw [fallbacks, calls]
      rfl

/-! ### renewals -/

theorem renewals (h : IsRun c run) (hc : c.counters.rebuilds = 0) {t : Nat}
    (hwhole : ∀ u < t, ¬BreaksOff run u) :
    (run t).cache.counters.rebuilds + (run t).engaged Doing.isRenewing = begun Deed.renews run t := by
  have hsum := h.account Deed.renews Doing.isRenewing (fun c => c.counters.rebuilds) (fun _ => 0) hc
    rfl ?_ (T := t) ?_
  · omega
  · intro s d known hd rest
    have hbegun : (d.begin s known).cache.counters = s.cache.counters ∧
        (d.begin s known).doing.isRenewing = true := by
      cases d with
      | write w => exact ⟨rfl, rfl⟩
      | renew => exact ⟨s.cache.turn.2.counters_insertAllMissing _, rfl⟩
      | _ => cases hd
    rw [hbegun.1, hbegun.2, rest.isRenewing]
    rfl
  · intro u hu n s makes he hno
    cases makes.tallied with
    | @begun d known rest listed counted =>
      cases d with
      | write w => exact absurd rfl (hno _ _ rfl rest listed)
      | renew => exact absurd rfl (hno _ _ rfl rest listed)
      | ask p =>
        obtain ⟨hot, own, hcounters, -⟩ := (run u).cache.counters_resolve p.column
        rw [show ((run u).doing n).isRenewing = false from rest.isRenewing]
        simp only [Deed.begin, seenBy, hcounters, Doing.isRenewing]
      | consult p =>
        rw [show ((run u).doing n).isRenewing = false from rest.isRenewing]
        rfl
      | _ => simp [Deed.asks, Deed.consults, Deed.renews] at counted
    | answered doing =>
      rw [show (run u).doing n = _ from doing]
      rfl
    | renewed doing =>
      rw [show (run u).doing n = _ from doing]
      simp only [Cache.submitted, Doing.isRenewing, seenBy, Bool.toNat_false, Bool.toNat_true]
    | brokeOff before after counters calls =>
      refine absurd ⟨n, _, _, _, before, ?_⟩ (hwhole u hu)
      rw [he, doing_after, if_pos rfl, after]
    | other queries fallbacks rebuilds calls unanswered renewing =>
      rw [rebuilds, renewing]
      rfl

/-- an operation that breaks off leaves its mark -/
theorem not_breaksOff (h : IsRun c run) {t : Nat} (hm : (run t).mishap = false) :
    ∀ u < t, ¬BreaksOff run u := by
  induction t with
  | zero => exact fun u hu => absurd hu (Nat.not_lt_zero u)
  | succ t ih =>
    have hstep : (run t).mishap = false ∧ ¬BreaksOff run t := by
      rcases h.acts t with he | ⟨m, s, makes, he⟩
      · refine ⟨he ▸ hm, ?_⟩
        rintro ⟨n, batch, batches, renewal, hbefore, hafter⟩
        rw [he, hbefore] at hafter
        cases hafter
      · rw [he] at hm
        refine ⟨makes.mishap hm, ?_⟩
        rintro ⟨n, batch, batches, renewal, hbefore, hafter⟩
        rw [he, doing_after] at hafter
        split at hafter
        · rename_i hn
          subst hn
          have hdoing : ((run t).seenBy n).doing = .scheduling (batch :: batches) renewal := hbefore
          cases makes with
          | breakOff doing refused => cases hm
          | scheduled doing =>
            rw [hdoing] at doing
            cases doing
          | _ => simp_all [Doing.AtRest]
        · rw [hbefore] at hafter
          cases hafter
    intro u hu
    rcases Nat.lt_succ_iff_lt_or_eq.mp hu with hu | rfl
    · exact ih hstep.1 u hu
    · exact hstep.2

end IsRun
end Crowd

end Precinct
