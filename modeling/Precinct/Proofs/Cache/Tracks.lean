import Mathlib
import Precinct.Proofs.Cache.Backlog

/-!
# Deeds, one after the other

* `Submitting`         a deed that schedules work is going on, or done;
* `Awaiting`           the work is waited for, or was;
* `Submitting.step`, `Awaiting.step`  each step that begins nothing leads from one to the other, and
                       when the work is reported finished the cache is settled;
* `Tracks`             what a cache is like after several deeds;
* `Scene.Run.tracks`   **after any deeds a cache is what one whose surveys take no time would be**.

By induction on the deeds: a deed that schedules nothing keeps a cache settled, one that schedules
work leaves just that to be done, and the wait that has to follow settles it again.
-/

namespace Precinct

section
variable {σ : Type} [RegionStore σ] [Tabled σ] {P : Prompt} {s s' : Scene σ} {k : Nat}

/-- a deed that schedules work is going on, or done -/
inductive Submitting (P : Prompt) (s : Scene σ) : Prop
  | writing {Q : Prompt} (doing : s.doing = .writing) (settled : Settled Q s.cache)
      (rest : Q.renewed = P)
  | scheduling {Q : Prompt} {batches : List (List Column)} {renewal : Bool}
      (doing : s.doing = .scheduling batches renewal)
      (underway : Underway Q s.cache.current batches.flatten s.cache)
      (rest : (Doing.scheduling [] renewal).finish Q = P)
  | done (doing : s.doing = .nothing) (underway : Underway P s.cache.current [] s.cache)

/-- the work is waited for, or was -/
inductive Awaiting (P : Prompt) (s : Scene σ) : Prop
  | waits {k : Nat} (doing : s.doing = .swapped k ∨ s.doing = .draining k)
      (underway : Underway P k [] s.cache)
  | finished (doing : s.doing = .drained true) (settled : Settled P s.cache)
  | gaveUp (doing : s.doing = .drained false)

omit [Tabled σ] in
theorem Aside.current (hs : Aside s s') : s'.cache.current = s.cache.current := by
  cases hs with
  | work makes => exact (Cache.worked_of_step? makes).frame.2.2.2.1
  | _ => rfl

omit [Tabled σ] in
theorem Scene.Continues.aside (hs : s.Continues s') (rest : s.doing.AtRest) : Aside s s' :=
  hs.resolve_right fun h => h.1 rest

theorem Submitting.aside (h : Submitting P s) (hc : Coverage s) (hs : Aside s s')
    (hm : s'.mishap = false) : Submitting P s' := by
  have hunderway : ∀ {Q : Prompt} {pending : List Column},
      Underway Q s.cache.current pending s.cache → Underway Q s'.cache.current pending s'.cache := by
    intro Q pending hu
    rw [hs.current]
    exact hu.aside hc.filed hc.custody.sound hs hm
  cases h with
  | writing doing settled rest =>
    exact .writing (hs.doing.trans doing) (settled.aside hc.custody.sound hs) rest
  | scheduling doing underway rest =>
    exact .scheduling (hs.doing.trans doing) (hunderway underway) rest
  | done doing underway => exact .done (hs.doing.trans doing) (hunderway underway)

/-- a batch is taken up by the pool that takes new jobs -/
theorem Underway.submit {batch pending : List Column} {denied : Bool} {p : Pool Survey}
    (h : Underway P s.cache.current (batch ++ pending) s.cache) (hc : Custody s)
    (hsubmit : Pool.Submitted (s.cache.pool s.cache.current) ⟨s.cache.epoch, batch, .checking⟩
      denied (.ok ()) p) :
    Underway P s.cache.current pending (s.cache.setPool s.cache.current p) := by
  have hjobs := hsubmit.jobs_perm hc.accepting
  refine .setPool h.others hc.current rfl h.toResembles (h.owed.submit.perm hjobs.symm) fun hp => ?_
  rw [hsubmit.frame.2.2, hc.not_cancelled] at hp
  cases hp

theorem Underway.submitted {c : Cache σ} {pending : List Column} (h : Underway P k pending c)
    (renewal : Bool) :
    Underway ((Doing.scheduling [] renewal).finish P) k pending (c.submitted renewal) := by
  cases renewal with
  | false => exact h
  | true =>
    refine ⟨⟨h.table, h.known, h.size, h.hits, h.fallbacks, congrArg Nat.succ h.renewals, h.cancelled,
      h.containing⟩, h.others, h.goes, ?_⟩
    exact ⟨h.owed.present, h.owed.nodup, h.owed.mem, h.owed.loaded, h.owed.calls⟩

/-- **The work of a deed is submitted**, batch by batch, and then no more of it is to be. -/
theorem Submitting.step (h : Submitting P s) (hc : Coverage s) (hs : s.Continues s')
    (hm : s'.mishap = false) : Submitting P s' := by
  have haside : Aside s s' → Submitting P s' := fun ha => h.aside hc ha hm
  rcases hs with ha | ⟨busy, hs⟩
  · exact haside ha
  cases h with
  | writing doing settled rest =>
    cases hs with
    | renew listed _ =>
      -- the known columns, cut into batches, are all that is to be done
      refine .scheduling rfl ?_ rest
      show Underway _ _ (Cache.batches _ _).flatten _
      rw [Cache.flatten_batches hc.batchSize]
      exact settled.restart hc.filed hc.custody.current _ listed
    | closeGate => exact haside .closeGate
    | openGate => exact haside .openGate
    | failNext => exact haside .failNext
    | work makes => exact haside (.work makes)
    | elapse ms => exact haside (.elapse ms)
    | _ => simp_all [Doing.AtRest]
  | @scheduling Q batches renewal doing underway rest =>
    cases hs with
    | @submit batch batches' renewal' denied p doing' taken =>
      cases doing.symm.trans doing'
      have hsub :=
        Pool.submitted (s.cache.pool s.cache.current) ⟨s.cache.epoch, batch, .checking⟩ denied
      rw [taken] at hsub
      exact .scheduling rfl (underway.submit hc.custody hsub) rest
    | breakOff doing' refused => cases hm
    | @scheduled renewal' doing' =>
      cases doing.symm.trans doing'
      refine .done rfl ?_
      have hdone := underway.submitted renewal
      rw [rest] at hdone
      cases renewal <;> exact hdone
    | closeGate => exact haside .closeGate
    | openGate => exact haside .openGate
    | failNext => exact haside .failNext
    | work makes => exact haside (.work makes)
    | elapse ms => exact haside (.elapse ms)
    | _ => simp_all [Doing.AtRest]
  | done doing underway => exact absurd (by rw [doing]; trivial) busy

/-- a closed pool goes on with what it has -/
theorem Underway.closePool {c : Cache σ} (h : Underway P k [] c) :
    Underway P k [] (c.closePool k) := by
  refine h.of_pools rfl rfl rfl rfl rfl (fun j hj => ?_) ?_ ?_
  · rw [Cache.closePool, Cache.pool_setPool, if_neg fun he => hj he.1]
    exact h.others j hj
  · rw [Cache.closePool, Cache.pool_setPool]
    split <;> rfl
  · rw [Cache.closePool, Cache.pool_setPool]
    split <;> exact .refl _

theorem Underway.freshPool {c : Cache σ} (h : Underway P k [] c) (hk : k < c.pools.size) :
    Underway P k [] c.freshPool := by
  have hself : c.freshPool.pool k = c.pool k := by rw [Cache.pool_freshPool, if_neg hk.ne]
  exact h.of_pools rfl rfl rfl rfl rfl (fun j hj => (c.jobs_freshPool j).trans (h.others j hj))
    (by rw [hself]) (by rw [hself])

omit [RegionStore σ] [Tabled σ] in
/-- without a worker nobody has a job, unless a worker could not be started -/
theorem Crews.jobs_nil (h : Crews s) (hm : s.mishap = false) (hlive : s.cache.isLive k = false) :
    (s.cache.pool k).jobs = [] := by
  have hnone := (Cache.isLive_eq_false_iff (h.sound k)).mp hlive
  rw [Pool.jobs_eq_queue hnone]
  by_contra hne
  exact h.staffed hm k hne hnone

/-- **When the work is reported finished nothing is left to be done.** -/
theorem Awaiting.step (h : Awaiting P s) (hc : Coverage s) (hs : s.Continues s')
    (hm : s'.mishap = false) : Awaiting P s' := by
  have haside : Aside s s' → Awaiting P s' := by
    intro ha
    cases h with
    | waits doing underway =>
      refine .waits ?_ (underway.aside hc.filed hc.custody.sound ha hm)
      rw [ha.doing]
      exact doing
    | finished doing settled =>
      exact .finished (ha.doing.trans doing) (settled.aside hc.custody.sound ha)
    | gaveUp doing => exact .gaveUp (ha.doing.trans doing)
  rcases hs with ha | ⟨busy, hs⟩
  · exact haside ha
  cases h with
  | @waits k doing underway =>
    cases hs with
    | @close j doing' =>
      rw [doing'] at doing
      cases doing.resolve_right nofun
      exact .waits (Or.inr rfl) underway.closePool
    | @drained j doing' =>
      rw [doing'] at doing
      cases doing.resolve_left nofun
      cases hlive : s.cache.isLive k with
      | true => exact .gaveUp rfl
      | false =>
        -- workers that go leave no job behind, so the pool has none
        refine .finished rfl (underway.settled ?_)
        exact hc.custody.jobs_nil hm hlive
    | closeGate => exact haside .closeGate
    | openGate => exact haside .openGate
    | failNext => exact haside .failNext
    | work makes => exact haside (.work makes)
    | elapse ms => exact haside (.elapse ms)
    | _ => rcases doing with doing | doing <;> simp_all [Doing.AtRest]
  | finished doing settled => exact absurd (by rw [doing]; trivial) busy
  | gaveUp doing => exact absurd (by rw [doing]; trivial) busy

/-! ## whole deeds -/

omit [Tabled σ] in
/-- what every step that begins nothing keeps is kept while nothing begins -/
theorem Scene.GoesOn.keeps {I : Scene σ → Prop} (hstep : ∀ t t', Coverage t → I t → t.Continues t' →
    t'.mishap = false → I t') (h : s.GoesOn s') (hc : Coverage s) (hm : s'.mishap = false)
    (hi : I s) : Coverage s' ∧ I s' := by
  induction h with
  | refl => exact ⟨hc, hi⟩
  | @tail t u _ hlast ih =>
    obtain ⟨ht, hit⟩ := ih (hlast.step.mishap hm)
    exact ⟨ht.step hlast.step, hstep t u ht hit hlast hm⟩

omit [Tabled σ] in
theorem Scene.Reach.mishap (h : s.Reach s') (hm : s'.mishap = false) : s.mishap = false := by
  induction h with
  | refl => exact hm
  | tail _ hlast ih => exact ih (hlast.mishap hm)

theorem Settled.quiet (h : Settled P s.cache) (rest : s.doing.AtRest) : Quiet P s :=
  ⟨P, h, rest.calm, rest.finish P⟩

theorem Quiet.settled (h : Quiet P s) (rest : s.doing.AtRest) : Settled P s.cache := by
  obtain ⟨Q, hQ, -, hfinish⟩ := h
  rw [rest.finish] at hfinish
  exact hfinish ▸ hQ

theorem Submitting.underway (h : Submitting P s) (rest : s.doing.AtRest) :
    s.doing = .nothing ∧ Underway P s.cache.current [] s.cache := by
  cases h with
  | writing doing settled _ =>
    rw [doing] at rest
    exact rest.elim
  | scheduling doing underway _ =>
    rw [doing] at rest
    exact rest.elim
  | done doing underway => exact ⟨doing, underway⟩

theorem Scene.GoesOn.quiet (h : s.GoesOn s') (hc : Coverage s) (hm : s'.mishap = false)
    (hq : Quiet P s) : Coverage s' ∧ Quiet P s' :=
  h.keeps (fun _ _ hu hq hs _ => hq.step hu.custody.sound hs) hc hm hq

theorem Scene.GoesOn.submitting (h : s.GoesOn s') (hc : Coverage s) (hm : s'.mishap = false)
    (hq : Submitting P s) : Coverage s' ∧ Submitting P s' :=
  h.keeps (fun _ _ hu hq hs hm => hq.step hu hs hm) hc hm hq

/-- a deed that schedules nothing leaves nothing to be done -/
theorem Scene.Does.settled {d : Deed} (h : s.Does d s') (hd : d.schedules = false) (hc : Coverage s)
    (hs : Settled P s.cache) (rest : s.doing.AtRest) (hm : s'.mishap = false) :
    Settled (P.after d) s'.cache := by
  obtain ⟨t, known, hbefore, rest', listed, hafter, rest''⟩ := h
  have hbegins := d.step_begin rest' listed
  obtain ⟨ht, hquiet⟩ :=
    hbefore.quiet hc (hbegins.mishap (hafter.reach.mishap hm)) (hs.quiet rest)
  have hbegun := (hquiet.settled rest').begin ht.filed ht.custody.current hd known
  exact (hafter.quiet (ht.step hbegins) hm hbegun).2.settled rest''

theorem Settled.submitting {d : Deed} (h : Settled P s.cache) (hd : d.schedules = true)
    (hc : Coverage s) {known : List Column} (listed : known.Perm s.cache.columns.keys) :
    Submitting (P.after d) (d.begin s known) := by
  have hflatten := Cache.flatten_batches hc.batchSize
  cases d with
  | write w =>
    refine .writing rfl (h.modifyStore w.apply _ ?_) rfl
    rw [Tabled.table_write, h.table]
  | renew =>
    refine .scheduling rfl ?_ rfl
    show Underway _ _ (Cache.batches _ _).flatten _
    rw [hflatten]
    exact h.restart hc.filed hc.custody.current _ listed
  | warm columns =>
    refine .scheduling rfl ?_ rfl
    show Underway _ _ (Cache.batches _ _).flatten _
    rw [hflatten]
    exact h.warm hc.filed columns _
  | _ => cases hd

/-- a deed that schedules work leaves just that to be done -/
theorem Scene.Does.underway {d : Deed} (h : s.Does d s') (hd : d.schedules = true) (hc : Coverage s)
    (hs : Settled P s.cache) (rest : s.doing.AtRest) (hm : s'.mishap = false) :
    s'.doing = .nothing ∧ Underway (P.after d) s'.cache.current [] s'.cache := by
  obtain ⟨t, known, hbefore, rest', listed, hafter, rest''⟩ := h
  have hbegins := d.step_begin rest' listed
  obtain ⟨ht, hquiet⟩ :=
    hbefore.quiet hc (hbegins.mishap (hafter.reach.mishap hm)) (hs.quiet rest)
  have hbegun := (hquiet.settled rest').submitting hd ht listed
  exact (hafter.submitting (ht.step hbegins) hm hbegun).2.underway rest''

/-- once it is awaited with success, nothing is left to be done -/
theorem Scene.Does.awaited (h : s.Does .await s') (hfinished : s'.doing = .drained true)
    (hc : Coverage s) (hd : s.doing = .nothing) (hs : Underway P s.cache.current [] s.cache)
    (hm : s'.mishap = false) : Settled P s'.cache := by
  obtain ⟨t, known, hbefore, rest', listed, hafter, -⟩ := h
  have hbegins := Deed.await.step_begin rest' listed
  obtain ⟨ht, hstill⟩ :=
    hbefore.submitting hc (hbegins.mishap (hafter.reach.mishap hm)) (.done hd hs)
  have hwaits : Awaiting P (Deed.await.begin t) :=
    .waits (Or.inl rfl) ((hstill.underway rest').2.freshPool ht.custody.current)
  obtain ⟨-, hover⟩ := hafter.keeps (fun _ _ hu hq hs hm => hq.step hu hs hm) (ht.step hbegins) hm
    hwaits
  cases hover with
  | waits doing underway =>
    rw [hfinished] at doing
    rcases doing with doing | doing <;> cases doing
  | finished doing settled => exact settled
  | gaveUp doing =>
    rw [hfinished] at doing
    cases doing

/-- what a cache is like after several deeds: no settings, and no order in which anybody went on -/
structure Tracks (P : Prompt) (schedules : Bool) (s : Scene σ) : Prop where
  coverage : Coverage s
  rest : s.doing.AtRest
  settled : schedules = false → Settled P s.cache
  underway : schedules = true →
    s.doing = .nothing ∧ Underway P s.cache.current [] s.cache

/-- **After several deeds a cache is what one whose surveys take no time would be**, but for the work
that the last of them may have scheduled. -/
theorem Scene.Run.tracks {s₀ : Scene σ} {ds : List Deed} (h : s₀.Run ds s) (hc : Coverage s₀)
    (rest : s₀.doing.AtRest) (hs : Settled P s₀.cache) (hm : s.mishap = false) :
    Tracks (P.run ds) (ds.head?.any Deed.schedules) s := by
  induction h with
  | nil => exact ⟨hc, rest, fun _ => hs, nofun⟩
  | @next d ds s s' before does awaited ih =>
    have hbefore := ih (does.reach.mishap hm)
    have hcoverage : Coverage s' :=
      does.reach.invariant (fun _ _ hu hstep => hu.step hstep) hbefore.coverage
    refine ⟨hcoverage, does.rest, fun hd => ?_, fun hd => ?_⟩
    -- if the deed before has left work, this one is the wait for it
    · cases hbusy : ds.head?.any Deed.schedules with
      | false => exact does.settled hd hbefore.coverage (hbefore.settled hbusy) hbefore.rest hm
      | true =>
        obtain ⟨rfl, hfinished⟩ := awaited hbusy
        obtain ⟨hdoing, hwork⟩ := hbefore.underway hbusy
        exact does.awaited hfinished hbefore.coverage hdoing hwork hm
    · cases hbusy : ds.head?.any Deed.schedules with
      | false => exact does.underway hd hbefore.coverage (hbefore.settled hbusy) hbefore.rest hm
      | true =>
        obtain ⟨rfl, -⟩ := awaited hbusy
        cases hd

theorem Tracks.resembles {schedules : Bool} (h : Tracks P schedules s) : Resembles P s.cache := by
  cases schedules with
  | false => exact (h.settled rfl).toResembles
  | true => exact (h.underway rfl).2.toResembles

end
end Precinct
