import Mathlib
import Precinct.Proofs.Probe.Poll

/-!
# How far a probe is

* `Adding`             the first write to a cache without columns: there is nothing to survey;
* `Stands`             how far a trial is, and what holds there;
* `Stands.step`        **every step leads on**, if nothing goes wrong;
* `Stands.mishap_eq`   and nothing goes wrong unless somebody tells the store to fail or a worker is
                       denied;
* `stands_of_steps`, `stands_of_well`  so every trial from the start on stands somewhere.

A client of a cache that awaits the work of every deed would be a `Scene.Run`.  A probe does not await
its first deed, which is sound only since no column is known yet: then a renewal submits nothing.
-/

namespace Precinct
open Relation (ReflTransGen)

section
variable {σ : Type} [RegionStore σ] [Tabled σ] {P : Prompt} {s s' : Scene σ}

/-! ## a write before any column is known -/

/-- without known columns a new epoch leaves nothing to be done -/
theorem Settled.restart_of_known_eq_empty {c : Cache σ} (h : Settled P c) (hf : Filed c)
    (hc : c.current < c.pools.size) (hempty : P.known = ∅) {known : List Column}
    (listed : known.Perm c.columns.keys) : known = [] ∧ Settled P (c.restart known) := by
  obtain rfl : known = [] := by
    refine List.eq_nil_iff_forall_not_mem.mpr fun column hmem => ?_
    have hmem := (h.known column).mpr ((Grid.mem_keys _ column).mp (listed.mem_iff.mp hmem))
    rw [hempty] at hmem
    exact Finset.notMem_empty _ hmem
  -- any number that no pool has will do for the pool that has the work
  have hwork := h.restart hf hc (c.restart []).pools.size listed
  rw [hempty] at hwork
  refine ⟨rfl, hwork.settled ?_⟩
  by_contra hjobs
  exact lt_irrefl _ (Cache.lt_size_of_pool fun hd => hjobs (by rw [hd]; rfl))

theorem Doing.AtRest.of_drained {d : Doing} {loaded : Bool} (h : d = .drained loaded) : d.AtRest := by
  rw [h]
  trivial

/-- the store was changed, or is about to be, and no column is known -/
def Adding (P : Prompt) (s : Scene σ) : Prop :=
  ∃ Q, Settled Q s.cache ∧ Q.known = ∅ ∧ s.doing.finish Q = P ∧
    (s.doing = .writing ∨ s.doing = .scheduling [] true ∨ s.doing = .nothing)

theorem Settled.adding (h : Settled P s.cache) (hknown : P.known = ∅) (w : Write) :
    Adding (P.after (.write w)) ((Deed.write w).begin s) := by
  refine ⟨{ P with table := w.apply P.table }, h.modifyStore w.apply _ ?_, hknown, rfl, Or.inl rfl⟩
  rw [Tabled.table_write, h.table]

theorem Adding.step (h : Adding P s) (hc : Coverage s) (hs : s.Continues s') : Adding P s' := by
  obtain ⟨Q, hQ, hknown, hfinish, hd⟩ := h
  have haside : Aside s s' → Adding P s' := by
    intro ha
    refine ⟨Q, hQ.aside hc.custody.sound ha, hknown, ?_⟩
    rw [ha.doing]
    exact ⟨hfinish, hd⟩
  rcases hs with ha | ⟨busy, hs⟩
  · exact haside ha
  cases hs with
  | @renew known listed rest =>
    have hwriting := rest.resolve_left busy
    obtain ⟨rfl, hrestart⟩ :=
      hQ.restart_of_known_eq_empty hc.filed hc.custody.current hknown listed
    have hcut : s.cache.cut [] = [] := by rw [Cache.cut, Cache.batches, dif_pos (Or.inr rfl)]
    refine ⟨Q, hrestart, hknown, ?_, Or.inr (Or.inl (by rw [hcut]))⟩
    rw [hwriting] at hfinish
    rw [← hfinish]
    show _ = Prompt.renewed Q
    rw [Prompt.renewed, hknown]
    rfl
  | @submit batch batches renewal denied p doing taken =>
    rw [doing] at hd
    rcases hd with hd | hd | hd <;> cases hd
  | breakOff doing refused =>
    rw [doing] at hd
    rcases hd with hd | hd | hd <;> cases hd
  | @scheduled renewal doing =>
    rw [doing] at hd
    rcases hd with hd | hd | hd
    · cases hd
    · cases hd
      rw [doing] at hfinish
      refine ⟨{ Q with renewals := Q.renewals + 1 }, ?_, hknown, hfinish, Or.inr (Or.inr rfl)⟩
      exact ⟨⟨hQ.table, hQ.known, hQ.size, hQ.hits, hQ.fallbacks, congrArg Nat.succ hQ.renewals,
        hQ.cancelled, hQ.containing⟩, hQ.idle, hQ.allLoaded, hQ.loaded, hQ.calls⟩
    · cases hd
  | closeGate => exact haside .closeGate
  | openGate => exact haside .openGate
  | failNext => exact haside .failNext
  | work makes => exact haside (.work makes)
  | elapse ms => exact haside (.elapse ms)
  | _ => rcases hd with hd | hd | hd <;> simp_all [Doing.AtRest]

theorem Adding.settled (h : Adding P s) (rest : s.doing.AtRest) : Settled P s.cache := by
  obtain ⟨Q, hQ, -, hfinish, -⟩ := h
  rw [rest.finish] at hfinish
  exact hfinish ▸ hQ

end

namespace Probe

section
variable {σ : Type} [RegionStore σ] [ExactStore σ] [Tabled σ] {P : Prompt} {regions : List Region}
  {columns : List Column} {points : List Block} {t t' : Trial σ}

/-! ## how far a trial is -/

/-- the store with regions, and all columns surveyed -/
def prepared (P : Prompt) (regions : List Region) (columns : List Column) : Prompt :=
  (P.after (.write (.addAll regions))).after (.warm columns)

/-- no query was asked yet -/
structure Unasked (points : List Block) (t : Trial σ) : Prop where
  fit : t.scene.Fit
  queries : t.queries = points.map Inquiry.ofBlock

/-- how far a trial is, and what holds there -/
inductive Stands (P : Prompt) (regions : List Region) (columns : List Column)
    (points : List Block) (t : Trial σ) : Prop
  | opening (ahead : t.ahead = [.write (.addAll regions), .warm columns, .await])
      (unasked : Unasked points t) (rest : t.scene.doing.AtRest)
      (settled : Settled P t.scene.cache)
  | adding (ahead : t.ahead = [.warm columns, .await]) (unasked : Unasked points t)
      (adds : Adding (P.after (.write (.addAll regions))) t.scene)
  | warming (ahead : t.ahead = [.await]) (unasked : Unasked points t)
      (submits : Submitting (prepared P regions columns) t.scene)
  | awaiting {k : Nat} (ahead : t.ahead = []) (unasked : Unasked points t)
      (doing : t.scene.doing = .swapped k ∨ t.scene.doing = .draining k)
      (underway : Underway (prepared P regions columns) k [] t.scene.cache)
  | asking (ahead : t.ahead = []) (doing : t.scene.doing = .drained true)
      (polled : Polled (prepared P regions columns) t.queries t.scene)
  /-- the columns were not loaded in time -/
  | gaveUp (ahead : t.ahead = []) (doing : t.scene.doing = .drained false)
      (asked : Asked (prepared P regions columns) t.queries t.scene)

/-- while the host is busy nothing was asked -/
theorem Stands.unasked_of_busy (h : Stands P regions columns points t)
    (busy : ¬t.scene.doing.AtRest) : Unasked points t := by
  cases h with
  | opening ahead unasked rest settled => exact unasked
  | adding ahead unasked adds => exact unasked
  | warming ahead unasked submits => exact unasked
  | awaiting ahead unasked doing underway => exact unasked
  | asking ahead doing polled => exact absurd polled.rest busy
  | gaveUp ahead doing asked => exact absurd asked.rest busy

/-- **Nothing goes wrong** unless somebody tells the store to fail or a worker is denied. -/
theorem Stands.mishap_eq (h : Stands P regions columns points t) (hs : t.Step t')
    (hf : t.scene.cache.store.failing = false) (hd : t'.scene.denied = false) :
    t'.scene.mishap = t.scene.mishap := by
  cases hs with
  | @begins d ds known rest listed next => cases d <;> rfl
  | @goesOn s continues =>
    rcases continues with ha | ⟨busy, hs⟩
    · exact ha.mishap_eq hf
    · exact (h.unasked_of_busy busy).fit.sturdy.mishap hf hs hd
  | asks rest prepared among makes => rfl

omit [Tabled σ] in
theorem Unasked.begins (h : Unasked points t) {d : Deed} (ds : List Deed)
    (rest : t.scene.doing.AtRest) {known : List Column}
    (listed : known.Perm t.scene.cache.columns.keys) :
    Unasked points { t with scene := d.begin t.scene known, ahead := ds } :=
  ⟨h.fit.step (d.step_begin rest listed), h.queries⟩

omit [Tabled σ] in
theorem Unasked.goesOn (h : Unasked points t) {s : Scene σ} (hs : t.scene.Continues s) :
    Unasked points { t with scene := s } := ⟨h.fit.step hs.step, h.queries⟩

omit [Tabled σ] in
/-- the first query can be asked, of a store with these regions -/
theorem Unasked.asked {P : Prompt} (h : Unasked points t) (rest : t.scene.doing.AtRest)
    (values : RegionStore.values t.scene.cache.store.store = P.table.contents.regions) :
    Asked P t.queries t.scene := by
  refine ⟨h.fit.exact, rest, values, fun q hq => ?_⟩
  rw [h.queries] at hq
  obtain ⟨p, hp, rfl⟩ := List.mem_map.mp hq
  trivial

/-- all columns were loaded too -/
theorem Unasked.polled {P : Prompt} (h : Unasked points t) (rest : t.scene.doing.AtRest)
    (settled : Settled P t.scene.cache) (hpoints : ∀ p ∈ points, p.column ∈ P.known) :
    Polled P t.queries t.scene := by
  have values : RegionStore.values t.scene.cache.store.store = P.table.contents.regions := by
    rw [Tabled.values_eq, settled.table]
  refine ⟨h.asked rest values, ⟨_, _, settled⟩, fun q hq => ?_, fun q hq => ?_⟩
  · rw [h.queries] at hq
    obtain ⟨p, hp, rfl⟩ := List.mem_map.mp hq
    exact hpoints p hp
  · rw [h.queries] at hq
    obtain ⟨p, hp, rfl⟩ := List.mem_map.mp hq
    exact nofun

/-- **Every step of a trial leads on**, from one deed to the next, to the queries, and to their
answers. -/
theorem Stands.step (h : Stands P regions columns points t) (hknown : P.known = ∅)
    (hpoints : ∀ p ∈ points, p.column ∈ columns) (hs : t.Step t')
    (hm : t'.scene.mishap = false) : Stands P regions columns points t' := by
  cases h with
  | opening ahead unasked rest settled =>
    cases hs with
    | begins rest listed next =>
      cases ahead.symm.trans next
      exact .adding rfl (unasked.begins _ rest listed) (settled.adding hknown _)
    | goesOn continues =>
      have ha := continues.aside rest
      refine .opening ahead (unasked.goesOn continues) ?_
        (settled.aside unasked.fit.coverage.custody.sound ha)
      rw [ha.doing]
      exact rest
    | asks rest prepared among makes => cases ahead.symm.trans prepared
  | adding ahead unasked adds =>
    cases hs with
    | begins rest listed next =>
      cases ahead.symm.trans next
      exact .warming rfl (unasked.begins _ rest listed)
        ((adds.settled rest).submitting (d := .warm columns) rfl unasked.fit.coverage listed)
    | goesOn continues =>
      exact .adding ahead (unasked.goesOn continues) (adds.step unasked.fit.coverage continues)
    | asks rest prepared among makes => cases ahead.symm.trans prepared
  | warming ahead unasked submits =>
    cases hs with
    | begins rest listed next =>
      cases ahead.symm.trans next
      exact .awaiting rfl (unasked.begins _ rest listed) (Or.inl rfl)
        ((submits.underway rest).2.freshPool unasked.fit.coverage.custody.current)
    | goesOn continues =>
      exact .warming ahead (unasked.goesOn continues)
        (submits.step unasked.fit.coverage continues hm)
    | asks rest prepared among makes => cases ahead.symm.trans prepared
  | @awaiting k ahead unasked doing underway =>
    cases hs with
    | begins rest listed next => cases ahead.symm.trans next
    | goesOn continues =>
      have hgoes := unasked.goesOn continues
      have hawaits : Awaiting (prepared P regions columns) t.scene := .waits doing underway
      cases hawaits.step unasked.fit.coverage continues hm with
      | waits doing' underway' => exact .awaiting ahead hgoes doing' underway'
      | finished doing' settled' =>
        refine .asking ahead doing' (hgoes.polled (.of_drained doing') settled' ?_)
        exact fun p hp => Finset.mem_union_left _ (List.mem_toFinset.mpr (hpoints p hp))
      | gaveUp doing' =>
        have rest := Doing.AtRest.of_drained doing'
        have hkept := (continues.step.store unasked.fit.exact.store).2.resolve_left rest.ne_writing
        refine .gaveUp ahead doing' (hgoes.asked rest (hkept.trans ?_))
        rw [Tabled.values_eq, underway.table]
    | asks rest prepared among makes =>
      rcases doing with doing | doing <;>
      · rw [doing] at rest
        exact rest.elim
  | asking ahead doing polled =>
    cases hs with
    | begins rest listed next => cases ahead.symm.trans next
    | goesOn continues =>
      have ha := continues.aside polled.rest
      exact .asking ahead (ha.doing.trans doing) (polled.aside ha)
    | asks rest prepared among makes =>
      rw [among] at polled
      exact .asking ahead doing (polled.asks makes)
  | gaveUp ahead doing asked =>
    cases hs with
    | begins rest listed next => cases ahead.symm.trans next
    | goesOn continues =>
      have ha := continues.aside asked.rest
      exact .gaveUp ahead (ha.doing.trans doing) (asked.aside ha)
    | asks rest prepared among makes =>
      rw [among] at asked
      exact .gaveUp ahead doing (asked.asks makes)

/-! ## from the start on -/

variable {c : Cache σ}

/-- one step of a trial whose store nobody has told to fail; no worker is denied -/
def Trial.Well (t t' : Trial σ) : Prop :=
  t.scene.cache.store.failing = false ∧ t.Step t' ∧ t'.scene.denied = t.scene.denied

theorem stands_start (fit : (Scene.start c).Fit) (settled : Settled P c) :
    Stands P regions columns points (.start c regions columns points) :=
  .opening rfl ⟨fit, rfl⟩ trivial settled

theorem stands_of_steps (fit : (Scene.start c).Fit) (settled : Settled P c) (hknown : P.known = ∅)
    (hpoints : ∀ p ∈ points, p.column ∈ columns)
    (hs : ReflTransGen Trial.Step (.start c regions columns points) t)
    (hm : t.scene.mishap = false) : Stands P regions columns points t := by
  induction hs with
  | refl => exact stands_start fit settled
  | tail _ hlast ih => exact (ih (hlast.mishap hm)).step hknown hpoints hlast hm

theorem stands_of_well (fit : (Scene.start c).Fit) (settled : Settled P c) (hknown : P.known = ∅)
    (hpoints : ∀ p ∈ points, p.column ∈ columns)
    (hs : ReflTransGen Trial.Well (.start c regions columns points) t) :
    Stands P regions columns points t ∧ t.scene.mishap = false ∧ t.scene.denied = false := by
  induction hs with
  | refl => exact ⟨stands_start fit settled, rfl, rfl⟩
  | tail _ hlast ih =>
    obtain ⟨hstands, hm, hd⟩ := ih
    obtain ⟨hf, hstep, hsame⟩ := hlast
    have hd' := hsame.trans hd
    have hm' := (hstands.mishap_eq hstep hf hd').trans hm
    exact ⟨hstands.step hknown hpoints hstep hm', hm', hd'⟩

end
end Probe
end Precinct
