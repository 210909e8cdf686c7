import Mathlib
import Precinct.Proofs.Cache.Alike
import Precinct.Proofs.Cache.Tended
import Precinct.Proofs.Probe.Trial

/-!
# Queries side by side

* `Scene.Fit`          a scene in which nothing goes wrong by itself: the invariants of caches;
* `Prompt.regionsAt`   what every query for a block ought to answer;
* `Inquiry.Step.browses`  a step of a query only browses the cache;
* `Inquiry.Honest`     what a query has come to by now is that, or leads to it;
* `Asked`              the invariant of queries side by side: `Asked.asks`, **a step of any query keeps
                       it**, and so does a worker (`Asked.aside`);
* `Asked.checked`      so they find nothing amiss, whatever is loaded by now;
* `Polled`             the invariant of queries for columns that are all loaded.

A scene has one host, who asks one thing at a time, and here many queries are half done at once.  But
nothing of a query that is half done is in the cache: it has what it looked up in hand.  So the host is
at rest in between, and sheets and store are as exact after a step of a query as before it.
-/

namespace Precinct
open Relation (ReflTransGen)

section
variable {σ : Type} [RegionStore σ] {s s' : Scene σ}

theorem Aside.mishap_eq (hs : Aside s s') (hf : s.cache.store.failing = false) :
    s'.mishap = s.mishap := by
  cases hs with
  | work makes =>
    show (s.mishap || _) = s.mishap
    rw [((Cache.worked_of_step? makes).not_lost hf).1, Bool.or_false]
  | _ => rfl

variable [ExactStore σ]

/-- a scene in which nothing goes wrong by itself -/
structure Scene.Fit (s : Scene σ) : Prop where
  coverage : Coverage s
  exact : Exact s
  named : ¬HoldsZero s.cache.settings.threadName

theorem Scene.Fit.step (h : s.Fit) (hs : Step s s') : s'.Fit :=
  ⟨h.coverage.step hs, h.exact.step hs, hs.settings ▸ h.named⟩

theorem Scene.Fit.reach (h : s.Fit) (hs : s.Reach s') : s'.Fit :=
  hs.invariant (fun _ _ hu hstep => hu.step hstep) h

theorem Scene.Fit.sturdy (h : s.Fit) : Sturdy s :=
  h.coverage.custody.toCrews.sturdy h.named h.coverage.batchSize

theorem Scene.Fit.pool_named (h : s.Fit) :
    ¬HoldsZero (s.cache.pool s.cache.current).settings.threadName := by
  have hcrews := h.coverage.custody.toCrews
  rw [hcrews.settings _ hcrews.current]
  exact h.named

theorem Scene.fit_start {store : σ} {settings : Settings} (h : ExactStore.Sound store)
    (accepted : settings.validate = .ok ()) (hname : ¬HoldsZero settings.threadName) :
    (start (Cache.ofSettings store settings)).Fit :=
  ⟨coverage_start store (Settings.batchSize_of_validate accepted), exact_start h settings, hname⟩

end

/-- what a query for a block ought to answer -/
def Prompt.regionsAt (P : Prompt) (p : Block) : List Region :=
  Region.inLayers (P.table.contents.regions.filter (·.contains p))

/-- a sheet answers a query without the cache -/
theorem Cache.answer_some {σ : Type} [RegionStore σ] (c : Cache σ) (p : Block)
    (regions : List Region) :
    c.answer p (some regions) = (Region.inLayers (regions.filter (·.contains p)), c) := by
  show (Region.inLayers (visitWhere (·.contains p) (Sighting.note none) regions {}).shown, c) = _
  rw [visitWhere_eq, shown_visitEach_note]

/-- a known column is answered from a sheet -/
theorem Settled.resolve_known {σ : Type} [RegionStore σ] [Tabled σ] {P : Prompt} {c : Cache σ}
    (h : Settled P c) (hf : Filed c) {p : Block} (hp : p.column ∈ P.known) :
    ∃ regions, (c.resolve p.column).1 = some regions ∧
      Settled { P with hits := P.hits + 1 } (c.resolve p.column).2 := by
  obtain ⟨Q, hQ, hfinish⟩ := h.resolve hf p
  have hloaded : (c.resolve p.column).1.isSome = true := by
    rw [Cache.isSome_resolve hf]
    exact h.allLoaded p.column ((h.known p.column).mp hp)
  obtain ⟨regions, hfound⟩ := Option.isSome_iff_exists.mp hloaded
  refine ⟨regions, hfound, ?_⟩
  rw [hfound, Prompt.after, if_pos hp] at hfinish
  rw [← hfinish]
  exact hQ

namespace Probe

section
variable {σ : Type} [RegionStore σ] {q q' : Inquiry} {c c' : Cache σ}

/-- **A query only browses.** -/
theorem Inquiry.Step.browses (hs : q.Step c q' c') : c.Browsed c' := by
  cases hs with
  | lookUp stage =>
    have hres := c.resolved q.block.column
    generalize (c.resolve q.block.column).1 = found at hres
    generalize (c.resolve q.block.column).2 = d at hres
    cases hres <;> exact ⟨rfl, Or.inl rfl⟩
  | @answer found stage =>
    cases found with
    | some regions => exact ⟨rfl, Or.inl rfl⟩
    | none => exact ⟨rfl, Or.inr ⟨q.block, rfl⟩⟩
  | compare stage => exact ⟨rfl, Or.inr ⟨q.block, rfl⟩⟩

theorem Inquiry.Step.filed (hs : q.Step c q' c') (hf : Filed c) : Filed c' := by
  have hsame : ∀ {d : Cache σ}, d = { c with store := d.store, counters := d.counters } → Filed d := by
    intro d hd
    rw [hd]
    exact hf.of_frame rfl rfl rfl hf.recent fun k v hv => Or.inl ⟨k, hv⟩
  cases hs with
  | lookUp stage => exact (hf.resolved (c.resolved q.block.column)).1
  | @answer found stage => cases found <;> exact hsame rfl
  | compare stage => exact hsame rfl

end

/-- what a query has come to by now is what it ought to be, or leads to that -/
def Inquiry.Honest (P : Prompt) (q : Inquiry) : Prop :=
  match q.stage with
  | .unasked => True
  | .found found => ∀ regions, found = some regions →
      Region.inLayers (regions.filter (·.contains q.block)) = P.regionsAt q.block
  | .answered cached => cached = P.regionsAt q.block
  | .compared cached expected =>
      cached = P.regionsAt q.block ∧ expected = P.regionsAt q.block

/-- a query that is over and honest has nothing amiss -/
theorem Inquiry.Honest.finding? {P : Prompt} {q : Inquiry} (h : q.Honest P) (hover : q.isOver = true) :
    q.finding? = some ⟨(P.regionsAt q.block).length, none⟩ := by
  obtain ⟨cached, expected, hstage⟩ := stage_of_isOver hover
  rw [Inquiry.Honest, hstage] at h
  obtain ⟨rfl, rfl⟩ := h
  rw [Inquiry.finding?, hstage]
  exact congrArg (fun mismatch => some (Finding.mk (P.regionsAt q.block).length mismatch)) (if_pos rfl)

/-! ## whatever is loaded -/

section
variable {σ : Type} [RegionStore σ] [ExactStore σ]

/-- queries are asked of a cache that answers exactly, by a host at rest -/
structure Asked (P : Prompt) (queries : List Inquiry) (s : Scene σ) : Prop where
  exact : Exact s
  rest : s.doing.AtRest
  values : RegionStore.values s.cache.store.store = P.table.contents.regions
  honest : ∀ q ∈ queries, q.Honest P

variable {P : Prompt} {queries before after : List Inquiry} {q q' : Inquiry} {c' : Cache σ}
  {s s' : Scene σ}

theorem Asked.regionsOver (h : Asked P queries s) (p : Block) :
    s.cache.regionsOver p = P.regionsAt p := by
  rw [Cache.regionsOver, h.values]
  rfl

theorem Asked.aside (h : Asked P queries s) (hs : Aside s s') : Asked P queries s' := by
  have rest : s'.doing.AtRest := hs.doing ▸ h.rest
  have hvalues := (hs.step.store h.exact.store).2.resolve_left rest.ne_writing
  exact ⟨h.exact.step hs.step, rest, hvalues.trans h.values, h.honest⟩

/-- a step of a query brings it closer to the right answer -/
theorem Asked.honest_step (h : Asked P queries s) (hq : q.Honest P) (hs : q.Step s.cache q' c') :
    q'.Honest P := by
  cases hs with
  | lookUp stage =>
    rintro regions hfound
    rw [h.exact.resolved h.rest.ne_writing (s.cache.resolved q.block.column) regions hfound,
      Cache.columnRegions_filter h.exact.store q.block, ← h.regionsOver q.block]
    exact Region.inLayers_of_pairwise (Region.pairwise_inLayers _)
  | @answer found stage =>
    rw [Inquiry.Honest, stage] at hq
    cases found with
    | some regions =>
      show (s.cache.answer q.block (some regions)).1 = _
      rw [Cache.answer_some]
      exact hq regions rfl
    | none => exact (Cache.answer_exact h.exact.store q.block none nofun).1.trans (h.regionsOver q.block)
  | @compare cached stage =>
    rw [Inquiry.Honest, stage] at hq
    refine ⟨hq, Eq.trans ?_ (h.regionsOver q.block)⟩
    exact ExactStore.inLayers_containing h.exact.store q.block

/-- **A step of a query keeps what the others rely on.** -/
theorem Asked.asks (h : Asked P (before ++ q :: after) s) (hs : q.Step s.cache q' c') :
    Asked P (before ++ q' :: after) { s with cache := c' } := by
  have hbrowses := hs.browses
  have hvalues := (hbrowses.store_kept h.exact.store).2
  refine ⟨h.exact.browsed hbrowses (hs.filed h.exact.filed), h.rest, hvalues.trans h.values, ?_⟩
  have hothers := h.honest
  simp only [List.forall_mem_append, List.forall_mem_cons] at hothers ⊢
  exact ⟨hothers.1, h.honest_step hothers.2.1 hs, hothers.2.2⟩

/-- **Honest queries find nothing amiss**, and are counted unless they find too much. -/
theorem Asked.checked {t : Trial σ} (h : Asked P t.queries t.scene)
    (hover : ∀ q ∈ t.queries, q.isOver = true) {found : ℕ}
    (hfound : found = (t.queries.map fun q => (P.regionsAt q.block).length).sum) :
    t.checked =
      if found < 2 ^ 64 then .ok (.ofCounts t.queries.length found []) else .error .overflow := by
  have hfindings : t.queries.filterMap Inquiry.finding? =
      (t.queries.map Inquiry.block).map fun p => ⟨(P.regionsAt p).length, none⟩ :=
    Inquiry.filterMap_finding? fun q hq => (h.honest q hq).finding? (hover q hq)
  have htotal : Finding.total (t.queries.filterMap Inquiry.finding?) = found := by
    rw [hfindings, Finding.total, List.map_map, List.map_map, hfound]
    rfl
  have hplaces : Finding.places (t.queries.filterMap Inquiry.finding?) = [] := by
    rw [hfindings, Finding.places, List.filterMap_map]
    exact List.filterMap_eq_nil_iff.mpr fun _ _ => rfl
  have hlength : (t.queries.filterMap Inquiry.finding?).length = t.queries.length := by
    rw [hfindings, List.length_map, List.length_map]
  rw [Trial.checked, CrossCheck.tally_eq, CrossCheck.ofFindings, htotal, hplaces, hlength]

/-! ## when all is loaded -/

variable [Tabled σ]

/-- all that is asked for is loaded, and nothing else is going on -/
structure Polled (P : Prompt) (queries : List Inquiry) (s : Scene σ) : Prop
    extends Asked P queries s where
  settled : ∃ hits containing, Settled { P with hits, containing } s.cache
  known : ∀ q ∈ queries, q.block.column ∈ P.known
  found : ∀ q ∈ queries, q.stage ≠ .found none

theorem Polled.aside (h : Polled P queries s) (hs : Aside s s') : Polled P queries s' := by
  obtain ⟨hits, containing, hsettled⟩ := h.settled
  exact ⟨h.toAsked.aside hs, ⟨hits, containing, hsettled.aside h.exact.custody.sound hs⟩, h.known,
    h.found⟩

/-- **While all is loaded a step of a query leaves it so**, and finds its column. -/
theorem Polled.asks (h : Polled P (before ++ q :: after) s) (hs : q.Step s.cache q' c') :
    Polled P (before ++ q' :: after) { s with cache := c' } := by
  obtain ⟨hits, containing, hsettled⟩ := h.settled
  have hmem : q ∈ before ++ q :: after := List.mem_append_right _ List.mem_cons_self
  have hstep : (∃ hits containing, Settled { P with hits, containing } c') ∧
      q'.stage ≠ .found none := by
    cases hs with
    | lookUp stage =>
      obtain ⟨regions, hfound, hafter⟩ := hsettled.resolve_known h.exact.filed (h.known q hmem)
      refine ⟨⟨_, _, hafter⟩, ?_⟩
      rw [hfound]
      exact nofun
    | @answer found stage =>
      cases found with
      | some regions => exact ⟨⟨_, _, hsettled⟩, nofun⟩
      | none => exact absurd stage (h.found q hmem)
    | compare stage => exact ⟨⟨_, _, hsettled.consult q.block⟩, nofun⟩
  have hknown := h.known
  have hfound := h.found
  simp only [List.forall_mem_append, List.forall_mem_cons] at hknown hfound
  refine ⟨h.toAsked.asks hs, hstep.1, ?_, ?_⟩ <;>
    simp only [List.forall_mem_append, List.forall_mem_cons]
  · rw [hs.block]
    exact hknown
  · exact ⟨hfound.1, hstep.2, hfound.2.2⟩

end
end Probe
end Precinct
