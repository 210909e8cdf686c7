import Mathlib
import Precinct.Proofs.Cache.Tended
import Precinct.Proofs.Probe.Poll

/-!
# Cross-checks of a cache that may be stale

* `CrossCheck.Tells`   a report that counts the places, the regions named and the disagreements, and
                       keeps the first few of these: `tells_ofFindings`;
* `CrossCheck.Told`    what comes of a cross-check: such a report, or that it is too large;
* `Scene.Meddled`      a step of a scene, or a change of the store behind its cache;
* `Unmoved`            the invariant of queries side by side: neither they nor idle workers touch what
                       an answer comes from.  `Unmoved.asks` is a step of a query, `Unmoved.aside` of
                       anything else;
* `Checking`           so every query comes to what would have been answered at first, also if that is
                       wrong;
* `crossCheck_told`    **the report of a cross-check**, and every order of its queries has the same.

A sheet that is loaded answers a query whether the sheet that answered last is asked before it or not, for
that one is the sheet of its column.  So an answer is a matter of columns, sheets and the regions of the
store, and with no survey left nobody changes those.
-/

namespace Precinct
open Relation (ReflTransGen)

/-! ## reports -/

namespace CrossCheck

/-- whether two answers for a place name other regions, or the same ones in another order -/
def disagree (cached expected : Block → List Region) (p : Block) : Bool :=
  (cached p).map Region.id != (expected p).map Region.id

/-- what a report says of answers of a cache and of its store -/
structure Tells (check : CrossCheck) (points : List Block) (cached expected : Block → List Region) :
    Prop where
  queries : check.queries = points.length
  matchesFound : check.matchesFound.toNat = (points.map fun p => (cached p).length).sum
  mismatches : check.mismatches = points.countP (disagree cached expected)
  /-- the first places of disagreement, in the order in which they are listed -/
  samples : check.samples =
    (points.filter (disagree cached expected)).take (min 10 check.mismatches)
  passed : check.passed = true ↔
    ∀ p ∈ points, (cached p).map Region.id = (expected p).map Region.id

/-- what comes of a cross-check: a report, unless there is no room for the findings or more regions are
named than 64 bits can count -/
structure Told (outcome : Except Fault CrossCheck) (points : List Block)
    (cached expected : Block → List Region) : Prop where
  reports : (∃ check, outcome = .ok check) ↔ points.length * Finding.bytes ≤ maxBytes ∧
    (points.map fun p => (cached p).length).sum < 2 ^ 64
  tells : ∀ check, outcome = .ok check → check.Tells points cached expected
  capacity : outcome = .error .capacity ↔ maxBytes < points.length * Finding.bytes
  broken : ∀ fault, outcome = .error fault → fault = .capacity ∨ fault = .overflow

variable {cached expected : Block → List Region}

theorem mismatch_ofAnswers (p : Block) :
    (Finding.ofAnswers p (cached p) (expected p)).mismatch =
      Option.guard (disagree cached expected) p := by
  rw [Finding.ofAnswers, Option.guard, disagree]
  by_cases h : (cached p).map Region.id = (expected p).map Region.id
  · rw [if_pos h, if_neg (by rw [h, bne_self_eq_false]; exact Bool.false_ne_true)]
  · rw [if_neg h, if_pos (bne_iff_ne.mpr h)]

/-- **What a report says** of one finding for each place. -/
theorem tells_ofFindings {points : List Block} {findings : List Finding}
    (hfindings : findings = points.map fun p => .ofAnswers p (cached p) (expected p))
    (hfits : Finding.total findings < 2 ^ 64) :
    Tells (ofFindings findings) points cached expected := by
  have hplaces : Finding.places findings = points.filter (disagree cached expected) := by
    rw [hfindings, Finding.places, List.filterMap_map, ← List.filterMap_eq_filter]
    exact List.filterMap_congr fun p _ => mismatch_ofAnswers p
  have hmismatches : (Finding.places findings).length = points.countP (disagree cached expected) := by
    rw [hplaces, List.countP_eq_length_filter]
  refine ⟨?_, ?_, hmismatches, ?_, ?_⟩
  · show findings.length = points.length
    rw [hfindings, List.length_map]
  · refine (toNat_matchesFound hfits).trans ?_
    rw [Finding.total, hfindings, List.map_map]
    rfl
  · show List.take 10 (Finding.places findings) = List.take (min 10 (Finding.places findings).length) _
    rw [← hplaces, ← List.take_take, List.take_length]
  · show ((Finding.places findings).length == 0) = true ↔ _
    rw [beq_iff_eq, hmismatches, List.countP_eq_zero]
    simp only [disagree, bne_iff_ne, ne_eq, not_not]

variable {points : List Block}

theorem told_ok {check : CrossCheck} (hroom : points.length * Finding.bytes ≤ maxBytes)
    (hfits : (points.map fun p => (cached p).length).sum < 2 ^ 64)
    (h : check.Tells points cached expected) : Told (.ok check) points cached expected := by
  refine ⟨iff_of_true ⟨check, rfl⟩ ⟨hroom, hfits⟩, fun other he => ?_,
    iff_of_false (fun he => ?_) (Nat.not_lt.mpr hroom), fun fault he => ?_⟩
  · cases he
    exact h
  · cases he
  · cases he

theorem told_error {fault : Fault}
    (hlarge : ¬(points.length * Finding.bytes ≤ maxBytes ∧
      (points.map fun p => (cached p).length).sum < 2 ^ 64))
    (hcapacity : fault = .capacity ↔ maxBytes < points.length * Finding.bytes)
    (hfault : fault = .capacity ∨ fault = .overflow) :
    Told (.error fault) points cached expected := by
  have hinj : Except.error (α := CrossCheck) fault = .error .capacity ↔ fault = .capacity := by
    rw [Except.error.injEq]
  refine ⟨iff_of_false (fun he => ?_) hlarge, fun check he => ?_, hinj.trans hcapacity,
    fun other he => ?_⟩
  · obtain ⟨check, he⟩ := he
    cases he
  · cases he
  · cases he
    exact hfault

/-- **What comes of a cross-check** that found this for each place. -/
theorem told_crossCheck {σ : Type} [RegionStore σ] {c : Cache σ}
    (hfindings : (c.checkAll [] points).1 = points.map fun p => .ofAnswers p (cached p) (expected p)) :
    Told (c.crossCheck points).1 points cached expected := by
  have htotal : Finding.total (c.checkAll [] points).1 =
      (points.map fun p => (cached p).length).sum := by
    rw [Finding.total, hfindings, List.map_map]
    rfl
  by_cases hroom : points.length * Finding.bytes ≤ maxBytes
  · rw [Cache.crossCheck_eq hroom, tally_eq]
    by_cases hfits : Finding.total (c.checkAll [] points).1 < 2 ^ 64
    · rw [if_pos hfits]
      exact told_ok hroom (htotal ▸ hfits) (tells_ofFindings hfindings hfits)
    · rw [if_neg hfits]
      refine told_error (fun h => hfits (htotal ▸ h.2)) ?_ (Or.inr rfl)
      exact iff_of_false (by decide) (Nat.not_lt.mpr hroom)
  · rw [Cache.crossCheck_of_no_room (Nat.not_le.mp hroom)]
    exact told_error (fun h => hroom h.1) (iff_of_true rfl (Nat.not_le.mp hroom)) (Or.inl rfl)

end CrossCheck

/-! ## caches whose store is changed behind their back -/

section
variable {σ : Type} [RegionStore σ]

/-- a step of a scene, or something done to its store behind its cache -/
inductive Scene.Meddled (s : Scene σ) : Scene σ → Prop
  | step {s' : Scene σ} (step : Step s s') : Meddled s s'
  | behind (op : StoreOp) (shelf : Shelf) :
      Meddled s { s with cache := (op.performBehind s.cache shelf).2.1 }

variable [ExactStore σ] {s s₀ s' : Scene σ} {c c' : Cache σ}

theorem Tended.meddled [UnhintedStore σ] (h : Tended s) (hs : s.Meddled s') : Tended s' := by
  cases hs with
  | step step => exact h.step step
  | behind op shelf =>
    obtain ⟨store, he, hsound⟩ := op.performBehind_eq s.cache shelf
    rw [he]
    exact h.of_store (hsound h.store)

theorem tended_of_meddled [UnhintedStore σ] {store : σ} (sound : ExactStore.Sound store)
    {settings : Settings}
    (reach : ReflTransGen Scene.Meddled (.start (Cache.ofSettings store settings)) s) : Tended s := by
  induction reach with
  | refl => exact (exact_start sound settings).tended
  | tail _ hlast ih => exact ih.meddled hlast

/-! ## what answers come from -/

omit [RegionStore σ] [ExactStore σ] in
/-- the sheet that answered last answers what the column's own sheet does -/
theorem Filed.resolve_eq (hf : Filed c) (column : Column) :
    (c.resolve column).1 = (c.sheetOf? column).bind fun i => (c.sheet i).regions := by
  cases hr : (c.resolve column).1 with
  | some regions =>
    obtain ⟨i, hi, hregions⟩ := (hf.resolved (c.resolved column)).2 regions hr
    rw [hi]
    exact hregions.symm
  | none =>
    have hloaded := Cache.isSome_resolve hf column
    rw [hr, Cache.isLoaded] at hloaded
    cases hi : c.sheetOf? column with
    | none => rfl
    | some i =>
      rw [hi, Option.any_some, Sheet.isLoaded, Option.isSome_none, eq_comm] at hloaded
      exact (Option.isSome_eq_false_iff.mp hloaded |> Option.isNone_iff_eq_none.mp).symm

/-- whoever answers, only the regions of the store count -/
theorem Cache.answer_congr (hs : ExactStore.Sound c.store.store) (hs' : ExactStore.Sound c'.store.store)
    (hvalues : RegionStore.values c'.store.store = RegionStore.values c.store.store) (p : Block)
    (found : Option (List Region)) : (c'.answer p found).1 = (c.answer p found).1 := by
  cases found with
  | some regions => rw [answer_some, answer_some]
  | none =>
    rw [(answer_exact hs' p none nofun).1, (answer_exact hs p none nofun).1, regionsOver, regionsOver,
      hvalues]

theorem Cache.storeAnswer_congr (hs : ExactStore.Sound c.store.store)
    (hs' : ExactStore.Sound c'.store.store)
    (hvalues : RegionStore.values c'.store.store = RegionStore.values c.store.store) (p : Block) :
    (c'.storeAnswer p).1 = (c.storeAnswer p).1 := by
  show Region.inLayers (RegionStore.containing c'.store.store p).1 =
    Region.inLayers (RegionStore.containing c.store.store p).1
  rw [ExactStore.inLayers_containing hs', ExactStore.inLayers_containing hs, hvalues]

/-! ## what nobody touches -/

/-- nothing that an answer comes from was touched, and no survey is left that could -/
structure Unmoved (s₀ s : Scene σ) : Prop where
  tended : Tended s
  rest : s.doing.AtRest
  idle : ∀ k, (s.cache.pool k).jobs = []
  columns : s.cache.columns = s₀.cache.columns
  sheets : s.cache.sheets = s₀.cache.sheets
  values : RegionStore.values s.cache.store.store = RegionStore.values s₀.cache.store.store

theorem Unmoved.resolve_eq (h : Unmoved s₀ s) (h₀ : Tended s₀) (column : Column) :
    (s.cache.resolve column).1 = (s₀.cache.resolve column).1 := by
  rw [h.tended.filed.resolve_eq, h₀.filed.resolve_eq, Cache.sheetOf?_congr h.columns]
  simp only [Cache.sheet_congr h.sheets]

theorem Tended.answer_resolved (h : Tended s) (p : Block) :
    (s.cache.answer p (s.cache.resolve p.column).1).1 = (s.cache.regionsAt p).1 := by
  obtain ⟨hstore, -⟩ := (s.cache.resolved p.column).frame
  rw [Cache.regionsAt_eq]
  exact (Cache.answer_congr h.store (hstore ▸ h.store) (by rw [hstore]) p _).symm

/-- **No answer has changed.** -/
theorem Unmoved.answers (h : Unmoved s₀ s) (h₀ : Tended s₀) (p : Block) :
    (s.cache.regionsAt p).1 = (s₀.cache.regionsAt p).1 ∧
      (s.cache.storeAnswer p).1 = (s₀.cache.storeAnswer p).1 := by
  refine ⟨?_, Cache.storeAnswer_congr h₀.store h.tended.store h.values p⟩
  rw [← h.tended.answer_resolved, ← h₀.answer_resolved, h.resolve_eq h₀]
  exact Cache.answer_congr h₀.store h.tended.store h.values p _

/-- **Idle workers touch nothing**, nor does the time that passes. -/
theorem Unmoved.aside (h : Unmoved s₀ s) (hs : Aside s s') : Unmoved s₀ s' := by
  have htended := h.tended.step hs.step
  have hsound := h.tended.custody.sound
  have hrest : s'.doing.AtRest := hs.doing ▸ h.rest
  cases hs with
  | @work k number w c makes =>
    have hworked := Cache.worked_of_step? makes
    have hidle : ∀ j, (c.pool j).jobs = [] := fun j => by
      rcases hworked.pool j with he | ha
      · rw [he]
        exact h.idle j
      · exact ha.jobs_nil (hsound j) (h.idle j)
    rcases hworked.cases with ⟨m, p, -, rfl⟩ | ⟨v, r, d, hruns, -, -⟩
    · exact ⟨htended, hrest, hidle, h.columns, h.sheets, h.values⟩
    · exact absurd (h.idle k ▸ hruns.mem_jobs) List.not_mem_nil
  | elapse ms =>
    refine ⟨htended, hrest, fun k => ?_, h.columns, h.sheets, h.values⟩
    have hjobs := Cache.jobs_elapse (hsound k) ms
    rw [h.idle k] at hjobs
    exact hjobs.eq_nil
  | _ => exact ⟨htended, hrest, h.idle, h.columns, h.sheets, h.values⟩

end

/-! ## queries -/

section
variable {σ : Type} [RegionStore σ]

namespace Probe
variable {q q' : Inquiry} {c c' : Cache σ}

/-- what a query has come to by now is what it would have come to at first -/
def Inquiry.Unswayed (c : Cache σ) (q : Inquiry) : Prop :=
  match q.stage with
  | .unasked => True
  | .found found => found = (c.resolve q.block.column).1
  | .answered cached => cached = (c.regionsAt q.block).1
  | .compared cached expected =>
      cached = (c.regionsAt q.block).1 ∧ expected = (c.storeAnswer q.block).1

/-- what comes of a query that is over is what would have come of it at first -/
theorem Inquiry.Unswayed.finding? (h : q.Unswayed c) (hover : q.isOver = true) :
    q.finding? = some (.ofAnswers q.block (c.regionsAt q.block).1 (c.storeAnswer q.block).1) := by
  obtain ⟨cached, expected, hstage⟩ := stage_of_isOver hover
  rw [Inquiry.Unswayed, hstage] at h
  obtain ⟨rfl, rfl⟩ := h
  rw [Inquiry.finding?, hstage]

variable [ExactStore σ] {s s₀ : Scene σ} {t t' : Trial σ} {points : List Block}

/-- **A step of a query touches nothing** that an answer comes from. -/
theorem Unmoved.asks (h : Unmoved s₀ s) (hs : q.Step s.cache q' c') :
    Unmoved s₀ { s with cache := c' } := by
  have hbrowses := hs.browses
  have htended := h.tended.browsed hbrowses (hs.filed h.tended.filed)
  have hvalues := (hbrowses.store_kept h.tended.store).2
  have hothers := hbrowses.others
  refine ⟨htended, h.rest, ?_, ?_, ?_, hvalues.trans h.values⟩
  · rw [hothers]
    exact h.idle
  · rw [hothers]
    exact h.columns
  · rw [hothers]
    exact h.sheets

/-- a query that goes on comes to what it would have come to at first -/
theorem Inquiry.Unswayed.step (hq : q.Unswayed s₀.cache) (h : Unmoved s₀ s) (h₀ : Tended s₀)
    (hs : q.Step s.cache q' c') : q'.Unswayed s₀.cache := by
  unfold Inquiry.Unswayed at hq
  cases hs with
  | lookUp stage => exact h.resolve_eq h₀ q.block.column
  | @answer found stage =>
    rw [stage] at hq
    subst hq
    show (s.cache.answer q.block _).1 = (s₀.cache.regionsAt q.block).1
    rw [← h₀.answer_resolved]
    exact Cache.answer_congr h₀.store h.tended.store h.values q.block _
  | compare stage =>
    rw [stage] at hq
    exact ⟨hq, (h.answers h₀ q.block).2⟩

/-! ## cross-checks -/

/-- a cross-check about to begin -/
def Trial.checks (s : Scene σ) (points : List Block) : Trial σ := ⟨s, [], points.map .ofBlock⟩

/-- queries side by side, of which none can tell how far the others have come -/
structure Checking (s₀ : Scene σ) (points : List Block) (t : Trial σ) : Prop where
  prepared : t.ahead = []
  unmoved : Unmoved s₀ t.scene
  blocks : t.queries.map Inquiry.block = points
  unswayed : ∀ q ∈ t.queries, q.Unswayed s₀.cache

theorem Checking.step (h : Checking s₀ points t) (h₀ : Tended s₀) (hs : t.Step t') :
    Checking s₀ points t' := by
  cases hs with
  | begins rest listed next => cases h.prepared.symm.trans next
  | goesOn continues =>
    exact ⟨h.prepared, h.unmoved.aside (continues.aside h.unmoved.rest), h.blocks, h.unswayed⟩
  | @asks before after q q' c rest prepared among makes =>
    have hblocks := h.blocks
    have hunswayed := h.unswayed
    rw [among] at hblocks hunswayed
    simp only [List.forall_mem_append, List.forall_mem_cons] at hunswayed
    refine ⟨h.prepared, Unmoved.asks h.unmoved makes, ?_, ?_⟩
    · rw [← hblocks]
      simp only [List.map_append, List.map_cons, makes.block]
    · simp only [List.forall_mem_append, List.forall_mem_cons]
      exact ⟨hunswayed.1, hunswayed.2.1.step h.unmoved h₀ makes, hunswayed.2.2⟩

theorem checking_of_steps (h : Tended s₀) (rest : s₀.doing.AtRest)
    (idle : ∀ k, (s₀.cache.pool k).jobs = []) (hs : ReflTransGen Trial.Step (.checks s₀ points) t) :
    Checking s₀ points t := by
  induction hs with
  | refl =>
    refine ⟨rfl, ⟨h, rest, idle, rfl, rfl, rfl⟩, ?_, ?_⟩
    · show (points.map Inquiry.ofBlock).map Inquiry.block = points
      rw [List.map_map]
      exact List.map_id points
    · intro q hq
      obtain ⟨p, -, rfl⟩ := List.mem_map.mp hq
      trivial
  | tail _ hlast ih => exact ih.step h hlast

omit [ExactStore σ] in
theorem Trial.exists_finished {t : Trial σ} (prepared : t.ahead = []) (rest : t.scene.doing.AtRest) :
    ∃ u, ReflTransGen Step t u ∧ u.Finished := by
  obtain ⟨scene, ahead, queries⟩ := t
  obtain rfl : ahead = [] := prepared
  obtain ⟨u, hsteps, hfinished⟩ :=
    exists_asked (P := fun _ => True) (fun _ _ => trivial) rest trivial [] queries nofun
  exact ⟨u, ReflTransGen.mono (fun _ _ hstep => hstep.2.1) _ _ hsteps, hfinished⟩

/-- what was found is what would have been found at first -/
theorem Checking.findings (h : Checking s₀ points t) (hover : ∀ q ∈ t.queries, q.isOver = true) :
    t.queries.filterMap Inquiry.finding? = points.map fun p =>
      .ofAnswers p (s₀.cache.regionsAt p).1 (s₀.cache.storeAnswer p).1 := by
  rw [← h.blocks]
  exact Inquiry.filterMap_finding? fun q hq => (h.unswayed q hq).finding? (hover q hq)

/-- **A cross-check tells the disagreements** of a cache with its store, however stale the cache is, as
long as no survey is left.  Its queries may go on side by side in any order: no answer changes, each
order can be brought to an end, and the report is the same. -/
theorem crossCheck_told [UnhintedStore σ] {store : σ} (sound : ExactStore.Sound store)
    (settings : Settings)
    (reach : ReflTransGen Scene.Meddled (.start (Cache.ofSettings store settings)) s)
    (rest : s.doing.AtRest) (idle : ∀ k, (s.cache.pool k).jobs = []) (points : List Block) :
    CrossCheck.Told (s.cache.crossCheck points).1 points (fun p => (s.cache.regionsAt p).1)
      (fun p => (s.cache.storeAnswer p).1) ∧
    ∀ t, ReflTransGen Trial.Step (.checks s points) t →
      (∀ (q q' : Inquiry) c, q.Step t.scene.cache q' c → t.scene.cache.Browsed c) ∧
      (∀ p, (t.scene.cache.regionsAt p).1 = (s.cache.regionsAt p).1 ∧
        (t.scene.cache.storeAnswer p).1 = (s.cache.storeAnswer p).1) ∧
      (∃ u, ReflTransGen Trial.Step t u ∧ u.Finished) ∧
      (points.length * Finding.bytes ≤ maxBytes → t.Finished →
        t.checked = (s.cache.crossCheck points).1) := by
  have htended := tended_of_meddled sound reach
  -- asking one query after the other is one of the orders
  obtain ⟨queries, hover, hqueries, hsteps⟩ := Trial.steps_checkAll points [] rest []
  have hfindings := (checking_of_steps htended rest idle hsteps).findings hover
  have hall := hqueries.symm.trans hfindings
  refine ⟨CrossCheck.told_crossCheck hall, fun t ht => ?_⟩
  have hchecking := checking_of_steps htended rest idle ht
  refine ⟨fun q q' c hs => hs.browses, hchecking.unmoved.answers htended,
    Trial.exists_finished hchecking.prepared hchecking.unmoved.rest, fun hroom hfinished => ?_⟩
  rw [Cache.crossCheck_eq hroom, Trial.checked, hchecking.findings hfinished.2.2, hall]

/-! ## a region removed behind the back of a cache -/

/-- a cache that has surveyed the column of a region, which its store has no longer -/
def outdated : Cache Table :=
  ((StoreOp.remove "bar" .release).performBehind
    (Cache.surveyed (Table.ofRegions [Region.bar]) ⟨0, 3, 1⟩) ∅).2.1

/-- the column that is loaded disagrees with the store, another one does not -/
theorem outdated_told :
    (outdated.crossCheck [⟨0, 3, 1⟩, ⟨-17, 3, 1⟩, ⟨0, 3, 1⟩]).1 =
      .ok ⟨3, 2, 2, [⟨0, 3, 1⟩, ⟨0, 3, 1⟩]⟩ ∧
    ∃ s : Scene Table, s.cache = outdated ∧
      ∀ t, ReflTransGen Trial.Step (.checks s [⟨0, 3, 1⟩, ⟨-17, 3, 1⟩, ⟨0, 3, 1⟩]) t → t.Finished →
        t.checked = .ok ⟨3, 2, 2, [⟨0, 3, 1⟩, ⟨0, 3, 1⟩]⟩ := by
  have hcheck : (outdated.crossCheck [⟨0, 3, 1⟩, ⟨-17, 3, 1⟩, ⟨0, 3, 1⟩]).1 =
      .ok ⟨3, 2, 2, [⟨0, 3, 1⟩, ⟨0, 3, 1⟩]⟩ := by decide +kernel
  have hidle : ∀ k, (outdated.pool k).jobs = [] := by
    have hall : ∀ p ∈ outdated.pools, p.jobs = [] := by decide +kernel
    intro k
    rw [Cache.pool, Array.getD_eq_getD_getElem?]
    cases hk : outdated.pools[k]? with
    | none => rfl
    | some p => exact hall p (Array.mem_of_getElem? hk)
  obtain ⟨s, hreach, rest, hs⟩ := Scene.leads_surveyed (Table.ofRegions [Region.bar]) ⟨0, 3, 1⟩
  have hmeddled : ReflTransGen Scene.Meddled
      (.start (Cache.ofSettings (Table.ofRegions [Region.bar]) {})) { s with cache := outdated } := by
    rw [outdated, ← hs]
    exact (ReflTransGen.mono (fun _ _ => .step) _ _ hreach).tail (.behind (.remove "bar" .release) ∅)
  obtain ⟨-, horder⟩ := crossCheck_told (Table.keyed_ofRegions [Region.bar]) {} hmeddled rest hidle
    [⟨0, 3, 1⟩, ⟨-17, 3, 1⟩, ⟨0, 3, 1⟩]
  refine ⟨hcheck, { s with cache := outdated }, rfl, fun t ht hfinished => ?_⟩
  rw [(horder t ht).2.2.2 (by decide) hfinished]
  exact hcheck

end Probe
end
end Precinct
