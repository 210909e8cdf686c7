import Mathlib
import Precinct.Proofs.Cache.Exactness
import Precinct.Proofs.Cache.Idle
import Precinct.Proofs.Store.Choice

/-!
# Caches whose store is changed behind their back

* `UnhintedStore`      a store for which hints are nothing;
* `StoreOp.performBehind_eq`  what goes behind the back of a cache changes its store and nothing else;
* `Tended`             what is so of a scene whatever was done to its store behind the cache;
* `Cache.Browsed`      what a query does to a cache: `Tended.browsed`, and `Exact.browsed`;
* `Tended.regionsAt_eq`  a cache that knows no column answers exactly all the same;
* `Tended.exact`       **once the columns are forgotten all answers are exact again**;
* `Cache.Hosts`        so it is of some scene with the cache in which the host is at rest
                       (`Undergone.tended`, `Undergone.exact`).

A sheet that was loaded before such a change may contradict the store ever after, and what a survey is
about to publish may do so too, until an epoch begins.
-/

namespace Precinct

/-- a plain store stays sound whatever a host says about columns -/
class UnhintedStore (σ : Type) [RegionStore σ] [ExactStore σ] : Prop where
  sound_hint : ∀ {s : σ} (h : Hint), ExactStore.Sound s → ExactStore.Sound (RegionStore.hint s h)

instance : UnhintedStore Table := ⟨fun _ h => h⟩

instance : UnhintedStore Tree := ⟨fun _ h => h⟩

instance {κ : Type} [LinearOrder κ] {index : SpatialIndex κ} [index.Exact] :
    UnhintedStore (Indexed index) := ⟨fun _ h => h⟩

instance : UnhintedStore Choice where
  sound_hint {s} h hs := by
    cases s with
    | table t => exact hs
    | tree t => exact hs
    | cached c => exact hs.elim

section
variable {σ : Type} [RegionStore σ] [ExactStore σ] [UnhintedStore σ]

/-! ## behind the back of a cache -/

omit [UnhintedStore σ] in
theorem ExactStore.sound_purge {regions : List Region} {p : RegionStore.Purge σ} (removal : Removal)
    (h : Sound p.store) :
    Sound (visitEach (RegionStore.Purge.visit removal) regions p).store :=
  visitEach_induct (P := fun q : RegionStore.Purge σ => Sound q.store)
    (fun r _ hp => sound_write (.remove r.id removal) hp) regions h

theorem StoreOp.sound_perform (op : StoreOp) {s : σ} (h : ExactStore.Sound s) (shelf : Shelf) :
    ExactStore.Sound (op.perform s shelf).2.1 := by
  cases op with
  | add r => exact ExactStore.sound_write (.add r) h
  | addAll regions => exact ExactStore.sound_write (.addAll regions) h
  | remove id removal => exact ExactStore.sound_write (.remove id removal) h
  | setDirty dirty => exact ExactStore.sound_chore (.setDirty dirty) h
  | visitContaining p limit => exact ExactStore.sound_containing h p
  | visitIntersecting r limit => exact ExactStore.sound_intersecting h r
  | purgeContaining p removal => exact ExactStore.sound_purge removal (ExactStore.sound_containing h p)
  | purgeAll removal => exact ExactStore.sound_purge removal h
  | takeLedger name => exact ExactStore.sound_chore .takeLedger h
  | restoreShelved name => exact ExactStore.sound_chore (.restoreLedger (shelf[name]?.getD {})) h
  | restoreLedger l => exact ExactStore.sound_chore (.restoreLedger l) h
  | hint hint => exact UnhintedStore.sound_hint hint h
  | contains | get | values | size | isDirty | visitAll => exact h

/-- what goes behind the back of a cache changes its store and nothing else -/
theorem StoreOp.performBehind_eq (op : StoreOp) (c : Cache σ) (shelf : Shelf) :
    ∃ store : Watched σ, (op.performBehind c shelf).2.1 = { c with store } ∧
      (ExactStore.Sound c.store.store → ExactStore.Sound store.store) := by
  have hdirect : ExactStore.Sound c.store.store →
      ExactStore.Sound (op.perform c.store.store shelf).2.1 := fun h => op.sound_perform h shelf
  cases op with
  | visitIntersecting r limit =>
    have hasked : (c.store.enter .owner).collect r = c.store.intersecting r := rfl
    refine ⟨(c.store.intersecting r).2, ?_, (Watched.collect_store hasked).2⟩
    rw [performBehind]
    cases hr : c.intersecting r with
    | mk answer d =>
      have hd : d = (c.intersecting r).2 := by rw [hr]
      cases answer <;> exact hd
  | _ => exact ⟨_, rfl, hdirect⟩

end

/-! ## what is so whatever was done -/

section
variable {σ : Type} [RegionStore σ] [ExactStore σ] {s s' : Scene σ} {c c' : Cache σ}

/-- what is so of a scene whatever was done to its store behind the cache -/
structure Tended (s : Scene σ) : Prop where
  custody : Custody s
  store : ExactStore.Sound s.cache.store.store
  filed : Filed s.cache

theorem Exact.tended (h : Exact s) : Tended s := ⟨h.custody, h.store, h.filed⟩

theorem Tended.step (h : Tended s) (hs : Step s s') : Tended s' :=
  ⟨h.custody.step hs, (hs.store h.store).1, h.filed.step h.custody.toCrews hs⟩

/-- what leaves the pools alone leaves a scene tended -/
theorem Tended.of_frame (h : Tended s) {c : Cache σ} (hsettings : c.settings = s.cache.settings)
    (hpools : c.pools = s.cache.pools) (hcurrent : c.current = s.cache.current)
    (hdismissed : c.dismissed = s.cache.dismissed) (hsound : ExactStore.Sound c.store.store)
    (hfiled : Filed c) : Tended { s with cache := c } := by
  have hcrews : Crews { s with cache := c } :=
    h.custody.toCrews.of_reshaped (.of_pools hpools hcurrent) hsettings id
  exact ⟨h.custody.of_pools hcrews hpools hcurrent hdismissed rfl (Or.inl rfl), hsound, hfiled⟩

theorem Tended.of_store (h : Tended s) {store : Watched σ} (hsound : ExactStore.Sound store.store) :
    Tended { s with cache := { s.cache with store } } :=
  h.of_frame rfl rfl rfl rfl hsound
    (h.filed.of_frame rfl rfl rfl h.filed.recent fun k _ hv => Or.inl ⟨k, hv⟩)

/-- what a query does to a cache: which sheet answered last, what was counted, and that the store was
asked -/
structure Cache.Browsed (c c' : Cache σ) : Prop where
  others : c' = { c with store := c'.store, recent := c'.recent, counters := c'.counters }
  store : c'.store.store = c.store.store ∨
    ∃ p, c'.store.store = (RegionStore.containing c.store.store p).2

theorem Cache.Browsed.store_kept (h : c.Browsed c') (hs : ExactStore.Sound c.store.store) :
    ExactStore.Sound c'.store.store ∧
      RegionStore.values c'.store.store = RegionStore.values c.store.store := by
  rcases h.store with he | ⟨p, he⟩ <;> rw [he]
  · exact ⟨hs, rfl⟩
  · exact ⟨ExactStore.sound_containing hs p, ExactStore.values_containing _ p⟩

theorem Tended.browsed (h : Tended s) (hb : s.cache.Browsed c') (hf : Filed c') :
    Tended { s with cache := c' } := by
  have hsound := (hb.store_kept h.store).1
  have hothers := hb.others
  rw [hothers] at hf ⊢
  exact h.of_frame rfl rfl rfl rfl hsound hf

/-- **A query leaves sheets and answers as exact as they were.** -/
theorem Exact.browsed (h : Exact s) (hb : s.cache.Browsed c') (hf : Filed c') :
    Exact { s with cache := c' } := by
  obtain ⟨hcustody, hstore, hfiled⟩ := h.tended.browsed hb hf
  have hvalues := (hb.store_kept h.store).2
  have hcolumns : ∀ column, c'.columnRegions column = s.cache.columnRegions column := fun column => by
    rw [Cache.columnRegions, Cache.columnRegions, hvalues]
  have hover : ∀ p, c'.regionsOver p = s.cache.regionsOver p := fun p => by
    rw [Cache.regionsOver, Cache.regionsOver, hvalues]
  refine ⟨hcustody, hstore, hfiled, fun hw => ?_, fun p regions hd => ?_, fun p regions hd => ?_⟩
  · have hsaid : Reported (fun column regions => regions = c'.columnRegions column) s.cache :=
      (h.current hw).mono fun column regions hr => hr.trans (hcolumns column).symm
    have hothers := hb.others
    refine hsaid.of_frame ?_ ?_ fun k v hv => Or.inl ⟨k, ?_⟩
    · rw [hothers]
    · rw [hothers]
    · rw [hothers] at hv
      exact hv
  · exact (h.asked p regions hd).trans (hcolumns p.column).symm
  · exact (h.answered p regions hd).trans (hover p).symm

/-- **Once the columns are forgotten** there is nothing left that the store might contradict. -/
theorem Tended.exact (h : Tended s) (rest : s.doing.AtRest) :
    Exact { s with cache := s.cache.dropAll, doing := .nothing } := by
  obtain ⟨hcustody, hstore, hfiled⟩ := h.step (.dropAll rest)
  exact ⟨hcustody, hstore, hfiled, fun _ => reported_turn s.cache, nofun, nofun⟩

/-- as long as no column is known it is the store that answers -/
theorem Tended.regionsAt_eq (h : Tended s) (hnone : s.cache.knownColumns = 0) (p : Block) :
    (s.cache.regionsAt p).1 = s.cache.regionsOver p := by
  -- the sheet that answered last is the sheet of a known column, so there is none
  refine Cache.regionsAt_exact h.store p fun regions hf => ?_
  obtain ⟨i, hi, -⟩ := (h.filed.resolved (s.cache.resolved p.column)).2 regions hf
  rw [Cache.sheetOf?, Grid.get?_of_size_eq_zero hnone] at hi
  cases hi

/-! ## what a cache has undergone -/

/-- something is so of a scene with the cache in which the host is at rest -/
def Cache.Hosts (P : Scene σ → Prop) (c : Cache σ) : Prop :=
  ∃ s, P s ∧ s.doing.AtRest ∧ s.cache = c

variable {P : Scene σ → Prop} {behind : Prop}

/-- what every step keeps is so after every operation; of what is done behind the back of a cache only
the store can tell -/
theorem Cache.Undergoes.hosts [UnhintedStore σ] (h : c.Undergoes behind c')
    (hstep : ∀ s s', P s → Step s s' → P s')
    (hbehind : behind → ∀ (s : Scene σ) (store : Watched σ), P s →
      (ExactStore.Sound s.cache.store.store → ExactStore.Sound store.store) →
      P { s with cache := { s.cache with store } })
    (hc : c.Hosts P) : c'.Hosts P := by
  obtain ⟨s, hs, rest, rfl⟩ := hc
  cases h with
  | itself stirs =>
    cases stirs with
    | works makes => exact ⟨_, hstep s _ hs (.work makes), rest, rfl⟩
    | ages ms => exact ⟨_, hstep s _ hs (.elapse ms), rest, rfl⟩
  | performs op shelf through =>
    -- all other operations are runs of steps
    by_cases hop : ∃ o, op = .behind o
    · obtain ⟨o, rfl⟩ := hop
      obtain ⟨store, he, hsound⟩ := o.performBehind_eq s.cache shelf
      exact ⟨_, hbehind (through o rfl) s store hs hsound, rest, he.symm⟩
    · obtain ⟨s', hreach, rest', he⟩ :=
        Scene.leads_perform op (fun o ho => hop ⟨o, ho⟩) shelf rest
      exact ⟨s', hreach.invariant hstep hs, rest', he⟩

theorem Cache.Undergone.tended [UnhintedStore σ] (h : c.Undergone behind c') (hc : c.Hosts Tended) :
    c'.Hosts Tended := by
  induction h with
  | refl => exact hc
  | tail _ hlast ih =>
    refine hlast.hosts (fun _ _ => Tended.step) (fun _ s store hs hsound => ?_) ih
    exact hs.of_store (hsound hs.store)

theorem Cache.Undergone.exact [UnhintedStore σ] (h : c.Undergone False c') (hc : c.Hosts Exact) :
    c'.Hosts Exact := by
  induction h with
  | refl => exact hc
  | tail _ hlast ih => exact hlast.hosts (fun _ _ => Exact.step) False.elim ih

theorem Cache.Hosts.exact_dropAll (h : c.Hosts Tended) : c.dropAll.Hosts Exact := by
  obtain ⟨s, hs, rest, rfl⟩ := h
  exact ⟨_, hs.exact rest, trivial, rfl⟩

theorem Cache.Hosts.tended (h : c.Hosts Exact) : c.Hosts Tended := by
  obtain ⟨s, hs, rest, rfl⟩ := h
  exact ⟨s, hs.tended, rest, rfl⟩

theorem Cache.hosts_ofSettings {store : σ} (h : ExactStore.Sound store) (settings : Settings) :
    (Cache.ofSettings store settings).Hosts Tended := ⟨_, (exact_start h settings).tended, trivial, rfl⟩

theorem Cache.Hosts.answers (h : c.Hosts Exact) (p : Block) : c.Answers p (c.regionsAt p).1 := by
  obtain ⟨s, hs, rest, rfl⟩ := h
  rw [hs.regionsAt_eq rest.ne_writing p]
  exact Cache.answers_regionsOver hs.store p

theorem Cache.Hosts.answers_of_unknown (h : c.Hosts Tended) (hnone : c.knownColumns = 0) (p : Block) :
    c.Answers p (c.regionsAt p).1 := by
  obtain ⟨s, hs, rest, rfl⟩ := h
  rw [hs.regionsAt_eq hnone p]
  exact Cache.answers_regionsOver hs.store p

omit [RegionStore σ] [ExactStore σ] in
theorem Cache.knownColumns_dropAll (c : Cache σ) : c.dropAll.knownColumns = 0 := Grid.size_empty

/-- a store that was only asked has the regions that it had -/
theorem Cache.LeftAlone.values (h : c.LeftAlone c') :
    RegionStore.values c'.store.store = RegionStore.values c.store.store := by
  obtain ⟨-, -, -, -, -, hasked, -, -⟩ := h
  generalize c'.store.store = t at hasked
  induction hasked with
  | refl => rfl
  | tail _ hlast ih =>
    obtain ⟨column, rfl⟩ := hlast
    rw [ExactStore.values_intersecting, ih]

end
end Precinct
