import Mathlib
import Precinct.Proofs.Cache.Exactness
import Precinct.Proofs.Cache.Sturdy
import Precinct.Proofs.Store.Purge

/-!
# Visitors that remove through a cache

* `Cache.visitAt`      a visitor is shown the regions of a block, by a loaded sheet or by the store;
* `Cache.visitFound`   the second half of a visit, and `Cache.onShow` what it goes through;
* `Cache.Purge.visitAfter`  a removal, after something else was done to the cache;
* `Cache.PurgesAlike`  whoever shows the regions and in any order, the cache is purged as its store
                       is;
* `Cache.removes_visitAfter`  a removal through a cache takes what the table would lose;
* `Exact.onShow`       whoever answers, the regions that hold the block are gone through, by a sheet
                       in layer order;
* **`purgesAlike_of_reach`**  stores and caches are purged alike in every state that can be reached.

Every removal renews the cache, so from the second region on the column that is being gone through is
no longer loaded, or not even the same sheet.  The visitor does not notice: what it goes through was
collected, or is a sheet that nobody changes any more.
-/

namespace Precinct
open Relation (ReflTransGen)

namespace Cache
variable {σ τ : Type} [RegionStore σ]

/-- a visitor is shown the regions that hold a block: from a loaded sheet, or else from the store -/
def visitAt (c : Cache σ) (p : Block) (visitor : Region → τ → Bool × τ) (begin : Cache σ → τ) : τ :=
  match c.resolve p.column with
  | (some regions, c) => visitWhere (·.contains p) visitor regions (begin c)
  | (none, c) => visitEach visitor (c.fallBack p).1 (begin (c.fallBack p).2)

/-- the second half of a visit: what was found is shown, or else what the store holds -/
def visitFound (c : Cache σ) (p : Block) (visitor : Region → τ → Bool × τ) (begin : Cache σ → τ) :
    Option (List Region) → τ
  | some regions => visitWhere (·.contains p) visitor regions (begin c)
  | none => visitEach visitor (c.fallBack p).1 (begin (c.fallBack p).2)

theorem visitAt_eq_visitFound (c : Cache σ) (p : Block) (visitor : Region → τ → Bool × τ)
    (begin : Cache σ → τ) : c.visitAt p visitor begin =
      (c.resolve p.column).2.visitFound p visitor begin (c.resolve p.column).1 := by
  unfold visitAt
  cases hr : c.resolve p.column with
  | mk found d => cases found <;> rfl

/-- the regions that the second half of a visit goes through -/
def onShow (c : Cache σ) (p : Block) : Option (List Region) → List Region
  | some regions => regions.filter (·.contains p)
  | none => (c.fallBack p).1

theorem visitFound_eq (c : Cache σ) (p : Block) (visitor : Region → τ → Bool × τ)
    (begin : Cache σ → τ) (found : Option (List Region)) : c.visitFound p visitor begin found =
      visitEach visitor (c.onShow p found) (begin (c.answer p found).2) := by
  cases found with
  | some regions => exact visitWhere_eq (·.contains p) visitor regions (begin c)
  | none => rfl

/-- **What a visit goes through**, and in which cache it begins. -/
theorem visitAt_eq (c : Cache σ) (p : Block) (visitor : Region → τ → Bool × τ)
    (begin : Cache σ → τ) : c.visitAt p visitor begin =
      visitEach visitor ((c.resolve p.column).2.onShow p (c.resolve p.column).1)
        (begin ((c.resolve p.column).2.answer p (c.resolve p.column).1).2) := by
  rw [visitAt_eq_visitFound, visitFound_eq]

theorem purgeContaining_eq (c : Cache σ) (p : Block) (removal : Removal) :
    c.purgeContaining p removal = c.visitAt p (Purge.visit removal) fun c => { cache := c } := rfl

/-- a visitor that removes what it is shown, after something else was done to the cache -/
def Purge.visitAfter (meanwhile : Region → Cache σ → Cache σ) (removal : Removal) (r : Region)
    (q : Purge σ) : Bool × Purge σ :=
  Purge.visit removal r { q with cache := meanwhile r q.cache }

/-- whoever shows the regions of a block, and in any order, a cache is purged as its store is -/
structure PurgesAlike [Tabled σ] (c : Cache σ) : Prop where
  /-- also if queries, hints and the work of surveys come between -/
  anyOrder : ∀ (p : Block) (removal : Removal) (shown : List Region)
    (meanwhile : Region → Cache σ → Cache σ),
    (∀ r d, (Tabled.table (meanwhile r d)).contents = (Tabled.table d).contents) →
      shown.Perm ((RegionStore.values c).filter (·.contains p)) →
      (visitEach (Purge.visitAfter meanwhile removal) shown { cache := c }).fault = none →
      Purged removal (Tabled.table c).contents p
        (visitEach (noting (Purge.visitAfter meanwhile removal)) shown ([], { cache := c })).1
        (visitEach (Purge.visitAfter meanwhile removal) shown { cache := c }).removed
        (Tabled.table (visitEach (Purge.visitAfter meanwhile removal) shown
          { cache := c }).cache).contents
  asked : ∀ (p : Block) (removal : Removal), (c.purgeContaining p removal).fault = none →
    Purged removal (Tabled.table c).contents p
      (c.visitAt p (noting (Purge.visit removal)) fun c => ([], { cache := c })).1
      (c.purgeContaining p removal).removed
      (Tabled.table (c.purgeContaining p removal).cache).contents
  /-- nothing is broken off unless workers cannot be named -/
  unbroken : ¬HoldsZero c.settings.threadName →
    ∀ (p : Block) (removal : Removal), (c.purgeContaining p removal).fault = none

section
variable [Tabled σ]

theorem table_answer (c : Cache σ) (p : Block) (found : Option (List Region)) :
    Tabled.table (c.answer p found).2 = Tabled.table c := by
  cases found with
  | some regions => rfl
  | none => exact Tabled.table_containing c.store.store p

variable [TabledRemoval σ]

/-- a removal through a cache takes what the table would lose, or is broken off -/
theorem removes_visitAfter {meanwhile : Region → Cache σ → Cache σ}
    (calm : ∀ r d, (Tabled.table (meanwhile r d)).contents = (Tabled.table d).contents)
    (removal : Removal) :
    Removes removal (fun q : Purge σ => Tabled.table q.cache) Purge.removed (fun q => q.fault ≠ none)
      (Purge.visitAfter meanwhile removal) := by
  intro r q
  have htable := Tabled.table_write (meanwhile r q.cache) (.remove r.id removal)
  have hremoved := TabledRemoval.removed_eq (meanwhile r q.cache).store.store r.id removal
  have hgone : ∀ {gone d}, (meanwhile r q.cache).remove r.id removal = (.ok gone, d) →
      gone = (RegionStore.remove (meanwhile r q.cache).store.store r.id removal).1 := by
    intro gone d hok
    unfold Cache.remove at hok
    dsimp only at hok
    split at hok
    · cases hok
      rfl
    · cases hok
  change Tabled.table (RegionStore.remove (meanwhile r q.cache) r.id removal).2 = _ at htable
  unfold Purge.visitAfter Purge.visit
  dsimp only
  cases hr : (meanwhile r q.cache).remove r.id removal with
  | mk outcome d =>
    cases outcome with
    | error fault => exact Or.inl ⟨Option.some_ne_none fault, rfl⟩
    | ok gone =>
      rw [cache_remove, hr] at htable
      refine Or.inr ⟨rfl, Tabled.table (meanwhile r q.cache), calm r q.cache, htable, ?_⟩
      exact congrArg (q.removed ++ ·) ((hgone hr).trans hremoved)

end

end Cache

/-! ## every scene -/

section
variable {σ : Type} [RegionStore σ] [ExactStore σ] {s : Scene σ} {p : Block}
  {found : Option (List Region)} {d : Cache σ}

/-- **Whoever answers, the regions that hold the block are gone through**, by a sheet in layer
order. -/
theorem Exact.onShow (h : Exact s) (hd : d.store = s.cache.store)
    (hfound : ∀ regions, found = some regions → regions = s.cache.columnRegions p.column) :
    (d.onShow p found).Perm ((RegionStore.values s.cache.store.store).filter (·.contains p)) ∧
      (found.isSome = true → d.onShow p found = s.cache.regionsOver p) := by
  cases found with
  | some regions =>
    have hshow : d.onShow p (some regions) = s.cache.regionsOver p := by
      rw [Cache.onShow, hfound regions rfl, Cache.columnRegions_filter h.store]
    refine ⟨?_, fun _ => hshow⟩
    rw [hshow]
    exact Region.inLayers_perm _
  | none =>
    refine ⟨?_, nofun⟩
    show (RegionStore.containing d.store.store p).1.Perm _
    rw [hd]
    exact ExactStore.containing_perm h.store p

variable [Tabled σ] [TabledRemoval σ]

/-- **A cache is purged as its store is**, in every scene in which it can be asked. -/
theorem Exact.purgesAlike (h : Exact s) (rest : s.doing.AtRest)
    (hkeyed : (Tabled.table s.cache).Keyed) (hmade : ∀ r ∈ RegionStore.values s.cache, r.Made) :
    s.cache.PurgesAlike := by
  have hvalues := Tabled.values_eq s.cache
  have hany : ∀ (d : Cache σ) (p : Block) (removal : Removal) (shown : List Region)
      (meanwhile : Region → Cache σ → Cache σ),
      (∀ r e, (Tabled.table (meanwhile r e)).contents = (Tabled.table e).contents) →
      Tabled.table d = Tabled.table s.cache →
      shown.Perm ((RegionStore.values s.cache).filter (·.contains p)) →
      (visitEach (Cache.Purge.visitAfter meanwhile removal) shown { cache := d }).fault = none →
      Purged removal (Tabled.table s.cache).contents p
        (visitEach (noting (Cache.Purge.visitAfter meanwhile removal)) shown ([], { cache := d })).1
        (visitEach (Cache.Purge.visitAfter meanwhile removal) shown { cache := d }).removed
        (Tabled.table (visitEach (Cache.Purge.visitAfter meanwhile removal) shown
          { cache := d }).cache).contents := by
    intro d p removal shown meanwhile calm htable hshown hfault
    rw [hvalues] at hmade hshown
    rw [← htable] at hkeyed hmade hshown ⊢
    exact ((Cache.removes_visitAfter calm removal).purged (x := { cache := d }) hkeyed hmade rfl
      hshown).resolve_left fun hbroken => hbroken hfault
  refine ⟨fun p removal shown meanwhile calm => hany s.cache p removal shown meanwhile calm rfl, ?_,
    fun hname p removal => Cache.purgeContaining_ok hname p removal⟩
  intro p removal hfault
  have hplain := fun d shown => hany d p removal shown (fun _ e => e) fun _ _ => rfl
  rw [Cache.purgeContaining_eq, Cache.visitAt_eq] at hfault ⊢
  rw [Cache.visitAt_eq]
  have hres := s.cache.resolved p.column
  have hstore := hres.frame.1
  refine hplain _ _ ((Cache.table_answer _ p _).trans ?_)
    (h.onShow hstore (h.resolved rest.ne_writing hres)).1 hfault
  exact congrArg (fun w : Watched σ => Tabled.table w.store) hstore

theorem purgesAlike_of_sound (hkeyed : ∀ t : σ, ExactStore.Sound t → (Tabled.table t).Keyed)
    {store : σ} (h : ExactStore.Sound store) :
    ((∀ r ∈ RegionStore.values store, r.Made) → RegionStore.PurgesAlike store) ∧
      ∀ (settings : Settings) (c : Cache σ) (s : Scene σ), Cache.make store settings = .ok c →
        (Scene.start c).Reach s → s.doing.AtRest → (∀ r ∈ RegionStore.values s.cache, r.Made) →
        s.cache.PurgesAlike := by
  refine ⟨fun hmade => ExactStore.purgesAlike h (hkeyed store h) hmade, ?_⟩
  intro settings c s hc hs rest hmade
  have hexact := exact_of_make h hc hs
  exact hexact.purgesAlike rest (hkeyed _ hexact.store) hmade

end

/-- **Visitors that remove what they are shown** see the regions there were at first and leave the
same behind in any order, at either store, whatever spatial index a snapshot is looked up with, and at a
cache over it in every scene that can be reached. -/
theorem purgesAlike_of_reach :
    (∀ (regions : List Region) (store : Table),
      ReflTransGen StoreStep (Table.ofRegions regions) store →
      ((∀ r ∈ RegionStore.values store, r.Made) → RegionStore.PurgesAlike store) ∧
      ∀ (settings : Settings) (c : Cache Table) (s : Scene Table),
        Cache.make store settings = .ok c → (Scene.start c).Reach s → s.doing.AtRest →
        (∀ r ∈ RegionStore.values s.cache, r.Made) → s.cache.PurgesAlike) ∧
    (∀ (regions : List Region) (store : Tree),
      ReflTransGen StoreStep (Tree.ofRegions regions) store →
      ((∀ r ∈ RegionStore.values store, r.Made) → RegionStore.PurgesAlike store) ∧
      ∀ (settings : Settings) (c : Cache Tree) (s : Scene Tree),
        Cache.make store settings = .ok c → (Scene.start c).Reach s → s.doing.AtRest →
        (∀ r ∈ RegionStore.values s.cache, r.Made) → s.cache.PurgesAlike) ∧
    ∀ {κ : Type} [LinearOrder κ] (index : SpatialIndex κ) [index.Exact] (regions : List Region)
      (store : Indexed index), ReflTransGen StoreStep (Indexed.ofRegions index regions) store →
      ((∀ r ∈ RegionStore.values store, r.Made) → RegionStore.PurgesAlike store) ∧
      ∀ (settings : Settings) (c : Cache (Indexed index)) (s : Scene (Indexed index)),
        Cache.make store settings = .ok c → (Scene.start c).Reach s → s.doing.AtRest →
        (∀ r ∈ RegionStore.values s.cache, r.Made) → s.cache.PurgesAlike :=
  ⟨fun regions _ hstore => purgesAlike_of_sound (fun _ h => h)
      (ExactStore.sound_of_steps (Table.keyed_ofRegions regions) hstore),
    fun regions _ hstore => purgesAlike_of_sound (fun t (h : t.Sound) => h.keyed)
      (ExactStore.sound_of_steps (Tree.sound_ofRegions regions) hstore),
    fun _ _ regions _ hstore => purgesAlike_of_sound (fun t (h : t.tree.Sound) => h.keyed)
      (ExactStore.sound_of_steps (Indexed.sound_ofRegions regions) hstore)⟩

/-! ## a region and its child at one block -/

/-- both are shown, although removing the parent, which comes first, takes its child as well -/
theorem family_purged :
    RegionStore.PurgesAlike (Table.ofRegions Region.family) ∧
      RegionStore.PurgesAlike (Tree.ofRegions Region.family) ∧
      RegionStore.PurgesAlike (Indexed.ofRegions .scanBackwards Region.family) ∧
      ∃ s : Scene Tree, s.cache = Cache.surveyed (Tree.ofRegions Region.family) ⟨0, 3, 1⟩ ∧
        s.cache.recent = some 0 ∧ s.cache.PurgesAlike ∧
        (s.cache.visitAt ⟨0, 3, 1⟩ (noting (Cache.Purge.visit .cascade))
          fun c => ([], { cache := c })).1.Perm Region.family ∧
        "hourglass" ∈ (s.cache.purgeContaining ⟨0, 3, 1⟩ .cascade).removed.map Region.id := by
  have htable : RegionStore.values (Table.ofRegions Region.family) = Region.family := by
    decide +kernel
  have hmade := Region.made_family
  obtain ⟨s, hreach, rest, hs⟩ :=
    Scene.leads_surveyed (Tree.ofRegions Region.family) ⟨0, 3, 1⟩
  have hcache : RegionStore.values s.cache = Region.family := by
    rw [hs]
    decide +kernel
  have hname : ¬HoldsZero s.cache.settings.threadName := by
    rw [hreach.settings]
    decide
  obtain ⟨htree, hscene⟩ := purgesAlike_of_reach.2.1 Region.family _ .refl
  have halike := hscene {} _ s rfl hreach rest (hcache ▸ hmade)
  have hpurged := halike.asked ⟨0, 3, 1⟩ .cascade (halike.unbroken hname _ _)
  have hshown : (Tabled.table s.cache).contents.regions.filter (·.contains ⟨0, 3, 1⟩) =
      Region.family := by
    rw [← Tabled.values_eq, hcache]
    decide
  refine ⟨(purgesAlike_of_reach.1 Region.family _ .refl).1 (htable ▸ hmade), htree (htable ▸ hmade),
    (purgesAlike_of_reach.2.2 .scanBackwards Region.family _ .refl).1 (htable ▸ hmade), s, hs, ?_, halike, hshown ▸ hpurged.shown, ?_⟩
  · rw [hs]
    decide +kernel
  · refine (hpurged.does.removed "hourglass").mpr ⟨"hourglass", ?_, .refl⟩
    rw [hshown]
    decide

end Precinct
