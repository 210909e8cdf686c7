import Mathlib
import Precinct.Proofs.Cache.Purge

/-!
# Visitors that stop early

* `StopsAt`            a visitor stops at its `k`-th call, whatever it is shown: `stopsAt_note`, one
                       that counts does;
* `StopsAt.shown`      it is shown the first `k` regions;
* `Cache.FirstFew`     what a visitor saw that stopped: `Exact.stops`;
* `Scene.StopsEarly`   what follows for visitors: **`stopsEarly_of_reach`**.

A sheet passes over the regions of its column that do not hold the block, one by one, while a store
sorts them out before it shows the first.  Either way a visitor goes through the start of a list that
it has no influence on, and what `noting` notes of it are its calls.
-/

namespace Precinct
open Relation (ReflTransGen)

/-! ## visitors -/

section
variable {τ : Type} {visitor : Region → τ → Bool × τ} {k : Nat} {t : τ}

/-- whatever a visitor is shown, it goes on until its `k`-th call and stops then -/
inductive StopsAt (visitor : Region → τ → Bool × τ) : Nat → τ → Prop
  | now {t : τ} (stops : ∀ r, (visitor r t).1 = false) : StopsAt visitor 1 t
  | later {k : Nat} {t : τ} (goes : ∀ r, (visitor r t).1 = true)
      (next : ∀ r, StopsAt visitor k (visitor r t).2) : StopsAt visitor (k + 1) t

/-- **A visitor that stops at its `k`-th call is shown the first `k` regions.** -/
theorem StopsAt.shown (h : StopsAt visitor k t) (regions seen : List Region) :
    (visitEach (noting visitor) regions (seen, t)).1 = seen ++ regions.take k := by
  -- on the calls that are left; the regions may be at an end before them
  induction h generalizing regions seen with
  | now stops =>
    cases regions with
    | nil => rw [List.take_nil, List.append_nil]; rfl
    | cons r rest =>
      rw [visitEach, noting, stops r]
      rfl
  | later goes _ ih =>
    cases regions with
    | nil => rw [List.take_nil, List.append_nil]; rfl
    | cons r rest =>
      rw [visitEach, noting, goes r]
      dsimp only
      rw [ih r rest, List.take_succ_cons, List.append_assoc, List.singleton_append]

theorem stopsAt_note {limit : Nat} (hk : 0 < k) {s : Sighting} (h : s.seen.length + k = limit) :
    StopsAt (Sighting.note (some limit)) k s := by
  induction k, hk using Nat.le_induction generalizing s with
  | base =>
    refine .now fun r => ?_
    show (!decide (limit ≤ (r :: s.seen).length)) = false
    rw [← h, List.length_cons, decide_eq_true le_rfl]
    rfl
  | succ k hk ih =>
    refine .later (fun r => ?_) fun r => ih ?_
    · show (!decide (limit ≤ (r :: s.seen).length)) = true
      rw [List.length_cons, decide_eq_false (by omega)]
      rfl
    · show (r :: s.seen).length + k = limit
      rw [List.length_cons]
      omega

theorem shown_noting (limit : Option Nat) (regions : List Region) (s : Sighting) :
    (visitEach (noting (Sighting.note limit)) regions (s.shown, s)).1 =
      (visitEach (Sighting.note limit) regions s).shown := by
  induction regions generalizing s with
  | nil => rfl
  | cons r rest ih =>
    have hshown : s.shown ++ [r] = (Sighting.note limit r s).2.shown := List.reverse_cons.symm
    rw [visitEach, visitEach, noting, hshown]
    cases hv : Sighting.note limit r s with
    | mk goes s' =>
      cases goes with
      | true => exact ih s'
      | false => rfl

end

/-! ## at a cache -/

namespace Cache
variable {σ τ : Type} [RegionStore σ]

/-- the visitor that counts is such a visitor -/
theorem shown_visitContaining (c : Cache σ) (p : Block) (limit : Option Nat) :
    (c.visitContaining p limit).1.shown =
      (c.visitAt p (noting (Sighting.note limit)) fun _ => ([], {})).1 ∧
    (c.visitContaining p limit).2.1 = (c.resolve p.column).1.isSome := by
  unfold visitContaining visitAt
  cases hr : c.resolve p.column with
  | mk found d =>
    cases found with
    | some regions =>
      dsimp only
      rw [visitWhere_eq, visitWhere_eq]
      exact ⟨(shown_noting limit _ {}).symm, rfl⟩
    | none => exact ⟨(shown_noting limit _ {}).symm, rfl⟩

/-- what a visitor saw of a block that stops at its `k`-th call: each region once, and as many as it
wanted, if there are as many -/
structure FirstFew (c : Cache σ) (p : Block) (k : Nat) (sheet : Bool) (shown : List Region) :
    Prop where
  calls : shown.length = min k ((RegionStore.values c.store.store).filter (·.contains p)).length
  /-- no two of them even have one name -/
  distinct : Region.Named shown
  holds : ∀ r ∈ shown, r ∈ RegionStore.values c.store.store ∧ r.contains p = true
  /-- a sheet that answers shows the highest layers -/
  inOrder : sheet = true → shown = (c.regionsAt p).1.take k

end Cache

/-! ## every scene -/

/-- a visitor that stops at its `k`-th call is shown the first few of the regions that hold a block,
by whoever answers.  Between the two halves of a write the host cannot ask -/
structure Scene.StopsEarly {σ : Type} [RegionStore σ] (s : Scene σ) : Prop where
  /-- whatever the visitor does to the cache between two calls -/
  visits : s.doing ≠ .writing → ∀ {τ : Type} (visitor : Region → τ → Bool × τ)
    (begin : Cache σ → τ) (k : Nat) (p : Block), (∀ c, StopsAt visitor k (begin c)) →
      s.cache.FirstFew p k (s.cache.resolve p.column).1.isSome
        (s.cache.visitAt p (noting visitor) fun c => ([], begin c)).1
  /-- also if the workers went on while the block was looked up -/
  resumes : ∀ (p : Block) (found : Option (List Region)), s.doing = .asking p found →
    ∀ {τ : Type} (visitor : Region → τ → Bool × τ) (begin : Cache σ → τ) (k : Nat),
      (∀ c, StopsAt visitor k (begin c)) →
      s.cache.FirstFew p k found.isSome
        (s.cache.visitFound p (noting visitor) (fun c => ([], begin c)) found).1
  /-- the visitor that counts is one of these -/
  counts : s.doing ≠ .writing → ∀ (p : Block) (k : Nat), 0 < k →
    s.cache.FirstFew p k (s.cache.visitContaining p (some k)).2.1
      (s.cache.visitContaining p (some k)).1.shown

section
variable {σ : Type} [RegionStore σ] [ExactStore σ] {s : Scene σ} {p : Block}
  {found : Option (List Region)} {d : Cache σ}

/-- **A visitor that stops sees the first few of these.** -/
theorem Exact.stops (h : Exact s) (hw : s.doing ≠ .writing) (hd : d.store = s.cache.store)
    (hfound : ∀ regions, found = some regions → regions = s.cache.columnRegions p.column) {τ : Type}
    {visitor : Region → τ → Bool × τ} {begin : Cache σ → τ} {k : Nat}
    (hstops : ∀ c, StopsAt visitor k (begin c)) :
    s.cache.FirstFew p k found.isSome
      (d.visitFound p (noting visitor) (fun c => ([], begin c)) found).1 := by
  obtain ⟨hperm, hlayers⟩ := h.onShow hd hfound
  have hnamed : Region.Named (d.onShow p found) :=
    ((ExactStore.named h.store).filter _).perm hperm
  rw [Cache.visitFound_eq, (hstops _).shown, List.nil_append]
  refine ⟨?_, ?_, fun r hr => ?_, fun hsome => ?_⟩
  · rw [List.length_take, hperm.length_eq]
  · exact hnamed.sublist ((List.take_sublist k _).map Region.id)
  · exact List.mem_filter.mp (hperm.mem_iff.mp (List.mem_of_mem_take hr))
  · rw [hlayers hsome, h.regionsAt_eq hw]

theorem Exact.stopsEarly (h : Exact s) : s.StopsEarly := by
  have hvisits : s.doing ≠ .writing → ∀ {τ : Type} (visitor : Region → τ → Bool × τ)
      (begin : Cache σ → τ) (k : Nat) (p : Block), (∀ c, StopsAt visitor k (begin c)) →
        s.cache.FirstFew p k (s.cache.resolve p.column).1.isSome
          (s.cache.visitAt p (noting visitor) fun c => ([], begin c)).1 := by
    intro hw τ visitor begin k p hstops
    have hres := s.cache.resolved p.column
    rw [Cache.visitAt_eq_visitFound]
    exact h.stops hw hres.frame.1 (h.resolved hw hres) hstops
  refine ⟨hvisits, fun p found hasking _ _ _ _ hstops => ?_, fun hw p k hk => ?_⟩
  · have hw : s.doing ≠ .writing := by simp [hasking]
    exact h.stops hw rfl (fun regions hf => h.asked p regions (hf ▸ hasking)) hstops
  · obtain ⟨hshown, hsheet⟩ := s.cache.shown_visitContaining p (some k)
    rw [hshown, hsheet]
    exact hvisits hw _ _ k p fun _ => stopsAt_note hk (Nat.zero_add k)

end

/-- **A visitor that stops at its `k`-th call is called `k` times, or once for each region that holds
the block**, on distinct regions, in every scene that can be reached and whoever answers; a sheet
shows it the first of the regions at the block.  A store with a snapshot shows them in whatever order its
spatial index finds them. -/
theorem stopsEarly_of_reach :
    (∀ (regions : List Region) (store : Table) (settings : Settings) (c : Cache Table)
      (s : Scene Table), ReflTransGen StoreStep (Table.ofRegions regions) store →
      Cache.make store settings = .ok c → (Scene.start c).Reach s → s.StopsEarly) ∧
    (∀ (regions : List Region) (store : Tree) (settings : Settings) (c : Cache Tree)
      (s : Scene Tree), ReflTransGen StoreStep (Tree.ofRegions regions) store →
      Cache.make store settings = .ok c → (Scene.start c).Reach s → s.StopsEarly) ∧
    ∀ {κ : Type} [LinearOrder κ] (index : SpatialIndex κ) [index.Exact] (regions : List Region)
      (store : Indexed index) (settings : Settings) (c : Cache (Indexed index))
      (s : Scene (Indexed index)), ReflTransGen StoreStep (Indexed.ofRegions index regions) store →
      Cache.make store settings = .ok c → (Scene.start c).Reach s → s.StopsEarly :=
  ⟨fun regions _ _ _ _ hstore hc hs => (exact_of_make
      (ExactStore.sound_of_steps (Table.keyed_ofRegions regions) hstore) hc hs).stopsEarly,
    fun regions _ _ _ _ hstore hc hs => (exact_of_make
      (ExactStore.sound_of_steps (Tree.sound_ofRegions regions) hstore) hc hs).stopsEarly,
    fun _ _ regions _ _ _ _ hstore hc hs => (exact_of_make
      (ExactStore.sound_of_steps (Indexed.sound_ofRegions regions) hstore) hc hs).stopsEarly⟩

/-- one region of two, by the sheet that answered last, by a store whose sheet is not loaded, and by one
whose index finds them the other way round -/
theorem bar_alone :
    (∃ s : Scene Table,
      s.cache = Cache.surveyed (Table.ofRegions [Region.hourglass, Region.bar]) ⟨0, 3, 1⟩ ∧
      s.cache.recent = some 0 ∧ s.StopsEarly ∧
      (s.cache.visitContaining ⟨0, 3, 1⟩ (some 1)).1.shown = [Region.bar] ∧
      (s.cache.visitContaining ⟨0, 3, 1⟩ (some 3)).1.shown.length = 2) ∧
    (∃ s : Scene Tree,
      s.cache = Cache.ofSettings (Tree.ofRegions [Region.hourglass, Region.bar]) {} ∧
      s.cache.isLoaded ⟨0, 0⟩ = false ∧ s.StopsEarly ∧
      (s.cache.visitContaining ⟨0, 3, 1⟩ (some 1)).1.shown.length = 1) ∧
    ∃ s : Scene (Indexed .scanBackwards), s.cache = Cache.ofSettings
        (Indexed.ofRegions .scanBackwards [Region.hourglass, Region.bar]) {} ∧
      s.cache.isLoaded ⟨0, 0⟩ = false ∧ s.StopsEarly ∧
      (s.cache.visitContaining ⟨0, 3, 1⟩ (some 1)).1.shown.length = 1 := by
  refine ⟨?_, ?_, ?_⟩
  · obtain ⟨s, hreach, rest, hs⟩ :=
      Scene.leads_surveyed (Table.ofRegions [Region.hourglass, Region.bar]) ⟨0, 3, 1⟩
    have hstops := stopsEarly_of_reach.1 _ _ {} _ s .refl rfl hreach
    have hlatest : s.cache.recent = some 0 ∧
        (s.cache.visitContaining ⟨0, 3, 1⟩ (some 1)).2.1 = true := by
      rw [hs]
      decide +kernel
    have hheld : (RegionStore.values s.cache.store.store).filter (·.contains ⟨0, 3, 1⟩) =
        [Region.bar, Region.hourglass] := by
      rw [hs]
      decide +kernel
    have hlayers : (s.cache.regionsAt ⟨0, 3, 1⟩).1 = [Region.bar, Region.hourglass] := by
      rw [(exact_of_reach (Table.keyed_ofRegions _) hreach).regionsAt_eq rest.ne_writing,
        Cache.regionsOver, hheld]
      exact Region.inLayers_of_pairwise (by decide)
    refine ⟨s, hs, hlatest.1, hstops, ?_, ?_⟩
    · rw [(hstops.counts rest.ne_writing ⟨0, 3, 1⟩ 1 one_pos).inOrder hlatest.2, hlayers]
      rfl
    · rw [(hstops.counts rest.ne_writing ⟨0, 3, 1⟩ 3 (by decide)).calls, hheld]
      rfl
  · have hstops := stopsEarly_of_reach.2.1 [Region.hourglass, Region.bar] _ {}
      (Cache.ofSettings _ {}) (.start (Cache.ofSettings _ {})) .refl rfl .refl
    refine ⟨_, rfl, by decide +kernel, hstops, ?_⟩
    rw [(hstops.counts nofun ⟨0, 3, 1⟩ 1 one_pos).calls]
    decide +kernel
  · have hstops := stopsEarly_of_reach.2.2 .scanBackwards [Region.hourglass, Region.bar] _ {}
      (Cache.ofSettings _ {}) (.start (Cache.ofSettings _ {})) .refl rfl .refl
    refine ⟨_, rfl, by decide +kernel, hstops, ?_⟩
    rw [(hstops.counts nofun ⟨0, 3, 1⟩ 1 one_pos).calls]
    decide +kernel

end Precinct
