import Mathlib
import Precinct.Proofs.Registry.Frame

/-!
# What an operation of a registry does

* `RegistryOp`         one operation on a registry, on a cache that it has made, or of a worker of
                       one;
* `Registry.after`     the registry after a sequence of them;
* `find?_apply`        which cache a world has after an operation, `size_apply` how many there are;
* `Registry.Stands`    the last successful load of a world was not followed by its end
                       (`find?_after`);
* `RegistryOp.fate`    **a cache that an operation does not address is left to its workers**, and only
                       while somebody waits;
* `Registry.undergone` what a cache has undergone after a sequence of operations.

Every cache here has a store of its own.  Two that have one in common are two caches of which each is
written to behind its back whenever the other is written to.
-/

namespace Precinct

/-- One operation on a registry, on a cache that it has made, or of a worker of one.  Whoever kept a
cache, or what forwards the events of its world, goes on with it by number. -/
inductive RegistryOp (σ : Type) where
  | load (name : String) (store : σ) (settings : Settings)
  | unload (name : String) (ms : Nat)
  | shutdown (ms : Nat)
  | notify (name : String) (event : WorldEvent)
  | perform (i : Nat) (op : CacheOp)
  /-- a worker of a cache makes a step while nobody waits -/
  | work (i pool number : Nat) (w : WorkerStep)
  /-- time passes for the workers of a cache -/
  | pass (i ms : Nat)

namespace RegistryOp
variable {σ : Type}

/-- the world that is loaded, if the settings pass the checks -/
def loaded? : RegistryOp σ → Option String
  | load name _ settings => if settings.validate.isOk then some name else none
  | unload _ _ | shutdown _ | notify _ _ | perform _ _ | work _ _ _ _ | pass _ _ => none

/-- whether a world is unloaded, if it is loaded -/
def ends (name : String) : RegistryOp σ → Bool
  | unload other _ => other = name
  | shutdown _ => true
  | load _ _ _ | notify _ _ | perform _ _ | work _ _ _ _ | pass _ _ => false

/-- the operation is about the cache with a number -/
def Addresses (r : Registry σ) (j : Nat) : RegistryOp σ → Prop
  | load name _ _ | unload name _ | notify name _ => r.find? name = some j
  | shutdown _ => ∃ name, r.find? name = some j
  | perform i _ | work i _ _ _ | pass i _ => i = j

variable [RegionStore σ]

/-- the registry after an operation; what is refused, or is about nothing there is, changes nothing -/
def apply (r : Registry σ) : RegistryOp σ → Registry σ
  | load name store settings =>
    match r.load name store settings with
    | .ok r' => r'
    | .error _ => r
  | unload name ms => (r.unload name ms).2
  | shutdown ms => (r.shutdown ms).2
  | notify name event =>
    match r.notify name event with
    | some (_, r') => r'
    | none => r
  | perform i op =>
    match r.perform i op with
    | some (_, r') => r'
    | none => r
  | work i k number w =>
    match (r.cache? i).bind (·.step? k number w) with
    | some c => r.setCache i c
    | none => r
  | pass i ms =>
    match r.cache? i with
    | some c => r.setCache i (c.elapse ms)
    | none => r

def Waits (r : Registry σ) : RegistryOp σ → Prop
  | unload _ ms | shutdown ms => 0 < ms
  | perform i op => ∃ c, r.cache? i = some c ∧ op.hasToWait c = true
  | load _ _ _ | notify _ _ | work _ _ _ _ | pass _ _ => False

/-- What becomes of a cache in an operation.  One that the operation is not about is left to its
workers, if somebody waits. -/
inductive Fate (r : Registry σ) (op : RegistryOp σ) (j : Nat) (c : Cache σ) : Cache σ → Prop
  | kept : Fate r op j c c
  | idled {c' : Cache σ} (waits : op.Waits r) (idles : c.Idles c') : Fate r op j c c'
  | changed {c' : Cache σ} (addressed : op.Addresses r j)
      (undergone : c.Undergone (∃ o, op = .perform j (.behind o)) c') : Fate r op j c c'

variable {r r' : Registry σ} {op : RegistryOp σ} {j : Nat} {c c' : Cache σ}

attribute [local simp] apply loaded? ends

theorem Fate.undergone (h : Fate r op j c c') :
    c.Undergone (∃ o, op = .perform j (.behind o)) c' := by
  cases h with
  | kept => exact .refl
  | idled waits idles => exact idles.undergone
  | changed addressed undergone => exact undergone

/-- who is left to his workers for no time at all stays as he is -/
theorem fate_of_idles (h : c.Idles c') (hsame : ¬op.Waits r → c' = c) : Fate r op j c c' := by
  by_cases hw : op.Waits r
  · exact .idled hw h
  · rw [hsame hw]
    exact .kept

/-! ## operations about one cache -/

/-- one cache comes into another state, or none does -/
inductive Changes (r : Registry σ) (op : RegistryOp σ) : Registry σ → Prop
  | nothing : Changes r op r
  | one {r' : Registry σ} {i : Nat} (waited : Bool) {c c' : Cache σ} (cache : r.cache? i = some c)
      (addressed : op.Addresses r i) (waits : waited = true → op.Waits r)
      (undergone : c.Undergone (∃ o, op = .perform i (.behind o)) c')
      (worlds : r'.worlds = r.worlds) (caches : r'.caches = (r.commit i waited c c').caches) :
      Changes r op r'

theorem Changes.find? (h : Changes r op r') (name : String) : r'.find? name = r.find? name := by
  cases h with
  | nothing => rfl
  | one waited cache addressed waits undergone worlds caches => rw [Registry.find?, worlds, Registry.find?]

theorem Changes.size (h : Changes r op r') : r'.caches.size = r.caches.size := by
  cases h with
  | nothing => rfl
  | one waited cache addressed waits undergone worlds caches =>
    rw [caches]
    exact r.size_commit _ _ _ _

theorem Changes.fate (h : Changes r op r') (hc : r.cache? j = some c) :
    ∃ c', r'.cache? j = some c' ∧ Fate r op j c c' := by
  cases h with
  | nothing => exact ⟨c, hc, .kept⟩
  | @one r' i waited d d' cache addressed waits undergone worlds caches =>
    by_cases hj : j = i
    · subst hj
      obtain rfl : d = c := Option.some.inj (cache.symm.trans hc)
      refine ⟨d', ?_, .changed addressed undergone⟩
      rw [Registry.cache?, caches]
      exact Registry.cache?_commit_self (Registry.lt_size_of_cache? hc) waited d d'
    · obtain ⟨c', hc', hidles, hsame⟩ := Registry.cache?_commit_of_ne hj hc waited d d'
      refine ⟨c', ?_, fate_of_idles hidles fun hw => hsame ?_⟩
      · rw [Registry.cache?, caches]
        exact hc'
      · exact Bool.eq_false_iff.mpr fun ht => hw (waits ht)

theorem changes_notify (r : Registry σ) (name : String) (event : WorldEvent) :
    Changes r (notify name event) (apply r (notify name event)) := by
  rw [apply]
  cases hf : r.find? name with
  | none =>
    rw [Registry.notify, hf]
    exact .nothing
  | some i =>
    cases hc : r.cache? i with
    | none =>
      rw [Registry.notify, hf, Option.bind_some, hc]
      exact .nothing
    | some c =>
      rw [Registry.notify_eq hf hc]
      exact .one false hc hf Bool.noConfusion (c.undergone_hint event.hint) rfl rfl

theorem changes_perform (r : Registry σ) (i : Nat) (op : CacheOp) :
    Changes r (perform i op) (apply r (perform i op)) := by
  rw [apply]
  cases hc : r.cache? i with
  | none =>
    rw [Registry.perform, hc]
    exact .nothing
  | some c =>
    rw [Registry.perform_eq hc]
    refine .one (op.hasToWait c) hc rfl (fun hw => ⟨c, hc, hw⟩) ?_ ?_ rfl
    · exact .single (.performs op (r.shelf i) fun o he => ⟨o, he ▸ rfl⟩)
    · exact r.worlds_commit _ _ _ _

theorem changes_work (r : Registry σ) (i k number : Nat) (w : WorkerStep) :
    Changes r (work i k number w) (apply r (work i k number w)) := by
  rw [apply]
  split
  · rename_i c' hw
    obtain ⟨c, hc, makes⟩ := Option.bind_eq_some_iff.mp hw
    exact .one false hc rfl Bool.noConfusion (.single (.itself (.works makes))) rfl rfl
  · exact .nothing

theorem changes_pass (r : Registry σ) (i ms : Nat) :
    Changes r (pass i ms) (apply r (pass i ms)) := by
  rw [apply]
  split
  · rename_i c hc
    exact .one false hc rfl Bool.noConfusion (.single (.itself (.ages ms))) rfl rfl
  · exact .nothing

/-! ## every operation -/

omit [RegionStore σ] in
theorem loaded?_load {name : String} {store : σ} {settings : Settings}
    (h : settings.validate = .ok ()) : (load name store settings).loaded? = some name := by
  rw [loaded?, h]
  rfl

/-- an operation that loads nothing leaves the worlds as they are, or ends some -/
theorem find?_apply (r : Registry σ) (op : RegistryOp σ) (name : String) :
    (op.apply r).find? name = if op.loaded? = some name then some r.caches.size
      else if op.ends name then none else r.find? name := by
  cases op with
  | load other store settings =>
    cases hl : r.load other store settings with
    | ok r' =>
      rw [apply, hl, loaded?_load (Registry.loaded hl).1]
      dsimp only
      rw [Registry.find?_load hl]
      simp only [Option.some.injEq, ends, Bool.false_eq_true, if_false]
    | error e =>
      rw [apply, hl, loaded?, Registry.load_eq_error_iff.mp hl]
      rfl
  | unload other ms => simpa using r.find?_unload other ms name
  | shutdown ms =>
    show (r.unloadAll ms r.names).2.find? name = none
    rw [Registry.find?_unloadAll]
    split
    · rfl
    · rename_i hn
      rw [Registry.mem_names] at hn
      simpa using hn
  | notify other event => exact (changes_notify r other event).find? name
  | perform i op => exact (changes_perform r i op).find? name
  | work i k number w => exact (changes_work r i k number w).find? name
  | pass i ms => exact (changes_pass r i ms).find? name

theorem size_apply (r : Registry σ) (op : RegistryOp σ) :
    (op.apply r).caches.size = r.caches.size + op.loaded?.toList.length := by
  cases op with
  | load other store settings =>
    cases hl : r.load other store settings with
    | ok r' =>
      rw [apply, hl, loaded?_load (Registry.loaded hl).1]
      exact Registry.size_load hl
    | error e =>
      rw [apply, hl, loaded?, Registry.load_eq_error_iff.mp hl]
      rfl
  | unload other ms => exact r.size_unload other ms
  | shutdown ms => exact r.size_unloadAll ms r.names
  | notify other event => exact (changes_notify r other event).size
  | perform i op => exact (changes_perform r i op).size
  | work i k number w => exact (changes_work r i k number w).size
  | pass i ms => exact (changes_pass r i ms).size

/-- **A cache that an operation does not address is left to its workers**, and only while somebody
waits. -/
theorem fate (op : RegistryOp σ) (hc : r.cache? j = some c) :
    ∃ c', (op.apply r).cache? j = some c' ∧ Fate r op j c c' := by
  cases op with
  | load name store settings =>
    cases hl : r.load name store settings with
    | error e =>
      rw [apply, hl]
      exact ⟨c, hc, .kept⟩
    | ok r' =>
      rw [apply, hl]
      refine ⟨_, Registry.cache?_load hl hc, ?_⟩
      split
      · rename_i hf
        exact .changed hf c.undergone_dropAll
      · exact .kept
  | unload name ms =>
    by_cases hf : r.find? name = some j
    · obtain ⟨c', hc', hundergone⟩ := r.undergone_unload hc name ms
      exact ⟨c', hc', .changed hf hundergone⟩
    · obtain ⟨c', hc', hidles, hsame⟩ := Registry.cache?_unload_of_ne hf hc ms
      exact ⟨c', hc', fate_of_idles hidles fun hw => hsame (Nat.eq_zero_of_not_pos hw)⟩
  | shutdown ms =>
    by_cases hf : ∃ name, r.find? name = some j
    · obtain ⟨c', hc', hundergone⟩ := Registry.undergone_unloadAll r.names hc ms
      exact ⟨c', hc', .changed hf hundergone⟩
    · obtain ⟨c', hc', hidles, hsame⟩ :=
        Registry.cache?_unloadAll_of_ne r.names (fun name _ he => hf ⟨name, he⟩) hc ms
      exact ⟨c', hc', fate_of_idles hidles fun hw => hsame (Nat.eq_zero_of_not_pos hw)⟩
  | notify name event => exact (changes_notify r name event).fate hc
  | perform i op => exact (changes_perform r i op).fate hc
  | work i k number w => exact (changes_work r i k number w).fate hc
  | pass i ms => exact (changes_pass r i ms).fate hc

end RegistryOp

/-! ## sequences of operations -/

namespace Registry
variable {σ : Type} {ops : List (RegistryOp σ)} {op : RegistryOp σ} {name : String} {i : Nat}

/-- The last load of a world that was not refused, all loads numbered, and nothing has ended the world
since. -/
def Stands (ops : List (RegistryOp σ)) (name : String) (i : Nat) : Prop :=
  ∃ before op later, ops = before ++ op :: later ∧ op.loaded? = some name ∧
    i = (before.filterMap RegistryOp.loaded?).length ∧
    ∀ o ∈ later, o.loaded? ≠ some name ∧ o.ends name = false

theorem not_stands_nil : ¬Stands ([] : List (RegistryOp σ)) name i := by
  rintro ⟨before, op, later, he, -⟩
  simp at he

theorem stands_concat : Stands (ops ++ [op]) name i ↔
    op.loaded? = some name ∧ i = (ops.filterMap RegistryOp.loaded?).length ∨
      op.loaded? ≠ some name ∧ op.ends name = false ∧ Stands ops name i := by
  constructor
  · rintro ⟨before, o, later, he, hload, hi, hlater⟩
    -- the last operation is the load itself, or it comes after the load
    rcases List.eq_nil_or_concat' later with rfl | ⟨later, last, rfl⟩
    · obtain ⟨rfl, ho⟩ := List.append_inj' he rfl
      cases ho
      exact Or.inl ⟨hload, hi⟩
    · rw [← List.cons_append, ← List.append_assoc] at he
      obtain ⟨rfl, hlast⟩ := List.append_inj' he rfl
      cases hlast
      obtain ⟨hnot, hends⟩ := hlater op (by simp)
      exact Or.inr ⟨hnot, hends, before, o, later, rfl, hload, hi,
        fun o' ho' => hlater o' (List.mem_append_left _ ho')⟩
  · rintro (⟨hload, hi⟩ | ⟨hnot, hends, before, o, later, rfl, hload, hi, hlater⟩)
    · exact ⟨ops, op, [], rfl, hload, hi, nofun⟩
    · refine ⟨before, o, later ++ [op], by simp, hload, hi, fun o' ho' => ?_⟩
      rcases List.mem_append.mp ho' with hmem | hmem
      · exact hlater o' hmem
      · rw [List.mem_singleton.mp hmem]
        exact ⟨hnot, hends⟩

variable [RegionStore σ]

/-- the registry after a sequence of operations -/
def after (ops : List (RegistryOp σ)) : Registry σ := ops.foldl RegistryOp.apply {}

theorem after_concat (ops : List (RegistryOp σ)) (op : RegistryOp σ) :
    after (ops ++ [op]) = op.apply (after ops) := List.foldl_concat _ _ _ _

theorem after_append (ops later : List (RegistryOp σ)) :
    after (ops ++ later) = later.foldl RegistryOp.apply (after ops) := List.foldl_append

/-- caches are never given up, so each load that is not refused has a number of its own -/
theorem size_after (ops : List (RegistryOp σ)) :
    (after ops).caches.size = (ops.filterMap RegistryOp.loaded?).length := by
  induction ops using List.reverseRecOn with
  | nil => rfl
  | append_singleton ops op ih =>
    rw [after_concat, RegistryOp.size_apply, ih, List.filterMap_append, List.length_append]
    cases hload : op.loaded? <;> simp [hload]

/-- **A world has the cache of its last load**, unless it was ended since. -/
theorem find?_after (ops : List (RegistryOp σ)) (name : String) (i : Nat) :
    (after ops).find? name = some i ↔ Stands ops name i := by
  -- on the last operation, for `Stands` is about what comes after a load
  induction ops using List.reverseRecOn with
  | nil => exact iff_of_false (by simp [after, find?]) not_stands_nil
  | append_singleton ops op ih =>
    rw [after_concat, RegistryOp.find?_apply, stands_concat, ← ih, size_after]
    by_cases hload : op.loaded? = some name
    · rw [if_pos hload, Option.some.injEq, eq_comm]
      simp [hload]
    · cases hends : op.ends name <;> simp [hload]

theorem lt_of_find?_after (h : (after ops).find? name = some i) : i < (after ops).caches.size := by
  obtain ⟨before, op, later, rfl, hload, rfl, -⟩ := (find?_after ops name i).mp h
  rw [size_after, List.filterMap_append, List.length_append,
    List.filterMap_cons_some hload, List.length_cons]
  omega

/-- no two worlds have one cache -/
theorem find?_after_inj {other : String} (h : (after ops).find? name = some i)
    (h' : (after ops).find? other = some i) : name = other := by
  induction ops using List.reverseRecOn with
  | nil => exact absurd ((find?_after [] name i).mp h) not_stands_nil
  | append_singleton ops op ih =>
    rw [after_concat, RegistryOp.find?_apply] at h h'
    -- the number of a new cache is greater than those there were
    have hnew : ∀ {world : String}, (after ops).find? world ≠ some (after ops).caches.size :=
      fun hw => lt_irrefl _ (lt_of_find?_after hw)
    split at h <;> split at h'
    · rename_i hload hload'
      exact Option.some.inj (hload.symm.trans hload')
    · cases h
      split at h'
      · cases h'
      · exact absurd h' hnew
    · cases h'
      split at h
      · cases h
      · exact absurd h hnew
    · split at h <;> split at h'
      · cases h
      · cases h
      · cases h'
      · exact ih h h'

/-- **What a cache has undergone** after a sequence of operations; it stays where it is. -/
theorem undergone (r : Registry σ) (ops : List (RegistryOp σ)) {j : Nat} {c : Cache σ}
    (hc : r.cache? j = some c) : ∃ c', (ops.foldl RegistryOp.apply r).cache? j = some c' ∧
      c.Undergone (∃ o, .perform j (.behind o) ∈ ops) c' := by
  induction ops generalizing r c with
  | nil => exact ⟨c, hc, .refl⟩
  | cons op ops ih =>
    obtain ⟨d, hd, hfate⟩ := op.fate hc
    obtain ⟨c', hc', hundergone⟩ := ih (op.apply r) hd
    refine ⟨c', hc', (hfate.undergone.mono ?_).trans (hundergone.mono ?_)⟩
    · rintro ⟨o, rfl⟩
      exact ⟨o, List.mem_cons_self⟩
    · rintro ⟨o, ho⟩
      exact ⟨o, List.mem_cons_of_mem op ho⟩

end Registry
end Precinct
