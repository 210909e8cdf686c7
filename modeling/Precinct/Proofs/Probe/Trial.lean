import Mathlib
import Precinct.Probe.Run
import Precinct.Proofs.Cache.Deeds
import Precinct.Proofs.Cache.Prompt
import Precinct.Proofs.Probe.Findings

/-!
# A probe, step by step

A probe does three deeds, one after the other, and then asks all its queries.  The workers of the cache
come between its steps, and its queries come between one another, for they are asked side by side.

* `Inquiry`            a query: the column is looked up, the cache answers, the store is asked itself;
* `Trial`              a probe under way, `Trial.checked` what its queries come to, and `Trial.report` its
                       report;
* `Trial.Step`         one step of it: a deed begins or goes on, or a query goes on;
* `Trial.Counted`      **every query is counted once**, whoever answers it, in every trial;
* `Trial.steps_of_does`  a deed of the host is a number of steps;
* `Trial.exists_asked`  queries can be finished, whatever a query keeps of the cache meanwhile;
* `Trial.steps_checkAll`  a cross-check asks one query after the other.
-/

namespace Precinct
open Relation (ReflTransGen)

/-- whether a query was looked up and not yet answered -/
def Doing.Asks : Doing → Prop
  | asking _ _ => True
  | nothing | writing | scheduling _ _ | answered _ _ | swapped _ | draining _ | drained _
  | dismissing _ _ _ | dismissed _ => False

section
variable {σ : Type} [RegionStore σ] {s s' : Scene σ}

/-- a host that is not asking goes on without asking -/
theorem Scene.Continues.not_asks (hs : s.Continues s') (h : ¬s.doing.Asks) : ¬s'.doing.Asks := by
  rcases hs with ha | ⟨busy, hs⟩
  · rwa [ha.doing]
  · intro hasks
    cases hd : s'.doing with
    | asking p found =>
      rcases hs.to_asking hd with hbefore | ⟨rest, -⟩
      · rw [hbefore] at h
        exact h trivial
      · exact busy rest
    | _ =>
      rw [hd] at hasks
      exact hasks

/-- **Only a host that asks counts queries.** -/
theorem Step.queries (hs : Step s s') (h : ¬s.doing.Asks) (h' : ¬s'.doing.Asks) :
    s'.cache.counters.queries = s.cache.counters.queries := by
  cases hs.counted with
  | same counters => rw [counters]
  | asked doing cache =>
    rw [doing] at h'
    exact absurd trivial h'
  | fellBack doing counters =>
    rw [doing] at h
    exact absurd trivial h
  | renewed counters =>
    rw [counters]
    rfl
  | worked makes =>
    rw [← (Cache.Stirs.works makes).leftAlone.counters]
    rfl

end

namespace Probe

/-! ## queries -/

/-- how far a query has come -/
inductive Stage where
  | unasked
  /-- the column of the block was looked up -/
  | found (found : Option (List Region))
  /-- the cache has answered -/
  | answered (cached : List Region)
  /-- and so has the store -/
  | compared (cached expected : List Region)
  deriving DecidableEq

/-- a query of a cross-check -/
structure Inquiry where
  block : Block
  stage : Stage := .unasked
  deriving DecidableEq

namespace Inquiry

def ofBlock (block : Block) : Inquiry := { block }

/-- whether the answer of the cache is counted already: the store's is when it is given -/
def counted (q : Inquiry) : Bool :=
  match q.stage with
  | .unasked | .found none => false
  | .found (some _) | .answered _ | .compared _ _ => true

/-- whether both answers are there -/
def isOver (q : Inquiry) : Bool :=
  match q.stage with
  | .compared _ _ => true
  | .unasked | .found _ | .answered _ => false

theorem counted_of_isOver {q : Inquiry} (h : q.isOver = true) : q.counted = true := by
  obtain ⟨block, stage⟩ := q
  cases stage with
  | compared cached expected => rfl
  | _ => cases h

/-- what came of it, if it is over -/
def finding? (q : Inquiry) : Option Finding :=
  match q.stage with
  | .compared cached expected => some (.ofAnswers q.block cached expected)
  | .unasked | .found _ | .answered _ => none

theorem stage_of_isOver {q : Inquiry} (h : q.isOver = true) :
    ∃ cached expected, q.stage = .compared cached expected := by
  unfold isOver at h
  cases hq : q.stage with
  | compared cached expected => exact ⟨cached, expected, rfl⟩
  | _ =>
    rw [hq] at h
    cases h

/-- queries that are over, each of which came to something -/
theorem filterMap_finding? {queries : List Inquiry} {finding : Block → Finding}
    (h : ∀ q ∈ queries, q.finding? = some (finding q.block)) :
    queries.filterMap finding? = (queries.map block).map finding := by
  rw [List.map_map, ← List.filterMap_eq_map]
  exact List.filterMap_congr h

variable {σ : Type} [RegionStore σ] {q q' : Inquiry} {c c' : Cache σ}

/-- one step of a query, and what it makes of the cache -/
inductive Step (q : Inquiry) (c : Cache σ) : Inquiry → Cache σ → Prop
  | lookUp (stage : q.stage = .unasked) :
      Step q c { q with stage := .found (c.resolve q.block.column).1 }
        (c.resolve q.block.column).2
  | answer {found : Option (List Region)} (stage : q.stage = .found found) :
      Step q c { q with stage := .answered (c.answer q.block found).1 } (c.answer q.block found).2
  | compare {cached : List Region} (stage : q.stage = .answered cached) :
      Step q c { q with stage := .compared cached (c.storeAnswer q.block).1 }
        (c.storeAnswer q.block).2

theorem Step.block (hs : Step q c q' c') : q'.block = q.block := by cases hs <;> rfl

theorem counters_answer (c : Cache σ) (p : Block) (found : Option (List Region)) :
    (c.answer p found).2.counters.queries = c.counters.queries + found.isNone.toNat := by
  cases found <;> rfl

/-- whoever answers, a query is counted once -/
theorem Step.counted (hs : Step q c q' c') :
    c'.counters.queries + q.counted.toNat = c.counters.queries + q'.counted.toNat := by
  cases hs with
  | lookUp stage =>
    obtain ⟨hot, own, hcounters, hsum, -⟩ := c.counters_resolve q.block.column
    rw [hcounters]
    simp only [Inquiry.counted, stage]
    cases hr : (c.resolve q.block.column).1 with
    | none =>
      rw [hr] at hsum
      simp only [Counters.queries, Option.isSome_none, Bool.toNat_false] at hsum ⊢
      omega
    | some regions =>
      rw [hr] at hsum
      simp only [Counters.queries, Option.isSome_some, Bool.toNat_true, Bool.toNat_false] at hsum ⊢
      omega
  | @answer found stage =>
    rw [counters_answer]
    simp only [Inquiry.counted, stage]
    cases found <;> rfl
  | compare stage =>
    simp only [Inquiry.counted, stage]
    rfl

end Inquiry

/-! ## trials -/

/-- a probe under way -/
structure Trial (σ : Type) where
  scene : Scene σ
  /-- what is to be done before the first query -/
  ahead : List Deed
  queries : List Inquiry

section
variable {σ : Type} [RegionStore σ]

/-- one step of a probe, of a worker, or of time -/
inductive Trial.Step (t : Trial σ) : Trial σ → Prop
  | begins {d : Deed} {ds : List Deed} {known : List Column} (rest : t.scene.doing.AtRest)
      (listed : known.Perm t.scene.cache.columns.keys) (next : t.ahead = d :: ds) :
      Step t { t with scene := d.begin t.scene known, ahead := ds }
  | goesOn {s : Scene σ} (continues : t.scene.Continues s) : Step t { t with scene := s }
  | asks {before after : List Inquiry} {q q' : Inquiry} {c : Cache σ}
      (rest : t.scene.doing.AtRest) (prepared : t.ahead = []) (among : t.queries = before ++ q :: after)
      (makes : q.Step t.scene.cache q' c) :
      Step t { t with scene := { t.scene with cache := c }, queries := before ++ q' :: after }

namespace Trial

/-- regions are put into a cache, columns are surveyed, and that is awaited; then blocks are asked
for -/
def start (c : Cache σ) (regions : List Region) (columns : List Column) (points : List Block) :
    Trial σ where
  scene := .start c
  ahead := [.write (.addAll regions), .warm columns, .await]
  queries := points.map Inquiry.ofBlock

/-- everything was done and every query is over -/
def Finished (t : Trial σ) : Prop :=
  t.ahead = [] ∧ t.scene.doing.AtRest ∧ ∀ q ∈ t.queries, q.isOver = true

/-- what its queries come to, in the order in which they are listed -/
def checked (t : Trial σ) : Except Fault CrossCheck :=
  CrossCheck.tally (t.queries.filterMap Inquiry.finding?)

/-- what comes of it -/
def report (t : Trial σ) : Except Fault Report :=
  t.checked.map fun check =>
    ⟨t.scene.doing = .drained true, check, t.scene.cache.counters.snapshot⟩

variable {t t' : Trial σ}

theorem Step.mishap (hs : Step t t') (h : t'.scene.mishap = false) : t.scene.mishap = false := by
  cases hs with
  | begins rest listed next => exact (Deed.step_begin _ rest listed).mishap h
  | goesOn continues => exact continues.step.mishap h
  | asks rest prepared among makes => exact h

/-- **Every query is counted once**, as soon as it is known who answers it. -/
structure Counted (points : List Block) (t : Trial σ) : Prop where
  /-- queries are asked by nobody else -/
  apart : ¬t.scene.doing.Asks
  ahead : ∀ d ∈ t.ahead, ∀ p, d ≠ .ask p
  blocks : t.queries.map Inquiry.block = points
  counted : t.scene.cache.counters.queries = t.queries.countP Inquiry.counted

theorem Counted.step {points : List Block} (h : Counted points t) (hs : Step t t') :
    Counted points t' := by
  cases hs with
  | @begins d ds known rest listed next =>
    have hd : d ∈ t.ahead := next ▸ List.mem_cons_self
    have hapart : ¬(d.begin t.scene known).doing.Asks := by
      cases d with
      | ask p => exact absurd rfl (h.ahead _ hd p)
      | _ => exact id
    refine ⟨hapart, fun e he => h.ahead e (next ▸ List.mem_cons_of_mem d he), h.blocks, ?_⟩
    exact ((d.step_begin rest listed).queries h.apart hapart).trans h.counted
  | @goesOn s continues =>
    have hapart := continues.not_asks h.apart
    exact ⟨hapart, h.ahead, h.blocks, (continues.step.queries h.apart hapart).trans h.counted⟩
  | @asks before after q q' c rest prepared among makes =>
    have hblock := makes.block
    have hcounts := makes.counted
    have hblocks := h.blocks
    have hcounted := h.counted
    rw [among] at hblocks hcounted
    refine ⟨h.apart, h.ahead, ?_, ?_⟩
    · rw [← hblocks]
      simp only [List.map_append, List.map_cons, hblock]
    · rw [List.countP_append, List.countP_cons] at hcounted ⊢
      show c.counters.queries = _
      cases hq : q.counted <;> cases hq' : q'.counted <;>
        simp only [hq, hq', Bool.toNat_true, Bool.toNat_false, if_true, if_false, reduceCtorEq]
          at hcounts hcounted ⊢ <;>
        omega

theorem counted_of_steps {c : Cache σ} (hc : c.counters.queries = 0) {regions : List Region}
    {columns : List Column} {points : List Block}
    (hs : ReflTransGen Step (start c regions columns points) t) : Counted points t := by
  induction hs with
  | refl =>
    refine ⟨id, ?_, ?_, ?_⟩
    · intro d hd p
      simp only [start, List.mem_cons, List.not_mem_nil, or_false] at hd
      rcases hd with rfl | rfl | rfl <;> exact nofun
    · simp only [start, List.map_map]
      exact List.map_id points
    · refine hc.trans (List.countP_eq_zero.mpr fun q hq => ?_).symm
      obtain ⟨p, -, rfl⟩ := List.mem_map.mp hq
      exact Bool.false_ne_true
  | tail _ hlast ih => exact ih.step hlast

/-! ## one thing after the other -/

theorem steps_of_goesOn {s : Scene σ} (h : t.scene.GoesOn s) :
    ReflTransGen Step t { t with scene := s } := by
  induction h with
  | refl => exact .refl
  | tail _ hlast ih => exact ih.tail (.goesOn hlast)

/-- a deed of the host is a number of steps -/
theorem steps_of_does {s : Scene σ} {d : Deed} {ds : List Deed} (h : t.scene.Does d s)
    (next : t.ahead = d :: ds) : ReflTransGen Step t { t with scene := s, ahead := ds } := by
  obtain ⟨u, known, hbefore, rest, listed, hafter, -⟩ := h
  have hbegins : Step { t with scene := u } { t with scene := d.begin u known, ahead := ds } :=
    .begins rest listed next
  exact ((steps_of_goesOn hbefore).tail hbegins).trans
    (steps_of_goesOn (t := { t with scene := d.begin u known, ahead := ds }) hafter)

/-- a query goes on -/
theorem step_asks {scene : Scene σ} {before after : List Inquiry} {q q' : Inquiry} {c : Cache σ}
    (rest : scene.doing.AtRest) (makes : q.Step scene.cache q' c) :
    Step ⟨scene, [], before ++ q :: after⟩ ⟨{ scene with cache := c }, [], before ++ q' :: after⟩ :=
  .asks rest rfl rfl makes

/-! ## queries can be finished -/

/-- steps from caches of which something is so, and no worker is denied -/
def Within (P : Cache σ → Prop) (t t' : Trial σ) : Prop :=
  P t.scene.cache ∧ t.Step t' ∧ t'.scene.denied = t.scene.denied

/-- one query among others can be finished -/
def Answers (P : Cache σ → Prop) (before after : List Inquiry) (scene : Scene σ) (q : Inquiry) :
    Prop :=
  ∃ (q' : Inquiry) (c : Cache σ), q'.isOver = true ∧ P c ∧
    ReflTransGen (Within P) ⟨scene, [], before ++ q :: after⟩
      ⟨{ scene with cache := c }, [], before ++ q' :: after⟩

section
variable {P : Cache σ → Prop} {scene : Scene σ} {q q' : Inquiry} {c : Cache σ}
  {before after : List Inquiry}

theorem Answers.of_step (hs : q.Step scene.cache q' c) (rest : scene.doing.AtRest)
    (hc : P scene.cache) (h : Answers P before after { scene with cache := c } q') :
    Answers P before after scene q := by
  obtain ⟨r, d, hover, hd, hsteps⟩ := h
  exact ⟨r, d, hover, hd, hsteps.head ⟨hc, step_asks rest hs, rfl⟩⟩

theorem answers (hP : ∀ {q q' : Inquiry} {c c' : Cache σ}, q.Step c q' c' → P c → P c')
    (rest : scene.doing.AtRest) (hc : P scene.cache) (q : Inquiry) :
    Answers P before after scene q := by
  have hover : ∀ {scene : Scene σ} {p : Block} {cached expected : List Region},
      P scene.cache → Answers P before after scene ⟨p, .compared cached expected⟩ :=
    fun hc => ⟨_, _, rfl, hc, .refl⟩
  have hanswered : ∀ {scene : Scene σ} {p : Block} {cached : List Region}, scene.doing.AtRest →
      P scene.cache → Answers P before after scene ⟨p, .answered cached⟩ := by
    intro scene p cached rest hc
    have hstep : Inquiry.Step ⟨p, .answered cached⟩ scene.cache _ _ := .compare rfl
    exact .of_step hstep rest hc (hover (hP hstep hc))
  have hfound : ∀ {scene : Scene σ} {p : Block} {found : Option (List Region)},
      scene.doing.AtRest → P scene.cache → Answers P before after scene ⟨p, .found found⟩ := by
    intro scene p found rest hc
    have hstep : Inquiry.Step ⟨p, .found found⟩ scene.cache _ _ := .answer rfl
    exact .of_step hstep rest hc (hanswered rest (hP hstep hc))
  obtain ⟨p, stage⟩ := q
  cases stage with
  | unasked =>
    have hstep : Inquiry.Step ⟨p, .unasked⟩ scene.cache _ _ := .lookUp rfl
    exact .of_step hstep rest hc (hfound rest (hP hstep hc))
  | found found => exact hfound rest hc
  | answered cached => exact hanswered rest hc
  | compared cached expected => exact hover hc

/-- **All queries can be finished**, one after the other. -/
theorem exists_asked (hP : ∀ {q q' : Inquiry} {c c' : Cache σ}, q.Step c q' c' → P c → P c')
    (rest : scene.doing.AtRest) (hc : P scene.cache) (before after : List Inquiry)
    (hbefore : ∀ q ∈ before, q.isOver = true) :
    ∃ t : Trial σ, ReflTransGen (Within P) ⟨scene, [], before ++ after⟩ t ∧ t.Finished := by
  induction after generalizing scene before with
  | nil =>
    rw [List.append_nil]
    exact ⟨_, .refl, rfl, rest, hbefore⟩
  | cons q after ih =>
    obtain ⟨q', c, hover, hc', hsteps⟩ := answers hP rest hc q
    have rest' : ({ scene with cache := c } : Scene σ).doing.AtRest := rest
    obtain ⟨t, hrest, hfinished⟩ := ih rest' hc' (before ++ [q'])
      (List.forall_mem_append.mpr ⟨hbefore, List.forall_mem_singleton.mpr hover⟩)
    rw [List.append_assoc] at hrest
    exact ⟨t, hsteps.trans hrest, hfinished⟩

end

/-! ## a cross-check in order -/

/-- a query that nothing comes between -/
theorem steps_checkAt {scene : Scene σ} (before after : List Inquiry) (p : Block)
    (rest : scene.doing.AtRest) : ∃ q : Inquiry, q.isOver = true ∧
      q.finding? = some (scene.cache.checkAt p).1 ∧
      ReflTransGen Step ⟨scene, [], before ++ .ofBlock p :: after⟩
        ⟨{ scene with cache := (scene.cache.checkAt p).2 }, [], before ++ q :: after⟩ := by
  have hcheck : scene.cache.checkAt p =
      (.ofAnswers p (scene.cache.regionsAt p).1 ((scene.cache.regionsAt p).2.storeAnswer p).1,
        ((scene.cache.regionsAt p).2.storeAnswer p).2) := rfl
  rw [hcheck, Cache.regionsAt_eq]
  refine ⟨⟨p, .compared _ _⟩, rfl, rfl, ?_⟩
  refine .tail (.tail (.single (step_asks rest (.lookUp rfl))) (step_asks rest (.answer rfl))) ?_
  exact step_asks rest (.compare rfl)

/-- **A cross-check asks one query after the other.** -/
theorem steps_checkAll {scene : Scene σ} (points : List Block) (before : List Inquiry)
    (rest : scene.doing.AtRest) (findings : List Finding) : ∃ queries : List Inquiry,
      (∀ q ∈ queries, q.isOver = true) ∧
      findings.reverse ++ queries.filterMap Inquiry.finding? =
        (scene.cache.checkAll findings points).1 ∧
      ReflTransGen Step ⟨scene, [], before ++ points.map .ofBlock⟩
        ⟨{ scene with cache := (scene.cache.checkAll findings points).2 }, [],
          before ++ queries⟩ := by
  induction points generalizing scene before findings with
  | nil => exact ⟨[], nofun, List.append_nil _, .refl⟩
  | cons p points ih =>
    obtain ⟨q, hover, hfinding, hsteps⟩ := steps_checkAt before (points.map .ofBlock) p rest
    have rest' : ({ scene with cache := (scene.cache.checkAt p).2 } : Scene σ).doing.AtRest := rest
    obtain ⟨queries, hall, hfindings, hrest⟩ :=
      ih (before ++ [q]) rest' ((scene.cache.checkAt p).1 :: findings)
    refine ⟨q :: queries, List.forall_mem_cons.mpr ⟨hover, hall⟩, ?_, ?_⟩
    · rw [List.filterMap_cons_some hfinding, List.append_cons, ← List.reverse_cons]
      exact hfindings
    · rw [List.append_assoc, List.append_assoc] at hrest
      exact hsteps.trans hrest

end Trial
end
end Probe
end Precinct
