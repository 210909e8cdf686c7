import Mathlib
import Precinct.Cache.Wait
import Precinct.Proofs.Store.Exact

/-!
# A cache, its host and its workers

The operations of a cache taken apart into steps that others can come between.

* `Doing`          what the host is in the middle of, or what its last operation answered;
* `Scene σ`        a cache with what its host is doing.  Beside them stands what no state of a cache
                   tells: the pools that a drain gave up on, and whether anything went wrong, a
                   survey lost or a worker that could not be started, be it that the system denied
                   it;
* `Step`           one step: the host begins an operation or goes on with the one begun, a worker
                   makes a move or a step of its survey, or time passes;
* `Aside`          a step that is not the host's;
* `Scene.Reach`    what can be reached by steps, in any order;
* `Scene.GoesOn`   what can be reached while the host begins no operation.

The host does one operation at a time.  Between the two halves of a write, between two submissions,
while a block is looked up, and throughout a wait the workers do what they like: also where the lock
of the cache would hold them up, so every order of steps that can occur is one of these.  What a
wait answers is looked at when it ends, whenever that is.

A renewal lists the known columns in whatever order: a hash table has none of its own.

`Cache.turn` is one step.  The moves that could come between raising the token of a pool and
discarding its queue could as well come before the one or after the other.
-/

namespace Precinct

/-- what the host is in the middle of, or what its last operation answered -/
inductive Doing where
  | nothing
  /-- the store was changed, the cache is yet to be renewed -/
  | writing
  /-- batches of columns are yet to be submitted; whether they belong to a renewal -/
  | scheduling (batches : List (List Column)) (renewal : Bool)
  /-- the column of a block was looked up -/
  | asking (p : Block) (found : Option (List Region))
  /-- the regions that hold a block were found -/
  | answered (p : Block) (regions : List Region)
  /-- a fresh pool takes new jobs; the pool that took them before is yet to be closed -/
  | swapped (k : Nat)
  /-- a closed pool is waited for -/
  | draining (k : Nat)
  /-- whether the work scheduled before had finished -/
  | drained (b : Bool)
  /-- dismissed pools are waited for, some of them still to be looked at; whether the others had
  stopped -/
  | dismissing (pools pending : List Nat) (stopped : Bool)
  /-- whether all surveys had stopped -/
  | dismissed (b : Bool)
  deriving DecidableEq

/-- whether the host can begin an operation -/
def Doing.AtRest : Doing → Prop
  | nothing | answered _ _ | drained _ | dismissed _ => True
  | writing | scheduling _ _ | asking _ _ | swapped _ | draining _ | dismissing _ _ _ => False

theorem Doing.AtRest.ne_writing {d : Doing} (h : d.AtRest) : d ≠ .writing := by
  rintro rfl
  exact h

namespace Cache
variable {σ : Type} [RegionStore σ]

/-- the second half of a query: a sheet answers, or else the store -/
def answer (c : Cache σ) (p : Block) : Option (List Region) → List Region × Cache σ
  | some regions =>
    (Region.inLayers (visitWhere (·.contains p) (Sighting.note none) regions {}).shown, c)
  | none => (Region.inLayers (sightings none (c.fallBack p).1).shown, (c.fallBack p).2)

theorem regionsAt_eq (c : Cache σ) (p : Block) :
    c.regionsAt p = (c.resolve p.column).2.answer p (c.resolve p.column).1 := by
  unfold regionsAt visitContaining
  cases hr : c.resolve p.column with
  | mk found c' => cases found <;> rfl

/-- whatever a visitor of the regions at a block sees, the cache becomes what a query makes it -/
theorem cache_visitContaining (c : Cache σ) (p : Block) (limit : Option Nat) :
    (c.visitContaining p limit).2.2 = (c.regionsAt p).2 := by
  unfold regionsAt visitContaining
  cases hr : c.resolve p.column with
  | mk found c => cases found <;> rfl

/-- whether a step of a worker loses a survey -/
def breaksOff (c : Cache σ) (k number : Nat) : WorkerStep → Bool
  | .move _ => false
  | .survey =>
    match ((c.pool k).worker? number).map Worker.phase with
    | some (.running s) => (c.surveyStep? k number s).any fun e => e.1 = .breaksOff
    | _ => false

/-- a new epoch with known columns, none of them submitted yet -/
def restart (c : Cache σ) (known : List Column) : Cache σ := (c.turn.2.insertAllMissing known).2

/-- all batches are submitted; a renewal is counted -/
def submitted (c : Cache σ) : Bool → Cache σ
  | false => c
  | true => { c with counters := { c.counters with rebuilds := c.counters.rebuilds + 1 } }

/-- cut columns into the batches that are submitted -/
def cut (c : Cache σ) (columns : List Column) : List (List Column) :=
  batches c.settings.batchSize.toNat columns

end Cache

/-- a cache and its host -/
structure Scene (σ : Type) where
  cache : Cache σ
  doing : Doing := .nothing
  /-- the pools that a drain gave up on -/
  abandoned : List Nat := []
  /-- a survey was lost or a worker could not be started -/
  mishap : Bool := false
  /-- the system denied a worker -/
  denied : Bool := false

section
variable {σ : Type} [RegionStore σ]

/-- one step of the host, of a worker, or of time -/
inductive Step (s : Scene σ) : Scene σ → Prop
  -- writes and renewals
  | write (w : Write) (rest : s.doing.AtRest) :
      Step s { s with cache := s.cache.modifyStore w.apply, doing := .writing }
  | chore (t : Chore) (rest : s.doing.AtRest) :
      Step s { s with cache := s.cache.modifyStore t.apply, doing := .nothing }
  | renew {known : List Column} (listed : known.Perm s.cache.columns.keys)
      (rest : s.doing.AtRest ∨ s.doing = .writing) :
      Step s { s with
        cache := s.cache.restart known
        doing := .scheduling (s.cache.cut known) true }
  -- hints
  | warm (columns : List Column) (rest : s.doing.AtRest) :
      Step s { s with
        cache := (s.cache.insertAllMissing columns).2
        doing := .scheduling (s.cache.cut (s.cache.insertAllMissing columns).1) false }
  | drop (column : Column) (rest : s.doing.AtRest) :
      Step s { s with cache := s.cache.drop column, doing := .nothing }
  | dropAll (rest : s.doing.AtRest) :
      Step s { s with cache := s.cache.dropAll, doing := .nothing }
  -- submissions
  | submit {batch : List Column} {batches : List (List Column)} {renewal denied : Bool}
      {p : Pool Survey}
      (doing : s.doing = .scheduling (batch :: batches) renewal)
      (taken : (s.cache.pool s.cache.current).submit
        { epoch := s.cache.epoch, columns := batch } denied = (.ok (), p)) :
      Step s { s with
        cache := s.cache.setPool s.cache.current p
        doing := .scheduling batches renewal
        mishap := denied || s.mishap
        denied := denied || s.denied }
  | breakOff {batch : List Column} {batches : List (List Column)} {renewal : Bool}
      {p : Pool Survey} {fault : Fault}
      (doing : s.doing = .scheduling (batch :: batches) renewal)
      (refused : (s.cache.pool s.cache.current).submit
        { epoch := s.cache.epoch, columns := batch } = (.error fault, p)) :
      Step s { s with
        cache := s.cache.setPool s.cache.current p
        doing := .nothing
        mishap := true }
  | scheduled {renewal : Bool} (doing : s.doing = .scheduling [] renewal) :
      Step s { s with
        cache := s.cache.submitted renewal
        doing := .nothing }
  -- queries
  | ask (p : Block) (rest : s.doing.AtRest) :
      Step s { s with
        cache := (s.cache.resolve p.column).2
        doing := .asking p (s.cache.resolve p.column).1 }
  | answer {p : Block} {found : Option (List Region)} (doing : s.doing = .asking p found) :
      Step s { s with
        cache := (s.cache.answer p found).2
        doing := .answered p (s.cache.answer p found).1 }
  | overlap (r : Region) (rest : s.doing.AtRest) :
      Step s { s with cache := (s.cache.intersecting r).2, doing := .nothing }
  | consult (p : Block) (rest : s.doing.AtRest) :
      Step s { s with
        cache := { s.cache with store := (s.cache.store.containing p).2 }
        doing := .nothing }
  -- waiting for the work scheduled so far
  | swap (rest : s.doing.AtRest) :
      Step s { s with cache := s.cache.freshPool, doing := .swapped s.cache.current }
  | close {k : Nat} (doing : s.doing = .swapped k) :
      Step s { s with cache := s.cache.closePool k, doing := .draining k }
  | drained {k : Nat} (doing : s.doing = .draining k) :
      Step s { s with
        doing := .drained (!s.cache.isLive k)
        abandoned := if s.cache.isLive k then k :: s.abandoned else s.abandoned }
  -- waiting for surveys to stop
  | dismiss (rest : s.doing.AtRest) :
      Step s { s with
        cache := s.cache.turn.2.takeDismissed.2
        doing := .dismissing s.cache.turn.2.dismissed s.cache.turn.2.dismissed true }
  | observe {pools pending : List Nat} {k : Nat} {stopped : Bool}
      (doing : s.doing = .dismissing pools (k :: pending) stopped) :
      Step s { s with doing := .dismissing pools pending (stopped && !s.cache.isLive k) }
  | dismissed {pools : List Nat} {stopped : Bool} (doing : s.doing = .dismissing pools [] stopped) :
      Step s { s with
        cache := if stopped then s.cache else s.cache.giveBack pools
        doing := .dismissed stopped }
  -- what is arranged for the store
  | closeGate : Step s { s with cache := { s.cache with store := s.cache.store.closeGate } }
  | openGate : Step s { s with cache := { s.cache with store := s.cache.store.openGate.2 } }
  | failNext : Step s { s with cache := { s.cache with store := s.cache.store.failNext } }
  -- the workers and the clock
  | work {k number : Nat} {w : WorkerStep} {c : Cache σ} (makes : s.cache.step? k number w = some c) :
      Step s { s with cache := c, mishap := s.mishap || s.cache.breaksOff k number w }
  | elapse (ms : Nat) : Step s { s with cache := s.cache.elapse ms }

/-- a step that is not the host's -/
inductive Aside (s : Scene σ) : Scene σ → Prop
  | closeGate : Aside s { s with cache := { s.cache with store := s.cache.store.closeGate } }
  | openGate : Aside s { s with cache := { s.cache with store := s.cache.store.openGate.2 } }
  | failNext : Aside s { s with cache := { s.cache with store := s.cache.store.failNext } }
  | work {k number : Nat} {w : WorkerStep} {c : Cache σ} (makes : s.cache.step? k number w = some c) :
      Aside s { s with cache := c, mishap := s.mishap || s.cache.breaksOff k number w }
  | elapse (ms : Nat) : Aside s { s with cache := s.cache.elapse ms }

namespace Step
variable {s s' : Scene σ}

/-- a write goes on until the cache is renewed -/
theorem of_writing (hs : Step s s') (hd : s.doing = .writing) :
    s'.doing = .writing ∨ ∃ known, s'.cache = s.cache.restart known := by
  cases hs with
  | renew listed rest => exact Or.inr ⟨_, rfl⟩
  | closeGate => exact Or.inl hd
  | openGate => exact Or.inl hd
  | failNext => exact Or.inl hd
  | work makes => exact Or.inl hd
  | elapse ms => exact Or.inl hd
  | _ => simp_all [Doing.AtRest]

/-- a query begins with looking the column up -/
theorem to_asking (hs : Step s s') {p : Block} {found : Option (List Region)}
    (hd : s'.doing = .asking p found) : s.doing = .asking p found ∨
      s.doing.AtRest ∧ s'.cache = (s.cache.resolve p.column).2 ∧
        found = (s.cache.resolve p.column).1 := by
  cases hs with
  | ask q rest =>
    cases hd
    exact Or.inr ⟨rest, rfl, rfl⟩
  | closeGate => exact Or.inl hd
  | openGate => exact Or.inl hd
  | failNext => exact Or.inl hd
  | work makes => exact Or.inl hd
  | elapse ms => exact Or.inl hd
  | _ => cases hd

/-- and it ends with the answer -/
theorem to_answered (hs : Step s s') {p : Block} {regions : List Region}
    (hd : s'.doing = .answered p regions) : s.doing = .answered p regions ∨
      ∃ found, s.doing = .asking p found ∧ regions = (s.cache.answer p found).1 := by
  cases hs with
  | @answer q found doing =>
    cases hd
    exact Or.inr ⟨found, doing, rfl⟩
  | closeGate => exact Or.inl hd
  | openGate => exact Or.inl hd
  | failNext => exact Or.inl hd
  | work makes => exact Or.inl hd
  | elapse ms => exact Or.inl hd
  | _ => cases hd

end Step

namespace Aside
variable {s s' : Scene σ}

theorem step (h : Aside s s') : Step s s' := by
  cases h with
  | closeGate => exact .closeGate
  | openGate => exact .openGate
  | failNext => exact .failNext
  | work makes => exact .work makes
  | elapse ms => exact .elapse ms

theorem doing (h : Aside s s') : s'.doing = s.doing := by cases h <;> rfl

end Aside

namespace Scene

/-- the host goes on with what it is in the middle of, or the step is not the host's -/
def Continues (s s' : Scene σ) : Prop := Aside s s' ∨ ¬s.doing.AtRest ∧ Step s s'

theorem Continues.step {s s' : Scene σ} (h : s.Continues s') : Step s s' := h.elim Aside.step And.right

/-- the host has done nothing with the cache yet -/
def start (c : Cache σ) : Scene σ := { cache := c }

/-- the second scene can follow the first -/
def Reach : Scene σ → Scene σ → Prop := Relation.ReflTransGen Step

/-- the second scene can follow the first without an operation being begun in between -/
def GoesOn : Scene σ → Scene σ → Prop := Relation.ReflTransGen Continues

theorem GoesOn.reach {s s' : Scene σ} (h : s.GoesOn s') : s.Reach s' :=
  Relation.ReflTransGen.mono (fun _ _ => Continues.step) _ _ h

/-- what holds at first and is kept by every step holds ever after -/
theorem Reach.invariant {P : Scene σ → Prop} (hstep : ∀ s s', P s → Step s s' → P s')
    {s₀ s : Scene σ} (hs : Reach s₀ s) (h : P s₀) : P s := by
  induction hs with
  | refl => exact h
  | tail _ hlast ih => exact hstep _ _ ih hlast

end Scene
end
end Precinct
