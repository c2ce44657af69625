/-
Shelterwood/Exit.lean

Structured exits and stop reasons, with the precedence that resolves competing
stop verdicts of one incarnation.

An application error is type-erased and compares by the allocation it shares
with its clones, so the model keeps only that identity; nothing modelled here
reads its content.
-/
import Shelterwood.Identity
import Mathlib.Data.Nat.Basic
import Mathlib.Order.Lattice

namespace Shelterwood

/-! ### Exits -/

/-- A point of the monotonic clock, in nanoseconds. -/
abbrev Instant := ℕ

/-- A cloneable, type-erased application error, by its shared allocation. -/
structure ExitError where
  provenance : ℕ
  deriving DecidableEq, Repr

inductive Cancellation
  | notObserved
  | observed
  deriving DecidableEq, Repr

inductive GracePhase
  | withinGrace
  | afterGrace
  deriving DecidableEq, Repr

inductive ExitKind
  | completed
  | failed (error : ExitError)
  | panicked (message : Option String)
  | readinessTimedOut (deadline : Instant)
  | aborted (phase : GracePhase)
  | neverStarted
  deriving DecidableEq, Repr

/-- The structured result of one child incarnation or never-started
membership. -/
structure Exit where
  kind : ExitKind
  cancellation : Cancellation
  deriving DecidableEq, Repr

def Exit.completed (cancellation : Cancellation) : Exit := ⟨.completed, cancellation⟩

def Exit.neverStarted : Exit := ⟨.neverStarted, .notObserved⟩

/-! ### Stop reasons -/

/-- A scope restart-budget failure. -/
structure IntensityTrip where
  maxRestarts : ℕ
  observedRestarts : ℕ
  within : ℕ
  deriving DecidableEq, Repr

inductive StartupFailureCause
  | child (id : ChildId) (membership : Membership) (exit : Exit)
  | lowering (undefined : List ChildId)
  deriving DecidableEq, Repr

structure StartupFailure where
  cause : StartupFailureCause
  deriving DecidableEq, Repr

/-- The terminal reason for a scope incarnation or root system. -/
inductive StopReason
  | finished
  | shutdownRequested
  | intensityTripped (trip : IntensityTrip)
  | startupFailed (failure : StartupFailure)
  | neverStarted
  deriving DecidableEq, Repr

/-- Failure of the root startup barrier. -/
inductive StartupError
  | startupFailed (failure : StartupFailure)
  | intensityTripped (trip : IntensityTrip)
  | shutdownRequested
  deriving DecidableEq, Repr

/-- Total precedence order over stop reasons. -/
inductive StopPrecedence
  | finished
  | intensityTripped
  | startupFailed
  | shutdownRequested
  | neverStarted
  deriving DecidableEq, Repr

/-- The position of a precedence in its declaration order. -/
def StopPrecedence.rank : StopPrecedence → ℕ
  | .finished => 0
  | .intensityTripped => 1
  | .startupFailed => 2
  | .shutdownRequested => 3
  | .neverStarted => 4

theorem StopPrecedence.rank_injective : Function.Injective StopPrecedence.rank := by
  intro a b h
  cases a <;> cases b <;> first | rfl | cases h

instance : LinearOrder StopPrecedence := LinearOrder.lift' _ StopPrecedence.rank_injective

def stopReasonPrecedence : StopReason → StopPrecedence
  | .finished => .finished
  | .intensityTripped _ => .intensityTripped
  | .startupFailed _ => .startupFailed
  | .shutdownRequested => .shutdownRequested
  | .neverStarted => .neverStarted

end Shelterwood
