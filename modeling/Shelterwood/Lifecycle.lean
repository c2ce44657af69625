/-
Shelterwood/Lifecycle.lean

The lifecycle of one scope incarnation and its finish policy.

    starting --complete_startup--> running
    starting --fail_startup-->     startupFailed
    any      --begin_drain-->      draining

A drain is entered once and never left; a later `beginDrain` only joins its
reason into the stop precedence.  `beginDrain` asserts that its reason is not
`NeverStarted`, so it is the one operation here that can fault.
-/
import Shelterwood.Exit

namespace Shelterwood

/-- Whether a scope has fixed ordered membership or runtime-dynamic
membership. -/
inductive ScopeFlavor
  | ordered
  | dynamic
  deriving DecidableEq, Repr

/-- Whether a membership remains resident or a planned removal has begun. -/
inductive MembershipStatus
  | active
  | removing
  deriving DecidableEq, Repr

/-- The published state of a scope. -/
inductive ScopeState
  | unstarted
  | starting
  | running
  | startupFailed
  | draining
  | stopped (reason : StopReason)
  deriving DecidableEq, Repr

def ScopeState.isStopped : ScopeState → Bool
  | .stopped _ => true
  | _ => false

/-! ### The machine -/

inductive StartupPhase
  | pending
  | complete
  | failed
  deriving DecidableEq, Repr

structure ScopeDrain where
  reason : StopReason
  startup : StartupPhase
  deriving DecidableEq, Repr

/-- Authoritative lifecycle of one scope incarnation. -/
inductive ScopeLifecycle
  | starting
  | running
  | startupFailed
  | draining (drain : ScopeDrain)
  deriving DecidableEq, Repr

/-- The child state relevant to deciding whether a scope can finish. -/
structure ChildCompletionState where
  hasChildren : Bool
  allTerminal : Bool
  deriving DecidableEq, Repr

namespace ScopeLifecycle

def state : ScopeLifecycle → ScopeState
  | .starting => .starting
  | .running => .running
  | .startupFailed => .startupFailed
  | .draining _ => .draining

def isStarting : ScopeLifecycle → Bool
  | .starting => true
  | _ => false

def startupComplete : ScopeLifecycle → Bool
  | .running => true
  | .draining drain => drain.startup = .complete
  | _ => false

def isDraining : ScopeLifecycle → Bool
  | .draining _ => true
  | _ => false

def drainingReason : ScopeLifecycle → Option StopReason
  | .draining drain => some drain.reason
  | _ => none

def completeStartup : ScopeLifecycle → ScopeLifecycle × Option ScopeState
  | .starting => (.running, some .running)
  | lifecycle => (lifecycle, none)

/-- Records only the first startup failure. -/
def failStartup : ScopeLifecycle → ScopeLifecycle × Option ScopeState
  | .starting => (.startupFailed, some .startupFailed)
  | lifecycle => (lifecycle, none)

/-- Enters a drain; the returned flag says whether startup was pending. -/
def enterDrain (reason : StopReason) (startup : StartupPhase) :
    ScopeLifecycle × Option (Bool × ScopeState) :=
  (.draining ⟨reason, startup⟩, some (startup = .pending, .draining))

/-- Begins draining or monotonically upgrades an in-progress drain. -/
def beginDrain (lifecycle : ScopeLifecycle) (reason : StopReason) :
    Except Fault (ScopeLifecycle × Option (Bool × ScopeState)) :=
  if reason = .neverStarted then
    .error (.panicked "NeverStarted is not a live-incarnation drain reason")
  else
    match lifecycle with
    | .starting => .ok (enterDrain reason .pending)
    | .running => .ok (enterDrain reason .complete)
    | .startupFailed => .ok (enterDrain reason .failed)
    | .draining drain =>
      if stopReasonPrecedence drain.reason < stopReasonPrecedence reason then
        .ok (.draining { drain with reason }, none)
      else .ok (.draining drain, none)

def finishIfReady (lifecycle : ScopeLifecycle) (flavor : ScopeFlavor)
    (children : ChildCompletionState) : Option StopReason :=
  match lifecycle.drainingReason with
  | some reason => if children.allTerminal then some reason else none
  | none =>
    if lifecycle.startupComplete ∧ flavor = .ordered ∧ children.hasChildren ∧
        children.allTerminal then
      some .finished
    else none

/-! ### What the operations can do -/

variable {lifecycle : ScopeLifecycle}

theorem isStarting_iff : lifecycle.isStarting = true ↔ lifecycle = .starting := by
  cases lifecycle <;> simp [isStarting]

theorem isStarting_eq_false_iff : lifecycle.isStarting = false ↔ lifecycle ≠ .starting := by
  cases lifecycle <;> simp [isStarting]

theorem isDraining_iff : lifecycle.isDraining = true ↔ ∃ drain, lifecycle = .draining drain := by
  cases lifecycle <;> simp [isDraining]

theorem not_isStarting_of_isDraining (h : lifecycle.isDraining = true) :
    lifecycle.isStarting = false := by
  cases lifecycle <;> simp_all [isDraining, isStarting]

theorem ne_starting_of_isDraining (h : lifecycle.isDraining = true) : lifecycle ≠ .starting :=
  isStarting_eq_false_iff.mp (not_isStarting_of_isDraining h)

/-- A drain either is entered from outside one or only moves its reason. -/
theorem beginDrain_cases {lifecycle' : ScopeLifecycle} {reason : StopReason}
    {result : Option (Bool × ScopeState)}
    (h : lifecycle.beginDrain reason = .ok (lifecycle', result)) :
    (lifecycle.isDraining = false ∧ lifecycle'.isDraining = true ∧
        result = some (lifecycle.isStarting, .draining)) ∨
      (lifecycle.isDraining = true ∧ lifecycle'.isDraining = true ∧ result = none) := by
  unfold beginDrain at h
  split_ifs at h with hreason
  cases lifecycle with
  | starting | running | startupFailed =>
    cases h
    exact .inl ⟨rfl, rfl, rfl⟩
  | draining drain =>
    simp only at h
    split_ifs at h <;> cases h <;> exact .inr ⟨rfl, rfl, rfl⟩

end ScopeLifecycle

end Shelterwood
