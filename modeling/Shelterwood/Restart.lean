/-
Shelterwood/Restart.lean

Restart accounting and the classification of exits.

An exit that schedules a restart is charged twice: to its child, whose attempt
counter selects the backoff delay and is forgiven after a stable run, and to the
scope, whose rolling window trips once it holds more charges than the policy
allows.  The delay itself depends on the backoff policy and a random sample, so
it enters as a function of the attempt.

The evidence about one incarnation comes from its task, from the supervisor that
forced it and from the join.  The stronger evidence wins, and the earlier of two
equals.
-/
import Shelterwood.Engine
import Shelterwood.ScopeCell

namespace Shelterwood

/-! ### Restart accounting -/

/-- The successor of a `u64` count that stays at its limit. -/
def saturatingSucc (count : ℕ) : ℕ := min (count + 1) u64Max

/-- The consecutive restart attempts of a child. -/
structure RestartAttempt where
  value : ℕ
  deriving DecidableEq, Repr

def RestartAttempt.bump (attempt : RestartAttempt) : RestartAttempt :=
  ⟨saturatingSucc attempt.value⟩

def RestartCount.bump (count : RestartCount) : RestartCount := ⟨saturatingSucc count.count⟩

def TotalRestarts.bump (total : TotalRestarts) : TotalRestarts := ⟨saturatingSucc total.count⟩

/-- The scope-wide restart budget. -/
structure Intensity where
  maxRestarts : ℕ
  within : NonZeroDuration
  deriving DecidableEq, Repr

structure IntensityCharge where
  policy : Intensity
  inWindow : ℕ
  totalRestarts : TotalRestarts
  tripped : Bool
  deriving DecidableEq, Repr

def IntensityCharge.trip (charge : IntensityCharge) : IntensityTrip where
  maxRestarts := charge.policy.maxRestarts
  observedRestarts := charge.inWindow
  within := charge.policy.within.value

/-- The charges still inside the window, oldest first. -/
structure IntensityState where
  charges : List Instant
  totalRestarts : TotalRestarts
  deriving DecidableEq, Repr

namespace IntensityState

def new : IntensityState := ⟨[], ⟨0⟩⟩

/-- Charges one restart.  A charge from the future is never too old. -/
def charge (state : IntensityState) (policy : Intensity) (now : Instant) :
    IntensityCharge × IntensityState :=
  let charges :=
    (state.charges.dropWhile fun charge =>
      charge ≤ now && policy.within.value < now - charge) ++ [now]
  let inWindow := min charges.length u64Max
  ({ policy := policy
     inWindow := inWindow
     totalRestarts := state.totalRestarts.bump
     tripped := policy.maxRestarts < inWindow },
    { charges := charges, totalRestarts := state.totalRestarts.bump })

end IntensityState

structure RestartState where
  attempt : RestartAttempt
  cumulative : RestartCount
  deriving DecidableEq, Repr

namespace RestartState

def new : RestartState := ⟨⟨0⟩, ⟨0⟩⟩

def schedule (state : RestartState) : RestartState :=
  ⟨state.attempt.bump, state.cumulative.bump⟩

/-- Forgives the attempts after a run of `stableFor`; a clock that went back
counts as no time at all. -/
def settleIfStable (state : RestartState) (startedAt stoppedAt : Instant)
    (stableFor : Duration) : RestartState :=
  if stoppedAt - startedAt < stableFor then state else { state with attempt := ⟨0⟩ }

end RestartState

/-- Complete restart verdict. -/
structure RestartDecision where
  attempt : RestartAttempt
  restartCount : RestartCount
  delay : Duration
  /-- The backoff deadline, unless the clock cannot represent and arm it. -/
  restartAt : Option Instant
  charge : IntensityCharge
  deriving DecidableEq, Repr

def RestartDecision.intensityTrip (decision : RestartDecision) : Option IntensityTrip :=
  if decision.charge.tripped then some decision.charge.trip else none

def scheduleRestart (restarts : RestartState) (intensity : IntensityState) (policy : Intensity)
    (nextDelay : RestartAttempt → Duration) (ceiling now : Instant) :
    RestartDecision × RestartState × IntensityState :=
  let scheduled := restarts.schedule
  let delay := nextDelay scheduled.attempt
  let (charge, intensity) := intensity.charge policy now
  ({ attempt := scheduled.attempt
     restartCount := scheduled.cumulative
     delay := delay
     restartAt := deadlineAfter ceiling now delay
     charge := charge }, scheduled, intensity)

/-! ### Exit classification -/

/-- The result of joining one supervised task. -/
inductive JoinOutcome
  | ok
  | panic (message : Option String)
  | cancelled
  deriving DecidableEq, Repr

/-- What a task returned; `none` is success. -/
def RecordedOutcome.returned : Option ExitError → RecordedOutcome
  | none => ⟨.completed⟩
  | some error => ⟨.failed error⟩

/-- The position of an exit kind in the diagnostic precedence, weakest
first. -/
def ExitKind.rank : ExitKind → ℕ
  | .neverStarted => 0
  | .completed => 1
  | .aborted _ => 2
  | .failed _ => 3
  | .readinessTimedOut _ => 4
  | .panicked _ => 5

/-- The kind that wins, and the one that is discarded. -/
def preferEarlier (earlier later : ExitKind) : ExitKind × ExitKind :=
  if later.rank ≤ earlier.rank then (earlier, later) else (later, earlier)

/-- Reconciles what the task recorded with an outcome the supervisor forced. -/
def reconcileRecordedOutcomes (recorded forced : Option RecordedOutcome) :
    Option RecordedOutcome × Option RecordedOutcome :=
  match recorded, forced with
  | some recorded, some forced =>
    let (selected, discarded) := preferEarlier recorded.kind forced.kind
    (some ⟨selected⟩, some ⟨discarded⟩)
  | some recorded, none => (some recorded, none)
  | none, some forced => (some forced, none)
  | none, none => (none, none)

def JoinOutcome.kind (hardAbortPhase : Option GracePhase) : JoinOutcome → Option ExitKind
  | .ok => none
  | .panic message => some (.panicked message)
  | .cancelled => some (.aborted (hardAbortPhase.getD .withinGrace))

/-- Folds the recorded outcome and the verdict of the join. -/
def classifyExit (recorded : Option RecordedOutcome) (join : JoinOutcome)
    (hardAbortPhase : Option GracePhase) (cancellation : Cancellation) : Exit × Option Exit :=
  let (kind, discarded) :=
    match recorded.map RecordedOutcome.kind, join.kind hardAbortPhase with
    | some recorded, some join =>
      let (selected, discarded) := preferEarlier recorded join
      (selected, some discarded)
    | some recorded, none => (recorded, none)
    | none, some join => (join, none)
    | none, none => (ExitKind.aborted .withinGrace, none)
  (⟨kind, cancellation⟩, discarded.map fun kind => ⟨kind, cancellation⟩)

end Shelterwood
