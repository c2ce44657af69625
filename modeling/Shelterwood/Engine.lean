/-
Shelterwood/Engine.lean

The per-child machines a scope driver owns: restart policy, readiness gate,
stop ladder and the deadline queue that wakes them.

None of them reads a clock or runs user code.  Time is an argument, and a
deadline that the clock cannot represent, or that lies too close to its ceiling
to be armed, never arrives.  The ceiling depends on the platform, so it is an
argument too.
-/
import Shelterwood.Lifecycle
import Shelterwood.OrdMap

namespace Shelterwood

/-- A span of time, in nanoseconds. -/
abbrev Duration := ℕ

/-! ### Policies -/

inductive RestartCondition
  | always
  | onFailure
  | never
  deriving DecidableEq, Repr

/-- Whether this exit participates in failure restart policy. -/
def Exit.isFailure (exit : Exit) : Bool := exit.kind ≠ .completed

def RestartCondition.shouldRestart : RestartCondition → Exit → Bool
  | .always, _ => true
  | .onFailure, exit => exit.isFailure
  | .never, _ => false

/-- A validated non-zero duration. -/
structure NonZeroDuration where
  value : Duration
  nonZero : value ≠ 0
  deriving DecidableEq, Repr

/-- Per-child shutdown behavior. -/
inductive Shutdown
  | graceful (grace : NonZeroDuration)
  | abort
  deriving DecidableEq, Repr

inductive Readiness
  | immediate
  | afterInit
  | manual
  deriving DecidableEq, Repr

inductive Retention
  | retain
  | remove
  deriving DecidableEq, Repr

/-- The resolved options of one child. -/
structure ResolvedCommonOptions where
  restart : RestartCondition
  shutdown : Shutdown
  readiness : Readiness
  readinessDeadline : Option NonZeroDuration
  retention : Retention
  deriving DecidableEq, Repr

inductive ExitDispatch
  | terminal
  | scheduleRestart
  deriving DecidableEq, Repr

/-- Whether an exit ends its membership. -/
def dispatchExit (exit : Exit) (restart : RestartCondition) (scopeDraining : Bool)
    (membership : MembershipStatus) : Except Fault ExitDispatch :=
  if exit.kind = .neverStarted then
    .error (.panicked "NeverStarted is a membership outcome outside incarnation dispatch")
  else if scopeDraining || membership = .removing then .ok .terminal
  else if restart.shouldRestart exit then .ok .scheduleRestart
  else .ok .terminal

/-- What a task, or the supervisor on its behalf, recorded about an
incarnation. -/
structure RecordedOutcome where
  kind : ExitKind
  deriving DecidableEq, Repr

def RecordedOutcome.readinessTimedOut (deadline : Instant) : RecordedOutcome :=
  ⟨.readinessTimedOut deadline⟩

def RecordedOutcome.aborted (phase : GracePhase) : RecordedOutcome := ⟨.aborted phase⟩

/-! ### Deadlines -/

/-- Headroom an absolute deadline must leave below the clock limit. -/
def armingHeadroom : Duration := 1000000000

/-- The deadline a budget leads to, unless the clock cannot represent and arm
it.  A zero budget is already due and is never armed. -/
def deadlineAfter (ceiling startedAt : Instant) (duration : Duration) : Option Instant :=
  if ceiling < startedAt + duration then none
  else if duration = 0 then some (startedAt + duration)
  else if ceiling < startedAt + duration + armingHeadroom then none
  else some (startedAt + duration)

theorem deadlineAfter_eq_some {ceiling startedAt d : Instant} {duration : Duration}
    (h : deadlineAfter ceiling startedAt duration = some d) : d = startedAt + duration := by
  unfold deadlineAfter at h
  split_ifs at h <;> exact (Option.some.inj h).symm

/-- The time between escalation and hard abort. -/
def tidyAbortBeat (grace : Duration) : Duration := max 1000000 (min 10000000 (grace / 10))

/-- A never-reused registration for one armed deadline. -/
structure DeadlineHandle where
  value : ℕ
  deriving DecidableEq, Repr

structure DeadlineEntry where
  deadline : Instant
  handle : DeadlineHandle
  deriving DecidableEq, Repr

/-- The deadline priority queue.  Cancelling leaves the heap entry in place
until the heap is sparse. -/
structure DeadlineQueue (K : Type*) where
  registrationIds : MonotonicCounter
  /-- The contents of the heap. -/
  entries : List DeadlineEntry
  registrations : OrdMap ℕ K

namespace DeadlineQueue

variable {K : Type*}

def new : DeadlineQueue K := ⟨.new, [], .empty⟩

def push (q : DeadlineQueue K) (deadline : Instant) (key : K) :
    Except Fault (DeadlineHandle × DeadlineQueue K) :=
  match q.registrationIds.mint with
  | .error fault => .error fault
  | .ok (handle, registrationIds) =>
    .ok (⟨handle⟩,
      { registrationIds
        entries := ⟨deadline, ⟨handle⟩⟩ :: q.entries
        registrations := q.registrations.insert handle key })

def compactIfSparse (q : DeadlineQueue K) : DeadlineQueue K :=
  if q.registrations.size * 2 < q.entries.length then
    { q with
      entries := q.entries.filter fun entry => (q.registrations.get? entry.handle.value).isSome }
  else q

def cancel (q : DeadlineQueue K) (handle : DeadlineHandle) : DeadlineQueue K :=
  if (q.registrations.get? handle.value).isSome then
    { q with registrations := q.registrations.erase handle.value }.compactIfSparse
  else q

/-- Cancels a deadline that may not be armed. -/
def cancelOption (q : DeadlineQueue K) : Option DeadlineHandle → DeadlineQueue K
  | some handle => q.cancel handle
  | none => q

end DeadlineQueue

/-! ### The readiness gate -/

inductive ReadinessGate
  | waiting (deadline : Option Instant)
  | ready
  | disarmed
  deriving DecidableEq, Repr

inductive ReadinessEvent
  | signal
  | deadline (now : Instant) (signalSeen : Bool)
  | shutdown
  | exit (signalSeen : Bool)
  deriving DecidableEq, Repr

inductive ReadinessEffect
  | becameReady
  | armDeadline (deadline : Instant)
  | timedOut (deadline : Instant)
  | disarmed
  deriving DecidableEq, Repr

namespace ReadinessGate

/-- The gate of one incarnation and its configuration's own effect. -/
def configure (readiness : Readiness) (deadline : Option Instant) :
    ReadinessGate × Option ReadinessEffect :=
  match readiness with
  | .immediate => (.ready, some .becameReady)
  | .manual | .afterInit => (.waiting deadline, deadline.map .armDeadline)

def step : ReadinessGate → ReadinessEvent → ReadinessGate × Option ReadinessEffect
  | .waiting _, .signal => (.ready, some .becameReady)
  -- a signal that was seen outranks the deadline and the exit
  | .waiting _, .deadline _ true => (.ready, some .becameReady)
  | .waiting _, .exit true => (.ready, some .becameReady)
  | .waiting (some deadline), .deadline now false =>
    if deadline ≤ now then (.disarmed, some (.timedOut deadline))
    else (.waiting (some deadline), none)
  | .waiting none, .deadline _ false => (.waiting none, none)
  | .waiting _, .shutdown => (.disarmed, some .disarmed)
  | .waiting _, .exit false => (.disarmed, some .disarmed)
  | .ready, _ => (.ready, none)
  | .disarmed, _ => (.disarmed, none)

end ReadinessGate

/-! ### The stop ladder -/

inductive StopAction
  | cancel
  | escalate
  | abortFramework (phase : GracePhase)
  | hardAbort (phase : GracePhase)
  deriving DecidableEq, Repr

inductive StopPhase
  | idle
  | cooperative
  | escalated
  | abortingFramework
  | finished
  deriving DecidableEq, Repr

/-- The steps a ladder can still take. -/
def StopPhase.remaining : StopPhase → ℕ
  | .idle => 4
  | .cooperative => 3
  | .escalated => 2
  | .abortingFramework => 1
  | .finished => 0

/-- The single per-child shutdown escalation state machine. -/
structure StopLadder where
  policy : Shutdown
  phase : StopPhase
  deadline : Option Instant
  gracePhase : GracePhase
  forceRequested : Bool
  frameworkDriver : Bool
  frameworkAbortAcked : Bool
  deriving DecidableEq, Repr

namespace StopLadder

def withFrameworkDriver (policy : Shutdown) (frameworkDriver : Bool) : StopLadder where
  policy := policy
  phase := .idle
  deadline := none
  gracePhase := .withinGrace
  forceRequested := false
  frameworkDriver := frameworkDriver
  frameworkAbortAcked := false

def new (policy : Shutdown) : StopLadder := withFrameworkDriver policy false

def forFrameworkDriver (policy : Shutdown) : StopLadder := withFrameworkDriver policy true

/-- Expedites this ladder without replacing or rewinding it. -/
def force (ladder : StopLadder) (now : Instant) : StopLadder :=
  if ladder.phase = .finished then ladder
  else if ladder.phase = .cooperative then
    { ladder with
      gracePhase :=
        if !ladder.forceRequested && ladder.policy ≠ .abort
            && ladder.deadline.any (fun deadline => deadline ≤ now) then .afterGrace
        else ladder.gracePhase
      deadline := some (ladder.deadline.elim now fun deadline => min deadline now)
      forceRequested := true }
  else { ladder with forceRequested := true }

def acknowledgeFrameworkAbort (ladder : StopLadder) : StopLadder :=
  if ladder.phase = .abortingFramework then { ladder with frameworkAbortAcked := true }
  else ladder

/-- Whether the deadline of the current phase has passed. -/
def isDue (ladder : StopLadder) (now : Instant) : Bool :=
  ladder.deadline.any fun deadline => deadline ≤ now

def advance (ceiling : Instant) (ladder : StopLadder) (now : Instant) :
    StopLadder × Option StopAction :=
  match ladder.phase with
  | .idle =>
    ({ ladder with
        phase := .cooperative
        deadline :=
          if ladder.forceRequested then some now
          else
            match ladder.policy with
            | .graceful grace => deadlineAfter ceiling now grace.value
            | .abort => some now }, some .cancel)
  | .cooperative =>
    if ladder.isDue now then
      let grace : Duration :=
        match ladder.policy with
        | .graceful grace => grace.value
        | .abort => 0
      ({ ladder with
          gracePhase :=
            if ladder.policy ≠ .abort && !ladder.forceRequested then .afterGrace
            else ladder.gracePhase
          phase := .escalated
          -- a forced ladder takes the zero-grace beat
          deadline := deadlineAfter ceiling now
            (tidyAbortBeat (if ladder.forceRequested then 0 else grace)) }, some .escalate)
    else (ladder, none)
  | .escalated =>
    if ladder.isDue now then
      if ladder.frameworkDriver then
        ({ ladder with
            phase := .abortingFramework
            deadline := deadlineAfter ceiling now (tidyAbortBeat 0) },
          some (.abortFramework ladder.gracePhase))
      else
        ({ ladder with phase := .finished, deadline := none },
          some (.hardAbort ladder.gracePhase))
    else (ladder, none)
  | .abortingFramework =>
    if ladder.isDue now then
      ({ ladder with phase := .finished, deadline := none },
        -- an acknowledged framework abort needs no hard abort
        if ladder.frameworkAbortAcked then none else some (.hardAbort ladder.gracePhase))
    else (ladder, none)
  | .finished => (ladder, none)

/-- Advances while there is an action; the loop of `advance_ladder`, for at most
`steps` actions. -/
def advanceWhile (ceiling now : Instant) : ℕ → StopLadder → StopLadder × List StopAction
  | 0, ladder => (ladder, [])
  | steps + 1, ladder =>
    match ladder.advance ceiling now with
    | (ladder, none) => (ladder, [])
    | (ladder, some action) =>
      let (ladder, actions) := advanceWhile ceiling now steps ladder
      (ladder, action :: actions)

def advanceAll (ceiling now : Instant) (ladder : StopLadder) : StopLadder × List StopAction :=
  advanceWhile ceiling now ladder.phase.remaining ladder

end StopLadder

end Shelterwood
