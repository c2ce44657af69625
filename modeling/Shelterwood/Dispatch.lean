/-
Shelterwood/Dispatch.lean

What the driver's loop dispatches.

A wake collects signals, child events, control requests and due deadlines, and
dispatches them one after another; a settlement and the completion of held-back
removals follow.  The arguments of a dispatch were read at some earlier time, so
the keys and incarnations they carry may be stale: every handler looks its child
up again and lets a stale event miss.

`Dispatch` lists the handlers with their arguments, and `perform` runs one.
-/
import Shelterwood.Driver

namespace Shelterwood

namespace Driver

open Program (ensure expect forEach)

variable (world : World)

/-! ### Suppression -/

/-- Samples the removal sources of a membership into the reducer. -/
def dispatchMembershipStatus (key : ChildKey) : Driver MembershipStatus := do
  let latched ← removalLatched world key
  Program.when latched (reduce (.removalSampled key))
  let rt ← get
  return rt.supervisor.membershipStatus key

/-- Whether some stop source forbids constructing an incarnation now. -/
def constructionIsSuppressed (key : ChildKey) : Driver Bool := do
  let rt ← get
  if rt.supervisor.lifecycle.isDraining || rt.supervisor.hardForced then return true
  interleave world
  let rt ← get
  if rt.root.hasStopRequest rt.epoch then return true
  interleave world
  let rt ← get
  if rt.role ≠ .root && world.ancestorStop rt.tick then return true
  removalLatched world key

/-! ### Drains -/

def beginDrain (re : Reentry) (reason : StopReason) : Driver Unit := do
  let rt ← get
  beginDrainTransition world re reason
    (if rt.supervisor.lifecycle.isStarting then some (.error .shutdownRequested) else none)

/-- Forces every child in the reducer and returns a newly entered drain. -/
def reduceForce : Driver (Option (Bool × ScopeState)) := do
  let rt ← get
  let result ← liftFault rt.supervisor.force
  modify fun rt =>
    { rt with
      supervisor := result.1
      supervisorEffects := rt.supervisorEffects ++ result.2.1
      log := rt.log ++ [.reduced ⟨rt.supervisor, .force, .drained result.2.1 result.2.2,
        result.1⟩] }
  return result.2.2

/-- Publishes a drain that a force entered. -/
def publishForcedDrain (queued : ℕ) : Option (Bool × ScopeState) → Driver Unit
  | none => return
  | some (startupPending, state) => do
    let entered ← get
    setRoot world state fun root =>
      root.publishDrain state (if startupPending then some (.error .shutdownRequested) else none)
    forEach (fun key => updateChild key fun child =>
        { child with slot := child.slot.setTerminalDisposalPending true })
      (drainEntryTerminalDisposals entered (entered.supervisorEffects.drop queued))

def forceAll (re : Reentry) : Driver Unit := do
  let rt ← get
  let drain ← reduceForce
  publishForcedDrain world rt.supervisorEffects.length drain
  re.flushSupervisorEffects
  re.settleSupervisor

/-! ### Readiness and local stops -/

/-- Steps the gate of the named incarnation, if it is the live one. -/
def stepReadiness (key : ChildKey) (incarnation : Incarnation) (event : ReadinessEvent) :
    Driver (Option ReadinessEffect) := do
  let rt ← get
  let some active := (rt.active? key).filter fun active => active.incarnation = incarnation
    | return none
  updateActive key fun active => { active with readiness := (active.readiness.step event).1 }
  return (active.readiness.step event).2

/-- Steps the gate and applies its effect; says whether startup may have
advanced. -/
def passReadiness (re : Reentry) (key : ChildKey) (incarnation : Incarnation)
    (event : ReadinessEvent) : Driver Bool := do
  let effect ← stepReadiness key incarnation event
  match effect with
  | some effect => applyReadinessEffect world re key incarnation effect
  | none => return false

def handleReady (re : Reentry) (key : ChildKey) (incarnation : Incarnation) : Driver Unit := do
  let becameReady ← passReadiness world re key incarnation .signal
  Program.when becameReady re.settleSupervisor

/-- Whether the named incarnation is live, and if so whether it has signalled
readiness. -/
def liveReady (key : ChildKey) (incarnation : Incarnation) (rt : ScopeRuntime) : Option Bool :=
  ((rt.active? key).filter fun active => active.incarnation = incarnation).map fun active =>
    active.latches.ready

def handleSelfStop (re : Reentry) (key : ChildKey) (incarnation : Incarnation) :
    Driver Unit := do
  interleave world
  let rt ← get
  -- a readiness signal that preceded the stop is credited first
  Program.when (liveReady key incarnation rt = some true) (handleReady world re key incarnation)
  let rt ← get
  if (liveReady key incarnation rt).isSome then beginStopChild world re key none else return

/-! ### Stops accepted in a restart window -/

/-- Spends the request that targets the nested child's next incarnation. -/
def vacatePendingShutdown (key : ChildKey) (target : Epoch) : Driver Unit := do
  interleave world
  let rt ← get
  match (rt.children.get? key).map ChildRuntime.slot with
  | some (.nested scope) =>
    let result ← liftFault (scope.vacatePendingShutdown target)
    updateChild key fun child => { child with slot := .nested result.2 }
  | _ => return

/-- The stop request no live incarnation of a nested child can consume. -/
def pendingWindow (rt : ScopeRuntime) (key : ChildKey) : Option Epoch :=
  match (rt.children.get? key).map ChildRuntime.slot with
  | some (.nested scope) => scope.pendingIncarnationShutdown
  | _ => none

/-- Resolves a stop accepted while the membership had no live incarnation,
without constructing one. -/
def resolveWindowStop (re : Reentry) (key : ChildKey) (target : Epoch) : Driver Unit := do
  let rt ← get
  if rt.supervisor.joined key || rt.supervisor.isDisposing key then return
  let suppressed ← constructionIsSuppressed world key
  if suppressed then return
  let rt ← get
  if (rt.children.get? key).all fun child => child.active.isSome || !child.slot.isNested
  then return
  interleave world
  let rt ← get
  if pendingWindow rt key ≠ some target then return
  let restarts ← restartsAStoppedIncarnation key
  -- a policy that restarts a stopped incarnation keeps its schedule
  if restarts then vacatePendingShutdown world key target
  else if rt.supervisor.spawnedOnce key then
    terminateInactive world re key (terminalStartupDisposition rt key)
  else return

/-! ### Exits -/

/-- Takes the live incarnation out of a child and closes its mailbox. -/
def retireActive (key : ChildKey) (active : ActiveChild) : Driver Unit := do
  updateChild key fun child => { child with active := none }
  record (.exited key active.incarnation)
  cancelDeadline active.readinessDeadline
  cancelDeadline active.stopDeadline
  let rt ← get
  let bound := (rt.children.get? key).any fun child =>
    child.mailbox && child.mailboxBinding = some active.incarnation
  Program.when bound (do
    updateChild key fun child => { child with mailboxBind := true, mailboxBinding := none }
    record (.mailboxClosed key active.incarnation))

/-- Charges and publishes the restart of an exited incarnation. -/
def publishRestart (key : ChildKey) (incarnation : Incarnation) (exit : Exit) :
    Driver RestartDecision := do
  let now ← now world
  let rt ← get
  let child ← expect (rt.children.get? key) (.panicked "the exiting child remains registered")
  let result := scheduleRestart child.restarts rt.intensity rt.intensityPolicy
    (world.delay rt.tick key) world.ceiling now
  modify fun rt => { rt with intensity := result.2.2 }
  updateChild key fun child => { child with restarts := result.2.1 }
  record (.charged key incarnation result.1.charge)
  let published ← transitionChildStage world key
    (.restartScheduled exit result.1.restartCount result.1.restartAt)
  ensure published (.panicked "a restart is scheduled from an active incarnation's exit")
  modify fun rt =>
    { rt with
      root := { rt.root with
        record := { rt.root.record with totalRestarts := result.1.charge.totalRestarts } } }
  record (.restartScheduled key incarnation)
  return result.1

/-- Arms the backoff of a restart the intensity window allows. -/
def armRestart (key : ChildKey) (decision : RestartDecision) : Driver Unit :=
  match decision.intensityTrip, decision.restartAt with
  | none, some restartAt => do
    let handle ← pushDeadline restartAt (.restart key)
    updateChild key fun child => { child with restartDeadline := some handle }
  | _, _ => return

/-- Dispatches an exit that schedules a restart. -/
def scheduleChildRestart (re : Reentry) (key : ChildKey) (incarnation : Incarnation)
    (exit : Exit) : Driver Unit := do
  let decision ← publishRestart world key incarnation exit
  armRestart key decision
  let rt ← get
  reduce (.restartPending key)
  match decision.intensityTrip with
  | none => return
  | some trip =>
    -- a tripped window ends the scope, and its startup if that is pending
    if rt.supervisor.lifecycle.isStarting then
      beginDrainWithStartup world re (.intensityTripped trip) (.error (.intensityTripped trip))
    else beginDrain world re (.intensityTripped trip)

/-- Dispatches the exit of an incarnation that was taken out of its child. -/
def dispatchChildExit (re : Reentry) (key : ChildKey) (incarnation : Incarnation) (exit : Exit) :
    Driver Unit := do
  reduce (.incarnationComplete key)
  let membership ← dispatchMembershipStatus world key
  let rt ← get
  let child ← expect (rt.children.get? key) (.panicked "the exiting child remains registered")
  let dispatch ← liftFault
    (dispatchExit exit child.options.restart rt.supervisor.lifecycle.isDraining membership)
  match dispatch with
  | .terminal =>
    beginTerminalDisposal world re key exit (some incarnation)
      (terminalStartupDisposition rt key)
  | .scheduleRestart => scheduleChildRestart world re key incarnation exit

/-- Ends the live incarnation of a child. -/
def finishActive (re : Reentry) (key : ChildKey) (active : ActiveChild)
    (recorded : Option RecordedOutcome) (join : JoinOutcome) (cancellation : Cancellation) :
    Driver Unit := do
  retireActive key active
  let exit := (classifyExit (reconcileRecordedOutcomes recorded active.forcedOutcome).1 join
    active.hardAbortPhase cancellation).1
  let stoppedAt ← now world
  let rt ← get
  updateChild key fun child =>
    { child with
      restarts := child.restarts.settleIfStable active.startedAt stoppedAt
        rt.intensityPolicy.within.value }
  dispatchChildExit world re key active.incarnation exit
  -- a stop for the next incarnation may have found this one still live
  interleave world
  let rt ← get
  match pendingWindow rt key with
  | some target => resolveWindowStop world re key target
  | none => return

def handleExit (re : Reentry) (key : ChildKey) (incarnation : Incarnation)
    (recorded : Option RecordedOutcome) (join : JoinOutcome) (cancellation : Cancellation)
    (signalSeen : Bool) : Driver Unit := do
  let becameReady ← passReadiness world re key incarnation (.exit signalSeen)
  Program.when becameReady re.settleSupervisor
  let rt ← get
  let some active := (rt.active? key).filter fun active => active.incarnation = incarnation
    | return
  finishActive world re key active recorded join cancellation

/-! ### Deadlines and removals -/

def handleDeadline (re : Reentry) : DeadlineKind → Driver Unit
  | .readiness key incarnation => do
    let rt ← get
    if (liveReady key incarnation rt).isNone then return
    -- the queue has consumed this registration
    updateActive key fun active => { active with readinessDeadline := none }
    let now ← now world
    let rt ← get
    let becameReady ← passReadiness world re key incarnation
      (.deadline now ((liveReady key incarnation rt).any id))
    Program.when becameReady re.settleSupervisor
  | .restart key => do
    let suppressed ← constructionIsSuppressed world key
    if suppressed then
      updateChild key fun child => { child with restartDeadline := none }
    else
      spawnChild world re key
      re.settleSupervisor
  | .stop key incarnation => do
    let rt ← get
    if (liveReady key incarnation rt).isNone then return
    let now ← now world
    advanceLadder world key now

def handleRemoval (re : Reentry) (key : ChildKey) : Driver Unit := do
  let latched ← removalLatched world key
  if latched then
    reduce (.removalLatched key)
    re.flushSupervisorEffects
  else return

/-- Completes the removals that had to wait for a startup settlement. -/
def publishStartupRemovals : Driver Unit :=
  modify fun rt =>
    { rt with
      pendingStartupRemovals := []
      log := rt.log ++ rt.pendingStartupRemovals.map fun entry =>
        .removalsResolved entry.membership entry.removal }

/-- Stages a finished incarnation's completion for the driver to return. -/
def takeCompletion : Driver Unit :=
  modify fun rt =>
    { rt with
      finished := none
      completion := rt.finished <|> rt.completion }

end Driver

/-! ### Admission -/

/-- A child with its construction and resolved options. -/
structure ChildPlan where
  slot : SlotCell
  construction : ChildConstruction
  options : ResolvedCommonOptions
  deriving DecidableEq, Repr

def ChildRuntime.fromPlan (plan : ChildPlan) : ChildRuntime where
  slot := plan.slot
  mailbox := plan.slot.member.mailbox = .attached
  mailboxBind := plan.slot.member.mailbox = .attached
  mailboxBinding := none
  terminality := true
  construction := some plan.construction
  options := plan.options
  incarnations := ⟨plan.slot.member.membership, .new⟩
  restarts := .new
  restartDeadline := none
  active := none

/-- One admission of a reserved slot: its membership and identifier, whether it
has a fused-cancel latch, and the definition its claim yields. -/
structure AdmissionRequest where
  id : ChildId
  membership : Membership
  fused : Bool
  definition : Option (ChildConstruction × ResolvedCommonOptions)
  deriving DecidableEq, Repr

namespace ScopeRuntime

/-- The reservation a request was made for, while it stands. -/
def reservation (rt : ScopeRuntime) (request : AdmissionRequest) :
    Option (DynamicEntry × SlotCell) :=
  ((rt.dynamic.bind fun dynamic => dynamic.entries.lookup request.id).filter fun entry =>
    entry.membership = request.membership).bind fun entry =>
      entry.reservedSlot.map fun slot => (entry, slot)

/-- Ends the reservation of a request, if it stands, and completes the removals
that were asked for it. -/
def cancelReservation (rt : ScopeRuntime) (request : AdmissionRequest) : ScopeRuntime :=
  match rt.reservation request with
  | some (entry, _) =>
    { rt.removeEntry request.id with
      log := rt.log ++ [.removalsResolved entry.membership entry.removal] }
  | none => rt

/-- Marks the reservation of a request as admitted under a key. -/
def promote (rt : ScopeRuntime) (request : AdmissionRequest) (key : ChildKey) : ScopeRuntime :=
  { rt with
    dynamic := rt.dynamic.map fun dynamic =>
      match dynamic.entries.lookup request.id with
      | some entry =>
        { dynamic with
          entries := dynamic.entries.insert request.id { entry with
            state := .resident key (if request.fused then some false else none) } }
      | none => dynamic }

end ScopeRuntime

namespace Driver

open Program (ensure expect forEach)

/-- Registers a child with the reducer and puts it into the arena. -/
def insertChild (child : ChildRuntime) (initial : Bool) : Driver ChildKey := do
  let rt ← get
  let result ← liftFault (rt.supervisor.admitChild child.slot.member.membership initial)
  modify fun rt =>
    { rt with
      supervisor := result.1
      children := rt.children.insert result.2 child
      log := rt.log ++ [.reduced ⟨rt.supervisor,
        .admitChild child.slot.member.membership initial, .admitted result.2, result.1⟩] }
  return result.2

/-- Admits a registered child to the residency; says whether its member
accepted. -/
def admitChildLocked (key : ChildKey) : Driver Bool := do
  let rt ← get
  let some child := rt.children.get? key | return false
  if (child.slot.transitionLocked .admitted).1 then
    modify fun rt =>
      { rt with
        residents := rt.residents ++ [child.slot.member.membership]
        -- a stop the nested scope has already accepted reaches the parent now
        root := child.slot.pendingWindowStop.elim rt.root rt.root.publishControlEvent
        log := rt.log ++ [.added child.slot.member.membership] }
    updateChild key fun child =>
      { child with slot := (child.slot.transitionLocked .admitted).2.setParent }
    return true
  else return false

variable (world : World)

/-- Why an admission is refused before its definition is claimed. -/
def refusesAdmission (request : AdmissionRequest) (rt : ScopeRuntime) : Bool :=
  rt.supervisor.lifecycle.isDraining || rt.supervisor.lifecycle = .startupFailed
    || (request.fused && world.fusedCancel rt.tick request.membership)

/-- Turns a standing reservation into a registered resident and returns its
key. -/
def installAdmission (request : AdmissionRequest) (construction : ChildConstruction)
    (options : ResolvedCommonOptions) : Driver (Option ChildKey) := do
  interleave world
  let rt ← get
  match rt.reservation request, request.fused && world.fusedCancel rt.tick request.membership with
  | some (_, slot), false =>
    let key ← insertChild (.fromPlan ⟨slot, construction, options⟩) false
    modify fun rt => rt.promote request key
    let accepted ← admitChildLocked key
    ensure accepted
      (.panicked "a promoted reservation is admitted from `Reserved` exactly once")
    return some key
  | _, _ =>
    modify fun rt => rt.cancelReservation request
    return none

def handleAdmission (re : Reentry) (request : AdmissionRequest) : Driver Unit := do
  let rt ← get
  ensure rt.dynamic.isSome
    (.panicked "admission requests arrive only on a dynamic scope's control lane")
  interleave world
  let rt ← get
  match refusesAdmission world request rt, request.definition with
  | false, some (construction, options) =>
    let installed ← installAdmission world request construction options
    match installed with
    | some key => spawnChild world re key
    | none => return
  | _, _ =>
    interleave world
    modify fun rt => rt.cancelReservation request

/-! ### Dispatches -/

end Driver

/-- One dispatch of the driver's loop. -/
inductive Dispatch
  | admission (request : AdmissionRequest)
  | spawn (child : ChildKey)
  | ready (child : ChildKey) (incarnation : Incarnation)
  | selfStop (child : ChildKey) (incarnation : Incarnation)
  | exited (child : ChildKey) (incarnation : Incarnation) (recorded : Option RecordedOutcome)
      (join : JoinOutcome) (cancellation : Cancellation) (signalSeen : Bool)
  | constructionDisposed (child : ChildKey)
  | deadline (kind : DeadlineKind)
  | removal (child : ChildKey)
  | windowStop (child : ChildKey) (target : Epoch)
  | drain (reason : StopReason)
  | force
  | settle
  | publishStartupRemovals
  | takeCompletion
  deriving DecidableEq, Repr

open Driver in
def Dispatch.perform (world : World) (re : Reentry) : Dispatch → Driver Unit
  | .admission request => handleAdmission world re request
  | .spawn child => spawnChild world re child
  | .ready child incarnation => handleReady world re child incarnation
  | .selfStop child incarnation => handleSelfStop world re child incarnation
  | .exited child incarnation recorded join cancellation signalSeen =>
    handleExit world re child incarnation recorded join cancellation signalSeen
  | .constructionDisposed child => handleConstructionDisposed world re child
  | .deadline kind => handleDeadline world re kind
  | .removal child => handleRemoval world re child
  | .windowStop child target => resolveWindowStop world re child target
  | .drain reason => Driver.beginDrain world re reason
  | .force => forceAll world re
  | .settle => re.settleSupervisor
  | .publishStartupRemovals => Driver.publishStartupRemovals
  | .takeCompletion => Driver.takeCompletion

end Shelterwood
