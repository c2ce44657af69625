/-
Shelterwood/Driver.lean

The scope driver: constructing, stopping and retiring children, and the loops
that execute the reducer's effects.

The functions call one another in circles.  Publishing a terminal child can
fail startup, failing startup begins a drain or retires later children, a drain
flushes the effect queue, and every queued effect leads back to spawning,
stopping or retiring a child.  Each function is written here over the three
calls that close a circle, gathered in a `Reentry`; `reentry` ties the knot,
one level for each unit of fuel.  A call that finds no fuel left fails with
`outOfFuel`, which no run of the code does, so it can be told from every
assertion below.
-/
import Shelterwood.Runtime

namespace Shelterwood

namespace Driver

open Program (ensure expect forEach)

/-- The calls through which the driver re-enters itself. -/
structure Reentry where
  flushSupervisorEffects : Driver Unit
  settleSupervisor : Driver Unit
  beginTerminalDisposal :
    ChildKey → Exit → Option Incarnation → StartupDisposition → Driver Unit

variable (world : World)

/-! ### Removal -/

/-- Samples the removal sources of a membership. -/
def removalLatched (key : ChildKey) : Driver Bool := do
  let rt ← get
  if rt.supervisor.membershipStatus key = .removing then return true
  let some child := rt.children.get? key | return false
  if rt.dynamic.isNone then return false
  interleave world
  let rt ← get
  return (rt.matchingEntry child.slot.member key).any DynamicEntry.removalLatched

/-- Releases a committed removal's entry.  While startup is pending its
completion waits for the batch epilogue. -/
def releaseRemovedEntry (entry : DynamicEntry) : Driver Unit :=
  modify fun rt =>
    if rt.supervisor.lifecycle.isStarting then
      { rt with pendingStartupRemovals := rt.pendingStartupRemovals ++ [entry] }
    else
      { rt with log := rt.log ++ [.removalsResolved entry.membership entry.removal] }

def reclaimChild (key : ChildKey) : Driver Unit := do
  let rt ← get
  let some child := rt.children.get? key | return
  ensure (rt.supervisor.joined key)
    (.panicked "reclaim runs only after joined terminal completion")
  -- the arena lets go first; the reducer forgets the key last
  modify fun rt => { rt with children := rt.children.erase key }
  cancelDeadline child.restartDeadline
  cancelDeadline (child.active.bind ActiveChild.readinessDeadline)
  cancelDeadline (child.active.bind ActiveChild.stopDeadline)
  reduce (.reclaim key)

def finalizeRemoval (key : ChildKey) : Driver Unit := do
  let rt ← get
  if rt.dynamic.isNone then return
  let child ← expect (rt.children.get? key) (.panicked "no entry found for key")
  interleave world
  let rt ← get
  let some entry := (rt.matchingEntry child.slot.member key).filter DynamicEntry.isRemoving
    | return
  -- the residency goes while the identifier is still claimed
  modify fun rt =>
    (rt.pruneChildLocked key child.slot.member.membership).removeEntry child.slot.member.id
  reclaimChild key
  releaseRemovedEntry entry

def pruneTerminal (key : ChildKey) : Driver Unit := do
  let rt ← get
  let child ← expect (rt.children.get? key) (.panicked "no entry found for key")
  interleave world
  let rt ← get
  let removed := rt.matchingEntry child.slot.member key
  modify fun rt => rt.pruneChildLocked key child.slot.member.membership
  Program.when removed.isSome (modify fun rt => rt.removeEntry child.slot.member.id)
  -- an ordered scope keeps the slot of a pruned child
  Program.when (rt.flavor = .dynamic) (reclaimChild key)
  match removed with
  | some entry => releaseRemovedEntry entry
  | none => return

/-! ### The release edge -/

/-- Records that the retained construction is destroyed. -/
def joinTerminal (key : ChildKey) : Driver Unit := do
  reduce (.terminalized key)
  let rt ← get
  ensure (rt.supervisor.joined key)
    (.panicked "the release edge must leave the reducer's membership joined")

/-- Crosses a terminal membership's release edge. -/
def handleConstructionDisposed (re : Reentry) (key : ChildKey) : Driver Unit := do
  let rt ← get
  if !rt.supervisor.isDisposing key then return
  let some child := rt.children.get? key | return
  joinTerminal key
  let rt ← get
  if rt.supervisor.membershipStatus key = .removing then re.flushSupervisorEffects
  else if child.options.retention = .remove then pruneTerminal world key
  else return

/-! ### Drain entry -/

/-- The inactive children a drain entry is about to retire. -/
def drainEntryTerminalDisposals (rt : ScopeRuntime) (effects : List Effect) : List ChildKey :=
  (effects.filterMap fun
    | .stopChild child | .forceChild child => some child
    | _ => none).filter fun key =>
      !(rt.supervisor.joined key || rt.supervisor.isDisposing key
        || (rt.children.get? key).all fun child => child.active.isSome)

def beginDrainTransition (re : Reentry) (reason : StopReason)
    (startup : Option (Except StartupError Unit)) : Driver Unit := do
  let rt ← get
  let drain ← reduceDrain reason
  let some (startupPending, state) := drain | return
  ensure (startup.isSome || !startupPending)
    (.panicked "assertion failed: startup.is_some() || !startup_pending")
  -- an ordered drain exposes its first stop only through a settlement
  reduce .settle
  let entered ← get
  setRoot world state fun root => root.publishDrain state startup
  forEach (fun key => updateChild key fun child =>
      { child with slot := child.slot.setTerminalDisposalPending true })
    (drainEntryTerminalDisposals entered
      (entered.supervisorEffects.drop rt.supervisorEffects.length))
  re.flushSupervisorEffects
  re.settleSupervisor

def beginDrainWithStartup (re : Reentry) (reason : StopReason)
    (startup : Except StartupError Unit) : Driver Unit :=
  beginDrainTransition world re reason (some startup)

/-! ### Terminal publication -/

/-- Retires one later child of an ordered scope whose startup failed. -/
def disposeUnspawned (re : Reentry) (key : ChildKey) : Driver Unit := do
  let rt ← get
  if rt.supervisor.spawnedOnce key || rt.supervisor.isDisposing key || rt.supervisor.joined key
  then return
  else re.beginTerminalDisposal key .neverStarted none .notAborted

/-- Reports a startup failure to the scope's owner: a root publishes it and
waits, a nested scope drains. -/
def routeStartupFailure (re : Reentry) (role : ScopeRole) (state : ScopeState)
    (failure : StartupFailure) : Driver Unit :=
  if role = .root then
    setRoot world state fun root =>
      root.setStateAndStartup state (.error (.startupFailed failure))
  else
    beginDrainWithStartup world re (.startupFailed failure) (.error (.startupFailed failure))

/-- Records the first startup failure and routes it to the scope's owner. -/
def failStartup (re : Reentry) (key : ChildKey) (exit : Exit) : Driver Unit := do
  let rt ← get
  let child ← expect (rt.children.get? key) (.panicked "no entry found for key")
  let failure : StartupFailure :=
    ⟨.child child.slot.member.id child.slot.member.membership exit⟩
  modify fun rt =>
    { rt with
      supervisor := rt.supervisor.failStartup.1
      log := rt.log ++ [.reduced ⟨rt.supervisor, .failStartup,
        .startupFailed rt.supervisor.failStartup.2, rt.supervisor.failStartup.1⟩] }
  -- a later failure in the same batch does not replace the first
  let some state := rt.supervisor.failStartup.2 | return
  record (.startupFailing key failure rt.children)
  Program.when (rt.flavor = .ordered)
    (forEach (disposeUnspawned re) (rt.supervisor.children.keysAfter key))
  routeStartupFailure world re rt.role state failure
  let rt ← get
  record (.startupRouted key rt.children)

/-- Publishes a disposing membership's final exit through its cell. -/
def publishTerminal (key : ChildKey) (exit : Exit) (startup : StartupDisposition) :
    Driver Unit := do
  interleave world
  let rt ← get
  let child ← expect (rt.children.get? key) (.panicked "terminalized child remains registered")
  let result ← liftFault
    (child.slot.terminalizeChild (child.slot.member.membership ∈ rt.residents) exit startup)
  updateChild key fun child =>
    { child with
      slot := result.2.setTerminalDisposalPending false
      terminality := child.terminality && !result.2.member.record.stage.isTerminal }
  Program.when result.1 (record (.terminalized key exit))

/-- Lets go of the retained construction of a published child. -/
def releaseConstruction (re : Reentry) (key : ChildKey) : Driver Unit := do
  let rt ← get
  let some child := rt.children.get? key | return
  updateChild key fun child => { child with construction := none }
  if !rt.supervisor.isDisposing key then return
  -- nothing to destroy, or nobody waits for it any more
  else if child.construction.isNone || rt.supervisor.hardForced then
    handleConstructionDisposed world re key
  else modify fun rt => { rt with disposals := rt.disposals ++ [key] }

/-- The funnel of every terminal exit. -/
def beginTerminalDisposal (re : Reentry) (key : ChildKey) (exit : Exit)
    (exitedIncarnation : Option Incarnation) (startup : StartupDisposition) : Driver Unit := do
  let rt ← get
  if !rt.supervisor.contains key || rt.supervisor.isDisposing key || rt.supervisor.joined key
      || (rt.children.get? key).isNone then return
  reduce (.disposalStarted key)
  let rt ← get
  ensure (rt.supervisor.isDisposing key)
    (.panicked "terminal disposal must leave the reducer's incarnation disposing")
  -- a membership that never spawned publishes no startup abort
  publishTerminal world key exit
    (if exitedIncarnation.isSome || rt.supervisor.spawnedOnce key then startup else .notAborted)
  -- the failure is routed after the exit it names was published
  let rt ← get
  Program.when (startup = .aborted && rt.supervisor.membershipStatus key ≠ .removing
      && !rt.supervisor.lifecycle.isDraining)
    (failStartup world re key exit)
  releaseConstruction world re key

/-! ### Stopping -/

/-- Terminalizes a membership with no live incarnation. -/
def terminateInactive (re : Reentry) (key : ChildKey) (startup : StartupDisposition) :
    Driver Unit := do
  let rt ← get
  let some child := rt.children.get? key | return
  cancelDeadline child.restartDeadline
  updateChild key fun child => { child with restartDeadline := none }
  interleave world
  let rt ← get
  let lastExit := (rt.children.get? key).bind fun child => child.slot.member.record.lastExit
  beginTerminalDisposal world re key (lastExit.getD .neverStarted) none startup

/-- Runs one action of a stop ladder. -/
def runStopAction (key : ChildKey) (action : StopAction) : Driver Unit := do
  let rt ← get
  match action with
  | .cancel =>
    updateActive key fun active =>
      { active with
        latches := { active.latches with
          shutdown := true
          frameworkShutdown := active.latches.frameworkShutdown.map fun _ => true } }
  | .escalate =>
    updateActive key fun active =>
      { active with latches := { active.latches with abort := true } }
  | .abortFramework phase =>
    ensure ((rt.active? key).any fun active => active.latches.frameworkAbort.isSome)
      (.panicked "framework action belongs only to a framework driver")
    updateActive key fun active =>
      { active with
        hardAbortPhase := some phase
        forcedOutcome := active.forcedOutcome <|> some (.aborted phase)
        latches := { active.latches with frameworkAbort := some true } }
  | .hardAbort phase =>
    updateActive key fun active => { active with hardAbortPhase := some phase, aborted := true }

/-- Advances the ladder of a child as far as `now` allows and arms its next
deadline.  The actions touch latches only, so they may follow the loop. -/
def advanceLadder (key : ChildKey) (now : Instant) : Driver Unit := do
  let rt ← get
  let some active := rt.active? key | return
  cancelDeadline active.stopDeadline
  updateActive key fun active => { active with stopDeadline := none }
  let some ladder := active.ladder | return
  interleave world
  let rt ← get
  let acknowledged := (rt.active? key).any fun active => active.latches.frameworkAbortAck.any id
  let result := (if acknowledged then ladder.acknowledgeFrameworkAbort else ladder).advanceAll
    world.ceiling now
  updateActive key fun active => { active with ladder := some result.1 }
  forEach (runStopAction key) result.2
  let some deadline := result.1.deadline | return
  let handle ← pushDeadline deadline (.stop key active.incarnation)
  updateActive key fun active => { active with stopDeadline := some handle }

/-- Arms the stop ladder of a live incarnation. -/
def armLadder (key : ChildKey) (forced : Option RecordedOutcome) : Driver Unit := do
  reduce (.stopStarted key)
  let rt ← get
  let child ← expect (rt.children.get? key) (.panicked "the stopped child remains registered")
  let active ← expect child.active (.panicked "the stopped child remains active")
  let stopping ← transitionChildStage world key .stopping
  ensure stopping (.panicked "a stop ladder begins on a starting or running member")
  cancelDeadline active.readinessDeadline
  updateActive key fun active =>
    { active with
      forcedOutcome := forced
      readinessDeadline := none
      readiness := if forced.isNone then (active.readiness.step .shutdown).1 else active.readiness
      ladder := some
        (if active.latches.frameworkAbort.isSome then .forFrameworkDriver child.options.shutdown
        else .new child.options.shutdown) }
  let now ← now world
  advanceLadder world key now

def beginStopChild (re : Reentry) (key : ChildKey) (forced : Option RecordedOutcome) :
    Driver Unit := do
  let rt ← get
  let some child := rt.children.get? key | return
  if rt.supervisor.joined key || rt.supervisor.isDisposing key then return
  match child.active with
  | some active => if active.ladder.isSome then return else armLadder world key forced
  | none => terminateInactive world re key .notAborted

def forceChild (re : Reentry) (key : ChildKey) : Driver Unit := do
  let now ← now world
  beginStopChild world re key none
  -- the ladder was armed just now, or by an earlier stop
  updateActive key fun active =>
    { active with ladder := active.ladder.map fun ladder => ladder.force now }
  advanceLadder world key now
  let rt ← get
  if rt.supervisor.isDisposing key then handleConstructionDisposed world re key else return

/-! ### Startup -/

/-- Publishes the readiness of a live incarnation. -/
def becomeReady (key : ChildKey) (incarnation : Incarnation) : Driver Bool := do
  let rt ← get
  if !(rt.active? key).any (fun active => active.incarnation = incarnation) then return false
  let latched ← removalLatched world key
  -- a removal outranks readiness, so it is sampled before the edge
  Program.when latched (reduce (.removalSampled key))
  reduce (.ready key)
  let rt ← get
  let some active := rt.active? key | return false
  cancelDeadline active.readinessDeadline
  updateActive key fun active =>
    { active with
      readinessDeadline := none
      latches := { active.latches with ready := true } }
  if rt.supervisor.membershipStatus key = .removing then return false
  let ready ← transitionChildStage world key .running
  ensure ready (.panicked "readiness promotes a starting member")
  return true

/-- Applies one effect of a readiness gate and says whether startup may have
advanced. -/
def applyReadinessEffect (re : Reentry) (key : ChildKey) (incarnation : Incarnation)
    (effect : ReadinessEffect) : Driver Bool := do
  match effect with
  | .armDeadline deadline =>
    let handle ← pushDeadline deadline (.readiness key incarnation)
    let rt ← get
    let live := (rt.active? key).any fun active => active.incarnation = incarnation
    Program.when live
      (updateActive key fun active => { active with readinessDeadline := some handle })
    Program.when (!live) (cancelDeadline (some handle))
    return false
  | .becameReady => becomeReady world key incarnation
  | .timedOut deadline =>
    beginStopChild world re key (some (.readinessTimedOut deadline))
    return false
  | .disarmed => return false

def publishStartupComplete (state : ScopeState) : Driver Unit := do
  setRoot world state fun root => root.setStateAndStartup state (.ok ())
  modify fun rt =>
    { rt with
      role :=
        match rt.role with
        | .root => .root
        | .nested _ => .nested true }

/-! ### Spawning -/

/-- Whether a terminal exit of the child fails the scope's startup. -/
def terminalStartupDisposition (rt : ScopeRuntime) (key : ChildKey) : StartupDisposition :=
  if rt.supervisor.isInitial key && !rt.supervisor.lifecycle.startupComplete
      && !rt.supervisor.lifecycle.isDraining
      && rt.supervisor.membershipStatus key ≠ .removing && !rt.supervisor.initialReady key then
    .aborted
  else .notAborted

/-- Whether the child's policy restarts an incarnation that a stop had ended. -/
def restartsAStoppedIncarnation (key : ChildKey) : Driver Bool := do
  let rt ← get
  let some child := rt.children.get? key | return false
  let dispatch ← liftFault
    (dispatchExit (.completed .observed) child.options.restart false .active)
  return dispatch = .scheduleRestart

def mintIncarnation (key : ChildKey) : Driver Incarnation := do
  let rt ← get
  let child ← expect (rt.children.get? key) (.panicked "the spawnable child remains registered")
  let result ← liftFault child.incarnations.mint
  updateChild key fun child => { child with incarnations := result.2 }
  return result.1

/-- Commits a nested child's construction boundary against shutdown. -/
def startScopeChild (key : ChildKey) (incarnation : Incarnation) (restartStopped : Bool) :
    Driver Bool := do
  interleave world
  let rt ← get
  match (rt.children.get? key).map ChildRuntime.slot with
  | some (.nested scope) =>
    let result ← liftFault (scope.startScopeChild incarnation restartStopped)
    updateChild key fun child => { child with slot := .nested result.2 }
    return result.1
  | _ => return false

/-- Constructs an incarnation whose start is committed and launches it. -/
def launchChild (re : Reentry) (key : ChildKey) (nested : Bool) (incarnation : Incarnation) :
    Driver Unit := do
  let rt ← get
  let child ← expect (rt.children.get? key) (.panicked "the spawnable child remains registered")
  cancelDeadline child.restartDeadline
  let result ← liftFault { child with restartDeadline := none }.dispatchConstruction
  updateChild key fun _ => result.2
  record (.constructed key incarnation)
  let now ← now world
  ensure (!child.mailbox || child.mailboxBind)
    (.panicked "configuration or close supplies each bind token")
  ensure (!child.mailbox || child.mailboxBinding.isNone)
    (.panicked "mailbox must close the prior incarnation before rebinding")
  updateChild key fun child =>
    { child with
      mailboxBind := child.mailboxBind && !child.mailbox
      mailboxBinding := if child.mailbox then some incarnation else child.mailboxBinding }
  -- a nested member has published its start already
  Program.when (!nested) (do
    let started ← transitionChildStage world key (.starting incarnation)
    ensure started (.panicked "a spawn starts an admitted or restarting member's projection"))
  let deadline := child.options.readinessDeadline.bind fun duration =>
    deadlineAfter world.ceiling now duration.value
  let gate := ReadinessGate.configure child.options.readiness deadline
  updateChild key fun child' =>
    { child' with
      construction := if result.1 then none else child'.construction
      active := some {
        incarnation := incarnation
        startedAt := now
        latches := .new (child.construction.any fun construction => construction.kind = .scope)
        aborted := false
        ladder := none
        forcedOutcome := none
        hardAbortPhase := none
        readiness := gate.1
        readinessDeadline := none
        stopDeadline := none } }
  reduce (.spawned key)
  match gate.2 with
  | some effect =>
    -- the settle loop owns ordered startup, so its progress is not re-entered
    let _ ← applyReadinessEffect world re key incarnation effect
    return
  | none => return

/-- The single construction funnel. -/
def spawnChild (re : Reentry) (key : ChildKey) : Driver Unit := do
  let latched ← removalLatched world key
  if latched then
    reduce (.removalSampled key)
  else
    let rt ← get
    let some child := rt.children.get? key | return
    if rt.supervisor.lifecycle.isDraining || child.active.isSome || rt.supervisor.joined key
        || rt.supervisor.isDisposing key then return
    let restartStopped ← restartsAStoppedIncarnation key
    -- minted even if a pending stop then refuses the start
    let incarnation ← mintIncarnation key
    -- a nested member starts in the section that looks for a pending stop
    if child.slot.isNested then
      let started ← startScopeChild world key incarnation restartStopped
      if started then launchChild world re key true incarnation
      else
        let rt ← get
        terminateInactive world re key (terminalStartupDisposition rt key)
    else launchChild world re key false incarnation

/-! ### The loops -/

/-- Executes one effect of the reducer. -/
def executeEffect (re : Reentry) : Effect → Driver Unit
  | .startChild child => spawnChild world re child
  | .stopChild child => beginStopChild world re child none
  | .forceChild child => forceChild world re child
  | .finalizeRemoval child => finalizeRemoval world child
  | .startupCompleted state => publishStartupComplete world state
  | .finished reason =>
    modify fun rt => { rt with finished := rt.finished <|> some reason }

/-- Executes the queued effects, and those they queue. -/
def flushLoop (re : Reentry) : ℕ → Driver Unit
  | 0 => throw .outOfFuel
  | fuel + 1 => do
    let rt ← get
    if rt.supervisorEffects.isEmpty then return
    -- the batch is taken whole; what it queues waits for the next round
    modify fun rt => { rt with supervisorEffects := [] }
    forEach (executeEffect world re) rt.supervisorEffects
    flushLoop re fuel

/-- Settles and flushes until nothing is queued or the scope has finished. -/
def settleLoop (flush : Driver Unit) : ℕ → Driver Unit
  | 0 => throw .outOfFuel
  | fuel + 1 => do
    reduce .settle
    let rt ← get
    if rt.supervisorEffects.isEmpty then return
    flush
    let rt ← get
    if rt.finished.isSome then return
    settleLoop flush fuel

/-- The driver's re-entrant calls, each level over the one below. -/
def reentry : ℕ → Reentry
  | 0 =>
    { flushSupervisorEffects := throw .outOfFuel
      settleSupervisor := throw .outOfFuel
      beginTerminalDisposal := fun _ _ _ _ => throw .outOfFuel }
  | fuel + 1 =>
    { flushSupervisorEffects := flushLoop world (reentry fuel) fuel
      settleSupervisor := settleLoop (flushLoop world (reentry fuel) fuel) fuel
      beginTerminalDisposal := beginTerminalDisposal world (reentry fuel) }

end Driver

end Shelterwood
