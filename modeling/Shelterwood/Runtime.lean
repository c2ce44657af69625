/-
Shelterwood/Runtime.lean

The state of one scope driver, and the operations it is written in.

A driver owns an arena of child resources, keyed like the reducer's, the
reducer itself and the queue of effects it has emitted, and a deadline queue.
It shares the rest: the cells it publishes into, the latches of its running
children and the dynamic control plane are written by other threads too.  The
driver reads or writes such a thing inside one critical section at a time, so
between two of its sections the others may have done anything they can do.
That is what a `World` supplies: `interleave` runs it once before each section,
each latch it samples and each reading of the clock.

Launched tasks, wakes and streams are not part of this state, and of a mailbox
only whom it is bound to is.  What a task reports comes back as an event of the
driver's loop.

The last field is no part of the program: `log` lists what the driver has done
so far, so that a statement about an order of events can be made about a state.
-/
import Shelterwood.Supervisor
import Shelterwood.Restart
import Shelterwood.Program

namespace Shelterwood

/-! ### One child -/

/-- The latches of one incarnation; only scope children have the framework's
own. -/
structure SpawnLatches where
  shutdown : Bool
  abort : Bool
  ready : Bool
  localStop : Bool
  frameworkShutdown : Option Bool
  frameworkAbort : Option Bool
  frameworkAbortAck : Option Bool
  deriving DecidableEq, Repr

def SpawnLatches.new (scopeChild : Bool) : SpawnLatches where
  shutdown := false
  abort := false
  ready := false
  localStop := false
  frameworkShutdown := if scopeChild then some false else none
  frameworkAbort := if scopeChild then some false else none
  frameworkAbortAck := if scopeChild then some false else none

structure ActiveChild where
  incarnation : Incarnation
  startedAt : Instant
  latches : SpawnLatches
  /-- Whether the task was aborted. -/
  aborted : Bool
  ladder : Option StopLadder
  forcedOutcome : Option RecordedOutcome
  hardAbortPhase : Option GracePhase
  readiness : ReadinessGate
  readinessDeadline : Option DeadlineHandle
  stopDeadline : Option DeadlineHandle
  deriving DecidableEq, Repr

/-- A member cell, alone or as the member of a nested scope. -/
inductive SlotCell
  | leaf (member : MemberCell)
  | nested (scope : ScopeCell)
  deriving DecidableEq, Repr

namespace SlotCell

def member : SlotCell → MemberCell
  | .leaf member => member
  | .nested scope => scope.member

def isNested : SlotCell → Bool
  | .leaf _ => false
  | .nested _ => true

def mapMember (f : MemberCell → MemberCell) : SlotCell → SlotCell
  | .leaf member => .leaf (f member)
  | .nested scope => .nested { scope with member := f scope.member }

/-- Applies a transition to the member and says whether its record accepted
it. -/
def transitionLocked (slot : SlotCell) (transition : MemberTransition) : Bool × SlotCell :=
  ((slot.member.transitionLocked transition).1,
    slot.mapMember fun member => (member.transitionLocked transition).2)

/-- The parent's terminalization; `resident` says whether its residency still
holds the member. -/
def terminalizeChild (slot : SlotCell) (resident : Bool) (exit : Exit)
    (startup : StartupDisposition) : Except Fault (Bool × SlotCell) :=
  match slot with
  | .leaf member =>
    if member.record.stage.isTerminal then .ok (false, slot)
    else if resident then .ok (true, .leaf (member.terminalizeLocked exit startup).2)
    else .error (.panicked "a supervised terminal child must remain in parent residency")
  | .nested scope =>
    match scope.terminalizeChild resident exit startup with
    | .ok (terminalized, scope) => .ok (terminalized, .nested scope)
    | .error fault => .error fault

def setTerminalDisposalPending (pending : Bool) (slot : SlotCell) : SlotCell :=
  slot.mapMember fun member => { member with terminalDisposalPending := pending }

/-- Ends a slot that never ran. -/
def terminalizeNeverStarted : SlotCell → SlotCell
  | .leaf member => .leaf (member.terminalizeLocked .neverStarted .unchanged).2
  | .nested scope => .nested scope.terminalizeNeverStarted

/-- Links a nested scope to its parent. -/
def setParent : SlotCell → SlotCell
  | .leaf member => .leaf member
  | .nested scope => .nested { scope with parent := true }

/-- The stop a nested scope was asked for while it had no parent to tell. -/
def pendingWindowStop : SlotCell → Option ScopeControlEvent
  | .leaf _ => none
  | .nested scope =>
    scope.pendingIncarnationShutdown.map (.windowStop scope.member.membership)

/-- Withdraws the parent link of a nested scope. -/
def severParent : SlotCell → SlotCell
  | .leaf member => .leaf member
  | .nested scope => .nested { scope with parent := false }

end SlotCell

inductive ConstructionKind
  | raw
  | task
  | scope
  deriving DecidableEq, Repr

/-- The panic of a one-shot construction that is dispatched twice. -/
def ConstructionKind.spentMessage : ConstructionKind → String
  | .raw => "one-shot raw actor construction invoked more than once"
  | .task => "one-shot task construction invoked more than once"
  | .scope => "one-shot subtree construction invoked more than once"

inductive DefinitionSource
  | restartable
  | oneShot
  | spent
  deriving DecidableEq, Repr

structure ChildConstruction where
  kind : ConstructionKind
  source : DefinitionSource
  deriving DecidableEq, Repr

/-- A child's runtime resources. -/
structure ChildRuntime where
  slot : SlotCell
  /-- Whether the child has a mailbox, whether its bind token is here, and the
  incarnation it is bound to. -/
  mailbox : Bool
  mailboxBind : Bool
  mailboxBinding : Option Incarnation
  /-- Whether the terminality obligation is still armed. -/
  terminality : Bool
  /-- The retained construction, until it is taken for disposal. -/
  construction : Option ChildConstruction
  options : ResolvedCommonOptions
  incarnations : IncarnationCounter
  restarts : RestartState
  restartDeadline : Option DeadlineHandle
  active : Option ActiveChild
  deriving DecidableEq, Repr

/-- Takes the body of a spawn out of the retained construction; the flag says
whether that spent it. -/
def ChildRuntime.dispatchConstruction (child : ChildRuntime) :
    Except Fault (Bool × ChildRuntime) :=
  match child.construction with
  | none => .error (.panicked "isolated user value was already taken")
  | some construction =>
    if construction.kind = .scope && !child.slot.isNested then
      .error (.panicked "scope construction needs a scope cell")
    else
      match construction.source with
      | .restartable => .ok (false, child)
      | .oneShot =>
        .ok (true, { child with construction := some { construction with source := .spent } })
      | .spent => .error (.panicked construction.kind.spentMessage)

/-! ### The dynamic control plane -/

/-- The cell of a reservation is only here; a resident's is in the arena. -/
inductive DynamicMembershipState
  | reserved (slot : SlotCell)
  | resident (key : ChildKey) (fusedCancel : Option Bool)
  | removing (key : ChildKey)
  deriving DecidableEq, Repr

/-- The caller's end of a removal that was asked for. -/
structure RemovalResponse where
  value : ℕ
  deriving DecidableEq, Repr

/-- The entry of one identifier, with the membership of its slot and the
removal responses its release completes. -/
structure DynamicEntry where
  membership : Membership
  state : DynamicMembershipState
  removal : List RemovalResponse
  deriving DecidableEq, Repr

namespace DynamicEntry

def isRemoving (entry : DynamicEntry) : Bool :=
  match entry.state with
  | .removing _ => true
  | _ => false

/-- The cell of an entry that is still a reservation. -/
def reservedSlot (entry : DynamicEntry) : Option SlotCell :=
  match entry.state with
  | .reserved slot => some slot
  | _ => none

def key (entry : DynamicEntry) : Option ChildKey :=
  match entry.state with
  | .reserved _ => none
  | .resident key _ | .removing key => some key

def matchesKey (entry : DynamicEntry) (key : ChildKey) : Bool := entry.key = some key

def removalLatched (entry : DynamicEntry) : Bool :=
  match entry.state with
  | .reserved _ => false
  | .resident _ fusedCancel => fusedCancel.any id
  | .removing _ => true

end DynamicEntry

structure DynamicState where
  accepting : Bool
  entries : Finmap fun _ : ChildId => DynamicEntry

def DynamicState.closeAdmission (state : DynamicState) : DynamicState :=
  { state with accepting := false }

/-! ### The scope -/

inductive DeadlineKind
  | readiness (child : ChildKey) (incarnation : Incarnation)
  | restart (child : ChildKey)
  | stop (child : ChildKey) (incarnation : Incarnation)
  deriving DecidableEq, Repr

/-- A nested scope reports its readiness to its parent. -/
inductive ScopeRole
  | root
  | nested (parentReady : Bool)
  deriving DecidableEq, Repr

/-- One entry of the driver's log. -/
inductive DriverAction
  /-- A call of the reducer. -/
  | reduced (edge : SupervisorEdge)
  /-- A membership entered or left the residency. -/
  | added (membership : Membership)
  | removed (membership : Membership)
  /-- The body of an incarnation was constructed. -/
  | constructed (child : ChildKey) (incarnation : Incarnation)
  /-- An incarnation's exit was taken up. -/
  | exited (child : ChildKey) (incarnation : Incarnation)
  | mailboxClosed (child : ChildKey) (incarnation : Incarnation)
  /-- An exit was charged to the intensity window. -/
  | charged (child : ChildKey) (incarnation : Incarnation) (charge : IntensityCharge)
  /-- The restart of an exited incarnation was published. -/
  | restartScheduled (child : ChildKey) (incarnation : Incarnation)
  /-- A membership's terminal exit was published. -/
  | terminalized (child : ChildKey) (exit : Exit)
  /-- A startup failure was recorded, in front of this arena; and it was
  routed. -/
  | startupFailing (child : ChildKey) (failure : StartupFailure)
      (children : OrdMap ChildKey ChildRuntime)
  | startupRouted (child : ChildKey) (children : OrdMap ChildKey ChildRuntime)
  /-- A state of the scope was published. -/
  | published (state : ScopeState)
  /-- The removal responses of a membership were completed. -/
  | removalsResolved (membership : Membership) (responses : List RemovalResponse)

structure ScopeRuntime where
  root : ScopeCell
  flavor : ScopeFlavor
  epoch : Epoch
  intensityPolicy : Intensity
  intensity : IntensityState
  /-- The memberships in the root's residency. -/
  residents : List Membership
  children : OrdMap ChildKey ChildRuntime
  supervisor : SupervisorState
  supervisorEffects : List Effect
  deadlines : DeadlineQueue DeadlineKind
  role : ScopeRole
  dynamic : Option DynamicState
  pendingStartupRemovals : List DynamicEntry
  finished : Option StopReason
  completion : Option StopReason
  /-- The children whose construction the blocking pool is destroying. -/
  disposals : List ChildKey
  /-- The sections run so far. -/
  tick : ℕ
  log : List DriverAction

/-- What the other threads and the clock do between the driver's sections, and
what the driver reads of them. -/
structure World where
  now : ℕ → Instant
  ceiling : Instant
  /-- The backoff delay of a child's restart attempt, jitter included. -/
  delay : ℕ → ChildKey → RestartAttempt → Duration
  /-- Whether a stop or abort latch of an ancestor has fired. -/
  ancestorStop : ℕ → Bool
  /-- Whether the fused-cancel latch of a reservation has fired. -/
  fusedCancel : ℕ → Membership → Bool
  root : ℕ → ScopeCell → ScopeCell
  member : ℕ → ChildKey → MemberCell → MemberCell
  scope : ℕ → ChildKey → ScopeCell → ScopeCell
  latches : ℕ → ChildKey → SpawnLatches → SpawnLatches
  dynamic : ℕ → DynamicState → DynamicState

/-- The shared parts of one child, changed by the other threads. -/
def World.child (world : World) (tick : ℕ) (key : ChildKey) (child : ChildRuntime) :
    ChildRuntime :=
  { child with
    slot :=
      match child.slot with
      | .leaf member => .leaf (world.member tick key member)
      | .nested scope => .nested (world.scope tick key scope)
    active := child.active.map fun active =>
      { active with latches := world.latches tick key active.latches } }

namespace ScopeRuntime

/-- Lets the other threads run. -/
def interfere (world : World) (rt : ScopeRuntime) : ScopeRuntime :=
  { rt with
    root := world.root rt.tick rt.root
    children := rt.children.mapValues (world.child rt.tick)
    dynamic := rt.dynamic.map (world.dynamic rt.tick)
    tick := rt.tick + 1 }

/-- The live incarnation of a child. -/
def active? (rt : ScopeRuntime) (key : ChildKey) : Option ActiveChild :=
  (rt.children.get? key).bind ChildRuntime.active

/-- The control-plane entry of a member, if it is the one registered at the
key. -/
def matchingEntry (rt : ScopeRuntime) (member : MemberCell) (key : ChildKey) :
    Option DynamicEntry :=
  (rt.dynamic.bind fun dynamic => dynamic.entries.lookup member.id).filter fun entry =>
    entry.membership = member.membership && entry.matchesKey key

/-- Withdraws a member from the residency. -/
def pruneChildLocked (rt : ScopeRuntime) (key : ChildKey) (membership : Membership) :
    ScopeRuntime :=
  if membership ∈ rt.residents then
    { rt with
      residents := rt.residents.erase membership
      children := rt.children.update key fun child =>
        { child with slot := child.slot.severParent }
      log := rt.log ++ [.removed membership] }
  else rt

/-- Removes the control-plane entry of an identifier. -/
def removeEntry (rt : ScopeRuntime) (id : ChildId) : ScopeRuntime :=
  { rt with
    dynamic := rt.dynamic.map fun dynamic =>
      { dynamic with entries := dynamic.entries.erase id } }

end ScopeRuntime

/-! ### Driver programs -/

/-- Why a driver program stops short: the model's fuel ran out, or the code
aborts or unwinds. -/
inductive DriverError
  | outOfFuel
  | fault (fault : Fault)
  deriving DecidableEq, Repr

abbrev DriverError.panicked (message : String) : DriverError := .fault (.panicked message)

abbrev Driver (α : Type) := Program ScopeRuntime DriverError α

namespace Driver

def liftFault {α : Type} (x : Except Fault α) : Driver α := Program.ofExcept (x.mapError .fault)

variable (world : World)

def interleave : Driver Unit := modify (·.interfere world)

/-- Reads the clock. -/
def now : Driver Instant := do
  interleave world
  let rt ← get
  return world.now rt.tick

/-- Writes the log. -/
def record (action : DriverAction) : Driver Unit :=
  modify fun rt => { rt with log := rt.log ++ [action] }

def reduce (event : Event) : Driver Unit :=
  modify fun rt =>
    { rt with
      supervisor := (rt.supervisor.apply event).1
      supervisorEffects := rt.supervisorEffects ++ (rt.supervisor.apply event).2
      log := rt.log ++ [.reduced ⟨rt.supervisor, .step event,
        .stepped (rt.supervisor.apply event).2, (rt.supervisor.apply event).1⟩] }

/-- Begins a drain in the reducer and returns what its owner must publish. -/
def reduceDrain (reason : StopReason) : Driver (Option (Bool × ScopeState)) := do
  let rt ← get
  let result ← liftFault (rt.supervisor.beginDrain reason)
  modify fun rt =>
    { rt with
      supervisor := result.1
      supervisorEffects := rt.supervisorEffects ++ result.2.1
      log := rt.log ++ [.reduced ⟨rt.supervisor, .beginDrain reason,
        .drained result.2.1 result.2.2, result.1⟩] }
  return result.2.2

def updateChild (key : ChildKey) (f : ChildRuntime → ChildRuntime) : Driver Unit :=
  modify fun rt => { rt with children := rt.children.update key f }

def updateActive (key : ChildKey) (f : ActiveChild → ActiveChild) : Driver Unit :=
  updateChild key fun child => { child with active := child.active.map f }

def cancelDeadline (handle : Option DeadlineHandle) : Driver Unit :=
  modify fun rt => { rt with deadlines := rt.deadlines.cancelOption handle }

def pushDeadline (deadline : Instant) (kind : DeadlineKind) : Driver DeadlineHandle := do
  let rt ← get
  let result ← liftFault (rt.deadlines.push deadline kind)
  modify fun rt => { rt with deadlines := result.2 }
  return result.1

/-- Publishes a state of the root scope; leaving admission closes the dynamic
control plane in the same section. -/
def setRoot (state : ScopeState) (publish : ScopeCell → Except Fault ScopeCell) : Driver Unit := do
  interleave world
  let rt ← get
  let root ← liftFault (publish rt.root)
  modify fun rt =>
    { rt with
      root := root
      dynamic :=
        if state = .draining || state = .startupFailed then
          rt.dynamic.map DynamicState.closeAdmission
        else rt.dynamic
      log := rt.log ++ [.published state] }

/-- Applies a transition to a child's member. -/
def transitionChildStage (key : ChildKey) (transition : MemberTransition) : Driver Bool := do
  interleave world
  let rt ← get
  let child ← Program.expect (rt.children.get? key) (.panicked "no entry found for key")
  updateChild key fun child => { child with slot := (child.slot.transitionLocked transition).2 }
  return (child.slot.transitionLocked transition).1

end Driver

end Shelterwood
