/-
Shelterwood/Supervisor.lean

The structural supervision reducer.

`SupervisorState` owns membership, startup and ordered-stop state of one scope
incarnation.  A transition takes a state to a state and the list of effects it
appends to its caller's effect queue; it runs no user code and reads no clock.
Ten of the eleven events name a child and change at most its record; the
eleventh, `settle`, is level-triggered: it recomputes startup, ordered stop and
finish from the state it finds.

The two cursor loops of `settle` are kept as loops.  They carry a fuel argument
that starts above the number of registered keys; `SupervisorStep` shows that it
never runs out.
-/
import Shelterwood.OrdMap
import Shelterwood.Trace
import Shelterwood.Lifecycle
import Mathlib.Data.Finmap

namespace Shelterwood

/-- A never-reused child registration. -/
abbrev ChildKey := ℕ

/-! ### Child records -/

/-- The incarnation-level portion of one authoritative child state. -/
inductive IncarnationState
  | unstarted
  | active
  | stopping
  | complete
  | restartPending
  | disposing
  | joined
  deriving DecidableEq, Repr

/-- Membership state and incarnation state in one enum.  A sampled removal
only forbids construction; a committed one has issued its effect. -/
inductive ChildState
  | resident (incarnation : IncarnationState)
  | removalSampled (incarnation : IncarnationState)
  | removing (incarnation : IncarnationState)
  deriving DecidableEq, Repr

namespace ChildState

def incarnation : ChildState → IncarnationState
  | .resident state | .removalSampled state | .removing state => state

def withIncarnation : ChildState → IncarnationState → ChildState
  | .resident _, state => .resident state
  | .removalSampled _, state => .removalSampled state
  | .removing _, state => .removing state

/-- Records a sampled removal latch.  A committed removal stays committed. -/
def sampleRemoval : ChildState → ChildState
  | .resident state => .removalSampled state
  | state => state

/-- Whether terminal disposal has joined and no child work remains. -/
def joined (state : ChildState) : Bool := state.incarnation = .joined

def membershipStatus : ChildState → MembershipStatus
  | .resident _ => .active
  | .removalSampled _ | .removing _ => .removing

end ChildState

inductive StartupMembership
  | initial (ready : Bool)
  | runtime
  deriving DecidableEq, Repr

structure ChildRecord where
  membership : Membership
  state : ChildState
  startup : StartupMembership
  spawnedOnce : Bool
  deriving DecidableEq, Repr

namespace ChildRecord

/-- The acceptance set of `spawned`: whether a `startChild` can still produce
a spawn edge. -/
def startable (record : ChildRecord) : Bool :=
  record.state = .resident .unstarted || record.state = .resident .restartPending

/-- The acceptance set of `ready`. -/
def acceptsReady (record : ChildRecord) : Bool :=
  !(record.state.membershipStatus = .removing || record.state.joined
    || !(record.state.incarnation = .active || record.state.incarnation = .stopping))

/-- Sets the readiness bit of an initial membership; a runtime one has none. -/
def setReady (record : ChildRecord) (ready : Bool) : ChildRecord :=
  match record.startup with
  | .initial _ => { record with startup := .initial ready }
  | .runtime => record

end ChildRecord

/-! ### Events and effects -/

/-- One input to the structural reducer. -/
inductive Event
  | spawned (child : ChildKey)
  | ready (child : ChildKey)
  | incarnationComplete (child : ChildKey)
  | restartPending (child : ChildKey)
  | stopStarted (child : ChildKey)
  | disposalStarted (child : ChildKey)
  | terminalized (child : ChildKey)
  | removalSampled (child : ChildKey)
  | removalLatched (child : ChildKey)
  | reclaim (child : ChildKey)
  | settle
  deriving DecidableEq, Repr

/-- A command for the runtime shell or observation projection. -/
inductive Effect
  | startChild (child : ChildKey)
  | stopChild (child : ChildKey)
  | forceChild (child : ChildKey)
  | finalizeRemoval (child : ChildKey)
  | startupCompleted (state : ScopeState)
  | finished (reason : StopReason)
  deriving DecidableEq, Repr

/-! ### The state -/

/-- Authoritative structural state for one scope incarnation. -/
structure SupervisorState where
  flavor : ScopeFlavor
  lifecycle : ScopeLifecycle
  children : OrdMap ChildKey ChildRecord
  childKeys : Finmap fun _ : Membership => ChildKey
  keys : MonotonicCounter
  nextOrderedStart : Option ChildKey
  orderedStopCursor : Option ChildKey
  orderedStopWaiting : Option ChildKey
  hardForced : Bool
  finishEmitted : Bool

namespace SupervisorState

def new (flavor : ScopeFlavor) (lifecycle : ScopeLifecycle) : SupervisorState where
  flavor := flavor
  lifecycle := lifecycle
  children := .empty
  childKeys := ∅
  keys := .new
  nextOrderedStart := none
  orderedStopCursor := none
  orderedStopWaiting := none
  hardForced := false
  finishEmitted := false

/-! ### Queries -/

def keyFor (s : SupervisorState) (membership : Membership) : Option ChildKey :=
  s.childKeys.lookup membership

def contains (s : SupervisorState) (child : ChildKey) : Bool :=
  (s.children.get? child).isSome

def childState (s : SupervisorState) (child : ChildKey) : Option ChildState :=
  (s.children.get? child).map ChildRecord.state

/-- Missing keys have already been reclaimed and fail closed as removing. -/
def membershipStatus (s : SupervisorState) (child : ChildKey) : MembershipStatus :=
  ((s.childState child).map ChildState.membershipStatus).getD .removing

def isInitial (s : SupervisorState) (child : ChildKey) : Bool :=
  (s.children.get? child).any fun record => record.startup ≠ .runtime

def initialReady (s : SupervisorState) (child : ChildKey) : Bool :=
  (s.children.get? child).any fun record => record.startup = .initial true

def spawnedOnce (s : SupervisorState) (child : ChildKey) : Bool :=
  (s.children.get? child).any ChildRecord.spawnedOnce

def isDisposing (s : SupervisorState) (child : ChildKey) : Bool :=
  (s.childState child).any fun state => state.incarnation = .disposing

def joined (s : SupervisorState) (child : ChildKey) : Bool :=
  (s.childState child).any ChildState.joined

def isIncomplete (s : SupervisorState) (child : ChildKey) : Bool :=
  s.contains child && !s.joined child

/-- Derived completion query; no counter can drift from child state. -/
def allChildrenJoined (s : SupervisorState) : Bool :=
  s.children.all fun record => record.state.joined

/-! ### Record transitions -/

/-- Stores a record at a key. -/
def setRecord (s : SupervisorState) (child : ChildKey) (record : ChildRecord) :
    SupervisorState :=
  { s with children := s.children.insert child record }

/-- Moves a child to `next` when its incarnation is one of `expected`; the
flag says whether it moved. -/
def transitionIncarnation (s : SupervisorState) (child : ChildKey)
    (expected : List IncarnationState) (next : IncarnationState) :
    SupervisorState × Bool :=
  match s.children.get? child with
  | some record =>
    if record.state.joined || !(record.state.incarnation ∈ expected) then (s, false)
    else (s.setRecord child { record with state := record.state.withIncarnation next }, true)
  | none => (s, false)

def sampleRemoval (s : SupervisorState) (child : ChildKey) : SupervisorState :=
  match s.children.get? child with
  | some record => s.setRecord child { record with state := record.state.sampleRemoval }
  | none => s

/-- The record an admission registers. -/
def admittedRecord (membership : Membership) (initial : Bool) : ChildRecord where
  membership := membership
  state := .resident .unstarted
  startup := if initial then .initial false else .runtime
  spawnedOnce := false

/-- Admits one membership and returns its never-reused registration key. -/
def admitChild (s : SupervisorState) (membership : Membership) (initial : Bool) :
    Except Fault (SupervisorState × ChildKey) :=
  match s.keys.mint with
  | .error fault => .error fault
  | .ok (child, keys) =>
    .ok ({ s with
      keys := keys
      children := s.children.insert child (admittedRecord membership initial)
      childKeys := s.childKeys.insert membership child
      nextOrderedStart :=
        if initial ∧ s.flavor = .ordered ∧ s.nextOrderedStart = none then some child
        else s.nextOrderedStart }, child)

/-! ### Settlement -/

/-- The ordered startup loop.  It returns whether it ran off the end of the
cursor; every `return` of the loop body gives `false`. -/
def orderedStartLoop : ℕ → SupervisorState → SupervisorState × List Effect × Bool
  | 0, s => (s, [], false)
  | fuel + 1, s =>
    match s.nextOrderedStart with
    | none => (s, [], true)
    | some child =>
      match s.children.get? child with
      | none =>
        -- the cursor's child was reclaimed: startup skips the gap
        orderedStartLoop fuel { s with nextOrderedStart := s.children.nextKey child }
      | some record =>
        if record.state.membershipStatus = .removing then
          -- the queued removal owns stop and commit; it still gates startup
          (s, [], false)
        else if !record.spawnedOnce then
          (s, if record.startable then [.startChild child] else [], false)
        -- spawned but not ready: startup waits here
        else if record.startup = .initial false then (s, [], false)
        else
          orderedStartLoop fuel { s with nextOrderedStart := s.children.nextKey child }

/-- The start commands of a dynamic scope: every initial child that was never
spawned and can still be. -/
def dynamicStarts (s : SupervisorState) : List Effect :=
  s.children.entries.filterMap fun e =>
    if e.2.startup ≠ .runtime ∧ !e.2.spawnedOnce ∧ e.2.startable then
      some (.startChild e.1)
    else none

/-- The aggregate readiness test that ends `settleStartup`. -/
def completeIfReady (s : SupervisorState) : SupervisorState × List Effect :=
  if s.children.all fun record => record.startup ≠ .initial false then
    match s.lifecycle.completeStartup with
    | (lifecycle, some state) => ({ s with lifecycle := lifecycle }, [.startupCompleted state])
    | (_, none) => (s, [])
  else (s, [])

def settleStartup (s : SupervisorState) : SupervisorState × List Effect :=
  if !s.lifecycle.isStarting then (s, [])
  else
    match s.flavor with
    | .ordered =>
      let (s, effects, finished) := s.orderedStartLoop (s.children.size + 2)
      if finished then
        let (s, completed) := s.completeIfReady
        (s, effects ++ completed)
      else (s, effects)
    | .dynamic =>
      -- level-triggered: a child that was not spawned since is asked for again
      let effects := s.dynamicStarts
      let (s, completed) := s.completeIfReady
      (s, effects ++ completed)

/-- The reverse stop loop: it advances the cursor before it inspects a key. -/
def orderedStopLoop : ℕ → SupervisorState → SupervisorState × List Effect
  | 0, s => (s, [])
  | fuel + 1, s =>
    match s.orderedStopCursor with
    | none => (s, [])
    | some child =>
      let s := { s with orderedStopCursor := s.children.previousKey child }
      if !s.isIncomplete child then orderedStopLoop fuel s
      else ({ s with orderedStopWaiting := some child }, [.stopChild child])

def settleOrderedStop (s : SupervisorState) : SupervisorState × List Effect :=
  if s.flavor ≠ .ordered ∨ !s.lifecycle.isDraining then (s, [])
  else
    match s.orderedStopWaiting with
    | some waiting =>
      -- one stop at a time: the loop resumes when the awaited child has joined
      if s.isIncomplete waiting then (s, [])
      else
        { s with orderedStopWaiting := none }.orderedStopLoop (s.children.size + 2)
    | none => s.orderedStopLoop (s.children.size + 2)

def settleFinish (s : SupervisorState) : SupervisorState × List Effect :=
  if s.finishEmitted then (s, [])
  else
    match s.lifecycle.finishIfReady s.flavor
        ⟨!s.children.isEmpty, s.allChildrenJoined⟩ with
    | some reason => ({ s with finishEmitted := true }, [.finished reason])
    | none => (s, [])

/-- The three passes of a settlement, in order. -/
def settle (s : SupervisorState) : SupervisorState × List Effect :=
  let (s, started) := s.settleStartup
  let (s, stopped) := s.settleOrderedStop
  let (s, finished) := s.settleFinish
  (s, started ++ stopped ++ finished)

/-! ### Transitions -/

/-- Applies one total transition; the list holds the effects it appends. -/
def apply (s : SupervisorState) : Event → SupervisorState × List Effect
  | .spawned child =>
    match s.children.get? child with
    | some record =>
      if record.startable then
        (s.setRecord child { record with
          spawnedOnce := true
          state := record.state.withIncarnation .active }, [])
      else (s, [])
    | none => (s, [])
  | .ready child =>
    match s.children.get? child with
    | some record =>
      if record.acceptsReady then (s.setRecord child (record.setReady true), [])
      else (s, [])
    | none => (s, [])
  | .incarnationComplete child =>
    ((s.transitionIncarnation child [.active, .stopping] .complete).1, [])
  | .restartPending child =>
    let (s, moved) := s.transitionIncarnation child [.complete] .restartPending
    -- only `Starting` re-arms: the restarted incarnation must hold the
    -- startup aggregate open again
    if moved ∧ s.lifecycle.isStarting then
      match s.children.get? child with
      | some record => (s.setRecord child (record.setReady false), [])
      | none => (s, [])
    else (s, [])
  | .stopStarted child => ((s.transitionIncarnation child [.active] .stopping).1, [])
  | .disposalStarted child =>
    ((s.transitionIncarnation child [.unstarted, .complete, .restartPending]
      .disposing).1, [])
  | .terminalized child =>
    let (s, moved) := s.transitionIncarnation child [.disposing] .joined
    match moved, s.childState child with
    | true, some (.removing _) => (s, [.finalizeRemoval child])
    | _, _ => (s, [])
  | .removalSampled child => (s.sampleRemoval child, [])
  | .removalLatched child =>
    match s.children.get? child with
    | some record =>
      match record.state with
      | .resident state | .removalSampled state =>
        (s.setRecord child { record with state := .removing state },
          if state = .joined then [.finalizeRemoval child] else [.stopChild child])
      -- already committed: its effect was issued then
      | .removing _ => (s, [])
    | none => (s, [])
  | .reclaim child =>
    match s.children.get? child with
    | some record =>
      if !record.state.joined then (s, [])
      else
        ({ s with
          children := s.children.erase child
          -- a membership admitted again keeps its newer key
          childKeys :=
            if s.childKeys.lookup record.membership = some child then
              s.childKeys.erase record.membership
            else s.childKeys }, [])
    | none => (s, [])
  | .settle => s.settle

/-- Records the first startup failure. -/
def failStartup (s : SupervisorState) : SupervisorState × Option ScopeState :=
  let (lifecycle, state) := s.lifecycle.failStartup
  ({ s with lifecycle := lifecycle }, state)

/-- The children a command list addresses: every registered one not joined. -/
def incompleteKeys (s : SupervisorState) : List ChildKey :=
  s.children.keys.filter fun child => !s.joined child

/-- Begins a drain and returns the transition its owner must publish. -/
def beginDrain (s : SupervisorState) (reason : StopReason) :
    Except Fault (SupervisorState × List Effect × Option (Bool × ScopeState)) :=
  match s.lifecycle.beginDrain reason with
  | .error fault => .error fault
  | .ok (lifecycle, none) => .ok ({ s with lifecycle := lifecycle }, [], none)
  | .ok (lifecycle, some effect) =>
    -- an ordered drain emits nothing yet; its stops come from settlements
    match s.flavor with
    | .ordered =>
      .ok ({ s with lifecycle := lifecycle, orderedStopCursor := s.children.lastKey }, [],
        some effect)
    | .dynamic =>
      .ok ({ s with lifecycle := lifecycle }, s.incompleteKeys.map .stopChild, some effect)

/-- Hard-forces all incomplete children and returns a newly entered drain. -/
def force (s : SupervisorState) :
    Except Fault (SupervisorState × List Effect × Option (Bool × ScopeState)) :=
  match { s with hardForced := true }.beginDrain .shutdownRequested with
  | .error fault => .error fault
  | .ok (s, effects, drain) => .ok (s, effects ++ s.incompleteKeys.map .forceChild, drain)

end SupervisorState

/-! ### Runs -/

/-- One call of the reducer: an event, or one of the transitions whose owner
publishes a result. -/
inductive Input
  | admitChild (membership : Membership) (initial : Bool)
  | step (event : Event)
  | failStartup
  | beginDrain (reason : StopReason)
  | force
  deriving DecidableEq, Repr

/-- What a call appends to the effect queue and returns. -/
inductive Output
  | admitted (child : ChildKey)
  | stepped (effects : List Effect)
  | startupFailed (published : Option ScopeState)
  | drained (effects : List Effect) (published : Option (Bool × ScopeState))
  deriving DecidableEq, Repr

def Output.effects : Output → List Effect
  | .admitted _ => []
  | .stepped effects => effects
  | .startupFailed _ => []
  | .drained effects _ => effects

/-- Runs one call; `none` when the process aborts or the call unwinds. -/
def Input.apply (s : SupervisorState) : Input → Option (SupervisorState × Output)
  | .admitChild membership initial =>
    match s.admitChild membership initial with
    | .ok (s', child) => some (s', .admitted child)
    | .error _ => none
  | .step event => some ((s.apply event).1, .stepped (s.apply event).2)
  | .failStartup => some (s.failStartup.1, .startupFailed s.failStartup.2)
  | .beginDrain reason =>
    match s.beginDrain reason with
    | .ok (s', effects, drain) => some (s', .drained effects drain)
    | .error _ => none
  | .force =>
    match s.force with
    | .ok (s', effects, drain) => some (s', .drained effects drain)
    | .error _ => none

/-- One call in the history of a supervisor. -/
abbrev SupervisorEdge := Edge SupervisorState Input Output

end Shelterwood
