/-
Shelterwood/ObservationTree.lean

Resident trees and the transactions that change what observers see of them.

A scope owns its resident children and knows its parent; a child scope's changes
reach the observers of its ancestors along the parent links.  Every change is
made inside a transaction of the tree's observation gate.  A writer stages a
publication for each hub it affects, and the commit builds each hub's cut once,
from the final state, while the gate is still held.

The writers that take a transaction (`*_locked`) can be combined in one; the
others open a transaction of their own.  An admission that unwinds ends its
transaction, which still commits.

A membership names its member cell and, when it is in `arena`, the scope cell
around it; the scope part of a leaf is never used.  Sequence and generation
counters do not wrap: a mint past their limit aborts the process, so every run
of the program is a run over these numbers.  Wakes, disposal and the deferred
panics of diagnostics happen after the gate is released and change nothing here.
-/
import Shelterwood.Observe
import Shelterwood.ParentLinks
import Shelterwood.Trace

namespace Shelterwood

variable [TokioBroadcast LifecycleEvent]

/-! ### The state -/

/-- One slot of a scope's observed child set. -/
structure ResidentChild where
  member : Membership
  /-- Whether the scope published this resident's `Added` edge. -/
  announced : Bool
  deriving DecidableEq, Repr

/-- The cells of one membership. -/
structure TreeCell where
  scope : ScopeCell
  options : ResolvedCommonOptions
  flavor : ScopeFlavor
  intensity : Intensity
  currentChildren : List ResidentChild
  parent : Option Membership
  lifecycleSeq : ℕ
  lifecycle : LifecycleHub
  snapshots : Option SnapshotHubState

/-- An emitted event, with the scopes it was propagated to and the parent links
of that moment. -/
structure Emission where
  event : LifecycleEvent
  chain : List Membership
  links : Membership → Option Membership

/-- Resident trees. -/
structure Forest where
  /-- The memberships of scopes. -/
  arena : List Membership
  cells : Membership → TreeCell
  /-- Projections whose admission unwound. -/
  unwound : List Membership
  /-- Everything emitted so far; no operation reads it. -/
  emitted : List Emission

def TreeCell.new (id : ChildId) (membership : Membership) (options : ResolvedCommonOptions)
    (flavor : ScopeFlavor) (intensity : Intensity) : TreeCell where
  scope := .new (.new id membership) false
  options := options
  flavor := flavor
  intensity := intensity
  currentChildren := []
  parent := none
  lifecycleSeq := 0
  lifecycle := .new
  snapshots := none

/-- A cell as it was created. -/
def TreeCell.IsNew (membership : Membership) (cell : TreeCell) : Prop :=
  ∃ id options flavor intensity, cell = .new id membership options flavor intensity

namespace Forest

def modify (f : Forest) (m : Membership) (g : TreeCell → TreeCell) : Forest :=
  { f with cells := Function.update f.cells m (g (f.cells m)) }

def isScope (f : Forest) (m : Membership) : Bool := m ∈ f.arena

def member (f : Forest) (m : Membership) : MemberCell := (f.cells m).scope.member

def parentOf (f : Forest) (m : Membership) : Option Membership := (f.cells m).parent

/-- Follows the parent links.  No chain is longer than the arena. -/
def ancestors (f : Forest) (s : Membership) : List Membership :=
  climb f.parentOf f.arena.length s

/-- A scope and its ancestors. -/
def chain (f : Forest) (s : Membership) : List Membership := s :: f.ancestors s

/-! ### Projection -/

end Forest

/-- The observed state of a member record. -/
def MemberRecord.observedState (record : MemberRecord) : ObservedChildState :=
  match record.stage with
  | .reserved | .admitted => .admitted
  | .starting => .starting
  | .running => .running
  | .restarting => .restarting
  | .stopping => .stopping
  | .terminal exit => if record.startupAborted then .startupAborted exit else .stopped exit

namespace Forest

/-- A child scope is projected while its incarnation is live or terminal. -/
def projects (f : Forest) (m : Membership) : Bool :=
  f.isScope m &&
    ((f.member m).record.incarnation.isSome || (f.member m).record.stage.isTerminal)

def childSnapshotLocked (f : Forest) (nested : Membership → Option ScopeSnapshot)
    (m : Membership) : ChildSnapshot ScopeSnapshot where
  id := (f.member m).id
  membership := m
  incarnation := (f.member m).record.incarnation
  state := (f.member m).record.observedState
  lastExit := (f.member m).record.lastExit
  membershipStatus := (f.member m).record.membershipStatus
  restartCount := (f.member m).record.restartCount
  restartPolicy := (f.cells m).options.restart
  retention := (f.cells m).options.retention
  restartAt := (f.member m).record.restartAt
  nested := if f.projects m then nested m else none
  scopeSeq := if f.isScope m then some (f.cells m).lifecycleSeq else none

/-- The residents whose `Added` edge was published. -/
def announcedChildren (f : Forest) (s : Membership) : List Membership :=
  ((f.cells s).currentChildren.filter (·.announced)).map ResidentChild.member

/-- One level of the projection, over the snapshots of the child scopes. -/
def projectWith (f : Forest) (nested : Membership → Option ScopeSnapshot) (s : Membership) :
    ScopeSnapshot :=
  .mk (f.cells s).scope.record.state (f.cells s).flavor
    (if (f.cells s).flavor = .ordered then some .oneForOne else none) (f.cells s).intensity
    (f.cells s).scope.record.totalRestarts (f.cells s).lifecycleSeq
    ((f.announcedChildren s).map (f.childSnapshotLocked nested))

/-- The projection to a depth. -/
def projectWithin (f : Forest) : ℕ → Membership → ScopeSnapshot
  | 0, s => f.projectWith (fun _ => none) s
  | n + 1, s => f.projectWith (fun c => some (projectWithin f n c)) s

/-- The recursive projection.  No chain of child scopes is longer than the
arena, so the depth is no limit (`projectLocked_eq`). -/
def projectLocked (f : Forest) (s : Membership) : ScopeSnapshot :=
  f.projectWithin f.arena.length s

end Forest

/-! ### Transactions -/

/-- One transaction of the observation gate. -/
structure ObservationTxn where
  forest : Forest
  /-- Publications, at most one for each hub. -/
  snapshots : List SnapshotPublication

/-- Adds a publication, or coalesces it with the one staged for its hub. -/
def stageInto (publication : SnapshotPublication) :
    List SnapshotPublication → List SnapshotPublication
  | [] => [publication]
  | staged :: rest =>
    if staged.hub = publication.hub then staged.coalesce publication :: rest
    else staged :: stageInto publication rest

namespace ObservationTxn

def modify (txn : ObservationTxn) (m : Membership) (g : TreeCell → TreeCell) : ObservationTxn :=
  { txn with forest := txn.forest.modify m g }

def setScope (txn : ObservationTxn) (m : Membership) (scope : ScopeCell) : ObservationTxn :=
  txn.modify m fun cell => { cell with scope }

def snapshotHubWillClose (txn : ObservationTxn) (hub : Membership) : Bool :=
  txn.snapshots.any fun publication => publication.closed && publication.hub = hub

def stageSnapshot (txn : ObservationTxn) (publication : SnapshotPublication) : ObservationTxn :=
  { txn with snapshots := stageInto publication txn.snapshots }

/-- Publishes to the hub of a scope, unless it has no receivers or is closed. -/
def publishSnapshot (txn : ObservationTxn) (s : Membership) : ObservationTxn :=
  match (txn.forest.cells s).snapshots with
  | none => txn
  | some hub =>
    if hub.receivers = 0 then txn
    else if txn.snapshotHubWillClose s || hub.closed then txn
    else txn.stageSnapshot ⟨s, true, false⟩

/-- Closes the hub of a scope; a hub nobody subscribed to is made here, closed. -/
def closeSnapshot (txn : ObservationTxn) (s : Membership) : ObservationTxn :=
  match (txn.forest.cells s).snapshots with
  | none =>
    txn.modify s fun cell =>
      { cell with snapshots := some ⟨txn.forest.projectLocked s, 0, true, 0⟩ }
  | some hub =>
    if txn.snapshotHubWillClose s || hub.closed then txn
    else txn.stageSnapshot ⟨s, false, true⟩

/-- Publishes to a scope and its ancestors. -/
def publishChain (txn : ObservationTxn) (s : Membership) : ObservationTxn :=
  (txn.forest.chain s).foldl publishSnapshot txn

end ObservationTxn

/-- Installs a cut; a closed hub keeps its own. -/
def SnapshotHubState.install (hub : SnapshotHubState) (snapshot : ScopeSnapshot)
    (publication : SnapshotPublication) : SnapshotHubState :=
  if hub.closed then hub
  else
    { hub with
      snapshot
      generation := if publication.published then hub.generation + 1 else hub.generation
      closed := publication.closed }

/-- Builds and installs one hub's final cut. -/
def Forest.install (f : Forest) (publication : SnapshotPublication) : Forest :=
  f.modify publication.hub fun cell =>
    { cell with
      snapshots := cell.snapshots.map fun hub =>
        hub.install (f.projectLocked publication.hub) publication }

def ObservationTxn.commit (txn : ObservationTxn) : Forest :=
  txn.snapshots.foldl Forest.install txn.forest

/-! ### Emission -/

namespace Forest

/-- Sends the event to each scope of a chain, with the path from that scope. -/
def deliverThrough (f : Forest) (event : LifecycleEvent) : List Membership → Forest
  | [] => f
  | s :: rest =>
    deliverThrough
      (f.modify s fun cell =>
        { cell with lifecycle := cell.lifecycle.publish cell.scope.closed event })
      (event.prependScope (f.member s).id) rest

end Forest

namespace ObservationTxn

/-- Mints a number, publishes the snapshot chain and sends the event to the scope
and its ancestors, unless none of them has a receiver. -/
def emit (txn : ObservationTxn) (s : Membership) (kind : LifecycleEventKind) : ObservationTxn :=
  let chain := txn.forest.chain s
  let seq := (txn.forest.cells s).lifecycleSeq + 1
  let minted := txn.modify s fun cell => { cell with lifecycleSeq := seq }
  let published := chain.foldl publishSnapshot minted
  let event : LifecycleEvent := ⟨[], s, seq, kind⟩
  let delivered :=
    if chain.all fun a => !(txn.forest.cells a).lifecycle.hasReceivers then published.forest
    else published.forest.deliverThrough event chain
  { published with
    forest := { delivered with
      emitted := delivered.emitted ++ [⟨event, chain, txn.forest.parentOf⟩] } }

def closeObservation (txn : ObservationTxn) (s : Membership) : ObservationTxn :=
  if (txn.forest.cells s).scope.closed then txn
  else
    (txn.closeSnapshot s).modify s fun cell =>
      { cell with scope := cell.scope.closeObservationLocked }

end ObservationTxn

/-! ### Residency -/

/-- Where an admission can unwind: in the gate handoff, after the stage
transition, or after the parent link.  All are behind the probe that accepts the
transition. -/
inductive UnwindPoint
  | handoff
  | admitted
  | linked
  deriving DecidableEq, Repr

inductive AdmitOutcome
  | admitted
  | refused
  | unwound
  /-- The residency no longer held the admission's slot. -/
  | misplaced
  deriving DecidableEq, Repr

/-- Whether the slot still holds the admission. -/
def holdsAt (children : List ResidentChild) (index : ℕ) (m : Membership) : Bool :=
  children[index]?.any fun resident => resident.member = m

def announceAt (children : List ResidentChild) (index : ℕ) : List ResidentChild :=
  children.modify index fun resident => { resident with announced := true }

namespace ObservationTxn

def setChildren (txn : ObservationTxn) (s : Membership)
    (g : List ResidentChild → List ResidentChild) : ObservationTxn :=
  txn.modify s fun cell => { cell with currentChildren := g cell.currentChildren }

def markUnwound (txn : ObservationTxn) (m : Membership) : ObservationTxn :=
  { txn with forest := { txn.forest with unwound := m :: txn.forest.unwound } }

/-- Links a child scope to its parent and passes a pending stop on to the
parent's driver. -/
def setParent (txn : ObservationTxn) (c parent : Membership) : ObservationTxn :=
  let linked := txn.modify c fun cell =>
    { cell with parent := some parent, scope := { cell.scope with parent := true } }
  match (txn.forest.cells c).scope.pendingIncarnationShutdown with
  | none => linked
  | some target =>
    linked.modify parent fun cell =>
      { cell with scope := cell.scope.publishControlEvent (.windowStop c target) }

/-- Cuts the parent link of a withdrawn child scope. -/
def severParent (txn : ObservationTxn) (m : Membership) : ObservationTxn :=
  if txn.forest.isScope m then
    txn.modify m fun cell =>
      { cell with parent := none, scope := { cell.scope with parent := false } }
  else txn

def pushUnannounced (txn : ObservationTxn) (s m : Membership) : ObservationTxn :=
  txn.setChildren s fun children => children ++ [⟨m, false⟩]

/-- The member takes the admission; its own gate was handed over before. -/
def enterAdmitted (txn : ObservationTxn) (m : Membership) : ObservationTxn :=
  txn.modify m fun cell =>
    { cell with
      scope := { cell.scope with member := (cell.scope.member.transitionLocked .admitted).2 } }

/-- A child scope is linked, a leaf has nothing to link. -/
def linkAdmitted (txn : ObservationTxn) (s m : Membership) : ObservationTxn :=
  if txn.forest.isScope m then txn.setParent m s else txn

/-- Admits one projection, or refuses it whole. -/
def admitChildLocked (txn : ObservationTxn) (s m : Membership) (unwind : Option UnwindPoint) :
    AdmitOutcome × ObservationTxn :=
  let index := (txn.forest.cells s).currentChildren.length
  let pushed := txn.pushUnannounced s m
  if (txn.forest.isScope m && m = s) ||
      !MemberTransition.admitted.isLegalFrom (txn.forest.member m).record.stage then
    -- a refusal takes back the entry it pushed
    (.refused, pushed.setChildren s List.dropLast)
  else if unwind = some .handoff then (.unwound, pushed.markUnwound m)
  else
    let admitted := pushed.enterAdmitted m
    if unwind = some .admitted then (.unwound, admitted.markUnwound m)
    else
      let linked := admitted.linkAdmitted s m
      if unwind = some .linked then (.unwound, linked.markUnwound m)
      else if holdsAt (linked.forest.cells s).currentChildren index m then
        (.admitted, (linked.setChildren s (announceAt · index)).emit s
          (.added (linked.forest.member m).id m))
      else (.misplaced, linked)

/-- The withdrawal event of a resident. -/
def removedEvent (txn : ObservationTxn) (m : Membership) : LifecycleEventKind :=
  .removed (txn.forest.member m).id m (txn.forest.member m).record.lastIncarnation

def pruneChildLocked (txn : ObservationTxn) (s m : Membership) : Bool × ObservationTxn :=
  match (txn.forest.cells s).currentChildren.find? fun resident => resident.member = m with
  | none => (false, txn)
  | some resident =>
    let withdrawn :=
      (txn.setChildren s fun children =>
        children.eraseP fun resident => resident.member = m).severParent m
    (true, if resident.announced then withdrawn.emit s (withdrawn.removedEvent m)
      else withdrawn)

def clearResidentsLocked (txn : ObservationTxn) (s : Membership) : ObservationTxn :=
  let residents := (txn.forest.cells s).currentChildren
  let severed :=
    (residents.map ResidentChild.member).foldl severParent (txn.setChildren s fun _ => [])
  -- only announced residents owe an edge
  let removals := (txn.forest.announcedChildren s).map severed.removedEvent
  removals.foldl (fun txn removal => txn.emit s removal) severed

def setChildRemovingLocked (txn : ObservationTxn) (s m : Membership) : ObservationTxn :=
  if (txn.forest.member m).record.membershipStatus = .removing then txn
  else
    (txn.modify m fun cell =>
      { cell with
        scope := { cell.scope with
          member := { cell.scope.member with
            record := { cell.scope.member.record with membershipStatus := .removing } } } }
      ).publishChain s

/-! ### Stages and scope states -/

/-- Replaces the member cell of a membership. -/
def setMember (txn : ObservationTxn) (m : Membership) (member : MemberCell) : ObservationTxn :=
  txn.setScope m { (txn.forest.cells m).scope with member }

def transitionChildStage (txn : ObservationTxn) (s m : Membership) (transition : MemberTransition)
    (event : Option LifecycleEventKind) : Bool × ObservationTxn :=
  match (txn.forest.member m).transitionLocked transition with
  | (false, _) => (false, txn)
  | (true, member) =>
    (true,
      match event with
      | some event => (txn.setMember m member).emit s event
      | none => (txn.setMember m member).publishChain s)

def startScopeChild (txn : ObservationTxn) (s c : Membership) (incarnation : Incarnation)
    (restartStopped : Bool) : Except Fault (Bool × ObservationTxn) :=
  match (txn.forest.cells c).scope.startScopeChildLocked incarnation restartStopped with
  | .error fault => .error fault
  | .ok (started, scope) =>
    let set := txn.setScope c scope
    if started = some true then
      .ok (true, set.emit s (.started (txn.forest.member c).id c incarnation))
    else .ok (false, set)

def publishChildRestart (txn : ObservationTxn) (s m : Membership) (totalRestarts : TotalRestarts)
    (transition : MemberTransition) (exited scheduled : LifecycleEventKind) :
    Bool × ObservationTxn :=
  match (txn.forest.member m).transitionLocked transition with
  | (false, _) => (false, txn)
  | (true, member) =>
    let moved := txn.setMember m member
    let charged := moved.modify s fun cell =>
      { cell with
        scope := { cell.scope with record := { cell.scope.record with totalRestarts } } }
    (true, (charged.emit s exited).emit s scheduled)

/-- Commits a stopped projection unless the recorded reason has at least its
precedence. -/
def publishStopped (txn : ObservationTxn) (s : Membership) (reason : StopReason)
    (terminalExit : Option Exit) : ObservationTxn :=
  let scope := (txn.forest.cells s).scope
  let set := txn.setScope s (scope.publishStoppedLocked reason terminalExit)
  if scope.stopSuppressed reason then set else set.emit s (.scopeState (.stopped reason))

/-- The final projection of a terminal child, with its `Exited` event if an
incarnation ended. -/
def publishExited (txn : ObservationTxn) (s m : Membership)
    (exitedIncarnation : Option Incarnation) (exit : Exit) : ObservationTxn :=
  match exitedIncarnation with
  | some incarnation => txn.emit s (.exited (txn.forest.member m).id m incarnation exit)
  | none => txn.publishChain s

def terminalizeChild (txn : ObservationTxn) (s m : Membership) (exit : Exit)
    (exitedIncarnation : Option Incarnation) (startup : StartupDisposition) :
    Except Fault (Bool × ObservationTxn) :=
  let member := txn.forest.member m
  if member.record.stage.isTerminal then .ok (false, txn)
  else if (txn.forest.cells s).currentChildren.any fun resident => resident.member = m then
    let (terminalExit, terminal) := member.terminalizeLocked exit startup
    let stored := txn.setMember m terminal
    -- a scope that never ran is stopped as never started
    let stopped :=
      if member.record.lastIncarnation.isNone && txn.forest.isScope m then
        stored.publishStopped m .neverStarted none
      else stored
    let published := stopped.publishExited s m exitedIncarnation terminalExit
    .ok (true,
      if txn.forest.isScope m && (published.forest.cells m).scope.record.state.isStopped then
        published.closeObservation m
      else published)
  else .error (.panicked "a supervised terminal child must remain in parent residency")

def setStateAndStartup (txn : ObservationTxn) (s : Membership) (state : ScopeState)
    (startup : Except StartupError Unit) : Except Fault ObservationTxn :=
  match (txn.forest.cells s).scope.setStateAndStartup state startup with
  | .error fault => .error fault
  | .ok scope => .ok ((txn.setScope s scope).emit s (.scopeState state))

def publishDrain (txn : ObservationTxn) (s : Membership)
    (startup : Option (Except StartupError Unit)) : Except Fault ObservationTxn :=
  match (txn.forest.cells s).scope.publishDrain .draining startup with
  | .error fault => .error fault
  | .ok scope => .ok ((txn.setScope s scope).emit s (.scopeState .draining))

def beginIncarnationInto (txn : ObservationTxn) (s : Membership) :
    Except Fault (Option Epoch × ObservationTxn) :=
  match (txn.forest.cells s).scope.beginIncarnationInto .starting none with
  | .error fault => .error fault
  | .ok (none, _) => .ok (none, txn)
  | .ok (some epoch, scope) =>
    .ok (some epoch, (txn.setScope s scope).emit s (.scopeState .starting))

/-- The control plane after an epoch ended, with the requests it answers. -/
def endEpoch (scope : ScopeCell) (epochs : ScopeEpochs) (epoch : Epoch) : ScopeCell :=
  { scope with
    control := { scope.control with
      epochs
      shutdown := ScopeCell.clearThrough epoch scope.control.shutdown
      force := ScopeCell.clearThrough epoch scope.control.force } }

def finishIncarnationWithTerminal (txn : ObservationTxn) (s : Membership) (epoch : Epoch)
    (reason : StopReason) (terminalExit : Option Exit) : ObservationTxn :=
  let scope := (txn.forest.cells s).scope
  match scope.control.epochs.finish epoch with
  | (false, _) =>
    match terminalExit with
    | some exit => (txn.setScope s (scope.terminalizeMember exit .unchanged)).closeObservation s
    | none => txn
  | (true, epochs) =>
    let published := (txn.setScope s (endEpoch scope epochs epoch)).publishStopped s reason
      terminalExit
    if terminalExit.isSome || scope.membershipTerminal then published.closeObservation s
    else published

/-- The arm of `finish_live_root_incarnation` that found no live epoch; the other
one is `finishIncarnationWithTerminal` with a terminal exit. -/
def publishRootStopped (txn : ObservationTxn) (s : Membership) (reason : StopReason)
    (exit : Exit) : ObservationTxn :=
  (txn.publishStopped s reason (some exit)).closeObservation s

def terminalizeNeverStarted (txn : ObservationTxn) (s : Membership) : ObservationTxn :=
  let scope := (txn.forest.cells s).scope
  if scope.closed then txn
  else
    ((txn.setScope s (scope.terminalizeMember .neverStarted .unchanged)).publishStopped s
      .neverStarted none).closeObservation s

def closeNeverStartedBody (txn : ObservationTxn) (s : Membership) : ObservationTxn :=
  let scope := (txn.forest.cells s).scope
  if scope.closed then txn
  else
    let published :=
      if scope.record.state = .unstarted then txn.publishStopped s .neverStarted none else txn
    if scope.membershipTerminal && (published.forest.cells s).scope.record.state.isStopped then
      published.closeObservation s
    else published

def setIntensity (txn : ObservationTxn) (s : Membership) (intensity : Intensity) :
    ObservationTxn :=
  (txn.modify s fun cell => { cell with intensity }).publishChain s

/-- Latches a shutdown request, and tells the parent if no incarnation is live. -/
def requestShutdown (txn : ObservationTxn) (s : Membership) :
    Except Fault (Epoch × ObservationTxn) :=
  match (txn.forest.cells s).scope.requestShutdown with
  | .error fault => .error fault
  | .ok ((target, event), scope) =>
    let set := txn.setScope s scope
    .ok (target,
      match event, (txn.forest.cells s).parent with
      | some event, some parent =>
        set.modify parent fun cell =>
          { cell with scope := cell.scope.publishControlEvent event }
      | _, _ => set)

end ObservationTxn

/-! ### Subscriptions -/

/-- The hub with one more receiver.  The first subscriber after a stretch without
any installs the current state itself, unless the hub is closed. -/
def subscribedHub (current : ScopeSnapshot) : Option SnapshotHubState → SnapshotHubState
  | none => ⟨current, 0, false, 1⟩
  | some hub =>
    if hub.receivers = 0 && !hub.closed then ⟨current, hub.generation + 1, false, 1⟩
    else { hub with receivers := hub.receivers + 1 }

namespace Forest

/-- Subscribes to snapshots. -/
def subscribeSnapshots (f : Forest) (s : Membership) : Forest :=
  f.modify s fun cell =>
    { cell with snapshots := some (subscribedHub (f.projectLocked s) cell.snapshots) }

/-- A receiver is cloned from another one. -/
def cloneSnapshotReceiver (f : Forest) (s : Membership) : Option Forest :=
  match (f.cells s).snapshots with
  | none => none
  | some hub =>
    if hub.receivers = 0 then none
    else some (f.modify s fun cell =>
      { cell with snapshots := some { hub with receivers := hub.receivers + 1 } })

def dropSnapshotReceiver (f : Forest) (s : Membership) : Option Forest :=
  match (f.cells s).snapshots with
  | none => none
  | some hub =>
    if hub.receivers = 0 then none
    else some (f.modify s fun cell =>
      { cell with snapshots := some { hub with receivers := hub.receivers - 1 } })

def setLifecycle (f : Forest) (s : Membership) (lifecycle : LifecycleHub) : Forest :=
  f.modify s fun cell => { cell with lifecycle }

end Forest

/-! ### Runs -/

inductive TxnStatus
  | idle
  | opened
  /-- An admission unwound; the transaction only commits. -/
  | unwinding
  deriving DecidableEq, Repr

structure GateState where
  txn : ObservationTxn
  status : TxnStatus

inductive TreeStep
  | openTxn
  | commit
  | admitChild (s m : Membership) (unwind : Option UnwindPoint)
  | pruneChild (s m : Membership)
  | clearResidents (s : Membership)
  | setChildRemoving (s m : Membership)
  | transitionChildStage (s m : Membership) (transition : MemberTransition)
      (event : Option LifecycleEventKind)
  | startScopeChild (s c : Membership) (incarnation : Incarnation) (restartStopped : Bool)
  | publishChildRestart (s m : Membership) (totalRestarts : TotalRestarts)
      (transition : MemberTransition) (exited scheduled : LifecycleEventKind)
  | terminalizeChild (s m : Membership) (exit : Exit) (exitedIncarnation : Option Incarnation)
      (startup : StartupDisposition)
  | setStateAndStartup (s : Membership) (state : ScopeState) (startup : Except StartupError Unit)
  | publishDrain (s : Membership) (startup : Option (Except StartupError Unit))
  | beginIncarnation (s : Membership)
  | finishIncarnation (s : Membership) (epoch : Epoch) (reason : StopReason)
      (terminalExit : Option Exit)
  | publishRootStopped (s : Membership) (reason : StopReason) (exit : Exit)
  | terminalizeNeverStarted (s : Membership)
  | closeNeverStartedBody (s : Membership)
  | setIntensity (s : Membership) (intensity : Intensity)
  | requestShutdown (s : Membership)
  | subscribeSnapshots (s : Membership)
  | cloneSnapshotReceiver (s : Membership)
  | dropSnapshotReceiver (s : Membership)
  | subscribeLifecycle (s : Membership)
  | readSignal (s : Membership) (k : ℕ)
  | tryRecv (s : Membership) (k : ℕ)
  | dropLifecycle (s : Membership) (k : ℕ)

inductive TreeOutput
  | done
  | flag (value : Bool)
  | outcome (outcome : AdmitOutcome)
  | begun (epoch : Option Epoch)
  | requested (target : Epoch)
  | received (received : LifecycleReceive)
  | panicked (message : String)
  deriving DecidableEq, Repr

namespace Forest

/-- The membership is announced in no other scope: it is this scope's child, or
no resident yet or any more. -/
def childOf (f : Forest) (s m : Membership) : Bool :=
  f.arena.all fun q => q = s || !(f.announcedChildren q).contains m

/-- The membership is announced nowhere: it is a root, or no resident. -/
def isRoot (f : Forest) (m : Membership) : Bool :=
  f.arena.all fun q => !(f.announcedChildren q).contains m

end Forest

namespace GateState

/-- One of the writers that take a transaction. -/
def locked (g : GateState) (s : Membership) (allowed : Bool)
    (body : ObservationTxn → TreeOutput × ObservationTxn) : Option (GateState × TreeOutput) :=
  if g.status = .opened && g.txn.forest.isScope s && allowed then
    some ({ g with txn := (body g.txn).2 }, (body g.txn).1)
  else none

/-- One of the writers that open a transaction of their own. -/
def whole (g : GateState) (s : Membership) (allowed : Bool)
    (body : ObservationTxn → Except Fault (TreeOutput × ObservationTxn)) :
    Option (GateState × TreeOutput) :=
  if g.status = .idle && g.txn.forest.isScope s && allowed then
    match body g.txn with
    | .ok (output, txn) => some (⟨⟨txn.commit, []⟩, .idle⟩, output)
    | .error .exhausted => none
    | .error (.panicked message) => some (g, .panicked message)
  else none

/-- An operation on the forest alone. -/
def apart (g : GateState) (forest : Option Forest) (output : TreeOutput) :
    Option (GateState × TreeOutput) :=
  forest.map fun forest => ({ g with txn := { g.txn with forest } }, output)

end GateState

namespace TreeStep

/-- The status after an admission. -/
def settleStatus : TreeOutput → TxnStatus
  | .outcome .unwound => .unwinding
  | _ => .opened

def apply (g : GateState) : TreeStep → Option (GateState × TreeOutput)
  | .openTxn => if g.status = .idle then some ({ g with status := .opened }, .done) else none
  | .commit =>
    if g.status = .idle then none else some (⟨⟨g.txn.commit, []⟩, .idle⟩, .done)
  | .admitChild s m unwind =>
    -- an unwound projection is not offered again; a scope admitted below itself
    -- closes a loop of parent links that the announcement would walk for ever
    (g.locked s (m ∉ g.txn.forest.unwound &&
        !(g.txn.forest.isScope m && (g.txn.forest.ancestors s).contains m)) fun txn =>
      (.outcome (txn.admitChildLocked s m unwind).1, (txn.admitChildLocked s m unwind).2)).map
      fun (g, output) => ({ g with status := settleStatus output }, output)
  | .pruneChild s m =>
    g.locked s true fun txn => (.flag (txn.pruneChildLocked s m).1, (txn.pruneChildLocked s m).2)
  | .clearResidents s => g.locked s true fun txn => (.done, txn.clearResidentsLocked s)
  | .setChildRemoving s m =>
    g.locked s (g.txn.forest.childOf s m) fun txn => (.done, txn.setChildRemovingLocked s m)
  | .transitionChildStage s m transition event =>
    g.whole s (g.txn.forest.childOf s m && event.all fun event => !event.isResidency) fun txn =>
      .ok (.flag (txn.transitionChildStage s m transition event).1,
        (txn.transitionChildStage s m transition event).2)
  | .startScopeChild s c incarnation restartStopped =>
    g.whole s (g.txn.forest.childOf s c && g.txn.forest.isScope c) fun txn =>
      (txn.startScopeChild s c incarnation restartStopped).map fun (started, txn) =>
        (.flag started, txn)
  | .publishChildRestart s m totalRestarts transition exited scheduled =>
    g.whole s (g.txn.forest.childOf s m && !exited.isResidency && !scheduled.isResidency)
      fun txn =>
        .ok (.flag (txn.publishChildRestart s m totalRestarts transition exited scheduled).1,
          (txn.publishChildRestart s m totalRestarts transition exited scheduled).2)
  | .terminalizeChild s m exit exitedIncarnation startup =>
    g.whole s true fun txn =>
      (txn.terminalizeChild s m exit exitedIncarnation startup).map fun (terminalized, txn) =>
        (.flag terminalized, txn)
  | .setStateAndStartup s state startup =>
    g.whole s true fun txn => (txn.setStateAndStartup s state startup).map (.done, ·)
  | .publishDrain s startup =>
    g.whole s true fun txn => (txn.publishDrain s startup).map (.done, ·)
  | .beginIncarnation s =>
    g.whole s true fun txn =>
      (txn.beginIncarnationInto s).map fun (epoch, txn) => (.begun epoch, txn)
  | .finishIncarnation s epoch reason terminalExit =>
    -- only a root's driver ends its membership with the incarnation
    g.whole s (terminalExit.isNone || g.txn.forest.isRoot s) fun txn =>
      .ok (.done, txn.finishIncarnationWithTerminal s epoch reason terminalExit)
  | .publishRootStopped s reason exit =>
    g.whole s (g.txn.forest.isRoot s) fun txn =>
      .ok (.done, txn.publishRootStopped s reason exit)
  | .terminalizeNeverStarted s =>
    g.whole s (g.txn.forest.isRoot s) fun txn => .ok (.done, txn.terminalizeNeverStarted s)
  | .closeNeverStartedBody s =>
    g.whole s true fun txn => .ok (.done, txn.closeNeverStartedBody s)
  | .setIntensity s intensity => g.whole s true fun txn => .ok (.done, txn.setIntensity s intensity)
  | .requestShutdown s =>
    g.whole s true fun txn =>
      (txn.requestShutdown s).map fun (target, txn) => (.requested target, txn)
  | .subscribeSnapshots s =>
    if g.status = .idle && g.txn.forest.isScope s then
      g.apart (some (g.txn.forest.subscribeSnapshots s)) .done
    else none
  | .cloneSnapshotReceiver s => g.apart (g.txn.forest.cloneSnapshotReceiver s) .done
  | .dropSnapshotReceiver s => g.apart (g.txn.forest.dropSnapshotReceiver s) .done
  | .subscribeLifecycle s =>
    if g.status = .idle && g.txn.forest.isScope s then
      g.apart (some (g.txn.forest.setLifecycle s (g.txn.forest.cells s).lifecycle.subscribe)) .done
    else none
  | .readSignal s k =>
    g.apart (((g.txn.forest.cells s).lifecycle.readSignal k
      (g.txn.forest.cells s).scope.closed).map (g.txn.forest.setLifecycle s)) .done
  | .tryRecv s k =>
    match (g.txn.forest.cells s).lifecycle.tryRecv k with
    | none => none
    | some (received, lifecycle) =>
      g.apart (some (g.txn.forest.setLifecycle s lifecycle)) (.received received)
  | .dropLifecycle s k =>
    g.apart (((g.txn.forest.cells s).lifecycle.drop k).map (g.txn.forest.setLifecycle s)) .done

/-- The transaction that replaces a residency. -/
def setAdmittedChildren (s : Membership) (children : List Membership) : List TreeStep :=
  [.openTxn, .clearResidents s] ++ children.map (.admitChild s · none) ++ [.commit]

end TreeStep

abbrev TreeEdge := Edge GateState TreeStep TreeOutput

/-- A forest as it was created: every cell is new, and no membership is resident
anywhere. -/
structure Forest.IsNew (f : Forest) : Prop where
  cells : ∀ m, (f.cells m).IsNew m
  unwound : f.unwound = []
  emitted : f.emitted = []

/-- A forest of new cells. -/
def Forest.new (arena : List Membership) (ids : Membership → ChildId)
    (options : ResolvedCommonOptions) (flavor : ScopeFlavor) (intensity : Intensity) : Forest where
  arena := arena
  cells := fun m => .new (ids m) m options flavor intensity
  unwound := []
  emitted := []

theorem Forest.new_isNew (arena : List Membership) (ids : Membership → ChildId)
    (options : ResolvedCommonOptions) (flavor : ScopeFlavor) (intensity : Intensity) :
    (Forest.new arena ids options flavor intensity).IsNew :=
  ⟨fun m => ⟨ids m, options, flavor, intensity, rfl⟩, rfl, rfl⟩

/-- Runs of a new forest. -/
def TreeRun (f : Forest) : List TreeEdge → GateState → Prop :=
  Run (stepEdge fun g step => TreeStep.apply g step) ⟨⟨f, []⟩, .idle⟩

end Shelterwood
