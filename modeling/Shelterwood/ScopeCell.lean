/-
Shelterwood/ScopeCell.lean

The restart-stable scope cell: its control plane, its published record and the
gated operations on both.

A scope cell outlives its incarnations.  The driver of the live incarnation, a
stale driver that is only just finishing, the parent's driver and any number of
shutdown handles all write to it, each inside one critical section of the tree's
observation gate.  Such a section is one operation here, a function on the whole
cell.  An operation whose assertion fires after the gate is released reports the
panic and leaves the cell as the section left it.

Two planes must agree although different owners write them: the epochs, which
say whether an incarnation is live, and the record's state, which says what was
published about it.

Wakes, snapshots and event streams are published from these sections but read by
none of them; of the streams only the closed flag is read, and kept.
-/
import Shelterwood.Member
import Shelterwood.Epochs

namespace Shelterwood

/-! ### The two planes -/

/-- A shutdown or force request, addressed to one epoch. -/
structure ScopeRequest where
  epoch : Epoch
  consumed : Bool
  deriving DecidableEq, Repr

/-- One fact published for a scope's driver: a stop request was accepted while
the member scope had no live incarnation. -/
inductive ScopeControlEvent
  | windowStop (membership : Membership) (target : Epoch)
  deriving DecidableEq, Repr

structure ScopeControl where
  epochs : ScopeEpochs
  shutdown : Option ScopeRequest
  force : Option ScopeRequest
  events : List ScopeControlEvent
  deriving DecidableEq, Repr

def ScopeControl.new : ScopeControl := ⟨.new, none, none, []⟩

/-- Cumulative restart charges across one scope incarnation. -/
structure TotalRestarts where
  count : ℕ
  deriving DecidableEq, Repr

/-- The published projection of the lifecycle. -/
structure ScopeRecord where
  state : ScopeState
  startup : Option (Except StartupError Unit)
  totalRestarts : TotalRestarts
  deriving DecidableEq, Repr

structure ScopeCell where
  member : MemberCell
  control : ScopeControl
  record : ScopeRecord
  /-- Whether a parent scope is linked. -/
  parent : Bool
  /-- Whether the observation streams are closed. -/
  closed : Bool
  deriving DecidableEq, Repr

/-- The states that pair with an idle epoch plane. -/
def ScopeState.isIdle : ScopeState → Bool
  | .unstarted => true
  | .stopped _ => true
  | _ => false

/-- The request latches of a control plane. -/
inductive ScopeRequestSlot
  | shutdown
  | force
  deriving DecidableEq, Repr

def ScopeRequestSlot.get : ScopeRequestSlot → ScopeControl → Option ScopeRequest
  | .shutdown, control => control.shutdown
  | .force, control => control.force

def ScopeRequestSlot.set (request : ScopeRequest) : ScopeRequestSlot → ScopeControl → ScopeControl
  | .shutdown, control => { control with shutdown := some request }
  | .force, control => { control with force := some request }

namespace ScopeCell

def new (member : MemberCell) (parent : Bool) : ScopeCell :=
  ⟨member, .new, ⟨.unstarted, none, ⟨0⟩⟩, parent, false⟩

def membershipTerminal (s : ScopeCell) : Bool := s.member.record.stage.isTerminal

def joined (s : ScopeCell) : Bool := s.record.state.isIdle

def closeObservationLocked (s : ScopeCell) : ScopeCell := { s with closed := true }

def terminalizeMember (s : ScopeCell) (exit : Exit) (startup : StartupDisposition) : ScopeCell :=
  { s with member := (s.member.terminalizeLocked exit startup).2 }

/-! ### Publication -/

/-- Installs the startup result unless one is already recorded. -/
def setStartupLocked (s : ScopeCell) (startup : Except StartupError Unit) : ScopeCell :=
  if s.record.startup.isSome then s
  else { s with record := { s.record with startup := some startup } }

def setStateLocked (s : ScopeCell) (state : ScopeState) : ScopeCell :=
  { s with record := { s.record with state } }

def setStateAndStartup (s : ScopeCell) (state : ScopeState) (startup : Except StartupError Unit) :
    Except Fault ScopeCell :=
  if state.isStopped then
    .error (.panicked "terminal scope state is published through publish_stopped_locked")
  else .ok ((s.setStartupLocked startup).setStateLocked state)

/-- Publishes drain entry.  The callers pass the state their lifecycle machine
returned, which the assertion requires to be `draining`. -/
def publishDrain (s : ScopeCell) (state : ScopeState)
    (startup : Option (Except StartupError Unit)) : Except Fault ScopeCell :=
  if state = .draining then
    match startup with
    | some startup => .ok ((s.setStartupLocked startup).setStateLocked state)
    | none => .ok (s.setStateLocked state)
  else .error (.panicked "assertion failed: matches!(state, ScopeState::Draining)")

/-- Whether a stop verdict repeats, or is weaker than, the recorded one. -/
def stopSuppressed (s : ScopeCell) (reason : StopReason) : Bool :=
  match s.record.state with
  | .stopped recorded => stopReasonPrecedence reason ≤ stopReasonPrecedence recorded
  | _ => false

/-- Commits a stopped projection monotonically and applies its optional member
terminal edge. -/
def publishStoppedLocked (s : ScopeCell) (reason : StopReason) (terminalExit : Option Exit) :
    ScopeCell :=
  let published :=
    if s.stopSuppressed reason then s
    else
      { s with
        record := { s.record with
          startup := some (s.record.startup.getD (.error .shutdownRequested))
          state := .stopped reason } }
  match terminalExit with
  | some exit => published.terminalizeMember exit .unchanged
  | none => published

def terminalizeNeverStarted (s : ScopeCell) : ScopeCell :=
  if s.closed then s
  else
    ((s.terminalizeMember .neverStarted .unchanged).publishStoppedLocked
      .neverStarted none).closeObservationLocked

/-- A nested body that was spawned but never began its own incarnation. -/
def closeNeverStartedBody (s : ScopeCell) : ScopeCell :=
  if s.closed then s
  else
    -- only an unstarted record is still this body's to publish
    let s' := if s.record.state = .unstarted then s.publishStoppedLocked .neverStarted none else s
    if s'.membershipTerminal && s'.record.state.isStopped then s'.closeObservationLocked else s'

/-- The parent's terminalization of this nested member; `resident` says whether
the parent's residency still holds it. -/
def terminalizeChild (s : ScopeCell) (resident : Bool) (exit : Exit)
    (startup : StartupDisposition) : Except Fault (Bool × ScopeCell) :=
  if s.membershipTerminal then .ok (false, s)
  -- a member that never ran publishes its scope as never started
  else if resident then
    let terminal := s.terminalizeMember exit startup
    let published :=
      if s.member.record.lastIncarnation.isNone then
        terminal.publishStoppedLocked .neverStarted none
      else terminal
    .ok (true,
      if published.record.state.isStopped then published.closeObservationLocked else published)
  else .error (.panicked "a supervised terminal child must remain in parent residency")

/-! ### Control -/

/-- Begins an incarnation and installs its epoch in the caller's empty slot. -/
def beginIncarnationInto (s : ScopeCell) (state : ScopeState) (owned : Option Epoch) :
    Except Fault (Option Epoch × ScopeCell) :=
  if owned.isSome then .error (.panicked "a scope epoch owner begins empty")
  else if state ≠ .starting then
    .error (.panicked "a fresh incarnation publishes its lifecycle machine's initial state")
  else if s.record.state.isIdle then
    match s.control.epochs.begin with
    | .error fault => .error fault
    | .ok (none, _) => .ok (owned, s)
    | .ok (some epoch, epochs) =>
      .ok (some epoch,
        { s with
          control := { s.control with epochs }
          record := ⟨state, none, ⟨0⟩⟩ })
  else
    .error (.panicked
      "an idle scope projection is Unstarted or Stopped before a fresh incarnation mints")

/-- Drops a latched request that addresses `epoch` or an earlier one. -/
def clearThrough (epoch : Epoch) (latch : Option ScopeRequest) : Option ScopeRequest :=
  latch.filter fun request => ¬ request.epoch ≤ epoch

def finishIncarnationWithTerminal (s : ScopeCell) (epoch : Epoch) (reason : StopReason)
    (terminalExit : Option Exit) : ScopeCell :=
  match s.control.epochs.finish epoch with
  | (false, _) =>
    -- a stale driver publishes nothing, but still owns its terminal exit
    match terminalExit with
    | some exit => (s.terminalizeMember exit .unchanged).closeObservationLocked
    | none => s
  | (true, epochs) =>
    let settled := { s with
      control := { s.control with
        epochs
        shutdown := clearThrough epoch s.control.shutdown
        force := clearThrough epoch s.control.force } }
    let published := settled.publishStoppedLocked reason terminalExit
    if terminalExit.isSome || s.membershipTerminal then published.closeObservationLocked
    else published

def finishIncarnation (s : ScopeCell) (epoch : Epoch) (reason : StopReason) : ScopeCell :=
  s.finishIncarnationWithTerminal epoch reason none

/-- The arm of `finish_live_root_incarnation` that found no live epoch. -/
def publishRootStopped (s : ScopeCell) (reason : StopReason) (exit : Exit) : ScopeCell :=
  (s.publishStoppedLocked reason (some exit)).closeObservationLocked

/-- Latches a shutdown request; returns its target and the event the parent's
control plane receives. -/
def requestShutdown (s : ScopeCell) :
    Except Fault ((Epoch × Option ScopeControlEvent) × ScopeCell) :=
  match s.control.epochs.requestTarget with
  | .error fault => .error fault
  | .ok target =>
    -- a newer target replaces the latch; an equal one is already requested
    let published := s.control.shutdown.all fun request => request.epoch < target.epoch
    if published then
      .ok ((target.epoch,
          if target.pendingIncarnation && s.parent then
            some (.windowStop s.member.membership target.epoch)
          else none),
        { s with control := { s.control with shutdown := some ⟨target.epoch, false⟩ } })
    else .ok ((target.epoch, none), s)

def publishControlEvent (s : ScopeCell) (event : ScopeControlEvent) : ScopeCell :=
  { s with control := { s.control with events := s.control.events ++ [event] } }

def takeControlEvents (s : ScopeCell) : List ScopeControlEvent × ScopeCell :=
  (s.control.events, { s with control := { s.control with events := [] } })

/-- The epoch of a shutdown request no live incarnation can consume. -/
def pendingIncarnationShutdown (s : ScopeCell) : Option Epoch :=
  (s.control.shutdown.filter fun request =>
    !request.consumed && s.control.epochs.requestIsPending request.epoch).map ScopeRequest.epoch

/-- Whether a latch holds an unconsumed request for `epoch`. -/
def awaits (latch : Option ScopeRequest) (epoch : Epoch) : Bool :=
  latch.any fun request => request.epoch = epoch && !request.consumed

/-- Spends a pending-incarnation shutdown request without constructing the
incarnation it targets. -/
def vacatePendingShutdown (s : ScopeCell) (target : Epoch) : Except Fault (Bool × ScopeCell) :=
  if awaits s.control.shutdown target then
    match s.control.epochs.vacate target with
    | .error fault => .error fault
    | .ok (true, epochs) =>
      .ok (true, { s with control := { s.control with epochs, shutdown := none } })
    | .ok (false, _) => .ok (false, s)
  else .ok (false, s)

def forceShutdown (s : ScopeCell) (epoch : Epoch) : ScopeCell :=
  if s.control.epochs.isCurrent epoch then
    { s with control := { s.control with force := some ⟨epoch, false⟩ } }
  else s

/-- The gated section of `take_request`. -/
def takeRequestLocked (s : ScopeCell) (slot : ScopeRequestSlot) (epoch : Epoch) :
    Bool × ScopeCell :=
  if awaits (slot.get s.control) epoch then
    (true, { s with control := slot.set ⟨epoch, true⟩ s.control })
  else (false, s)

/-- The check before the gate only avoids taking it: it reads the same latch. -/
def takeRequest (s : ScopeCell) (slot : ScopeRequestSlot) (epoch : Epoch) : Bool × ScopeCell :=
  if awaits (slot.get s.control) epoch then s.takeRequestLocked slot epoch else (false, s)

def takeShutdownRequest (s : ScopeCell) (epoch : Epoch) : Bool × ScopeCell :=
  s.takeRequest .shutdown epoch

def takeForceRequest (s : ScopeCell) (epoch : Epoch) : Bool × ScopeCell :=
  s.takeRequest .force epoch

/-- Whether a stop or force request addresses the incarnation, taken up or
not. -/
def hasStopRequest (s : ScopeCell) (epoch : Epoch) : Bool :=
  (s.control.shutdown.any fun request => request.epoch = epoch) ||
    s.control.force.any fun request => request.epoch = epoch

/-- Commits a nested member's construction boundary against shutdown: `none`
when a pending request prevents the start, otherwise whether the member accepted
it. -/
def startScopeChildLocked (s : ScopeCell) (incarnation : Incarnation) (restartStopped : Bool) :
    Except Fault (Option Bool × ScopeCell) :=
  let start := fun (s : ScopeCell) =>
    let (started, member) := s.member.transitionLocked (.starting incarnation)
    (some started, { s with member })
  match s.pendingIncarnationShutdown with
  | some target =>
    -- restart policy overrides the stop: its epoch ends without having run
    if restartStopped then
      match s.control.epochs.vacate target with
      | .error fault => .error fault
      | .ok (_, epochs) =>
        .ok (start { s with control := { s.control with epochs, shutdown := none } })
    else .ok (none, s)
  | none => .ok (start s)

def startScopeChild (s : ScopeCell) (incarnation : Incarnation) (restartStopped : Bool) :
    Except Fault (Bool × ScopeCell) :=
  match s.startScopeChildLocked incarnation restartStopped with
  | .ok (started, s') => .ok (started = some true, s')
  | .error fault => .error fault

/-- Whether a shutdown wait has crossed the finality fence for its target.  The
three planes are read one after the other, so the reads may see the cell at
three moments. -/
def settledAcross (s₁ s₂ s₃ : ScopeCell) (epoch : Option Epoch) : Bool :=
  (epoch.any fun epoch => s₁.control.epochs.finished epoch) || (s₂.membershipTerminal && s₃.joined)

def settled (s : ScopeCell) (epoch : Option Epoch) : Bool := settledAcross s s s epoch

/-! ### What each operation leaves alone -/

variable (s : ScopeCell)

@[simp] theorem takeRequest_eq (slot : ScopeRequestSlot) (epoch : Epoch) :
    s.takeRequest slot epoch = s.takeRequestLocked slot epoch := by
  unfold takeRequest
  split_ifs with h
  · rfl
  · simp [takeRequestLocked, h]

@[simp] theorem setStartupLocked_fields (startup : Except StartupError Unit) :
    (s.setStartupLocked startup).control = s.control ∧
      (s.setStartupLocked startup).record.state = s.record.state ∧
      (s.setStartupLocked startup).member = s.member := by
  unfold setStartupLocked
  split_ifs <;> exact ⟨rfl, rfl, rfl⟩

theorem setStateAndStartup_eq_ok {s s' : ScopeCell} {state : ScopeState}
    {startup : Except StartupError Unit} (h : s.setStateAndStartup state startup = .ok s') :
    s'.control = s.control ∧ s'.record.state = state ∧ s'.member = s.member := by
  unfold setStateAndStartup at h
  split_ifs at h
  cases h
  simp [setStateLocked]

theorem publishDrain_eq_ok {s s' : ScopeCell} {state : ScopeState}
    {startup : Option (Except StartupError Unit)} (h : s.publishDrain state startup = .ok s') :
    s'.control = s.control ∧ s'.record.state = .draining ∧ s'.member = s.member := by
  unfold publishDrain at h
  split_ifs at h with hstate
  cases startup <;>
    (cases h
     simp [setStateLocked, hstate])

@[simp] theorem publishStoppedLocked_control (reason : StopReason) (exit : Option Exit) :
    (s.publishStoppedLocked reason exit).control = s.control := by
  cases exit <;> (simp only [publishStoppedLocked, terminalizeMember]; split_ifs <;> rfl)

@[simp] theorem publishStoppedLocked_member (reason : StopReason) :
    (s.publishStoppedLocked reason none).member = s.member := by
  simp only [publishStoppedLocked]
  split_ifs <;> rfl

@[simp] theorem publishStoppedLocked_member_exit (reason : StopReason) (exit : Exit) :
    (s.publishStoppedLocked reason (some exit)).member =
      (s.member.terminalizeLocked exit .unchanged).2 := by
  simp only [publishStoppedLocked, terminalizeMember]
  split_ifs <;> rfl

/-- A stop publication always leaves a stopped record, whether or not the
recorded reason already outranks it. -/
theorem publishStoppedLocked_isStopped (reason : StopReason) (exit : Option Exit) :
    (s.publishStoppedLocked reason exit).record.state.isStopped = true := by
  -- a suppressed verdict is suppressed by a recorded one
  have hsuppressed : s.stopSuppressed reason = true → s.record.state.isStopped = true := by
    unfold stopSuppressed
    split
    · next h => simp [h, ScopeState.isStopped]
    · simp
  cases exit <;>
    (simp only [publishStoppedLocked, terminalizeMember]
     split_ifs with h
     · exact hsuppressed h
     · rfl)

@[simp] theorem terminalizeNeverStarted_control :
    s.terminalizeNeverStarted.control = s.control := by
  unfold terminalizeNeverStarted
  split_ifs
  · rfl
  · simp [closeObservationLocked, terminalizeMember]

@[simp] theorem closeNeverStartedBody_control : s.closeNeverStartedBody.control = s.control := by
  unfold closeNeverStartedBody
  simp only [closeObservationLocked]
  split_ifs <;> simp

theorem terminalizeChild_control {s s' : ScopeCell} {resident terminalized : Bool} {exit : Exit}
    {startup : StartupDisposition}
    (h : s.terminalizeChild resident exit startup = .ok (terminalized, s')) :
    s'.control = s.control := by
  unfold terminalizeChild at h
  split at h
  · cases h
    rfl
  · split at h
    · cases h
      split_ifs <;> simp [closeObservationLocked, terminalizeMember]
    · cases h

end ScopeCell

theorem ScopeState.isIdle_of_isStopped {state : ScopeState} (h : state.isStopped = true) :
    state.isIdle = true := by
  cases state <;> simp_all [ScopeState.isStopped, ScopeState.isIdle]

end Shelterwood
