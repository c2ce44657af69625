/-
Shelterwood/Member.lean

The member cell: the published record of one membership and its stage machine.

    reserved --admitted--> admitted --starting--> starting --running--> running
    starting, running, stopping --restartScheduled--> restarting --starting-->
    starting, running --stopping--> stopping
    any --terminalize--> terminal

`MemberTransition.isLegalFrom` is the only definition of which stage each
transition may leave; an illegal one is refused and changes nothing.  The first
terminalizer wins: it marks the mailbox terminal and stores its exit in the same
gated section, so every later one reads that exit back.

The mailbox control itself belongs to another component.  Here only whether one
is attached matters.
-/
import Shelterwood.Lifecycle

namespace Shelterwood

/-- Cumulative scheduled-restart charges of one membership. -/
structure RestartCount where
  count : ℕ
  deriving DecidableEq, Repr

inductive MemberStage
  | reserved
  | admitted
  | starting
  | running
  | restarting
  | stopping
  | terminal (exit : Exit)
  deriving DecidableEq, Repr

def MemberStage.isTerminal : MemberStage → Bool
  | .terminal _ => true
  | _ => false

/-- One non-terminal transition of a member record. -/
inductive MemberTransition
  | admitted
  | starting (incarnation : Incarnation)
  | running
  | stopping
  | restartScheduled (exit : Exit) (restartCount : RestartCount) (restartAt : Option Instant)
  deriving DecidableEq, Repr

/-- The legality matrix of driver-requested stage transitions. -/
def MemberTransition.isLegalFrom : MemberTransition → MemberStage → Bool
  | .admitted, .reserved => true
  | .starting _, .admitted => true
  | .starting _, .restarting => true
  | .running, .starting => true
  | .running, .reserved => true
  | .stopping, .starting => true
  | .stopping, .running => true
  | .restartScheduled .., .starting => true
  | .restartScheduled .., .running => true
  | .restartScheduled .., .stopping => true
  | _, _ => false

/-- Whether a terminal child incarnation failed during aggregate startup. -/
inductive StartupDisposition
  | unchanged
  | notAborted
  | aborted
  deriving DecidableEq, Repr

structure MemberRecord where
  stage : MemberStage
  incarnation : Option Incarnation
  lastIncarnation : Option Incarnation
  lastExit : Option Exit
  restartCount : RestartCount
  restartAt : Option Instant
  membershipStatus : MembershipStatus
  startupAborted : Bool
  deriving DecidableEq, Repr

namespace MemberRecord

def new : MemberRecord where
  stage := .reserved
  incarnation := none
  lastIncarnation := none
  lastExit := none
  restartCount := ⟨0⟩
  restartAt := none
  membershipStatus := .active
  startupAborted := false

/-- Applies one transition, or returns `none` when the stage refuses it. -/
def applyTransition (r : MemberRecord) (transition : MemberTransition) : Option MemberRecord :=
  if transition.isLegalFrom r.stage then
    match transition with
    | .admitted => some { r with stage := .admitted }
    | .starting incarnation =>
      some { r with
        stage := .starting
        incarnation := some incarnation
        lastIncarnation := some incarnation
        restartAt := none }
    | .running => some { r with stage := .running }
    | .stopping => some { r with stage := .stopping }
    | .restartScheduled exit restartCount restartAt =>
      some { r with
        stage := .restarting
        incarnation := none
        lastExit := some exit
        restartCount
        restartAt }
  else none

/-- Stores the terminal exit unless one is stored already. -/
def terminalize (r : MemberRecord) (exit : Exit) (startup : StartupDisposition) : MemberRecord :=
  if r.stage.isTerminal then r
  else
    { r with
      startupAborted :=
        match startup with
        | .unchanged => r.startupAborted
        | .notAborted => false
        | .aborted => true
      incarnation := none
      restartAt := none
      lastExit := some exit
      stage := .terminal exit }

end MemberRecord

/-- The mailbox slot of a member: `terminal` remembers whether a control was
attached. -/
inductive MemberMailbox
  | unattached
  | attached
  | terminal (control : Bool)
  deriving DecidableEq, Repr

def MemberMailbox.terminate : MemberMailbox → MemberMailbox
  | .unattached => .terminal false
  | .attached => .terminal true
  | .terminal control => .terminal control

structure MemberCell where
  id : ChildId
  membership : Membership
  record : MemberRecord
  mailbox : MemberMailbox
  /-- A drain entry has chosen the member for terminal cleanup. -/
  terminalDisposalPending : Bool
  deriving DecidableEq, Repr

namespace MemberCell

def new (id : ChildId) (membership : Membership) : MemberCell :=
  ⟨id, membership, .new, .unattached, false⟩

/-- Applies a transition and says whether the record accepted it. -/
def transitionLocked (m : MemberCell) (transition : MemberTransition) : Bool × MemberCell :=
  match m.record.applyTransition transition with
  | some record => (true, { m with record })
  | none => (false, m)

/-- Terminalizes the member and returns the exit the record keeps. -/
def terminalizeLocked (m : MemberCell) (exit : Exit) (startup : StartupDisposition) :
    Exit × MemberCell :=
  match m.mailbox, m.record.stage with
  | .terminal _, .terminal winner => (winner, m)
  | _, _ =>
    (exit,
      { m with
        mailbox := m.mailbox.terminate
        record := m.record.terminalize exit startup })

/-! ### Terminality -/

theorem terminalizeLocked_isTerminal (m : MemberCell) (exit : Exit)
    (startup : StartupDisposition) :
    (m.terminalizeLocked exit startup).2.record.stage.isTerminal = true := by
  unfold terminalizeLocked
  split
  · next hstage => simp [hstage, MemberStage.isTerminal]
  · simp only [MemberRecord.terminalize]
    split_ifs with hterminal
    · exact hterminal
    · rfl

/-- No transition leaves `terminal`. -/
theorem transitionLocked_of_isTerminal {m : MemberCell} (transition : MemberTransition)
    (h : m.record.stage.isTerminal = true) : m.transitionLocked transition = (false, m) := by
  have hrefused : transition.isLegalFrom m.record.stage = false := by
    cases hstage : m.record.stage <;> simp [hstage, MemberStage.isTerminal] at h
    cases transition <;> rfl
  simp [transitionLocked, MemberRecord.applyTransition, hrefused]

end MemberCell

end Shelterwood
