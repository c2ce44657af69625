/-
Shelterwood/Futures.lean

The deadline-bearing futures of a mailbox: `SendTimeout` and `CallFuture`.

A poll is a thread.  Each of its sections is one access to the mailbox, to the
reply's transition word or channel, or to the clock; between two sections the
rest of the system runs.  The future itself is private to whoever polls it, and
a poll that panics leaves it as it was at the panic.

A message constructor is user code that runs inside a poll.  It is given the
sending half of the reply, so from then on that half is in the hands of the rest
of the system, which may already use it before the constructor returns.
-/
import Shelterwood.Engine
import Shelterwood.MailboxRun
import Shelterwood.OneShot
import Shelterwood.Routine

namespace Shelterwood

/-! ### The sections of a poll -/

/-- One access of a poll to what it shares with the rest of the system. -/
inductive Section (M : Type)
  | mailbox (step : MailboxStep M)
  /-- `reply_channel`. -/
  | openReply
  /-- Tokio's `Receiver::poll`. -/
  | pollChannel
  /-- The receiver's transition from open to receiver-closed. -/
  | closeTransition
  /-- Tokio's `Receiver::close`. -/
  | closeChannel
  /-- Tokio's `Receiver::try_recv`. -/
  | tryRecv
  /-- Whether the armed timer has elapsed. -/
  | pollTimer
  | now

/-- What a section answers with. -/
def Section.Answer (M T : Type) : Section M → Type
  | .mailbox _ => MailboxResult M
  | .openReply => Unit
  | .pollChannel => Poll (Option T)
  | .closeTransition => Except OneShotState Unit
  | .closeChannel => Unit
  | .tryRecv => Option T
  | .pollTimer => Bool
  | .now => Instant

/-- Code that runs inside a poll, on the part `φ` of the future. -/
abbrev Polling (M T φ α : Type) := Thread (Section M) (Section.Answer M T) φ String α

variable {M T φ : Type}

namespace Polling

def submit (body : M) : Polling M T φ (Submission (Posted M)) := do
  match ← Thread.call (Section.mailbox (.submit body)) with
  | .submitted submission => pure submission
  | .panicked message => throw message
  | _ => throw "a submission answers with a submission"

/-- One section of `SendOperation::poll`. -/
def pollOperation (operation : OperationRef) (replacement : Option Waker) (current : Waker) :
    Polling M T φ (Option (OperationPoll (Posted M))) := do
  match ← Thread.call (Section.mailbox (.poll operation replacement current)) with
  | .polled result => pure result
  | .panicked message => throw message
  | _ => throw "an operation poll answers with a poll"

def withdrawOperation (operation : OperationRef) (disposition : WithdrawalDisposition) :
    Polling M T φ (Option (WithdrawalOutcome (Posted M))) := do
  match ← Thread.call (Section.mailbox (.withdraw operation disposition)) with
  | .withdrawn withdrawal => pure withdrawal.outcome
  | .panicked message => throw message
  | _ => throw "a withdrawal answers with a withdrawal"

def currentObservation : Polling M T φ (Option Incarnation) := do
  match ← Thread.call (Section.mailbox .currentObservation) with
  | .observed incarnation => pure incarnation
  | .panicked message => throw message
  | _ => throw "an observation answers with an observation"

/-- Whether the armed timer has elapsed. -/
def timerElapsed : Polling M T φ Bool := Thread.call (Section.pollTimer (M := M))

end Polling

/-! ### The receiving half of a reply -/

def OneShotClose.isPending : OneShotClose T → Bool
  | .pending => true
  | _ => false

/-- The receiver: whether a receive edge has consumed it. -/
structure OneShotReceiver where
  completed : Bool
  deriving DecidableEq, Repr

namespace OneShotReceiver

def assertNotCompleted : Polling M T OneShotReceiver Unit := do
  if (← get).completed then throw "shelterwood one-shot receiver polled after completion"
  else pure ()

def pollReceive : Polling M T OneShotReceiver (Poll (Option T)) := do
  assertNotCompleted
  let result ← Thread.call (Section.pollChannel (M := M))
  modify fun this => { this with completed := this.completed || !Poll.isPending result }
  pure result

/-- The channel poll after a close transition that a send won. -/
def receiveSent : Polling M T OneShotReceiver (OneShotClose T) := do
  match ← Thread.call (Section.pollChannel (M := M)) with
  | .ready (some value) => pure (.value value)
  | .ready none => pure .senderClosed
  | .pending => pure .pending

def arbitrateClose : Polling M T OneShotReceiver (OneShotClose T) := do
  match ← Thread.call (Section.closeTransition (M := M)) with
  | .ok _ => do
    let _ ← Thread.call (Section.closeChannel (M := M))
    pure .empty
  | .error .senderClosed => pure .senderClosed
  | .error .sending => receiveSent
  | .error .sent => receiveSent
  | .error .receiverClosed => pure .empty
  | .error .opened => throw "unknown one-shot transition state 0"

def closeAndPollReceive : Polling M T OneShotReceiver (OneShotClose T) := do
  assertNotCompleted
  let result ← arbitrateClose
  modify fun this => { this with completed := this.completed || !result.isPending }
  pure result

def close : Polling M T OneShotReceiver Unit := do
  let _ ← Thread.call (Section.closeTransition (M := M))
  let _ ← Thread.call (Section.closeChannel (M := M))
  pure ()

def closeAndTake : Polling M T OneShotReceiver (Option T) := do
  close
  let value ← Thread.call (Section.tryRecv (M := M))
  modify fun this => { this with completed := true }
  pure value

end OneShotReceiver

/-- The receiver with the proxy that stands in for the caller's waker. -/
structure DisposingReceiver where
  inner : OneShotReceiver
  /-- Whether a pending poll has installed the proxy. -/
  proxy : Bool
  deriving DecidableEq, Repr

namespace DisposingReceiver

def new : DisposingReceiver := ⟨⟨false⟩, false⟩

def onInner {α : Type} (m : Polling M T OneShotReceiver α) : Polling M T DisposingReceiver α :=
  Thread.focus inner (fun this inner => { this with inner }) m

/-- `ProxiedPoll::poll`: without a proxy the first poll is a probe, and only a
pending probe installs the proxy and polls again. -/
def pollProxied {ρ : Type} (poll : Polling M T OneShotReceiver ρ) (isPending : ρ → Bool) :
    Polling M T DisposingReceiver ρ := do
  if (← get).proxy then onInner poll
  else
    let result ← onInner poll
    if isPending result then do
      modify fun this => { this with proxy := true }
      onInner poll
    else pure result

def poll {ρ : Type} (poll : Polling M T OneShotReceiver ρ) (isPending : ρ → Bool) :
    Polling M T DisposingReceiver ρ := do
  let result ← pollProxied poll isPending
  modify fun this => { this with proxy := this.proxy && isPending result }
  pure result

def pollReceive : Polling M T DisposingReceiver (Poll (Option T)) :=
  poll OneShotReceiver.pollReceive Poll.isPending

def closeAndPollReceive : Polling M T DisposingReceiver (OneShotClose T) :=
  poll OneShotReceiver.closeAndPollReceive OneShotClose.isPending

def close : Polling M T DisposingReceiver Unit := do
  onInner OneShotReceiver.close
  modify fun this => { this with proxy := false }

def drop : Polling M T DisposingReceiver Unit := do
  let _ ← onInner OneShotReceiver.closeAndTake
  modify fun this => { this with proxy := false }

end DisposingReceiver

/-! ### The shared deadline scaffold -/

/-- Which of the two passes an operation is being polled in. -/
inductive DeadlinePhase
  | initialAttempt
  | timeoutArbitration
  deriving DecidableEq, Repr

/-- Whether a representable deadline is strictly in the past. -/
def isOverdue (deadline : Option Instant) (now : Instant) : Bool :=
  deadline.any fun deadline => deadline < now

/-- The operation a deadline is put on. -/
structure DeadlineOperation (M T φ ρ : Type) where
  pollDeadlined : Waker → Option Instant → DeadlinePhase → Polling M T φ (Poll ρ)
  shortCircuit : Polling M T φ ρ

structure Deadlined (φ : Type) where
  operation : φ
  budgetWidth : Duration
  /-- The captured deadline; the inner option is the deadline that never
  arrives. -/
  budget : Option (Option Instant)
  /-- Whether the timer is armed. -/
  timer : Bool
  started : Bool
  phase : DeadlinePhase

namespace Deadlined

variable {ρ : Type}

def noAttempt (operation : φ) (budgetWidth : Duration) : Deadlined φ :=
  ⟨operation, budgetWidth, none, false, false, .initialAttempt⟩

def onOperation {α : Type} (m : Polling M T φ α) : Polling M T (Deadlined φ) α :=
  Thread.focus operation (fun this operation => { this with operation }) m

/-- The first poll captures the budget.  `ceiling` is the clock's limit. -/
def start (ceiling : Instant) : Polling M T (Deadlined φ) Unit := do
  if (← get).started then pure ()
  else
    modify fun this => { this with started := true }
    let startedAt ← Thread.call (Section.now (M := M))
    modify fun this =>
      let budget := deadlineAfter ceiling startedAt this.budgetWidth
      { this with
        budget := some budget
        timer := this.timer || (this.budgetWidth != 0 && budget.isSome) }

/-- Whether the timer has elapsed. -/
def pollTimer : Polling M T (Deadlined φ) Bool := do
  let this ← get
  let budget ← Thread.expect this.budget
    "a started deadline future retains its captured budget"
  match budget with
  | none => pure false
  | some _ =>
    if this.timer then Polling.timerElapsed
    else throw "an unelapsed deadline future retains its timer"

/-- The pass after the timer, or no pass while it runs. -/
def arbitrate (D : DeadlineOperation M T φ ρ) (current : Waker) (budget : Option Instant) :
    Polling M T (Deadlined φ) (Poll ρ) := do
  if (← get).phase = .initialAttempt then
    if ← pollTimer then
      modify fun this => { this with phase := .timeoutArbitration, timer := false }
      onOperation (D.pollDeadlined current budget .timeoutArbitration)
    else pure .pending
  else onOperation (D.pollDeadlined current budget .timeoutArbitration)

/-- The first pass; completion retires the timer. -/
def attempt (D : DeadlineOperation M T φ ρ) (current : Waker) (budget : Option Instant) :
    Polling M T (Deadlined φ) (Poll ρ) := do
  match ← onOperation (D.pollDeadlined current budget .initialAttempt) with
  | .ready result =>
    modify fun this => { this with timer := false }
    pure (.ready result)
  | .pending => arbitrate D current budget

def poll (D : DeadlineOperation M T φ ρ) (ceiling : Instant) (current : Waker) :
    Polling M T (Deadlined φ) (Poll ρ) := do
  start ceiling
  let this ← get
  if this.budgetWidth = 0 then
    let result ← onOperation D.shortCircuit
    pure (.ready result)
  else
    let budget ← Thread.expect this.budget
      "a started deadline future retains its captured budget"
    attempt D current budget

end Deadlined

/-! ### Sends -/

inductive SendFutureState (M : Type)
  | immediate (message : Option M)
  | parked (operation : OperationRef)
  | sent (incarnation : Incarnation)
  | done
  deriving DecidableEq, Repr

/-- A send.  Of the mailbox it keeps the actor id; its sections reach the
rest. -/
structure SendFuture (M : Type) where
  actorId : ChildId
  state : SendFutureState M
  deriving DecidableEq, Repr

namespace SendFuture

def new (actorId : ChildId) (message : M) : SendFuture M := ⟨actorId, .immediate (some message)⟩

def setState (state : SendFutureState M) : Polling M T (SendFuture M) Unit :=
  modify fun this => { this with state }

/-- A terminated send hands its message back. -/
def terminated (message : Posted M) (finalIncarnation : Option Incarnation) :
    Polling M T (SendFuture M) (Poll (Except (SendError M) Incarnation)) := do
  let this ← get
  setState .done
  pure (.ready (.error ⟨this.actorId, finalIncarnation, message.body, .terminated⟩))

/-- The loop over a parked operation, for at most `rounds` sections. -/
def pollParked (current : Waker) (operation : OperationRef) :
    ℕ → Option Waker → Polling M T (SendFuture M) (Poll (Except (SendError M) Incarnation))
  | 0, _ => throw "a send poll ran out of rounds"
  | rounds + 1, cloned => do
    match ← Polling.pollOperation operation cloned current with
    | some (.accepted incarnation) => do
      setState (.sent incarnation)
      pure (.ready (.ok incarnation))
    | some (.terminated message finalIncarnation) => terminated message finalIncarnation
    | some .pending => pure .pending
    | some .needsWakerClone => pollParked current operation rounds (some current)
    -- the clone was refused and retired, and the section looks again
    | none => pollParked current operation rounds none

/-- The sections one poll of a parked operation can need. -/
def pollRounds : ℕ := 3

/-- The first poll submits the message. -/
def submitImmediate (current : Waker) (message : Option M) :
    Polling M T (SendFuture M) (Poll (Except (SendError M) Incarnation)) := do
  setState (.immediate none)
  let message ← Thread.expect message "an unsubmitted send retains its message"
  match ← Polling.submit message with
  | .accepted incarnation => do
    setState (.sent incarnation)
    pure (.ready (.ok incarnation))
  | .parked operation => do
    setState (.parked operation)
    pollParked current operation pollRounds none
  | .terminated message finalIncarnation => terminated message finalIncarnation

def poll (current : Waker) :
    Polling M T (SendFuture M) (Poll (Except (SendError M) Incarnation)) := do
  match (← get).state with
  | .immediate message => submitImmediate current message
  | .sent incarnation => pure (.ready (.ok incarnation))
  | .parked operation => pollParked current operation pollRounds none
  | .done => throw "a completed send future was polled"

/-- Withdraws the send. -/
def withdraw (disposition : WithdrawalDisposition) :
    Polling M T (SendFuture M) (WithdrawalOutcome M) := do
  let this ← get
  setState .done
  match this.state with
  | .immediate message => do
    let message ← Thread.expect message "an unsubmitted send retains its message"
    let observed ← Polling.currentObservation
    pure (.withdrawn message observed)
  | .parked operation => do
    let outcome ← Polling.withdrawOperation operation disposition
    match ← Thread.expect outcome "a withdrawal outcome is consumed exactly once" with
    | .withdrawn message observed => pure (.withdrawn message.body observed)
    | .accepted incarnation => pure (.accepted incarnation)
    | .terminated message observed => pure (.terminated message.body observed)
  | .sent incarnation => pure (.accepted incarnation)
  | .done => throw "a completed send was withdrawn"

/-- Withdraws an unaccepted send and classifies its outcome. -/
def withdrawSendWith (disposition : WithdrawalDisposition) :
    Polling M T (SendFuture M) (Except (SendError M) Incarnation) := do
  let actorId := (← get).actorId
  match ← withdraw disposition with
  | .withdrawn message observed => pure (.error ⟨actorId, observed, message, .timedOut⟩)
  | .accepted incarnation => pure (.ok incarnation)
  | .terminated message observed => pure (.error ⟨actorId, observed, message, .terminated⟩)

def pollDeadlined (current : Waker) (_budget : Option Instant) (phase : DeadlinePhase) :
    Polling M T (SendFuture M) (Poll (Except (SendError M) Incarnation)) := do
  match ← poll current with
  | .ready result => pure (.ready result)
  | .pending =>
    if phase = .initialAttempt then pure .pending
    else do
      let result ← withdrawSendWith .inline
      pure (.ready result)

def shortCircuit : Polling M T (SendFuture M) (Except (SendError M) Incarnation) :=
  withdrawSendWith .inline

def deadlineOperation :
    DeadlineOperation M T (SendFuture M) (Except (SendError M) Incarnation) where
  pollDeadlined := pollDeadlined
  shortCircuit := shortCircuit

/-- Cancellation: a parked message is withdrawn and disposed of. -/
def drop : Polling M T (SendFuture M) Unit := do
  let this ← get
  setState .done
  match this.state with
  | .parked operation => do
    let _ ← Polling.withdrawOperation operation .isolated
    pure ()
  | .immediate _ | .sent _ | .done => pure ()

end SendFuture

/-! ### Calls -/

inductive CallErrorKind
  | terminated
  | acceptanceTimedOut
  | responseTimedOut
  | replyDropped
  deriving DecidableEq, Repr

structure CallError where
  actorId : ChildId
  incarnationObserved : Option Incarnation
  kind : CallErrorKind
  deriving DecidableEq, Repr

structure Replied (T : Type) where
  value : T
  incarnation : Incarnation
  deriving DecidableEq, Repr

inductive ReplyPoll (T : Type)
  | value (value : T)
  | senderClosed
  | timedOut
  deriving DecidableEq, Repr

/-- The capability to answer the call that made it. -/
inductive Reply
  | mk
  deriving DecidableEq, Repr

structure CallOperation (M : Type) where
  actorId : ChildId
  makeMsg : Option (Reply → M)
  send : Option (SendFuture M)
  reply : Option DisposingReceiver
  accepted : Option Incarnation

def pollReply (phase : DeadlinePhase) : Polling M T DisposingReceiver (Poll (ReplyPoll T)) := do
  match ← DisposingReceiver.pollReceive with
  | .ready (some value) => pure (.ready (.value value))
  | .ready none => pure (.ready .senderClosed)
  | .pending =>
    if phase = .timeoutArbitration then do
      match ← DisposingReceiver.closeAndPollReceive with
      | .value value => pure (.ready (.value value))
      | .senderClosed => pure (.ready .senderClosed)
      | .empty => pure (.ready .timedOut)
      | .pending => pure .pending
    else pure .pending

namespace CallOperation

def new (actorId : ChildId) (makeMsg : Reply → M) : CallOperation M :=
  ⟨actorId, some makeMsg, none, none, none⟩

/-- Runs a part of the call on its reply state, which `reply` was read from. -/
def onReply {α : Type} (reply : DisposingReceiver) (m : Polling M T DisposingReceiver α) :
    Polling M T (CallOperation M) α :=
  Thread.focus (fun _ => reply) (fun this reply => { this with reply := some reply }) m

/-- Runs a part of the call on its send, which `send` was read from. -/
def onSend {α : Type} (send : SendFuture M) (m : Polling M T (SendFuture M) α) :
    Polling M T (CallOperation M) α :=
  Thread.focus (fun _ => send) (fun this send => { this with send := some send }) m

def pollReply (incarnation : Incarnation) (phase : DeadlinePhase) :
    Polling M T (CallOperation M) (Poll (Except CallError (Replied T))) := do
  let this ← get
  let reply ← Thread.expect this.reply "accepted call retains reply state"
  match ← onReply reply (Shelterwood.pollReply phase) with
  | .ready (.value value) => pure (.ready (.ok ⟨value, incarnation⟩))
  | .ready .senderClosed =>
    pure (.ready (.error ⟨this.actorId, some incarnation, .replyDropped⟩))
  | .ready .timedOut =>
    pure (.ready (.error ⟨this.actorId, some incarnation, .responseTimedOut⟩))
  | .pending => pure .pending

def closeReply : Polling M T (CallOperation M) Unit := do
  match (← get).reply with
  | some reply => onReply reply DisposingReceiver.close
  | none => pure ()

def failSend (error : SendError M) (kind : CallErrorKind) :
    Polling M T (CallOperation M) (Poll (Except CallError (Replied T))) := do
  closeReply
  pure (.ready (.error ⟨error.actorId, error.incarnationObserved, kind⟩))

def shortCircuit : Polling M T (CallOperation M) (Except CallError (Replied T)) := do
  let this ← get
  let observed ← Polling.currentObservation
  pure (.error ⟨this.actorId, observed, .acceptanceTimedOut⟩)

/-- The withdrawal of the second pass, and what became of the send. -/
def withdrawPhase : Polling M T (CallOperation M) (Poll (Except CallError (Replied T))) := do
  let send ← Thread.expect (← get).send "an unaccepted call retains its send future"
  let result ← onSend send (SendFuture.withdrawSendWith .isolated)
  modify fun this => { this with send := none }
  match result with
  | .ok incarnation => do
    modify fun this => { this with accepted := some incarnation }
    pollReply incarnation .timeoutArbitration
  | .error error =>
    match error.kind with
    | .timedOut => failSend error .acceptanceTimedOut
    | .terminated => failSend error .terminated
    | .notRunning | .full => throw "withdrawal returns only timed-out or terminal errors"

/-- The poll of the send while the call is not accepted. -/
def sendPhase (current : Waker) (phase : DeadlinePhase) :
    Polling M T (CallOperation M) (Poll (Except CallError (Replied T))) := do
  let send ← Thread.expect (← get).send "sending call retains send future"
  match ← onSend send (SendFuture.poll current) with
  | .ready (.ok incarnation) => do
    modify fun this => { this with accepted := some incarnation, send := none }
    pollReply incarnation phase
  | .ready (.error error) => failSend error .terminated
  | .pending => if phase = .initialAttempt then pure .pending else withdrawPhase

/-- An accepted call waits for its reply; another one for its send. -/
def progress (current : Waker) (phase : DeadlinePhase) :
    Polling M T (CallOperation M) (Poll (Except CallError (Replied T))) := do
  match (← get).accepted with
  | some incarnation => pollReply incarnation phase
  | none => sendPhase current phase

/-- Builds the message around a fresh reply; a constructor that outlasts the
budget starts no send, and the receiver it leaves is dropped. -/
def construct (current : Waker) (budget : Option Instant) (phase : DeadlinePhase)
    (makeMsg : Reply → M) :
    Polling M T (CallOperation M) (Poll (Except CallError (Replied T))) := do
  let _ ← Thread.call (Section.openReply (M := M))
  modify fun this => { this with makeMsg := none }
  let message := makeMsg .mk
  let now ← Thread.call (Section.now (M := M))
  if isOverdue budget now then do
    let result ← shortCircuit
    Thread.focus (fun _ => DisposingReceiver.new) (fun this _ => this) DisposingReceiver.drop
    pure (.ready result)
  else do
    modify fun this => { this with
      reply := some .new
      send := some (.new this.actorId message) }
    progress current phase

def pollDeadlined (current : Waker) (budget : Option Instant) (phase : DeadlinePhase) :
    Polling M T (CallOperation M) (Poll (Except CallError (Replied T))) := do
  match (← get).makeMsg with
  | some makeMsg => construct current budget phase makeMsg
  | none => progress current phase

def deadlineOperation :
    DeadlineOperation M T (CallOperation M) (Except CallError (Replied T)) where
  pollDeadlined := pollDeadlined
  shortCircuit := shortCircuit

/-- The fields go in order: the send, then the reply receiver. -/
def drop : Polling M T (CallOperation M) Unit := do
  let this ← get
  match this.send with
  | some send => onSend send SendFuture.drop
  | none => pure ()
  match this.reply with
  | some reply => onReply reply DisposingReceiver.drop
  | none => pure ()

end CallOperation

end Shelterwood
