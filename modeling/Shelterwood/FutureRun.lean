/-
Shelterwood/FutureRun.lean

One deadline-bearing future among everything it shares.

A run interleaves the sections of the future's polls with sections of the
mailbox by anybody else and with steps of the reply's sending half.  The timer
may be found elapsed at any poll and the clock may show anything.  The only
thing nobody else does is poll or withdraw the future's own operation: apart
from the mailbox, the future holds the only reference to it.
-/
import Shelterwood.Futures

namespace Shelterwood

variable {M T : Type} [TokioOneshot T]

/-! ### The shared state -/

/-- What a future shares with the rest of the system.  The last three fields are
history variables: the mailbox's trace, the message this future submitted, and
the operation it was parked under. -/
structure Shared (M T : Type) [TokioOneshot T] where
  mailbox : MailboxSystem M
  reply : OneShot T
  log : List (MailboxEdge M)
  submitted : Option (Posted M)
  operation : Option OperationRef

/-- What a section finds on the clock. -/
structure Reading where
  elapsed : Bool
  now : Instant
  deriving DecidableEq, Repr

/-- The parked operation of a submission. -/
def Submission.operation : Submission (Posted M) → Option OperationRef
  | .parked operation => some operation
  | .accepted _ | .terminated _ _ => none

namespace Shared

def new (actorId : ChildId) : Shared M T := ⟨.new actorId, .absent, [], none, none⟩

/-- One section of the mailbox. -/
def mailboxSection (s : Shared M T) (step : MailboxStep M) :
    Option (Shared M T × MailboxOutput M) :=
  match step.apply s.mailbox with
  | none => none
  | some (mailbox, output) =>
    some ({ s with mailbox, log := s.log ++ [⟨s.mailbox, step, output, mailbox⟩] }, output)

/-- Remembers a submission of the future. -/
def remember (s : Shared M T) (before : MailboxSystem M) (step : MailboxStep M)
    (result : MailboxResult M) : Shared M T :=
  match step, result with
  | .submit body, .submitted submission =>
    { s with submitted := some (before.post body), operation := submission.operation }
  | _, _ => s

/-- One section of the future. -/
def perform (s : Shared M T) (reading : Reading) :
    (i : Section M) → Option (i.Answer M T × Shared M T)
  | .mailbox step =>
    match s.mailboxSection step with
    | none => none
    | some (s', output) => some (output.result, s'.remember s.mailbox step output.result)
  | .openReply => some ((), { s with reply := .oneshot })
  | .pollChannel =>
    some ((TokioOneshot.poll s.reply.channel).1,
      { s with reply.channel := (TokioOneshot.poll s.reply.channel).2 })
  | .closeTransition =>
    some ((s.reply.exchange .receiverClosed).1,
      { s with reply := (s.reply.exchange .receiverClosed).2 })
  | .closeChannel => some ((), { s with reply.channel := TokioOneshot.close s.reply.channel })
  | .tryRecv =>
    some ((TokioOneshot.tryRecv s.reply.channel).1,
      { s with reply.channel := (TokioOneshot.tryRecv s.reply.channel).2 })
  | .pollTimer => some (reading.elapsed, s)
  | .now => some (reading.now, s)

/-- Whether a section of the mailbox is one that others may run. -/
def allows (s : Shared M T) : MailboxStep M → Bool
  | .poll operation _ _ => s.operation != some operation
  | .withdraw operation _ => s.operation != some operation
  | _ => true

end Shared

/-! ### Clients -/

def Poll.map {α β : Type} (f : α → β) : Poll α → Poll β
  | .ready value => .ready (f value)
  | .pending => .pending

/-- A `SendTimeout` or a `CallFuture`. -/
inductive ClientFuture (M : Type)
  | send (future : Deadlined (SendFuture M))
  | call (future : Deadlined (CallOperation M))

inductive ClientResult (M T : Type)
  | send (result : Except (SendError M) Incarnation)
  | call (result : Except CallError (Replied T))

/-- How a poll ended: with a panic, pending, or with a result. -/
abbrev PollOutcome (M T : Type) := Except String (Poll (ClientResult M T))

namespace ClientFuture

def sendTimeout (actorId : ChildId) (message : M) (deadline : Duration) : ClientFuture M :=
  .send (.noAttempt (.new actorId message) deadline)

def callFuture (actorId : ChildId) (makeMsg : Reply → M) (deadline : Duration) : ClientFuture M :=
  .call (.noAttempt (.new actorId makeMsg) deadline)

def poll (ceiling : Instant) (current : Waker) :
    ClientFuture M → Routine (Section M) (Section.Answer M T) (PollOutcome M T × ClientFuture M)
  | .send future =>
    ((Deadlined.poll SendFuture.deadlineOperation ceiling current).runFrom future).bind
      fun r => .pure (r.1.map (Poll.map .send), .send r.2)
  | .call future =>
    ((Deadlined.poll CallOperation.deadlineOperation ceiling current).runFrom future).bind
      fun r => .pure (r.1.map (Poll.map .call), .call r.2)

def drop : ClientFuture M → Routine (Section M) (Section.Answer M T) Unit
  | .send future => (SendFuture.drop.runFrom future.operation).bind fun _ => .pure ()
  | .call future => (CallOperation.drop.runFrom future.operation).bind fun _ => .pure ()

end ClientFuture

/-- Where the future's owner is. -/
inductive Client (M T : Type)
  | idle (future : ClientFuture M)
  | polling (rest : Routine (Section M) (Section.Answer M T) (PollOutcome M T × ClientFuture M))
  | dropping (rest : Routine (Section M) (Section.Answer M T) Unit)
  | dropped

/-- The whole system, with the results the future's polls have returned. -/
structure FutureSystem (M T : Type) [TokioOneshot T] where
  shared : Shared M T
  client : Client M T
  results : List (ClientResult M T)

/-- The results a poll adds. -/
def PollOutcome.results : PollOutcome M T → List (ClientResult M T)
  | .ok (.ready result) => [result]
  | .ok .pending | .error _ => []

inductive FutureStep (M T : Type)
  | poll (current : Waker)
  | drop
  /-- The next section of the poll or drop in progress, or its return. -/
  | advance (reading : Reading)
  | mailbox (step : MailboxStep M)
  | sender (step : SenderStep T)

def FutureSystem.new (actorId : ChildId) (future : ClientFuture M) : FutureSystem M T :=
  ⟨.new actorId, .idle future, []⟩

/-- Runs one step.  A poll or a drop needs the future at rest. -/
def FutureStep.apply (ceiling : Instant) (s : FutureSystem M T) :
    FutureStep M T → Option (FutureSystem M T × Option (PollOutcome M T))
  | .poll current =>
    match s.client with
    | .idle future => some ({ s with client := .polling (future.poll ceiling current) }, none)
    | _ => none
  | .drop =>
    match s.client with
    | .idle future => some ({ s with client := .dropping future.drop }, none)
    | _ => none
  | .advance reading =>
    match s.client with
    | .polling (.pure (outcome, future)) =>
      some ({ s with client := .idle future, results := s.results ++ outcome.results },
        some outcome)
    | .polling (.call i k) =>
      match s.shared.perform reading i with
      | some (answer, shared) =>
        some ({ s with shared, client := .polling (k answer) }, none)
      | none => none
    | .dropping (.pure _) => some ({ s with client := .dropped }, none)
    | .dropping (.call i k) =>
      match s.shared.perform reading i with
      | some (answer, shared) =>
        some ({ s with shared, client := .dropping (k answer) }, none)
      | none => none
    | .idle _ | .dropped => none
  | .mailbox step =>
    if s.shared.allows step then
      match s.shared.mailboxSection step with
      | some (shared, _) => some ({ s with shared }, none)
      | none => none
    else none
  | .sender step =>
    match s.shared.reply.senderStep step with
    | some reply => some ({ s with shared := { s.shared with reply } }, none)
    | none => none

abbrev FutureEdge (M T : Type) [TokioOneshot T] :=
  Edge (FutureSystem M T) (FutureStep M T) (Option (PollOutcome M T))

abbrev IsFutureEdge (ceiling : Instant) (e : FutureEdge M T) : Prop :=
  stepEdge (fun s step => FutureStep.apply ceiling s step) e

/-- A run of one future over a fresh mailbox. -/
abbrev FutureRun (ceiling : Instant) (actorId : ChildId) (future : ClientFuture M)
    (tr : List (FutureEdge M T)) (s : FutureSystem M T) : Prop :=
  Run (IsFutureEdge ceiling) (.new actorId future) tr s

end Shelterwood
