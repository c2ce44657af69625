/-
Shelterwood/MailboxRun.lean

Runs of one mailbox, and the moves a run is made of.

A run is any interleaving of critical sections: senders that submit, poll and
withdraw, receivers of any incarnation, the driver that configures, binds,
freezes, closes and terminates, and the teardown that discharges the detached
waiters one by one.  Every submission carries its number, so two messages with
equal content stay apart.

A section is a short sequence of `Moves`: one message changes hands, or the
phase changes, in each.  Receiving and binding promote parked senders, one move
for each.  Every invariant of the mailbox is proved once, move by move.
-/
import Shelterwood.Mailbox
import Shelterwood.Trace

namespace Shelterwood

variable {M : Type*}

/-! ### The system -/

/-- A message with the number of its submission. -/
structure Posted (M : Type*) where
  number : ℕ
  body : M
  deriving DecidableEq, Repr

/-- A mailbox, and the teardown that is discharging its waiters. -/
structure MailboxSystem (M : Type*) where
  cell : MailboxCell (Posted M)
  /-- The waiters `Termination::finish` has not popped. -/
  teardown : Option Termination
  /-- The popped waiter: registration cleared, outcome not yet decided. -/
  discharging : Option OperationRef
  /-- How many messages have been submitted. -/
  posted : ℕ
  deriving DecidableEq

def MailboxSystem.new (actorId : ChildId) : MailboxSystem M := ⟨.new actorId, none, none, 0⟩

/-- One critical section. -/
inductive MailboxStep (M : Type*)
  | submit (body : M)
  | trySend (body : M)
  | poll (operation : OperationRef) (replacement : Option Waker) (current : Waker)
  | withdraw (operation : OperationRef) (disposition : WithdrawalDisposition)
  | receive (incarnation : Incarnation) (mode : ReceiveMode)
  | acceptedSequence
  | currentObservation
  | configure (mailbox : ResolvedMailbox)
  | bind (token : MailboxBindToken) (incarnation : Incarnation)
  | freeze (incarnation : Incarnation)
  | close (incarnation : Incarnation)
  | prepareTermination
  /-- `Termination::finish` pops its next waiter and clears the registration. -/
  | clearRegistration
  /-- `Termination::finish` decides the popped waiter. -/
  | terminate
  deriving DecidableEq, Repr

/-- What a section returned. -/
inductive MailboxResult (M : Type*)
  | done
  | submitted (submission : Submission (Posted M))
  | sent (result : Except (SendError (Posted M)) Incarnation)
  | polled (poll : Option (OperationPoll (Posted M)))
  | withdrawn (withdrawal : Withdrawal (Posted M))
  | received (message : Option (Posted M))
  | loaded (sequence : AcceptedSequence)
  | observed (incarnation : Option Incarnation)
  | configured (token : MailboxBindToken)
  | closed (close : Option (MailboxClose (Posted M)))
  | prepared (payload : Option (MailboxPayload (Posted M)))
  | panicked (message : String)

structure MailboxOutput (M : Type*) where
  result : MailboxResult M
  effects : MailboxEffects (Posted M)

namespace MailboxSystem

/-- The next message to be submitted. -/
def post (s : MailboxSystem M) (body : M) : Posted M := ⟨s.posted, body⟩

def setCell (s : MailboxSystem M) (cell : MailboxCell (Posted M)) : MailboxSystem M :=
  { s with cell }

def setOperation (s : MailboxSystem M) (reference : OperationRef)
    (operation : SendOperation (Posted M)) : MailboxSystem M :=
  { s with cell.operations := s.cell.operations.set reference operation }

/-- A section that does not return: the abort ends the run, the unwinding leaves
the mailbox to the others. -/
def faulted (s : MailboxSystem M) : Fault → Option (MailboxSystem M × MailboxOutput M)
  | .exhausted => none
  | .panicked message => some (s, ⟨.panicked message, .none⟩)

/-- A section on the mailbox lock that posts no message. -/
def commit (s : MailboxSystem M) (t : MailboxTxn (Posted M)) (result : MailboxResult M) :
    Option (MailboxSystem M × MailboxOutput M) :=
  some (s.setCell t.cell, ⟨result, t.effects⟩)

end MailboxSystem

open MailboxSystem in
/-- Runs one section.  A reference that was never handed out, and a discharge
with nothing to discharge, are not steps. -/
def MailboxStep.apply (s : MailboxSystem M) :
    MailboxStep M → Option (MailboxSystem M × MailboxOutput M)
  | .submit body =>
    match s.cell.submit (s.post body) with
    | .ok (submission, t) => commit { s with posted := s.posted + 1 } t (.submitted submission)
    | .error fault => s.faulted fault
  | .trySend body =>
    match s.cell.trySend (s.post body) with
    | .ok (result, t) => commit { s with posted := s.posted + 1 } t (.sent result)
    | .error fault => s.faulted fault
  | .poll reference replacement current =>
    match s.cell.operations[reference]? with
    | none => none
    | some operation =>
      match operation.poll replacement current with
      | .ok (result, operation', wakers) =>
        some (s.setOperation reference operation',
          ⟨.polled result, { MailboxEffects.none with wakers }⟩)
      | .error fault => s.faulted fault
  | .withdraw reference disposition =>
    match s.cell.operations[reference]? with
    | none => none
    | some operation =>
      let (withdrawal, cell) := s.cell.withdraw reference operation disposition
      some (s.setCell cell,
        ⟨.withdrawn withdrawal, { MailboxEffects.none with wakers := withdrawal.wakers }⟩)
  | .receive incarnation mode =>
    match s.cell.receive incarnation mode with
    | .ok (message, t) => s.commit t (.received message)
    | .error fault => s.faulted fault
  | .acceptedSequence => some (s, ⟨.loaded s.cell.acceptedSequence, .none⟩)
  | .currentObservation => some (s, ⟨.observed s.cell.currentObservation, .none⟩)
  | .configure mailbox =>
    match s.cell.configure mailbox with
    | .ok (token, cell) => some (s.setCell cell, ⟨.configured token, .none⟩)
    | .error fault => s.faulted fault
  | .bind token incarnation =>
    match s.cell.bind token incarnation with
    | .ok t => s.commit t .done
    | .error fault => s.faulted fault
  | .freeze incarnation => s.commit (s.cell.freeze incarnation) .done
  | .close incarnation =>
    s.commit (s.cell.close incarnation).2 (.closed (s.cell.close incarnation).1)
  | .prepareTermination =>
    match s.cell.prepareTermination with
    | (none, _) => some (s, ⟨.prepared none, .none⟩)
    | (some teardown, cell) =>
      some ({ s with cell, teardown := some teardown.termination },
        ⟨.prepared (some teardown.payload), .none⟩)
  | .clearRegistration =>
    match s.teardown, s.discharging with
    | some termination, none =>
      match termination.waiters.popFront with
      | some (reference, waiters) =>
        some ({ s with
            cell.operations :=
              s.cell.operations.modify reference SendOperation.clearRegistration
            teardown := some { termination with waiters }
            discharging := some reference },
          ⟨.done, .none⟩)
      | none => none
    | _, _ => none
  | .terminate =>
    match s.teardown, s.discharging with
    | some termination, some reference =>
      match s.cell.operations[reference]? with
      | some operation =>
        let (operation', wakers) := operation.terminate termination.finalIncarnation
        some ({ s.setOperation reference operation' with discharging := none },
          ⟨.done, { MailboxEffects.none with wakers }⟩)
      | none => none
    | _, _ => none

abbrev MailboxEdge (M : Type*) := Edge (MailboxSystem M) (MailboxStep M) (MailboxOutput M)

/-- The edges of a mailbox. -/
abbrev IsMailboxEdge (e : MailboxEdge M) : Prop :=
  stepEdge (fun s step => MailboxStep.apply s step) e

/-- A run of a fresh mailbox. -/
abbrev MailboxRun (actorId : ChildId) (tr : List (MailboxEdge M)) (s : MailboxSystem M) : Prop :=
  Run IsMailboxEdge (.new actorId) tr s

/-- The incarnations of sample runs. -/
def sampleIncarnation (generation : ℕ) : Incarnation := ⟨⟨1, 1⟩, generation⟩

end Shelterwood
