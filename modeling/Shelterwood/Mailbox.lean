/-
Shelterwood/Mailbox.lean

The mailbox of one actor membership.

A mailbox outlives the incarnations that read from it.  It is bound to one
incarnation at a time; senders that cannot be accepted park behind it and are
promoted, oldest first, by a later receive or bind.  A parked sender shares its
`SendOperation` with the mailbox, so operations live in a heap and a reference
to one is its position there: that is the model of `Arc<SendOperation>`.

Every function below is one critical section on the mailbox lock, or on one
operation's lock.  A section on the mailbox lock takes operation locks only
inside itself.  What a section leaves for after the unlock (the change pulse,
the displaced messages, the wakers) is collected in `MailboxEffects`.
-/
import Shelterwood.Identity
import Shelterwood.OrdMap

namespace Shelterwood

/-! ### Policies, phases, messages -/

structure NonZeroUsize where
  get : ℕ
  pos : 0 < get
  deriving Repr

instance : DecidableEq NonZeroUsize := fun a b =>
  decidable_of_iff (a.get = b.get)
    ⟨fun h => by cases a; cases b; cases h; rfl, fun h => h ▸ rfl⟩

inductive ResolvedMailbox
  | queue (capacity : NonZeroUsize)
  | latest
  deriving DecidableEq, Repr

/-- The derived `Debug` text. -/
def ResolvedMailbox.debug : ResolvedMailbox → String
  | .queue capacity => "Queue(" ++ toString capacity.get ++ ")"
  | .latest => "Latest"

/-- The incarnation a mailbox is bound to, and the kind it was configured
with. -/
structure Binding where
  incarnation : Incarnation
  kind : ResolvedMailbox
  deriving DecidableEq, Repr

/-- Where the mailbox is in its binding lifecycle. -/
inductive Phase
  | unbound
  | bound (binding : Binding)
  | frozen (binding : Binding)
  | terminal (finalIncarnation : Option Incarnation)
  deriving DecidableEq, Repr

def Phase.observation : Phase → Option Incarnation
  | .bound binding | .frozen binding => some binding.incarnation
  | .unbound | .terminal _ => none

def Phase.isTerminal : Phase → Bool
  | .terminal _ => true
  | _ => false

abbrev AcceptedSequence := ℕ

inductive ReceiveMode
  | drain
  | liveThrough (limit : AcceptedSequence)
  deriving DecidableEq, Repr

def ReceiveMode.accepts : ReceiveMode → AcceptedSequence → Bool
  | .drain, _ => true
  | .liveThrough limit, sequence => sequence ≤ limit

structure Envelope (M : Type*) where
  message : M
  acceptedSequence : AcceptedSequence
  deriving DecidableEq, Repr

/-! ### Wakers -/

/-- A caller's waker, as the identity `will_wake` compares. -/
structure Waker where
  id : ℕ
  deriving DecidableEq, Repr

inductive WakerAction
  | wake
  | dropInline
  | disposeDetached
  deriving DecidableEq, Repr

structure WakerEffect where
  waker : Waker
  action : WakerAction
  deriving DecidableEq, Repr

/-- What taking a waker out of its slot leaves to do. -/
def takeWaker (slot : Option Waker) (action : WakerAction) : List WakerEffect :=
  (slot.map fun waker => ⟨waker, action⟩).toList

/-! ### Send operations -/

abbrev WaiterId := ℕ

/-- A shared send operation: its position in the heap. -/
abbrev OperationRef := ℕ

/-- An operation's outcome.  The variants that carry a message own it. -/
inductive OperationOutcome (M : Type*)
  | waiting (message : M) (newestObserved : Option Incarnation)
  | accepted (incarnation : Incarnation)
  | terminated (message : M) (finalIncarnation : Option Incarnation)
  | retired
  deriving DecidableEq, Repr

structure SendOperation (M : Type*) where
  outcome : OperationOutcome M
  waker : Option Waker
  registration : Option WaiterId
  deriving DecidableEq, Repr

inductive OperationPoll (M : Type*)
  | accepted (incarnation : Incarnation)
  | terminated (message : M) (finalIncarnation : Option Incarnation)
  | pending
  | needsWakerClone
  deriving DecidableEq, Repr

namespace SendOperation

variable {M : Type*}

def new (message : M) (newestObserved : Option Incarnation) (registration : Option WaiterId) :
    SendOperation M :=
  ⟨.waiting message newestObserved, none, registration⟩

def clearRegistration (operation : SendOperation M) : SendOperation M :=
  { operation with registration := none }

def observe (incarnation : Incarnation) (operation : SendOperation M) : SendOperation M :=
  match operation.outcome with
  | .waiting message _ => { operation with outcome := .waiting message (some incarnation) }
  | _ => operation

/-- Leaves `waiting` for `accepted` and moves the message out. -/
def accept (incarnation : Incarnation) (operation : SendOperation M) :
    Option M × SendOperation M × List WakerEffect :=
  match operation.outcome with
  | .waiting message _ =>
    (some message, { operation with outcome := .accepted incarnation, waker := none },
      takeWaker operation.waker .wake)
  | _ => (none, operation, [])

def terminate (finalIncarnation : Option Incarnation) (operation : SendOperation M) :
    SendOperation M × List WakerEffect :=
  match operation.outcome with
  | .waiting message _ =>
    ({ operation with outcome := .terminated message finalIncarnation, waker := none },
      takeWaker operation.waker .wake)
  | _ => (operation, [])

/-- One section of `poll`.  `none` is the section that refused the cloned waker:
the caller retires the clone with no lock held and looks again. -/
def poll (operation : SendOperation M) (replacement : Option Waker) (current : Waker) :
    Except Fault (Option (OperationPoll M) × SendOperation M × List WakerEffect) :=
  match operation.outcome, replacement with
  | .waiting _ _, some replacement =>
    .ok (some .pending, { operation with waker := some replacement },
      takeWaker operation.waker .dropInline)
  | .waiting _ _, none =>
    if operation.waker = some current then .ok (some .pending, operation, [])
    else .ok (some .needsWakerClone, operation, [])
  | _, some _ => .ok (none, operation, [])
  | .accepted incarnation, none => .ok (some (.accepted incarnation), operation, [])
  | .terminated message finalIncarnation, none =>
    .ok (some (.terminated message finalIncarnation), { operation with outcome := .retired }, [])
  | .retired, none => .error (.panicked "a retired send operation was polled")

end SendOperation

/-! ### The waiter queue -/

/-- FIFO registrations with direct removal.  The first entry is the oldest
waiter, because ids are minted in insertion order. -/
structure WaiterQueue where
  entries : OrdMap WaiterId OperationRef
  ids : MonotonicCounter
  deriving DecidableEq

namespace WaiterQueue

def empty : WaiterQueue := ⟨.empty, .new⟩

def isEmpty (waiters : WaiterQueue) : Bool := waiters.entries.isEmpty

def popFront (waiters : WaiterQueue) : Option (OperationRef × WaiterQueue) :=
  match waiters.entries.entries.head? with
  | some (id, operation) => some (operation, { waiters with entries := waiters.entries.erase id })
  | none => none

def remove (waiters : WaiterQueue) (id : WaiterId) : Option OperationRef × WaiterQueue :=
  (waiters.entries.get? id, { waiters with entries := waiters.entries.erase id })

end WaiterQueue

/-! ### The cell -/

/-- A one-shot bind permit: the identity of the shared flag, and the flag. -/
structure BindPermit where
  id : ℕ
  claimed : Bool
  deriving DecidableEq, Repr

/-- Linear permission to bind one incarnation. -/
structure MailboxBindToken where
  permit : ℕ
  deriving DecidableEq, Repr

structure MailboxState (M : Type*) where
  kind : Option ResolvedMailbox
  bindPermit : BindPermit
  phase : Phase
  lastBound : Option Incarnation
  waiters : WaiterQueue
  queue : List (Envelope M)
  latest : Option (Envelope M)
  deriving DecidableEq

/-- The restart-stable mailbox of one membership, with the heap of its send
operations. -/
structure MailboxCell (M : Type*) where
  actorId : ChildId
  state : MailboxState M
  accepted : MonotonicCounter
  operations : List (SendOperation M)
  deriving DecidableEq

/-- A message's acceptance. -/
structure Acceptance (M : Type*) where
  envelope : Envelope M
  incarnation : Incarnation
  deriving DecidableEq, Repr

/-- What a transition leaves for after the unlock.  `accepted` is a history
variable: the acceptances of the transition in order, which the code does not
store anywhere. -/
structure MailboxEffects (M : Type*) where
  pulse : Bool
  displaced : List (Envelope M)
  isolateDisplaced : Bool
  wakers : List WakerEffect
  accepted : List (Acceptance M)
  deriving DecidableEq, Repr

def MailboxEffects.none {M : Type*} : MailboxEffects M := ⟨false, [], false, [], []⟩

/-- A transition under the mailbox lock with its effects so far. -/
structure MailboxTxn (M : Type*) where
  cell : MailboxCell M
  effects : MailboxEffects M
  deriving DecidableEq

inductive Submission (M : Type*)
  | accepted (incarnation : Incarnation)
  | parked (operation : OperationRef)
  | terminated (message : M) (finalIncarnation : Option Incarnation)
  deriving DecidableEq, Repr

inductive SendErrorKind
  | notRunning
  | full
  | terminated
  | timedOut
  deriving DecidableEq, Repr

structure SendError (M : Type*) where
  actorId : ChildId
  incarnationObserved : Option Incarnation
  message : M
  kind : SendErrorKind
  deriving DecidableEq, Repr

inductive WithdrawalDisposition
  | inline
  | isolated
  deriving DecidableEq, Repr

def WithdrawalDisposition.action : WithdrawalDisposition → WakerAction
  | .inline => .dropInline
  | .isolated => .disposeDetached

inductive WithdrawalOutcome (M : Type*)
  | withdrawn (message : M) (observed : Option Incarnation)
  | accepted (incarnation : Incarnation)
  | terminated (message : M) (observed : Option Incarnation)
  deriving DecidableEq, Repr

/-- The result of a withdrawal.  The two flags are the conditions of its debug
assertions. -/
structure Withdrawal (M : Type*) where
  outcome : Option (WithdrawalOutcome M)
  wakers : List WakerEffect
  withdrawnOnce : Bool
  detachedOnlyByTeardown : Bool
  deriving DecidableEq, Repr

/-- The unread messages of a closed binding. -/
structure MailboxPayload (M : Type*) where
  queue : List (Envelope M)
  latest : Option (Envelope M)
  deriving DecidableEq, Repr

structure MailboxClose (M : Type*) where
  bind : MailboxBindToken
  disposal : MailboxPayload M
  deriving DecidableEq, Repr

/-- The waiters a terminal transition detached. -/
structure Termination where
  waiters : WaiterQueue
  finalIncarnation : Option Incarnation
  deriving DecidableEq

structure MailboxTeardown (M : Type*) where
  payload : MailboxPayload M
  termination : Termination
  deriving DecidableEq

namespace MailboxState

variable {M : Type*}

/-- Dequeues the next envelope this receive mode is willing to observe. -/
def takeNext (state : MailboxState M) (kind : ResolvedMailbox) (mode : ReceiveMode) :
    Option (Envelope M) × MailboxState M :=
  match kind with
  | .queue _ =>
    match state.queue with
    | item :: rest =>
      if mode.accepts item.acceptedSequence then (some item, { state with queue := rest })
      else (none, state)
    | [] => (none, state)
  | .latest =>
    match state.latest with
    | some item =>
      if mode.accepts item.acceptedSequence then (some item, { state with latest := none })
      else (none, state)
    | none => (none, state)

end MailboxState

/-! ### Transitions under the lock -/

namespace MailboxTxn

variable {M : Type*}

/-- Parks a fresh send operation behind the mailbox. -/
def park (t : MailboxTxn M) (message : M) (newestObserved : Option Incarnation) :
    Except Fault (Submission M × MailboxTxn M) :=
  match t.cell.state.waiters.ids.mint with
  | .error fault => .error fault
  | .ok (registration, ids) =>
    let operation := t.cell.operations.length
    .ok (.parked operation,
      { t with cell := { t.cell with
          state := { t.cell.state with
            waiters := ⟨t.cell.state.waiters.entries.insert registration operation, ids⟩ }
          operations := t.cell.operations ++
            [.new message newestObserved (some registration)] } })

/-- Appends an accepted message; a latest mailbox displaces its prior value
into the effects. -/
def pushAccepted (t : MailboxTxn M) (binding : Binding) (message : M) :
    Except Fault (MailboxTxn M) :=
  match t.cell.accepted.mint with
  | .error fault => .error fault
  | .ok (sequence, accepted) =>
    let envelope : Envelope M := ⟨message, sequence⟩
    let log := t.effects.accepted ++ [⟨envelope, binding.incarnation⟩]
    match binding.kind with
    | .queue _ =>
      .ok {
        cell := { t.cell with
          accepted
          state := { t.cell.state with queue := t.cell.state.queue ++ [envelope] } }
        effects := { t.effects with accepted := log } }
    | .latest =>
      .ok {
        cell := { t.cell with
          accepted
          state := { t.cell.state with latest := some envelope } }
        effects := { t.effects with
          displaced := t.effects.displaced ++ t.cell.state.latest.toList
          accepted := log } }

/-- Whether a queue binding is at capacity. -/
def atCapacity (t : MailboxTxn M) (binding : Binding) : Bool :=
  match binding.kind with
  | .queue capacity => capacity.get ≤ t.cell.state.queue.length
  | .latest => false

/-- Accepts a message into a bound mailbox, or hands it back when the mailbox is
full.  Parked senders are older, so any waiter makes the mailbox full. -/
def acceptLocked (t : MailboxTxn M) (binding : Binding) (message : M) :
    Except Fault (Except M Incarnation × MailboxTxn M) :=
  if !t.cell.state.waiters.isEmpty then .ok (.error message, t)
  else if t.atCapacity binding then .ok (.error message, t)
  else
    match t.pushAccepted binding message with
    | .error fault => .error fault
    | .ok t' => .ok (.ok binding.incarnation,
        { t' with effects := { t'.effects with pulse := true } })

/-- One round of `promote_waiters` once a waiter has been popped. -/
def promoteOne (t : MailboxTxn M) (binding : Binding) (reference : OperationRef) :
    Except Fault (MailboxTxn M) :=
  match t.cell.operations[reference]? with
  | none => .ok t
  | some operation =>
    let cleared := operation.clearRegistration.observe binding.incarnation
    let (message, settled, wakers) := cleared.accept binding.incarnation
    let t' : MailboxTxn M := {
      cell := { t.cell with operations := t.cell.operations.set reference settled }
      effects := { t.effects with wakers := t.effects.wakers ++ wakers } }
    match message with
    | some message => t'.pushAccepted binding message
    | none => .ok t'

/-- Accepts parked senders, oldest first, while the bound mailbox has room; for
at most `rounds` waiters. -/
def promoteLoop (binding : Binding) : ℕ → MailboxTxn M → Except Fault (MailboxTxn M)
  | 0, t => .ok t
  | rounds + 1, t =>
    if t.atCapacity binding then .ok t
    else
      match t.cell.state.waiters.popFront with
      | none => .ok t
      | some (reference, waiters) =>
        let popped : MailboxTxn M :=
          { t with cell := { t.cell with state := { t.cell.state with waiters } } }
        match popped.promoteOne binding reference with
        | .error fault => .error fault
        | .ok t' => promoteLoop binding rounds t'

/-- Every round pops a waiter, so the number of waiters bounds the rounds. -/
def promoteWaiters (t : MailboxTxn M) (binding : Binding) : Except Fault (MailboxTxn M) :=
  promoteLoop binding t.cell.state.waiters.entries.size t

end MailboxTxn

/-! ### The critical sections -/

namespace MailboxCell

variable {M : Type*}

def new (actorId : ChildId) : MailboxCell M where
  actorId
  state :=
    { kind := none
      bindPermit := ⟨0, false⟩
      phase := .unbound
      lastBound := none
      waiters := .empty
      queue := []
      latest := none }
  accepted := .new
  operations := []

/-- A transition begins with no effects. -/
def begin (cell : MailboxCell M) : MailboxTxn M := ⟨cell, .none⟩

def submit (cell : MailboxCell M) (message : M) : Except Fault (Submission M × MailboxTxn M) :=
  match cell.state.phase with
  | .terminal finalIncarnation => .ok (.terminated message finalIncarnation, cell.begin)
  | .bound binding =>
    match cell.begin.acceptLocked binding message with
    | .error fault => .error fault
    | .ok (.ok incarnation, t) => .ok (.accepted incarnation, t)
    | .ok (.error message, t) => t.park message (some binding.incarnation)
  | .frozen binding => cell.begin.park message (some binding.incarnation)
  | .unbound => cell.begin.park message none

def trySend (cell : MailboxCell M) (message : M) :
    Except Fault (Except (SendError M) Incarnation × MailboxTxn M) :=
  match cell.state.phase with
  | .terminal finalIncarnation =>
    .ok (.error ⟨cell.actorId, finalIncarnation, message, .terminated⟩, cell.begin)
  | .unbound => .ok (.error ⟨cell.actorId, none, message, .notRunning⟩, cell.begin)
  | .frozen binding =>
    .ok (.error ⟨cell.actorId, some binding.incarnation, message, .notRunning⟩, cell.begin)
  | .bound binding =>
    match cell.begin.acceptLocked binding message with
    | .error fault => .error fault
    | .ok (.ok incarnation, t) => .ok (.ok incarnation, t)
    | .ok (.error message, t) =>
      .ok (.error ⟨cell.actorId, some binding.incarnation, message, .full⟩, t)

/-- The binding a receive may read from, and whether it is live. -/
def receiveBinding (cell : MailboxCell M) (incarnation : Incarnation) (mode : ReceiveMode) :
    Option (Binding × Bool) :=
  match cell.state.phase with
  | .bound binding => if binding.incarnation = incarnation then some (binding, true) else none
  | .frozen binding =>
    if mode = .drain ∧ binding.incarnation = incarnation then some (binding, false) else none
  | .unbound | .terminal _ => none

def receive (cell : MailboxCell M) (incarnation : Incarnation) (mode : ReceiveMode) :
    Except Fault (Option M × MailboxTxn M) :=
  match cell.receiveBinding incarnation mode with
  | none => .ok (none, cell.begin)
  | some (binding, live) =>
    match cell.state.takeNext binding.kind mode with
    | (none, _) => .ok (none, cell.begin)
    | (some envelope, state) =>
      let t : MailboxTxn M := begin { cell with state }
      -- receiving frees one slot; a frozen mailbox lets nobody in
      if live then
        match t.promoteWaiters binding with
        | .error fault => .error fault
        | .ok t' => .ok (some envelope.message, t')
      else .ok (some envelope.message, t)

def currentObservation (cell : MailboxCell M) : Option Incarnation := cell.state.phase.observation

def acceptedSequence (cell : MailboxCell M) : AcceptedSequence := cell.accepted.current

/-- Takes an operation's outcome back from the mailbox. -/
def withdraw (cell : MailboxCell M) (reference : OperationRef) (operation : SendOperation M)
    (disposition : WithdrawalDisposition) : Withdrawal M × MailboxCell M :=
  let outcome : Option (WithdrawalOutcome M) :=
    match operation.outcome with
    | .waiting message newestObserved =>
      some (.withdrawn message (newestObserved.or cell.state.phase.observation))
    | .accepted incarnation => some (.accepted incarnation)
    | .terminated message finalIncarnation => some (.terminated message finalIncarnation)
    | .retired => none
  let wakers := takeWaker operation.waker disposition.action
  let removal : Option OperationRef × WaiterQueue :=
    match operation.registration with
    | some registration => cell.state.waiters.remove registration
    | none => (none, cell.state.waiters)
  let detached := operation.registration.isSome && removal.1.isNone
  (⟨outcome, wakers, outcome.isSome, !detached || cell.state.phase.isTerminal⟩,
    { cell with
      state := { cell.state with waiters := removal.2 }
      operations := cell.operations.set reference ⟨.retired, none, none⟩ })

/-- Installs the mailbox policy; a second configuration may only repeat it. -/
def configure (cell : MailboxCell M) (mailbox : ResolvedMailbox) :
    Except Fault (MailboxBindToken × MailboxCell M) :=
  match cell.state.kind with
  | some existing =>
    if existing = mailbox then .ok (⟨cell.state.bindPermit.id⟩, cell)
    else
      .error (.panicked ("mailbox configuration changed from " ++ existing.debug ++ " to " ++
        mailbox.debug ++ " after initialization"))
  | none =>
    .ok (⟨cell.state.bindPermit.id⟩,
      { cell with state := { cell.state with kind := some mailbox } })

/-- Records the bound incarnation on every parked operation. -/
def observeAll (cell : MailboxCell M) (incarnation : Incarnation) : MailboxCell M :=
  { cell with
    operations := cell.state.waiters.entries.entries.foldl
      (fun operations entry => operations.modify entry.2 (SendOperation.observe incarnation))
      cell.operations }

/-- Makes one incarnation live. -/
def bind (cell : MailboxCell M) (token : MailboxBindToken) (incarnation : Incarnation) :
    Except Fault (MailboxTxn M) :=
  match cell.state.phase, cell.state.kind with
  | .terminal _, _ => .ok cell.begin
  | _, none => .error (.panicked "mailbox must be configured before its first bind")
  | .bound _, some _ | .frozen _, some _ =>
    .error (.panicked "mailbox must close the prior incarnation before rebinding")
  | .unbound, some kind =>
    if token.permit = cell.state.bindPermit.id ∧ cell.state.bindPermit.claimed = false then
      let bound : MailboxCell M :=
        { cell with
          state := { cell.state with
            bindPermit := { cell.state.bindPermit with claimed := true }
            phase := .bound ⟨incarnation, kind⟩
            lastBound := some incarnation } }
      match (bound.observeAll incarnation).begin.promoteWaiters ⟨incarnation, kind⟩ with
      | .error fault => .error fault
      | .ok t =>
        .ok { t with effects := { t.effects with pulse := true, isolateDisplaced := true } }
    else .error (.panicked "mailbox bind token is foreign or was already consumed")

/-- Stops new acceptance for the matching live incarnation. -/
def freeze (cell : MailboxCell M) (incarnation : Incarnation) : MailboxTxn M :=
  match cell.state.phase with
  | .bound binding =>
    if binding.incarnation = incarnation then
      ⟨{ cell with state := { cell.state with phase := .frozen binding } },
        { MailboxEffects.none with pulse := true }⟩
    else cell.begin
  | _ => cell.begin

/-- Detaches the unread messages. -/
def takePayload (cell : MailboxCell M) : MailboxPayload M × MailboxCell M :=
  (⟨cell.state.queue, cell.state.latest⟩,
    { cell with state := { cell.state with queue := [], latest := none } })

/-- Unbinds the matching incarnation; parked senders wait for the next one. -/
def close (cell : MailboxCell M) (incarnation : Incarnation) :
    Option (MailboxClose M) × MailboxTxn M :=
  if cell.state.phase.observation = some incarnation then
    let permit : BindPermit := ⟨cell.state.bindPermit.id + 1, false⟩
    let (payload, emptied) := cell.takePayload
    (some ⟨⟨permit.id⟩, payload⟩,
      ⟨{ emptied with state := { emptied.state with phase := .unbound, bindPermit := permit } },
        { MailboxEffects.none with pulse := true }⟩)
  else (none, cell.begin)

/-- Makes the mailbox terminal and detaches its waiters. -/
def prepareTermination (cell : MailboxCell M) : Option (MailboxTeardown M) × MailboxCell M :=
  if cell.state.phase.isTerminal then (none, cell)
  else
    let finalIncarnation := cell.state.lastBound
    let (payload, emptied) := cell.takePayload
    (some ⟨payload, ⟨cell.state.waiters, finalIncarnation⟩⟩,
      { emptied with
        state := { emptied.state with phase := .terminal finalIncarnation, waiters := .empty } })

end MailboxCell

end Shelterwood
