/-
Shelterwood/MailboxMoves.lean

What one critical section of a mailbox can do.

`Flow` names the messages that change hands, as the callers of the sections see
them: posted, parked, accepted, displaced, received, unread at a close, handed
back.  `Moves s f t` lists the elementary moves with the flow of each, and
`Moved` chains them.  The main result, `moved_of_run`, says that every run is
such a chain and that the flows of its sections add up to the flow of the chain.
Receiving and binding are the two sections that are more than one move.
-/
import Shelterwood.MailboxRun

namespace Shelterwood

variable {M : Type*}

/-! ### Flows -/

/-- The messages that change hands in a stretch of a run, the operations whose
owners took their outcome back, and the incarnations bound and closed. -/
structure Flow (M : Type*) where
  posted : List (Posted M) := []
  parked : List (OperationRef × Posted M) := []
  accepted : List (Acceptance (Posted M)) := []
  displaced : List (Posted M) := []
  received : List (Posted M) := []
  unread : List (Posted M) := []
  returned : List (Posted M) := []
  taken : List OperationRef := []
  bound : List Incarnation := []
  closed : List Incarnation := []

namespace Flow

@[simp] def append (f g : Flow M) : Flow M where
  posted := f.posted ++ g.posted
  parked := f.parked ++ g.parked
  accepted := f.accepted ++ g.accepted
  displaced := f.displaced ++ g.displaced
  received := f.received ++ g.received
  unread := f.unread ++ g.unread
  returned := f.returned ++ g.returned
  taken := f.taken ++ g.taken
  bound := f.bound ++ g.bound
  closed := f.closed ++ g.closed

instance : Append (Flow M) := ⟨append⟩

theorem append_eq (f g : Flow M) : f ++ g = f.append g := rfl

@[simp] theorem posted_append (f g : Flow M) : (f ++ g).posted = f.posted ++ g.posted := rfl
@[simp] theorem parked_append (f g : Flow M) : (f ++ g).parked = f.parked ++ g.parked := rfl
@[simp] theorem accepted_append (f g : Flow M) : (f ++ g).accepted = f.accepted ++ g.accepted := rfl
@[simp] theorem displaced_append (f g : Flow M) : (f ++ g).displaced = f.displaced ++ g.displaced :=
  rfl
@[simp] theorem received_append (f g : Flow M) : (f ++ g).received = f.received ++ g.received := rfl
@[simp] theorem unread_append (f g : Flow M) : (f ++ g).unread = f.unread ++ g.unread := rfl
@[simp] theorem returned_append (f g : Flow M) : (f ++ g).returned = f.returned ++ g.returned := rfl
@[simp] theorem taken_append (f g : Flow M) : (f ++ g).taken = f.taken ++ g.taken := rfl
@[simp] theorem bound_append (f g : Flow M) : (f ++ g).bound = f.bound ++ g.bound := rfl
@[simp] theorem closed_append (f g : Flow M) : (f ++ g).closed = f.closed ++ g.closed := rfl

@[simp] theorem nil_append (f : Flow M) : ({} : Flow M) ++ f = f := rfl

@[simp] theorem append_nil (f : Flow M) : f ++ ({} : Flow M) = f := by
  simp [append_eq]

theorem append_assoc (f g h : Flow M) : f ++ g ++ h = f ++ (g ++ h) := by
  simp [append_eq]

end Flow

/-- The messages of a payload. -/
def MailboxPayload.messages (payload : MailboxPayload M) : List M :=
  payload.queue.map Envelope.message ++ (payload.latest.map Envelope.message).toList

namespace MailboxEdge

/-- The messages a section posted. -/
def posted (e : MailboxEdge M) : List (Posted M) :=
  match e.input, e.output.result with
  | .submit body, .submitted _ => [e.before.post body]
  | .trySend body, .sent _ => [e.before.post body]
  | _, _ => []

/-- The message a section parked, with the operation that owns it. -/
def parked (e : MailboxEdge M) : List (OperationRef × Posted M) :=
  match e.input, e.output.result with
  | .submit body, .submitted (.parked reference) => [(reference, e.before.post body)]
  | _, _ => []

/-- The message a receive returned. -/
def received (e : MailboxEdge M) : List (Posted M) :=
  match e.input, e.output.result with
  | .receive _ _, .received message => message.toList
  | _, _ => []

/-- The messages a close or a termination carries off unread. -/
def unread (e : MailboxEdge M) : List (Posted M) :=
  match e.input, e.output.result with
  | .close _, .closed (some close) => close.disposal.messages
  | .prepareTermination, .prepared (some payload) => payload.messages
  | _, _ => []

/-- The message a section handed back to its sender. -/
def returned (e : MailboxEdge M) : List (Posted M) :=
  match e.input, e.output.result with
  | .submit _, .submitted (.terminated message _) => [message]
  | .trySend _, .sent (.error error) => [error.message]
  | .poll _ _ _, .polled (some (.terminated message _)) => [message]
  | .withdraw _ _, .withdrawn withdrawal =>
    match withdrawal.outcome with
    | some (.withdrawn message _) | some (.terminated message _) => [message]
    | _ => []
  | _, _ => []

/-- The operation whose outcome a section took back for its owner. -/
def taken (e : MailboxEdge M) : List OperationRef :=
  match e.input, e.output.result with
  | .poll reference _ _, .polled (some (.terminated _ _)) => [reference]
  | .withdraw reference _, .withdrawn _ => [reference]
  | _, _ => []

/-- The incarnation a section bound. -/
def bound (e : MailboxEdge M) : List Incarnation :=
  match e.input, e.output.result with
  | .bind _ incarnation, .done =>
    if e.before.cell.state.phase.isTerminal then [] else [incarnation]
  | _, _ => []

/-- The incarnation whose binding a section closed. -/
def closed (e : MailboxEdge M) : List Incarnation :=
  match e.input, e.output.result with
  | .close incarnation, .closed (some _) => [incarnation]
  | _, _ => []

/-- The flow of one section. -/
def flow (e : MailboxEdge M) : Flow M where
  posted := e.posted
  parked := e.parked
  accepted := e.output.effects.accepted
  displaced := e.output.effects.displaced.map Envelope.message
  received := e.received
  unread := e.unread
  returned := e.returned
  taken := e.taken
  bound := e.bound
  closed := e.closed

end MailboxEdge

/-- The flow of a trace. -/
def flows (tr : List (MailboxEdge M)) : Flow M where
  posted := tr.flatMap MailboxEdge.posted
  parked := tr.flatMap MailboxEdge.parked
  accepted := tr.flatMap fun e => e.output.effects.accepted
  displaced := tr.flatMap fun e => e.output.effects.displaced.map Envelope.message
  received := tr.flatMap MailboxEdge.received
  unread := tr.flatMap MailboxEdge.unread
  returned := tr.flatMap MailboxEdge.returned
  taken := tr.flatMap MailboxEdge.taken
  bound := tr.flatMap MailboxEdge.bound
  closed := tr.flatMap MailboxEdge.closed

@[simp] theorem flows_nil : flows ([] : List (MailboxEdge M)) = {} := rfl

theorem flows_cons (e : MailboxEdge M) (tr : List (MailboxEdge M)) :
    flows (e :: tr) = e.flow ++ flows tr := by
  simp [flows, MailboxEdge.flow, Flow.append_eq]

theorem flows_append (tr tr' : List (MailboxEdge M)) :
    flows (tr ++ tr') = flows tr ++ flows tr' := by
  simp [flows, Flow.append_eq]

/-! ### State changes of the moves -/

/-- The message an operation owns. -/
def SendOperation.held (operation : SendOperation M) : List M :=
  match operation.outcome with
  | .waiting message _ | .terminated message _ => [message]
  | .accepted _ | .retired => []

namespace MailboxState

/-- Stores an accepted message. -/
def push (state : MailboxState M) (kind : ResolvedMailbox) (envelope : Envelope M) :
    MailboxState M :=
  match kind with
  | .queue _ => { state with queue := state.queue ++ [envelope] }
  | .latest => { state with latest := some envelope }

/-- The message storing another one displaces. -/
def displacedBy (state : MailboxState M) : ResolvedMailbox → List (Envelope M)
  | .queue _ => []
  | .latest => state.latest.toList

/-- Whether a binding is at capacity. -/
def full (state : MailboxState M) : ResolvedMailbox → Bool
  | .queue capacity => capacity.get ≤ state.queue.length
  | .latest => false

end MailboxState

/-- The acceptance of a message by a bound mailbox. -/
def MailboxCell.acceptance (cell : MailboxCell M) (binding : Binding) (message : M) :
    Acceptance M :=
  ⟨⟨message, cell.accepted.current + 1⟩, binding.incarnation⟩

/-- Accepting a message mints its sequence and stores it. -/
def MailboxCell.push (cell : MailboxCell M) (binding : Binding) (message : M) : MailboxCell M :=
  { cell with
    accepted := ⟨cell.accepted.current + 1⟩
    state := cell.state.push binding.kind ⟨message, cell.accepted.current + 1⟩ }

/-- Parks a fresh operation that has seen the binding of the moment. -/
def MailboxCell.parkNew (cell : MailboxCell M) (message : M) : MailboxCell M :=
  { cell with
    state := { cell.state with
      waiters :=
        ⟨cell.state.waiters.entries.insert (cell.state.waiters.ids.current + 1)
          cell.operations.length, ⟨cell.state.waiters.ids.current + 1⟩⟩ }
    operations := cell.operations ++
      [.new message cell.state.phase.observation
        (some (cell.state.waiters.ids.current + 1))] }

namespace MailboxSystem

/-- Parks a fresh operation for a posted message. -/
def parkNew (s : MailboxSystem M) (body : M) : MailboxSystem M :=
  { s with posted := s.posted + 1, cell := s.cell.parkNew (s.post body) }

def setWaiters (s : MailboxSystem M) (waiters : WaiterQueue) : MailboxSystem M :=
  { s with cell.state.waiters := waiters }

/-- Accepts the message of a popped waiter. -/
def promoted (s : MailboxSystem M) (binding : Binding) (reference : OperationRef)
    (waiters : WaiterQueue) (message : Posted M) : MailboxSystem M :=
  let t := (s.setWaiters waiters).setOperation reference
    ⟨.accepted binding.incarnation, none, none⟩
  t.setCell (t.cell.push binding message)

/-- Binds an incarnation, before anybody is promoted. -/
def bindNew (s : MailboxSystem M) (binding : Binding) : MailboxSystem M :=
  s.setCell (MailboxCell.observeAll
    { s.cell with
      state := { s.cell.state with
        bindPermit := { s.cell.state.bindPermit with claimed := true }
        phase := .bound binding
        lastBound := some binding.incarnation } } binding.incarnation)

end MailboxSystem

namespace MailboxState

variable (state : MailboxState M) (kind : ResolvedMailbox) (envelope : Envelope M)

@[simp] theorem push_bindPermit : (state.push kind envelope).bindPermit = state.bindPermit := by
  cases kind <;> rfl

@[simp] theorem push_phase : (state.push kind envelope).phase = state.phase := by
  cases kind <;> rfl

@[simp] theorem push_lastBound : (state.push kind envelope).lastBound = state.lastBound := by
  cases kind <;> rfl

@[simp] theorem push_waiters : (state.push kind envelope).waiters = state.waiters := by
  cases kind <;> rfl

end MailboxState

namespace MailboxSystem

variable (s : MailboxSystem M) (binding : Binding) (reference : OperationRef)
  (waiters : WaiterQueue) (message : Posted M)

@[simp] theorem promoted_operations :
    (s.promoted binding reference waiters message).cell.operations =
      s.cell.operations.set reference ⟨.accepted binding.incarnation, none, none⟩ := rfl

@[simp] theorem promoted_waiters :
    (s.promoted binding reference waiters message).cell.state.waiters = waiters :=
  MailboxState.push_waiters _ _ _

@[simp] theorem promoted_phase :
    (s.promoted binding reference waiters message).cell.state.phase = s.cell.state.phase :=
  MailboxState.push_phase _ _ _

@[simp] theorem promoted_lastBound :
    (s.promoted binding reference waiters message).cell.state.lastBound =
      s.cell.state.lastBound :=
  MailboxState.push_lastBound _ _ _

@[simp] theorem promoted_bindPermit :
    (s.promoted binding reference waiters message).cell.state.bindPermit =
      s.cell.state.bindPermit :=
  MailboxState.push_bindPermit _ _ _

end MailboxSystem

/-- The elementary moves of a mailbox, with what changes hands in each. -/
inductive Moves : MailboxSystem M → Flow M → MailboxSystem M → Prop
  /-- A message is posted and handed back at once. -/
  | refuse (s : MailboxSystem M) (body : M) :
      Moves s { posted := [s.post body], returned := [s.post body] }
        { s with posted := s.posted + 1 }
  /-- A message is posted and parked. -/
  | park (s : MailboxSystem M) (body : M) (live : s.cell.state.phase.isTerminal = false) :
      Moves s { posted := [s.post body], parked := [(s.cell.operations.length, s.post body)] }
        (s.parkNew body)
  /-- A message is posted and accepted. -/
  | accept (s : MailboxSystem M) (body : M) (binding : Binding)
      (bound : s.cell.state.phase = .bound binding)
      (idle : s.cell.state.waiters.isEmpty = true)
      (room : s.cell.state.full binding.kind = false) :
      Moves s
        { posted := [s.post body]
          accepted := [s.cell.acceptance binding (s.post body)]
          displaced := (s.cell.state.displacedBy binding.kind).map Envelope.message }
        { s with posted := s.posted + 1, cell := s.cell.push binding (s.post body) }
  /-- The oldest parked sender is accepted. -/
  | promote (s : MailboxSystem M) (binding : Binding) (reference : OperationRef)
      (waiters : WaiterQueue) (operation : SendOperation (Posted M)) (message : Posted M)
      (newestObserved : Option Incarnation)
      (bound : s.cell.state.phase = .bound binding)
      (room : s.cell.state.full binding.kind = false)
      (pop : s.cell.state.waiters.popFront = some (reference, waiters))
      (get : s.cell.operations[reference]? = some operation)
      (waiting : operation.outcome = .waiting message newestObserved) :
      Moves s
        { accepted := [s.cell.acceptance binding message]
          displaced := (s.cell.state.displacedBy binding.kind).map Envelope.message }
        (s.promoted binding reference waiters message)
  /-- A popped entry whose operation no longer waits is dropped. -/
  | skip (s : MailboxSystem M) (binding : Binding) (reference : OperationRef)
      (waiters : WaiterQueue) (operation : SendOperation (Posted M))
      (bound : s.cell.state.phase = .bound binding)
      (pop : s.cell.state.waiters.popFront = some (reference, waiters))
      (get : s.cell.operations[reference]? = some operation)
      (settled : ∀ message observed, operation.outcome ≠ .waiting message observed) :
      Moves s {} ((s.setWaiters waiters).setOperation reference operation.clearRegistration)
  /-- A popped entry without an operation is dropped. -/
  | drop (s : MailboxSystem M) (binding : Binding) (reference : OperationRef)
      (waiters : WaiterQueue)
      (bound : s.cell.state.phase = .bound binding)
      (pop : s.cell.state.waiters.popFront = some (reference, waiters))
      (get : s.cell.operations[reference]? = none) :
      Moves s {} (s.setWaiters waiters)
  /-- A message is received. -/
  | take (s : MailboxSystem M) (binding : Binding) (mode : ReceiveMode)
      (envelope : Envelope (Posted M)) (state : MailboxState (Posted M))
      (phase : s.cell.state.phase = .bound binding ∨ s.cell.state.phase = .frozen binding)
      (taken : s.cell.state.takeNext binding.kind mode = (some envelope, state)) :
      Moves s { received := [envelope.message] } { s with cell.state := state }
  /-- A sender withdraws its operation. -/
  | retire (s : MailboxSystem M) (reference : OperationRef)
      (operation : SendOperation (Posted M)) (disposition : WithdrawalDisposition)
      (get : s.cell.operations[reference]? = some operation) :
      Moves s { returned := operation.held, taken := [reference] }
        (s.setCell (s.cell.withdraw reference operation disposition).2)
  /-- A sender's poll takes its terminated message back. -/
  | reclaim (s : MailboxSystem M) (reference : OperationRef)
      (operation : SendOperation (Posted M)) (message : Posted M)
      (finalIncarnation : Option Incarnation)
      (get : s.cell.operations[reference]? = some operation)
      (terminated : operation.outcome = .terminated message finalIncarnation) :
      Moves s { returned := [message], taken := [reference] }
        (s.setOperation reference { operation with outcome := .retired })
  /-- A sender's poll registers a waker. -/
  | rewake (s : MailboxSystem M) (reference : OperationRef)
      (operation : SendOperation (Posted M)) (waker : Option Waker)
      (get : s.cell.operations[reference]? = some operation) :
      Moves s {} (s.setOperation reference { operation with waker })
  | configure (s : MailboxSystem M) (mailbox : ResolvedMailbox)
      (unset : s.cell.state.kind = none) :
      Moves s {} { s with cell.state.kind := some mailbox }
  | bind (s : MailboxSystem M) (binding : Binding)
      (unbound : s.cell.state.phase = .unbound)
      (configured : s.cell.state.kind = some binding.kind)
      (unclaimed : s.cell.state.bindPermit.claimed = false) :
      Moves s { bound := [binding.incarnation] } (s.bindNew binding)
  | freeze (s : MailboxSystem M) (binding : Binding)
      (bound : s.cell.state.phase = .bound binding) :
      Moves s {} { s with cell.state.phase := .frozen binding }
  | close (s : MailboxSystem M) (incarnation : Incarnation)
      (bound : s.cell.state.phase.observation = some incarnation) :
      Moves s { unread := s.cell.takePayload.1.messages, closed := [incarnation] }
        (s.setCell (s.cell.close incarnation).2.cell)
  | terminate (s : MailboxSystem M) (live : s.cell.state.phase.isTerminal = false) :
      Moves s { unread := s.cell.takePayload.1.messages }
        { s with
          cell := s.cell.prepareTermination.2
          teardown := some ⟨s.cell.state.waiters, s.cell.state.lastBound⟩ }
  /-- The teardown pops a waiter and clears its registration. -/
  | clear (s : MailboxSystem M) (termination : Termination) (reference : OperationRef)
      (waiters : WaiterQueue)
      (teardown : s.teardown = some termination) (free : s.discharging = none)
      (pop : termination.waiters.popFront = some (reference, waiters)) :
      Moves s {}
        { s with
          cell.operations := s.cell.operations.modify reference SendOperation.clearRegistration
          teardown := some { termination with waiters }
          discharging := some reference }
  /-- The teardown decides the popped waiter. -/
  | discharge (s : MailboxSystem M) (termination : Termination) (reference : OperationRef)
      (operation : SendOperation (Posted M))
      (teardown : s.teardown = some termination) (popped : s.discharging = some reference)
      (get : s.cell.operations[reference]? = some operation) :
      Moves s {}
        { s.setOperation reference (operation.terminate termination.finalIncarnation).1 with
          discharging := none }

/-- A chain of moves. -/
inductive Moved (s : MailboxSystem M) : Flow M → MailboxSystem M → Prop
  | refl : Moved s {} s
  | tail {f g : Flow M} {t u : MailboxSystem M} : Moved s f t → Moves t g u → Moved s (f ++ g) u

namespace Moved

variable {s t u : MailboxSystem M} {f g : Flow M}

theorem single (h : Moves s f t) : Moved s f t := by
  have := Moved.tail .refl h
  rwa [Flow.nil_append] at this

theorem trans (h₁ : Moved s f t) (h₂ : Moved t g u) : Moved s (f ++ g) u := by
  induction h₂ with
  | refl => rwa [Flow.append_nil]
  | tail _ hmove ih =>
    rw [← Flow.append_assoc]
    exact .tail ih hmove

end Moved

/-! ### Sections as chains of moves -/

/-- What an effect list contributes to a flow. -/
def MailboxEffects.flow (effects : MailboxEffects (Posted M)) : Flow M where
  accepted := effects.accepted
  displaced := effects.displaced.map Envelope.message

/-- A bound mailbox that is idle and has room accepts a message at once. -/
structure MailboxCell.Accepts (cell : MailboxCell M) (binding : Binding) (message : M)
    (txn : MailboxTxn M) : Prop where
  bound : cell.state.phase = .bound binding
  idle : cell.state.waiters.isEmpty = true
  room : cell.state.full binding.kind = false
  pushed : txn.cell = cell.push binding message
  accepted : txn.effects.accepted = [cell.acceptance binding message]
  displaced : txn.effects.displaced = cell.state.displacedBy binding.kind

theorem OrdMap.isEmpty_iff {K V : Type*} [LinearOrder K] {m : OrdMap K V} :
    m.isEmpty = true ↔ m.entries = [] := by
  simp [OrdMap.isEmpty]

namespace MailboxTxn

variable {t t' : MailboxTxn M} {binding : Binding} {message : M}

theorem pushAccepted_ok (h : t.pushAccepted binding message = .ok t') :
    t'.cell = t.cell.push binding message ∧
      t'.effects.accepted = t.effects.accepted ++ [t.cell.acceptance binding message] ∧
      t'.effects.displaced = t.effects.displaced ++ t.cell.state.displacedBy binding.kind := by
  unfold pushAccepted at h
  cases hmint : t.cell.accepted.mint with
  | error fault => simp [hmint] at h
  | ok minted =>
    obtain ⟨sequence, accepted⟩ := minted
    obtain ⟨rfl, rfl, -⟩ := MonotonicCounter.mint_eq_ok_iff.mp hmint
    cases hkind : binding.kind with
    | queue | latest =>
      simp only [hmint, hkind] at h
      cases h
      simp [MailboxCell.push, MailboxCell.acceptance, MailboxState.push,
        MailboxState.displacedBy, hkind]

theorem atCapacity_eq : t.atCapacity binding = t.cell.state.full binding.kind := by
  cases hkind : binding.kind <;> simp [atCapacity, MailboxState.full, hkind]

/-- Accepting at once needs an idle mailbox with room. -/
theorem acceptLocked_ok {cell : MailboxCell M} {result : Except M Incarnation}
    (hbound : cell.state.phase = .bound binding)
    (h : cell.begin.acceptLocked binding message = .ok (result, t')) :
    (result = .error message ∧ t' = cell.begin ∧
        (cell.state.waiters.isEmpty = false ∨ cell.state.full binding.kind = true)) ∨
      (result = .ok binding.incarnation ∧ cell.Accepts binding message t') := by
  unfold acceptLocked at h
  rw [atCapacity_eq, MailboxCell.begin] at h
  split_ifs at h with hidle hfull
  · cases h
    exact .inl ⟨rfl, rfl, .inl (by simpa using hidle)⟩
  · cases h
    exact .inl ⟨rfl, rfl, .inr hfull⟩
  · cases hpush : MailboxTxn.pushAccepted ⟨cell, .none⟩ binding message with
    | error fault => simp [hpush] at h
    | ok pushed =>
      simp only [hpush] at h
      cases h
      obtain ⟨hcell, haccepted, hdisplaced⟩ := pushAccepted_ok hpush
      exact .inr ⟨rfl, hbound, by simpa using hidle, by simpa using hfull, hcell, haccepted,
        hdisplaced⟩

/-- Parking registers a fresh operation under a fresh id. -/
theorem park_ok {submission : Submission M}
    (h : t.park message t.cell.state.phase.observation = .ok (submission, t')) :
    submission = .parked t.cell.operations.length ∧ t'.effects = t.effects ∧
      t'.cell = t.cell.parkNew message := by
  unfold park at h
  cases hmint : t.cell.state.waiters.ids.mint with
  | error fault => simp [hmint] at h
  | ok minted =>
    obtain ⟨registration, ids⟩ := minted
    obtain ⟨rfl, rfl, -⟩ := MonotonicCounter.mint_eq_ok_iff.mp hmint
    simp only [hmint] at h
    cases h
    exact ⟨rfl, rfl, rfl⟩

end MailboxTxn

namespace SendOperation

variable {operation : SendOperation M}

/-- Observing changes waiting operations only. -/
theorem observe_of_settled {incarnation : Incarnation}
    (h : ∀ message observed, operation.outcome ≠ .waiting message observed) :
    operation.observe incarnation = operation := by
  unfold observe
  cases houtcome : operation.outcome <;> simp_all

/-- Accepting changes waiting operations only. -/
theorem accept_of_settled {incarnation : Incarnation}
    (h : ∀ message observed, operation.outcome ≠ .waiting message observed) :
    operation.accept incarnation = (none, operation, []) := by
  unfold accept
  cases houtcome : operation.outcome <;> simp_all

end SendOperation

/-- Popping takes the head of the entry list. -/
theorem WaiterQueue.popFront_eq_some {waiters rest : WaiterQueue} {reference : OperationRef}
    (h : waiters.popFront = some (reference, rest)) :
    ∃ id, waiters.entries.entries = (id, reference) :: rest.entries.entries ∧
      rest.ids = waiters.ids := by
  unfold popFront at h
  cases hentries : waiters.entries.entries with
  | nil => simp [hentries] at h
  | cons entry tail =>
    simp only [hentries, List.head?_cons] at h
    cases h
    have hsorted := waiters.entries.sorted
    rw [hentries] at hsorted
    refine ⟨entry.1, ?_, rfl⟩
    -- every later key is greater, so erasing the head keeps the tail
    have htail : tail.filter (fun e => !decide (e.1 = entry.1)) = tail := by
      rw [List.filter_eq_self]
      intro e he
      have hlt : entry.1 < e.1 := (List.pairwise_cons.mp hsorted).1 e he
      simpa using Nat.ne_of_gt hlt
    simp [OrdMap.erase, hentries, htail]

theorem WaiterQueue.popFront_eq_none {waiters : WaiterQueue} :
    waiters.popFront = none ↔ waiters.isEmpty = true := by
  unfold popFront
  cases hentries : waiters.entries.entries with
  | nil | cons => simp [isEmpty, OrdMap.isEmpty, hentries]

theorem pushAccepted_fault {t : MailboxTxn M} {binding : Binding} {message : M} {fault : Fault}
    (h : t.pushAccepted binding message = .error fault) : fault = .exhausted := by
  unfold MailboxTxn.pushAccepted at h
  cases hmint : t.cell.accepted.mint with
  | error fault' =>
    simp only [hmint, Except.error.injEq] at h
    exact h ▸ MonotonicCounter.mint_error hmint
  | ok minted => cases hkind : binding.kind <;> simp [hmint, hkind] at h

namespace MailboxTxn

variable {t t' t'' : MailboxTxn (Posted M)} {binding : Binding} {s : MailboxSystem M}

/-- A chain of moves takes one transaction to another, which adds its effects. -/
def Promotes (s : MailboxSystem M) (t t' : MailboxTxn (Posted M)) : Prop :=
  ∃ f, Moved (s.setCell t.cell) f (s.setCell t'.cell) ∧ t'.effects.flow = t.effects.flow ++ f

theorem Promotes.refl : Promotes s t t := ⟨{}, .refl, (Flow.append_nil _).symm⟩

theorem Promotes.trans (h₁ : Promotes s t t') (h₂ : Promotes s t' t'') : Promotes s t t'' := by
  obtain ⟨f₁, hmoved₁, hflow₁⟩ := h₁
  obtain ⟨f₂, hmoved₂, hflow₂⟩ := h₂
  exact ⟨f₁ ++ f₂, hmoved₁.trans hmoved₂, by rw [hflow₂, hflow₁, Flow.append_assoc]⟩

/-- One round of promotion is one move. -/
theorem promoteOne_moves {reference : OperationRef} {waiters : WaiterQueue}
    (s : MailboxSystem M) (hbound : t.cell.state.phase = .bound binding)
    (hroom : t.cell.state.full binding.kind = false)
    (hpop : t.cell.state.waiters.popFront = some (reference, waiters))
    (h : promoteOne { t with cell := { t.cell with state := { t.cell.state with waiters } } }
      binding reference = .ok t') :
    Promotes s t t' ∧ t'.cell.state.phase = t.cell.state.phase ∧
      t'.cell.state.waiters = waiters := by
  unfold promoteOne at h
  cases hget : t.cell.operations[reference]? with
  | none =>
    simp only [hget] at h
    cases h
    exact ⟨⟨{}, .single (.drop (s.setCell t.cell) binding reference waiters hbound hpop hget),
      (Flow.append_nil _).symm⟩, rfl, rfl⟩
  | some operation =>
    simp only [hget] at h
    by_cases hwaiting : ∃ message observed, operation.outcome = .waiting message observed
    · obtain ⟨message, newestObserved, houtcome⟩ := hwaiting
      simp only [SendOperation.clearRegistration, SendOperation.observe, houtcome,
        SendOperation.accept] at h
      obtain ⟨hcell, haccepted, hdisplaced⟩ := pushAccepted_ok h
      have hmove := Moves.promote (s.setCell t.cell) binding reference waiters operation
        message newestObserved hbound hroom hpop hget houtcome
      rw [Promotes, hcell]
      refine ⟨⟨_, .single hmove, ?_⟩, MailboxState.push_phase _ _ _,
        MailboxState.push_waiters _ _ _⟩
      simp only [MailboxEffects.flow, haccepted, hdisplaced, List.map_append]
      rfl
    · push Not at hwaiting
      have hsettled : ∀ message observed,
          operation.clearRegistration.outcome ≠ .waiting message observed := hwaiting
      rw [SendOperation.observe_of_settled hsettled, SendOperation.accept_of_settled hsettled]
        at h
      cases h
      exact ⟨⟨{}, .single (.skip (s.setCell t.cell) binding reference waiters operation
        hbound hpop hget hwaiting), (Flow.append_nil _).symm⟩, rfl, rfl⟩

/-- Promotion is a chain of moves that ends when the mailbox is full or nobody
is parked. -/
theorem promoteLoop_moved {rounds : ℕ} (s : MailboxSystem M)
    (hbound : t.cell.state.phase = .bound binding)
    (hrounds : t.cell.state.waiters.entries.size ≤ rounds)
    (h : promoteLoop binding rounds t = .ok t') :
    Promotes s t t' ∧ t'.cell.state.phase = .bound binding ∧
      (t'.cell.state.full binding.kind = true ∨ t'.cell.state.waiters.isEmpty = true) := by
  induction rounds generalizing t with
  | zero =>
    cases h
    refine ⟨.refl, hbound, .inr ?_⟩
    rw [WaiterQueue.isEmpty, OrdMap.isEmpty_iff]
    exact List.length_eq_zero_iff.mp (Nat.le_zero.mp hrounds)
  | succ rounds ih =>
    rw [promoteLoop, atCapacity_eq] at h
    split_ifs at h with hfull
    · cases h
      exact ⟨.refl, hbound, .inl hfull⟩
    · cases hpop : t.cell.state.waiters.popFront with
      | none =>
        simp only [hpop] at h
        cases h
        exact ⟨.refl, hbound, .inr (WaiterQueue.popFront_eq_none.mp hpop)⟩
      | some popped =>
        obtain ⟨reference, waiters⟩ := popped
        simp only [hpop] at h
        cases hone : promoteOne
            { t with cell := { t.cell with state := { t.cell.state with waiters } } }
            binding reference with
        | error fault => simp [hone] at h
        | ok t₁ =>
          simp only [hone] at h
          obtain ⟨hone, hphase, hwaiters⟩ :=
            promoteOne_moves s hbound (by simpa using hfull) hpop hone
          obtain ⟨id, hentries, -⟩ := WaiterQueue.popFront_eq_some hpop
          have hsize : t₁.cell.state.waiters.entries.size ≤ rounds := by
            have hlen := congrArg List.length hentries
            simp only [List.length_cons] at hlen
            simp only [OrdMap.size] at hrounds ⊢
            rw [hwaiters]
            omega
          obtain ⟨hrest, hend, hstop⟩ := ih (hphase.trans hbound) hsize h
          exact ⟨hone.trans hrest, hend, hstop⟩

/-- From the start of a transaction the effects are what the promotion did. -/
theorem promoteWaiters_moved {cell : MailboxCell (Posted M)} (s : MailboxSystem M)
    (hbound : cell.state.phase = .bound binding)
    (h : cell.begin.promoteWaiters binding = .ok t') :
    Moved (s.setCell cell) t'.effects.flow (s.setCell t'.cell) ∧
      t'.cell.state.phase = .bound binding ∧
      (t'.cell.state.full binding.kind = true ∨ t'.cell.state.waiters.isEmpty = true) := by
  obtain ⟨⟨f, hmoved, hflow⟩, hend⟩ := promoteLoop_moved s hbound le_rfl h
  rw [hflow]
  exact ⟨hmoved, hend⟩

end MailboxTxn

section Sections

variable {s t : MailboxSystem M} {o : MailboxOutput M}

/-- A section that unwinds changes nothing. -/
def Unwound (s : MailboxSystem M) (o : MailboxOutput M) (t : MailboxSystem M) : Prop :=
  t = s ∧ ∃ message, o = ⟨.panicked message, .none⟩

theorem unwound_of_faulted {fault : Fault} (h : s.faulted fault = some (t, o)) :
    Unwound s o t := by
  cases fault with
  | exhausted => simp [MailboxSystem.faulted] at h
  | panicked message =>
    cases h
    exact ⟨rfl, message, rfl⟩

/-- Unwinding hands nothing over. -/
theorem Unwound.flow_eq (h : Unwound s o t) (step : MailboxStep M) :
    MailboxEdge.flow ⟨s, step, o, t⟩ = {} := by
  obtain ⟨-, message, rfl⟩ := h
  cases step <;> rfl

theorem Unwound.moved (h : Unwound s o t) (step : MailboxStep M) :
    Moved s (MailboxEdge.flow ⟨s, step, o, t⟩) t := by
  rw [h.flow_eq, h.1]
  exact .refl

variable {cell : MailboxCell M}

/-- What `submit` does: it refuses when terminal, accepts when the bound mailbox
is idle and has room, and parks otherwise. -/
inductive MailboxCell.Submits (cell : MailboxCell M) (message : M) :
    Submission M → MailboxTxn M → Prop
  | refused (finalIncarnation : Option Incarnation)
      (terminal : cell.state.phase = .terminal finalIncarnation) :
      Submits cell message (.terminated message finalIncarnation) cell.begin
  | parked (live : cell.state.phase.isTerminal = false)
      (full : ∀ binding, cell.state.phase = .bound binding →
        cell.state.waiters.isEmpty = false ∨ cell.state.full binding.kind = true) :
      Submits cell message (.parked cell.operations.length) ⟨cell.parkNew message, .none⟩
  | accepted {binding : Binding} {txn : MailboxTxn M} (accepts : cell.Accepts binding message txn) :
      Submits cell message (.accepted binding.incarnation) txn

theorem MailboxCell.submit_ok {message : M} {submission : Submission M} {txn : MailboxTxn M}
    (h : cell.submit message = .ok (submission, txn)) : cell.Submits message submission txn := by
  have hpark : cell.begin.park message cell.state.phase.observation = .ok (submission, txn) →
      cell.state.phase.isTerminal = false →
      (∀ binding, cell.state.phase = .bound binding →
        cell.state.waiters.isEmpty = false ∨ cell.state.full binding.kind = true) →
      cell.Submits message submission txn := by
    intro hpark hlive hfull
    obtain ⟨rfl, heffects, hcell⟩ := MailboxTxn.park_ok (t := cell.begin) hpark
    obtain ⟨cell', effects⟩ := txn
    obtain rfl : cell' = _ := hcell
    obtain rfl : effects = _ := heffects
    exact .parked hlive hfull
  unfold submit at h
  cases hphase : cell.state.phase with
  | terminal finalIncarnation =>
    simp only [hphase] at h
    cases h
    exact .refused finalIncarnation hphase
  | unbound | frozen =>
    exact hpark (hphase ▸ h) (by rw [hphase]; rfl) (by simp [hphase])
  | bound binding =>
    simp only [hphase] at h
    cases haccept : cell.begin.acceptLocked binding message with
    | error fault => simp [haccept] at h
    | ok accepted =>
      obtain ⟨result, txn'⟩ := accepted
      obtain ⟨rfl, rfl, hfull⟩ | ⟨rfl, haccepts⟩ := MailboxTxn.acceptLocked_ok hphase haccept
      · simp only [haccept] at h
        refine hpark (hphase ▸ h) (by rw [hphase]; rfl) ?_
        intro binding' hbound
        obtain rfl := Phase.bound.inj (hphase.symm.trans hbound)
        exact hfull
      · simp only [haccept] at h
        cases h
        exact .accepted haccepts

/-- What `try_send` does: it refuses, or accepts as `submit` would. -/
inductive MailboxCell.TrySends (cell : MailboxCell M) (message : M) :
    Except (SendError M) Incarnation → MailboxTxn M → Prop
  | refused (observed : Option Incarnation) (kind : SendErrorKind)
      (why : kind = .terminated ∧ cell.state.phase = .terminal observed ∨
        kind = .notRunning ∧ observed = cell.state.phase.observation ∨
        kind = .full ∧ observed = cell.state.phase.observation) :
      TrySends cell message (.error ⟨cell.actorId, observed, message, kind⟩) cell.begin
  | accepted {binding : Binding} {txn : MailboxTxn M} (accepts : cell.Accepts binding message txn) :
      TrySends cell message (.ok binding.incarnation) txn

theorem MailboxCell.trySend_ok {message : M} {result : Except (SendError M) Incarnation}
    {txn : MailboxTxn M} (h : cell.trySend message = .ok (result, txn)) :
    cell.TrySends message result txn := by
  unfold trySend at h
  cases hphase : cell.state.phase with
  | terminal finalIncarnation =>
    simp only [hphase] at h
    cases h
    exact .refused _ _ (.inl ⟨rfl, hphase⟩)
  | unbound | frozen =>
    simp only [hphase] at h
    cases h
    exact .refused _ _ (.inr (.inl ⟨rfl, by rw [hphase]; rfl⟩))
  | bound binding =>
    simp only [hphase] at h
    cases haccept : cell.begin.acceptLocked binding message with
    | error fault => simp [haccept] at h
    | ok accepted =>
      obtain ⟨accepted, txn'⟩ := accepted
      obtain ⟨rfl, rfl, -⟩ | ⟨rfl, haccepts⟩ := MailboxTxn.acceptLocked_ok hphase haccept
      · simp only [haccept] at h
        cases h
        exact .refused _ _ (.inr (.inr ⟨rfl, by rw [hphase]; rfl⟩))
      · simp only [haccept] at h
        cases h
        exact .accepted haccepts

variable {body : M} {txn : MailboxTxn (Posted M)}

/-- Accepting at once is one move. -/
theorem MailboxCell.Accepts.moves {binding : Binding}
    (h : s.cell.Accepts binding (s.post body) txn) :
    Moves s { txn.effects.flow with posted := [s.post body] }
      { s with cell := txn.cell, posted := s.posted + 1 } := by
  rw [MailboxEffects.flow, h.pushed, h.accepted, h.displaced]
  exact .accept s body binding h.bound h.idle h.room

/-- A `submit` section unwinds or returns. -/
theorem submit_edge (h : IsMailboxEdge ⟨s, .submit body, o, t⟩) :
    Unwound s o t ∨ ∃ submission txn, s.cell.Submits (s.post body) submission txn ∧
      t = { s with cell := txn.cell, posted := s.posted + 1 } ∧
      o = ⟨.submitted submission, txn.effects⟩ := by
  simp only [stepEdge, MailboxStep.apply] at h
  cases hsubmit : s.cell.submit (s.post body) with
  | error fault =>
    simp only [hsubmit] at h
    exact .inl (unwound_of_faulted h)
  | ok submitted =>
    simp only [hsubmit, MailboxSystem.commit, Option.some.injEq, Prod.mk.injEq] at h
    exact .inr ⟨submitted.1, submitted.2, MailboxCell.submit_ok hsubmit, h.1.symm, h.2.symm⟩

/-- A `try_send` section unwinds or returns. -/
theorem trySend_edge (h : IsMailboxEdge ⟨s, .trySend body, o, t⟩) :
    Unwound s o t ∨ ∃ result txn, s.cell.TrySends (s.post body) result txn ∧
      t = { s with cell := txn.cell, posted := s.posted + 1 } ∧
      o = ⟨.sent result, txn.effects⟩ := by
  simp only [stepEdge, MailboxStep.apply] at h
  cases hsend : s.cell.trySend (s.post body) with
  | error fault =>
    simp only [hsend] at h
    exact .inl (unwound_of_faulted h)
  | ok sent =>
    simp only [hsend, MailboxSystem.commit, Option.some.injEq, Prod.mk.injEq] at h
    exact .inr ⟨sent.1, sent.2, MailboxCell.trySend_ok hsend, h.1.symm, h.2.symm⟩

theorem moved_submit (h : IsMailboxEdge ⟨s, .submit body, o, t⟩) :
    Moved s (MailboxEdge.flow ⟨s, .submit body, o, t⟩) t := by
  obtain hunwound | ⟨submission, txn, hsubmit, rfl, rfl⟩ := submit_edge h
  · exact hunwound.moved _
  · cases hsubmit with
    | refused => exact .single (.refuse s body)
    | parked live => exact .single (.park s body live)
    | accepted accepts => exact .single accepts.moves

theorem moved_trySend (h : IsMailboxEdge ⟨s, .trySend body, o, t⟩) :
    Moved s (MailboxEdge.flow ⟨s, .trySend body, o, t⟩) t := by
  obtain hunwound | ⟨result, txn, hsend, rfl, rfl⟩ := trySend_edge h
  · exact hunwound.moved _
  · cases hsend with
    | refused => exact .single (.refuse s body)
    | accepted accepts => exact .single accepts.moves

variable {reference : OperationRef}

/-- Setting an operation to itself changes nothing. -/
theorem MailboxSystem.setOperation_self {operation : SendOperation (Posted M)}
    (h : s.cell.operations[reference]? = some operation) :
    s.setOperation reference operation = s := by
  have hset : s.cell.operations.set reference operation = s.cell.operations := by
    obtain ⟨hlt, rfl⟩ := List.getElem?_eq_some_iff.mp h
    exact List.set_getElem_self hlt
  rw [MailboxSystem.setOperation, hset]

variable {replacement : Option Waker} {current : Waker}

/-- What one section of a poll does. -/
inductive SendOperation.Polls (operation : SendOperation M) :
    Option (OperationPoll M) → SendOperation M → Prop
  | registered (waker : Option Waker) : Polls operation (some .pending) { operation with waker }
  | undecided : Polls operation none operation
  | pending : Polls operation (some .pending) operation
  | needsWakerClone : Polls operation (some .needsWakerClone) operation
  | accepted {incarnation : Incarnation} (outcome : operation.outcome = .accepted incarnation) :
      Polls operation (some (.accepted incarnation)) operation
  | terminated {message : M} {finalIncarnation : Option Incarnation}
      (outcome : operation.outcome = .terminated message finalIncarnation) :
      Polls operation (some (.terminated message finalIncarnation))
        { operation with outcome := .retired }

theorem SendOperation.poll_ok {operation after : SendOperation M}
    {result : Option (OperationPoll M)} {wakers : List WakerEffect}
    (h : operation.poll replacement current = .ok (result, after, wakers)) :
    operation.Polls result after := by
  unfold poll at h
  split at h
  · cases h
    exact .registered _
  · split_ifs at h <;> cases h
    · exact .pending
    · exact .needsWakerClone
  · cases h
    exact .undecided
  · next houtcome =>
    cases h
    exact .accepted houtcome
  · next houtcome =>
    cases h
    exact .terminated houtcome
  · cases h

/-- A poll section unwinds or returns. -/
theorem poll_edge (h : IsMailboxEdge ⟨s, .poll reference replacement current, o, t⟩) :
    ∃ operation, s.cell.operations[reference]? = some operation ∧
      (Unwound s o t ∨ ∃ result after wakers, operation.Polls result after ∧
        t = s.setOperation reference after ∧
        o = ⟨.polled result, { MailboxEffects.none with wakers }⟩) := by
  simp only [stepEdge, MailboxStep.apply] at h
  cases hget : s.cell.operations[reference]? with
  | none => simp [hget] at h
  | some operation =>
    refine ⟨operation, rfl, ?_⟩
    simp only [hget] at h
    cases hpoll : operation.poll replacement current with
    | error fault =>
      simp only [hpoll] at h
      exact .inl (unwound_of_faulted h)
    | ok polled =>
      obtain ⟨result, after, wakers⟩ := polled
      simp only [hpoll, Option.some.injEq, Prod.mk.injEq] at h
      exact .inr ⟨result, after, wakers, SendOperation.poll_ok hpoll, h.1.symm, h.2.symm⟩

theorem moved_poll (h : IsMailboxEdge ⟨s, .poll reference replacement current, o, t⟩) :
    Moved s (MailboxEdge.flow ⟨s, .poll reference replacement current, o, t⟩) t := by
  obtain ⟨operation, hget, hunwound | ⟨result, after, wakers, hpoll, rfl, rfl⟩⟩ := poll_edge h
  · exact hunwound.moved _
  · cases hpoll with
    | registered waker => exact .single (.rewake s reference operation waker hget)
    | undecided | pending | needsWakerClone | accepted =>
      rw [MailboxSystem.setOperation_self hget]
      exact .refl
    | terminated outcome => exact .single (.reclaim s reference operation _ _ hget outcome)

variable {disposition : WithdrawalDisposition}

theorem withdraw_edge (h : IsMailboxEdge ⟨s, .withdraw reference disposition, o, t⟩) :
    ∃ operation, s.cell.operations[reference]? = some operation ∧
      t = s.setCell (s.cell.withdraw reference operation disposition).2 ∧
      o = ⟨.withdrawn (s.cell.withdraw reference operation disposition).1,
        { MailboxEffects.none with
          wakers := (s.cell.withdraw reference operation disposition).1.wakers }⟩ := by
  simp only [stepEdge, MailboxStep.apply] at h
  cases hget : s.cell.operations[reference]? with
  | none => simp [hget] at h
  | some operation =>
    simp only [hget, Option.some.injEq, Prod.mk.injEq] at h
    exact ⟨operation, rfl, h.1.symm, h.2.symm⟩

theorem moved_withdraw (h : IsMailboxEdge ⟨s, .withdraw reference disposition, o, t⟩) :
    Moved s (MailboxEdge.flow ⟨s, .withdraw reference disposition, o, t⟩) t := by
  obtain ⟨operation, hget, rfl, rfl⟩ := withdraw_edge h
  have hreturned : ∀ effects after, MailboxEdge.returned ⟨s, .withdraw reference disposition,
      ⟨.withdrawn (s.cell.withdraw reference operation disposition).1, effects⟩, after⟩ =
        operation.held := by
    intro effects after
    cases houtcome : operation.outcome <;>
      simp [MailboxEdge.returned, MailboxCell.withdraw, SendOperation.held, houtcome]
  have hmove := Moves.retire s reference operation disposition hget
  rw [← hreturned _ _] at hmove
  exact .single hmove

variable {incarnation : Incarnation} {mode : ReceiveMode}

/-- What a successful receive did. -/
theorem MailboxCell.receive_ok {message : Option M} {txn : MailboxTxn M}
    (h : cell.receive incarnation mode = .ok (message, txn)) :
    (message = none ∧ txn = cell.begin) ∨
      ∃ binding live envelope state,
        cell.receiveBinding incarnation mode = some (binding, live) ∧
        cell.state.takeNext binding.kind mode = (some envelope, state) ∧
        message = some envelope.message ∧
        (live = true ∧ (begin { cell with state }).promoteWaiters binding = .ok txn ∨
          live = false ∧ txn = begin { cell with state }) := by
  unfold receive at h
  cases hbinding : cell.receiveBinding incarnation mode with
  | none =>
    simp only [hbinding, Except.ok.injEq, Prod.mk.injEq] at h
    exact .inl ⟨h.1.symm, h.2.symm⟩
  | some found =>
    obtain ⟨binding, live⟩ := found
    simp only [hbinding] at h
    rcases htake : cell.state.takeNext binding.kind mode with ⟨_ | envelope, state⟩
    · simp only [htake, Except.ok.injEq, Prod.mk.injEq] at h
      exact .inl ⟨h.1.symm, h.2.symm⟩
    · simp only [htake] at h
      refine .inr ⟨binding, live, envelope, state, rfl, htake, ?_⟩
      cases live with
      | true =>
        cases hpromote : (begin { cell with state }).promoteWaiters binding with
        | error fault => simp [hpromote] at h
        | ok promoted =>
          simp only [hpromote] at h
          cases h
          exact ⟨rfl, .inl ⟨rfl, rfl⟩⟩
      | false =>
        cases h
        exact ⟨rfl, .inr ⟨rfl, rfl⟩⟩

/-- A receive reads from the binding of its own incarnation. -/
theorem MailboxCell.receiveBinding_eq_some {binding : Binding} {live : Bool}
    (h : cell.receiveBinding incarnation mode = some (binding, live)) :
    binding.incarnation = incarnation ∧
      (live = true ∧ cell.state.phase = .bound binding ∨
        live = false ∧ mode = .drain ∧ cell.state.phase = .frozen binding) := by
  unfold receiveBinding at h
  cases hphase : cell.state.phase with
  | unbound | terminal => simp [hphase] at h
  | bound current =>
    simp only [hphase, Option.ite_none_right_eq_some, Option.some.injEq, Prod.mk.injEq] at h
    obtain ⟨hincarnation, rfl, rfl⟩ := h
    exact ⟨hincarnation, .inl ⟨rfl, rfl⟩⟩
  | frozen current =>
    simp only [hphase, Option.ite_none_right_eq_some, Option.some.injEq, Prod.mk.injEq] at h
    obtain ⟨⟨hmode, hincarnation⟩, rfl, rfl⟩ := h
    exact ⟨hincarnation, .inr ⟨rfl, hmode, rfl⟩⟩

/-- Taking a message leaves the phase and the waiters alone. -/
theorem MailboxState.takeNext_frame {state rest : MailboxState M} {kind : ResolvedMailbox}
    {envelope : Option (Envelope M)} (h : state.takeNext kind mode = (envelope, rest)) :
    rest.phase = state.phase ∧ rest.waiters = state.waiters ∧ rest.kind = state.kind ∧
      rest.lastBound = state.lastBound ∧ rest.bindPermit = state.bindPermit := by
  unfold takeNext at h
  split at h <;> split at h <;> try split_ifs at h
  all_goals
    obtain ⟨-, rfl⟩ := Prod.mk.inj h
    exact ⟨rfl, rfl, rfl, rfl, rfl⟩

/-- A receive section unwinds or returns. -/
theorem receive_edge (h : IsMailboxEdge ⟨s, .receive incarnation mode, o, t⟩) :
    Unwound s o t ∨ ∃ message txn, s.cell.receive incarnation mode = .ok (message, txn) ∧
      t = s.setCell txn.cell ∧ o = ⟨.received message, txn.effects⟩ := by
  simp only [stepEdge, MailboxStep.apply] at h
  cases hreceive : s.cell.receive incarnation mode with
  | error fault =>
    simp only [hreceive] at h
    exact .inl (unwound_of_faulted h)
  | ok received =>
    simp only [hreceive, MailboxSystem.commit, Option.some.injEq, Prod.mk.injEq] at h
    exact .inr ⟨received.1, received.2, rfl, h.1.symm, h.2.symm⟩

/-- A receive that returns a message: the take move, then the parked senders it
promotes when the binding is live. -/
theorem receive_moved {binding : Binding} {live : Bool} {envelope : Envelope (Posted M)}
    {state : MailboxState (Posted M)}
    (hbinding : s.cell.receiveBinding incarnation mode = some (binding, live))
    (htake : s.cell.state.takeNext binding.kind mode = (some envelope, state))
    (htxn : live = true ∧
        (MailboxCell.begin { s.cell with state }).promoteWaiters binding = .ok txn ∨
      live = false ∧ txn = MailboxCell.begin { s.cell with state }) :
    Moves s { received := [envelope.message] } { s with cell.state := state } ∧
      Moved { s with cell.state := state } txn.effects.flow (s.setCell txn.cell) ∧
      txn.cell.state.phase = s.cell.state.phase ∧
      (live = true → txn.cell.state.full binding.kind = true ∨
        txn.cell.state.waiters.isEmpty = true) := by
  obtain ⟨-, hphase⟩ := MailboxCell.receiveBinding_eq_some hbinding
  have hframe := MailboxState.takeNext_frame htake
  have hmove := Moves.take s binding mode envelope state
    (hphase.imp (fun h => h.2) (fun h => h.2.2)) htake
  obtain ⟨rfl, hpromote⟩ | ⟨rfl, rfl⟩ := htxn
  · -- a live binding promotes into the slot it freed
    have hbound : s.cell.state.phase = .bound binding := by
      obtain ⟨-, hbound⟩ | ⟨hfalse, -⟩ := hphase
      · exact hbound
      · cases hfalse
    obtain ⟨hmoved, hend, hstop⟩ :=
      MailboxTxn.promoteWaiters_moved s (hframe.1.trans hbound) hpromote
    exact ⟨hmove, hmoved, hend.trans hbound.symm, fun _ => hstop⟩
  · exact ⟨hmove, .refl, hframe.1, by simp⟩

theorem moved_receive (h : IsMailboxEdge ⟨s, .receive incarnation mode, o, t⟩) :
    Moved s (MailboxEdge.flow ⟨s, .receive incarnation mode, o, t⟩) t := by
  obtain hunwound | ⟨message, txn, hreceive, rfl, rfl⟩ := receive_edge h
  · exact hunwound.moved _
  · obtain ⟨rfl, rfl⟩ | ⟨binding, live, envelope, state, hbinding, htake, rfl, htxn⟩ :=
      MailboxCell.receive_ok hreceive
    · exact .refl
    · obtain ⟨hmove, hmoved, -⟩ := receive_moved hbinding htake htxn
      exact (Moved.single hmove).trans hmoved

theorem moved_configure {mailbox : ResolvedMailbox}
    (h : IsMailboxEdge ⟨s, .configure mailbox, o, t⟩) :
    Moved s (MailboxEdge.flow ⟨s, .configure mailbox, o, t⟩) t := by
  simp only [stepEdge, MailboxStep.apply, MailboxCell.configure] at h
  cases hkind : s.cell.state.kind with
  | none =>
    simp only [hkind] at h
    cases h
    exact .single (.configure s mailbox hkind)
  | some existing =>
    simp only [hkind] at h
    split_ifs at h with hsame
    · cases h
      exact .refl
    · exact (unwound_of_faulted h).moved _

variable {token : MailboxBindToken}

/-- What a bind that returns did. -/
theorem MailboxCell.bind_ok {txn : MailboxTxn M} (h : cell.bind token incarnation = .ok txn) :
    (cell.state.phase.isTerminal = true ∧ txn = cell.begin) ∨
      ∃ kind t', cell.state.phase = .unbound ∧ cell.state.kind = some kind ∧
        token.permit = cell.state.bindPermit.id ∧ cell.state.bindPermit.claimed = false ∧
        (MailboxCell.observeAll
          { cell with
            state := { cell.state with
              bindPermit := { cell.state.bindPermit with claimed := true }
              phase := .bound ⟨incarnation, kind⟩
              lastBound := some incarnation } } incarnation).begin.promoteWaiters
          ⟨incarnation, kind⟩ = .ok t' ∧
        txn = { t' with
          effects := { t'.effects with pulse := true, isolateDisplaced := true } } := by
  unfold bind at h
  cases hphase : cell.state.phase with
  | terminal finalIncarnation =>
    simp only [hphase, Except.ok.injEq] at h
    exact .inl ⟨rfl, h.symm⟩
  | bound | frozen =>
    cases hkind : cell.state.kind <;> simp [hphase, hkind] at h
  | unbound =>
    cases hkind : cell.state.kind with
    | none => simp [hphase, hkind] at h
    | some kind =>
      simp only [hphase, hkind] at h
      split_ifs at h with hpermit
      split at h
      · cases h
      · rename_i t' hpromote
        rw [← hkind] at hpromote
        exact .inr ⟨kind, t', rfl, rfl, hpermit.1, hpermit.2, hpromote,
          (Except.ok.inj h).symm⟩

/-- A bind that takes effect: the bind move, then the parked senders it
promotes. -/
theorem bind_moved (h : s.cell.bind token incarnation = .ok txn)
    (hlive : s.cell.state.phase.isTerminal = false) :
    ∃ kind, Moves s { bound := [incarnation] } (s.bindNew ⟨incarnation, kind⟩) ∧
      Moved (s.bindNew ⟨incarnation, kind⟩) txn.effects.flow (s.setCell txn.cell) ∧
      s.cell.state.phase = .unbound ∧ token.permit = s.cell.state.bindPermit.id ∧
      s.cell.state.bindPermit.claimed = false ∧
      (s.setCell txn.cell).cell.state.phase = .bound ⟨incarnation, kind⟩ ∧
      (txn.cell.state.full kind = true ∨ txn.cell.state.waiters.isEmpty = true) := by
  obtain ⟨hterminal, -⟩ | ⟨kind, t', hphase, hkind, htoken, hclaimed, hpromote, rfl⟩ :=
    MailboxCell.bind_ok h
  · rw [hlive] at hterminal
    exact absurd hterminal (by decide)
  · obtain ⟨hmoved, hbound, hstop⟩ := MailboxTxn.promoteWaiters_moved s rfl hpromote
    exact ⟨kind, .bind s ⟨incarnation, kind⟩ hphase hkind hclaimed, hmoved, hphase, htoken,
      hclaimed, hbound, hstop⟩

/-- A bind section unwinds or returns. -/
theorem bind_edge (h : IsMailboxEdge ⟨s, .bind token incarnation, o, t⟩) :
    Unwound s o t ∨ ∃ txn, s.cell.bind token incarnation = .ok txn ∧
      t = s.setCell txn.cell ∧ o = ⟨.done, txn.effects⟩ := by
  simp only [stepEdge, MailboxStep.apply] at h
  cases hbind : s.cell.bind token incarnation with
  | error fault =>
    simp only [hbind] at h
    exact .inl (unwound_of_faulted h)
  | ok txn =>
    simp only [hbind, MailboxSystem.commit, Option.some.injEq, Prod.mk.injEq] at h
    exact .inr ⟨txn, rfl, h.1.symm, h.2.symm⟩

theorem MailboxEdge.flow_bind {effects : MailboxEffects (Posted M)} :
    MailboxEdge.flow ⟨s, .bind token incarnation, ⟨.done, effects⟩, t⟩ =
      { effects.flow with
        bound := if s.cell.state.phase.isTerminal then [] else [incarnation] } := rfl

theorem moved_bind (h : IsMailboxEdge ⟨s, .bind token incarnation, o, t⟩) :
    Moved s (MailboxEdge.flow ⟨s, .bind token incarnation, o, t⟩) t := by
  obtain hunwound | ⟨txn, hbind, rfl, rfl⟩ := bind_edge h
  · exact hunwound.moved _
  · cases hlive : s.cell.state.phase.isTerminal with
    | true =>
      -- a terminal mailbox ignores the bind
      obtain ⟨-, rfl⟩ | ⟨kind, t', hphase, -⟩ := MailboxCell.bind_ok hbind
      · rw [MailboxEdge.flow_bind, if_pos hlive]
        exact .refl
      · rw [hphase] at hlive
        cases hlive
    | false =>
      obtain ⟨kind, hmove, hmoved, -⟩ := bind_moved hbind hlive
      rw [MailboxEdge.flow_bind, if_neg (by simp [hlive])]
      exact (Moved.single hmove).trans hmoved

theorem moved_freeze (h : IsMailboxEdge ⟨s, .freeze incarnation, o, t⟩) :
    Moved s (MailboxEdge.flow ⟨s, .freeze incarnation, o, t⟩) t := by
  simp only [stepEdge, MailboxStep.apply, MailboxSystem.commit] at h
  cases h
  unfold MailboxCell.freeze
  split
  · rename_i binding hphase
    split_ifs
    · exact .single (.freeze s binding hphase)
    · exact .refl
  · exact .refl

theorem moved_close (h : IsMailboxEdge ⟨s, .close incarnation, o, t⟩) :
    Moved s (MailboxEdge.flow ⟨s, .close incarnation, o, t⟩) t := by
  simp only [stepEdge, MailboxStep.apply, MailboxSystem.commit] at h
  cases h
  by_cases hbound : s.cell.state.phase.observation = some incarnation
  · have hmove := Moves.close s incarnation hbound
    have hclose : (s.cell.close incarnation).1 =
        some ⟨⟨s.cell.state.bindPermit.id + 1⟩, s.cell.takePayload.1⟩ := by
      rw [MailboxCell.close, if_pos hbound]
    have heffects : (s.cell.close incarnation).2.effects =
        { MailboxEffects.none with pulse := true } := by
      rw [MailboxCell.close, if_pos hbound]
    rw [hclose, heffects]
    exact .single hmove
  · have hclose : s.cell.close incarnation = (none, s.cell.begin) := if_neg hbound
    rw [hclose]
    exact .refl

theorem moved_prepareTermination (h : IsMailboxEdge ⟨s, .prepareTermination, o, t⟩) :
    Moved s (MailboxEdge.flow ⟨s, .prepareTermination, o, t⟩) t := by
  simp only [stepEdge, MailboxStep.apply] at h
  cases hlive : s.cell.state.phase.isTerminal with
  | true =>
    have hprepare : s.cell.prepareTermination = (none, s.cell) := if_pos hlive
    simp only [hprepare] at h
    cases h
    exact .refl
  | false =>
    have hprepare : s.cell.prepareTermination.1 =
        some ⟨s.cell.takePayload.1, ⟨s.cell.state.waiters, s.cell.state.lastBound⟩⟩ := by
      rw [MailboxCell.prepareTermination, if_neg (by simp [hlive])]
    have hmove := Moves.terminate s hlive
    rcases hpair : s.cell.prepareTermination with ⟨prepared, cell⟩
    rw [hpair] at hprepare hmove
    subst hprepare
    simp only [hpair] at h
    cases h
    exact .single hmove

theorem moved_clearRegistration (h : IsMailboxEdge ⟨s, .clearRegistration, o, t⟩) :
    Moved s (MailboxEdge.flow ⟨s, .clearRegistration, o, t⟩) t := by
  simp only [stepEdge, MailboxStep.apply] at h
  split at h
  · rename_i termination hteardown hfree
    split at h
    · rename_i reference waiters hpop
      cases h
      exact .single (.clear s termination reference waiters hteardown hfree hpop)
    · cases h
  · cases h

theorem moved_terminate (h : IsMailboxEdge ⟨s, .terminate, o, t⟩) :
    Moved s (MailboxEdge.flow ⟨s, .terminate, o, t⟩) t := by
  simp only [stepEdge, MailboxStep.apply] at h
  split at h
  · rename_i termination reference hteardown hpopped
    split at h
    · rename_i operation hget
      cases h
      exact .single (.discharge s termination reference operation hteardown hpopped hget)
    · cases h
  · cases h

end Sections

/-- **Every section is a chain of moves** whose flow is what the section's
callers see. -/
theorem moved_of_edge {e : MailboxEdge M} (h : IsMailboxEdge e) :
    Moved e.before e.flow e.after := by
  obtain ⟨s, step, o, t⟩ := e
  cases step with
  | submit body => exact moved_submit h
  | trySend body => exact moved_trySend h
  | poll reference replacement current => exact moved_poll h
  | withdraw reference disposition => exact moved_withdraw h
  | receive incarnation mode => exact moved_receive h
  | acceptedSequence | currentObservation =>
    simp only [stepEdge, MailboxStep.apply] at h
    cases h
    exact .refl
  | configure mailbox => exact moved_configure h
  | bind token incarnation => exact moved_bind h
  | freeze incarnation => exact moved_freeze h
  | close incarnation => exact moved_close h
  | prepareTermination => exact moved_prepareTermination h
  | clearRegistration => exact moved_clearRegistration h
  | terminate => exact moved_terminate h

/-- **Every run is a chain of moves.** -/
theorem moved_of_run {s t : MailboxSystem M} {tr : List (MailboxEdge M)}
    (h : Run IsMailboxEdge s tr t) : Moved s (flows tr) t := by
  induction h with
  | nil s => exact .refl
  | cons he _ ih =>
    exact (moved_of_edge he).trans ih

end Shelterwood
