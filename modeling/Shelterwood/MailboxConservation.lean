/-
Shelterwood/MailboxConservation.lean

No message is lost and none is duplicated.

Two balances hold across every move.  What the operations own, plus what was
accepted and handed back, is what they owned before plus what was posted
(`Moves.held_balance`).  What the mailbox stores, plus what left it by a
receive, a displacement or a payload, is what it stored before plus what was
accepted (`Moves.stored_balance`).  Submission numbers make the posted messages
distinct, so adding the balances up along a run puts every message in exactly
one place.
-/
import Shelterwood.MailboxOperations
import Mathlib.Data.List.Nodup
import Mathlib.Data.List.Perm.Basic

namespace Shelterwood

variable {M : Type*}

/-! ### Balances of one move -/

/-- Replacing one member of a list under `flatMap`. -/
theorem perm_flatMap_set {α β : Type*} {f : α → List β} {l : List α} {i : ℕ} {x y : α}
    (h : l[i]? = some x) : ((l.set i y).flatMap f ++ f x).Perm (l.flatMap f ++ f y) := by
  classical
  induction l generalizing i with
  | nil => simp at h
  | cons a rest ih =>
    rw [List.perm_iff_count]
    intro b
    cases i with
    | zero =>
      obtain rfl : a = x := by simpa using h
      simp only [List.set_cons_zero, List.flatMap_cons, List.count_append]
      omega
    | succ i =>
      have hrest := (ih (by simpa using h)).count_eq b
      simp only [List.set_cons_succ, List.flatMap_cons, List.count_append] at hrest ⊢
      omega

/-- Modifying a member without changing its image. -/
theorem map_modify_of_eq {α β : Type*} {f : α → β} {g : α → α} (hfg : ∀ x, f (g x) = f x)
    (l : List α) (i : ℕ) : (l.modify i g).map f = l.map f := by
  apply List.ext_getElem?
  intro j
  rw [List.getElem?_map, List.getElem?_map, List.getElem?_modify]
  cases l[j]? with
  | none => rfl
  | some x =>
    show some (f (if i = j then g x else x)) = some (f x)
    split_ifs
    · rw [hfg]
    · rfl

namespace MailboxSystem

/-- The messages the send operations own. -/
def held (s : MailboxSystem M) : List (Posted M) := s.cell.operations.flatMap SendOperation.held

/-- The messages the mailbox stores. -/
def stored (s : MailboxSystem M) : List (Posted M) :=
  s.cell.state.queue.map Envelope.message ++ (s.cell.state.latest.map Envelope.message).toList

end MailboxSystem

/-- The messages accepted in a stretch of a run. -/
def Flow.acceptedMessages (f : Flow M) : List (Posted M) :=
  f.accepted.map fun a => a.envelope.message

@[simp] theorem Flow.acceptedMessages_append (f g : Flow M) :
    (f ++ g).acceptedMessages = f.acceptedMessages ++ g.acceptedMessages := List.map_append

theorem SendOperation.observe_held (incarnation : Incarnation) (operation : SendOperation M) :
    (operation.observe incarnation).held = operation.held := by
  cases houtcome : operation.outcome <;> simp [observe, held, houtcome]

theorem SendOperation.terminate_held (finalIncarnation : Option Incarnation)
    (operation : SendOperation M) :
    (operation.terminate finalIncarnation).1.held = operation.held := by
  cases houtcome : operation.outcome <;> simp [terminate, held, houtcome]

/-- Observing changes nobody's message. -/
theorem MailboxCell.observeAll_held (cell : MailboxCell M) (incarnation : Incarnation) :
    (cell.observeAll incarnation).operations.map SendOperation.held =
      cell.operations.map SendOperation.held := by
  unfold observeAll
  generalize cell.state.waiters.entries.entries = entries
  generalize cell.operations = operations
  induction entries generalizing operations with
  | nil => rfl
  | cons e rest ih =>
    rw [List.foldl_cons, ih]
    exact map_modify_of_eq (SendOperation.observe_held incarnation) operations e.2

section Balances

variable {s t : MailboxSystem M} {f : Flow M}

theorem held_eq_of_map {l l' : List (SendOperation (Posted M))}
    (h : l.map SendOperation.held = l'.map SendOperation.held) :
    l.flatMap SendOperation.held = l'.flatMap SendOperation.held := by
  rw [List.flatMap_def, List.flatMap_def, h]

/-- An operation replaced by one that owns nothing gives its message up. -/
theorem held_set_nil {reference : OperationRef} {operation after : SendOperation (Posted M)}
    (hget : s.cell.operations[reference]? = some operation)
    (ht : t.cell.operations = s.cell.operations.set reference after) (hafter : after.held = []) :
    (t.held ++ operation.held).Perm s.held := by
  have hperm := perm_flatMap_set (f := SendOperation.held) (y := after) hget
  rw [hafter, List.append_nil] at hperm
  rw [MailboxSystem.held, ht]
  exact hperm

/-- An operation replaced by one that owns the same message. -/
theorem held_set_same {reference : OperationRef} {operation after : SendOperation (Posted M)}
    (hget : s.cell.operations[reference]? = some operation)
    (ht : t.cell.operations = s.cell.operations.set reference after)
    (hafter : after.held = operation.held) : t.held.Perm s.held := by
  have hperm := perm_flatMap_set (f := SendOperation.held) (y := after) hget
  rw [hafter] at hperm
  rw [MailboxSystem.held, ht]
  exact (List.perm_append_right_iff _).mp hperm

/-- **What the operations own** changes by what is posted, accepted and handed
back. -/
theorem Moves.held_balance (h : Moves s f t) :
    (t.held ++ f.acceptedMessages ++ f.returned).Perm (s.held ++ f.posted) := by
  cases h with
  | refuse | take | configure | freeze => simp [MailboxSystem.held, Flow.acceptedMessages]
  | park body live =>
    have hheld : (s.parkNew body).held = s.held ++ [s.post body] := by
      show (s.cell.operations ++ [_]).flatMap SendOperation.held = _
      rw [List.flatMap_append]
      rfl
    simp [hheld, Flow.acceptedMessages]
  | accept body binding bound idle room =>
    show (s.held ++ [s.post body] ++ []).Perm _
    simp
  | promote binding reference waiters operation message observed bound room pop get waiting =>
    have hperm := held_set_nil (t := s.promoted binding reference waiters message) get rfl rfl
    have hheld : operation.held = [message] := by simp [SendOperation.held, waiting]
    rw [hheld] at hperm
    simpa [Flow.acceptedMessages, MailboxCell.acceptance] using hperm
  | skip binding reference waiters operation bound pop get settled =>
    simpa [Flow.acceptedMessages] using held_set_same
      (t := (s.setWaiters waiters).setOperation reference operation.clearRegistration) get rfl rfl
  | drop => simp [MailboxSystem.held, Flow.acceptedMessages, MailboxSystem.setWaiters]
  | retire reference operation disposition get =>
    simpa [Flow.acceptedMessages] using held_set_nil
      (t := s.setCell (s.cell.withdraw reference operation disposition).2) get rfl rfl
  | reclaim reference operation message finalIncarnation get terminated =>
    have hperm := held_set_nil
      (t := s.setOperation reference { operation with outcome := .retired }) get rfl rfl
    have hheld : operation.held = [message] := by simp [SendOperation.held, terminated]
    rw [hheld] at hperm
    simpa [Flow.acceptedMessages] using hperm
  | rewake reference operation waker get =>
    simpa [Flow.acceptedMessages] using held_set_same
      (t := s.setOperation reference { operation with waker }) get rfl rfl
  | bind binding unbound configured unclaimed =>
    have hheld : (s.bindNew binding).held = s.held :=
      held_eq_of_map (MailboxCell.observeAll_held _ binding.incarnation)
    simp [hheld, Flow.acceptedMessages]
  | close incarnation bound =>
    simp [MailboxSystem.held, Flow.acceptedMessages, MailboxSystem.setCell,
      MailboxCell.close_operations]
  | terminate live =>
    simp [MailboxSystem.held, Flow.acceptedMessages, MailboxCell.prepareTermination_operations]
  | clear termination reference waiters teardown free pop =>
    have hheld := held_eq_of_map (map_modify_of_eq (f := SendOperation.held)
      (g := SendOperation.clearRegistration) (fun _ => rfl) s.cell.operations reference)
    simp [MailboxSystem.held, Flow.acceptedMessages, hheld]
  | discharge termination reference operation teardown popped get =>
    simpa [Flow.acceptedMessages] using held_set_same
      (t := { s.setOperation reference (operation.terminate termination.finalIncarnation).1 with
        discharging := none }) get rfl (SendOperation.terminate_held _ operation)

/-- Storing a message displaces what the displaced list says. -/
theorem stored_push (s : MailboxSystem M) (binding : Binding) (message : Posted M) :
    ((s.setCell (s.cell.push binding message)).stored ++
        (s.cell.state.displacedBy binding.kind).map Envelope.message).Perm
      (s.stored ++ [message]) := by
  classical
  rw [List.perm_iff_count]
  intro a
  cases hkind : binding.kind <;> cases hlatest : s.cell.state.latest <;>
    simp [MailboxSystem.stored, MailboxSystem.setCell, MailboxCell.push, MailboxState.push,
      MailboxState.displacedBy, hkind, hlatest, List.count_cons] <;> omega

/-- **What the mailbox stores** changes by what is accepted, displaced, received
and carried off. -/
theorem Moves.stored_balance (h : Moves s f t) :
    (t.stored ++ f.received ++ f.displaced ++ f.unread).Perm (s.stored ++ f.acceptedMessages) := by
  cases h with
  | accept body binding bound idle room =>
    have hpush := stored_push s binding (s.post body)
    simpa [Flow.acceptedMessages, MailboxCell.acceptance, MailboxSystem.stored,
      MailboxSystem.setCell] using hpush
  | promote binding reference waiters operation message observed bound room pop get waiting =>
    have hpush := stored_push ((s.setWaiters waiters).setOperation reference
      ⟨.accepted binding.incarnation, none, none⟩) binding message
    rw [List.append_nil, List.append_nil]
    exact hpush
  | take binding mode envelope state phase taken =>
    have htaken : (MailboxSystem.stored { s with cell.state := state } ++
        [envelope.message]).Perm s.stored := by
      classical
      rw [List.perm_iff_count]
      intro a
      unfold MailboxState.takeNext at taken
      split at taken <;> split at taken
      · split_ifs at taken
        · obtain ⟨hitem, rfl⟩ := Prod.mk.inj taken
          cases hitem
          rename_i hqueue _
          simp only [MailboxSystem.stored, hqueue, List.map_cons, List.cons_append,
            List.count_append, List.count_cons, List.count_nil]
          omega
        · cases taken
      · cases taken
      · split_ifs at taken
        · obtain ⟨hitem, rfl⟩ := Prod.mk.inj taken
          cases hitem
          rename_i hlatest _
          simp [MailboxSystem.stored, hlatest, List.count_append]
        · cases taken
      · cases taken
    simpa [Flow.acceptedMessages] using htaken
  | close incarnation bound =>
    have hclosed : (s.setCell (s.cell.close incarnation).2.cell).stored = [] := by
      rw [MailboxCell.close, if_pos bound]
      rfl
    rw [hclosed]
    simp [Flow.acceptedMessages, MailboxSystem.stored, MailboxCell.takePayload,
      MailboxPayload.messages]
  | terminate live =>
    have hclosed : MailboxSystem.stored { s with
        cell := s.cell.prepareTermination.2
        teardown := some ⟨s.cell.state.waiters, s.cell.state.lastBound⟩ } = [] := by
      rw [MailboxCell.prepareTermination, if_neg (by simp [live])]
      rfl
    rw [hclosed]
    simp [Flow.acceptedMessages, MailboxSystem.stored, MailboxCell.takePayload,
      MailboxPayload.messages]
  | park body live => simp [MailboxSystem.stored, Flow.acceptedMessages, MailboxSystem.parkNew,
      MailboxCell.parkNew]
  | bind => simp [MailboxSystem.stored, Flow.acceptedMessages, MailboxSystem.bindNew,
      MailboxCell.observeAll, MailboxSystem.setCell]
  | retire => simp [MailboxSystem.stored, Flow.acceptedMessages, MailboxSystem.setCell,
      MailboxCell.withdraw]
  | refuse | skip | drop | reclaim | rewake | configure | freeze | clear | discharge =>
    simp [MailboxSystem.stored, Flow.acceptedMessages, MailboxSystem.setWaiters,
      MailboxSystem.setOperation]

/-- Submissions are numbered in order. -/
theorem Moves.posted_cases (h : Moves s f t) :
    (f.posted = [] ∧ t.posted = s.posted) ∨
      ∃ body, f.posted = [s.post body] ∧ t.posted = s.posted + 1 := by
  cases h with
  | refuse body | park body | accept body => exact .inr ⟨body, rfl, rfl⟩
  | promote | skip | drop | take | retire | reclaim | rewake | configure | bind | freeze | close
  | terminate | clear | discharge => exact .inl ⟨rfl, rfl⟩

end Balances

/-! ### The ledger of a run -/

/-- The balances of a whole run of a fresh mailbox. -/
structure Ledger (F : Flow M) (s : MailboxSystem M) : Prop where
  /-- Submissions are numbered in order. -/
  numbers : F.posted.map Posted.number = List.range s.posted
  /-- A posted message is owned by an operation, accepted, or handed back. -/
  posted : (s.held ++ F.acceptedMessages ++ F.returned).Perm F.posted
  /-- An accepted message is stored, or has left the mailbox in one way. -/
  accepted : (s.stored ++ F.received ++ F.displaced ++ F.unread).Perm F.acceptedMessages

theorem Ledger.moves {F f : Flow M} {s t : MailboxSystem M} (hl : Ledger F s) (h : Moves s f t) :
    Ledger (F ++ f) t where
  numbers := by
    obtain ⟨hposted, ht⟩ | ⟨body, hposted, ht⟩ := h.posted_cases
    · rw [Flow.posted_append, hposted, List.append_nil, ht, hl.numbers]
    · rw [Flow.posted_append, hposted, List.map_append, hl.numbers, ht, List.range_succ]
      rfl
  posted := by
    classical
    rw [List.perm_iff_count]
    intro a
    have hmove := h.held_balance.count_eq a
    have hrun := hl.posted.count_eq a
    simp only [Flow.acceptedMessages_append, Flow.returned_append, Flow.posted_append,
      List.count_append] at hmove hrun ⊢
    omega
  accepted := by
    classical
    rw [List.perm_iff_count]
    intro a
    have hmove := h.stored_balance.count_eq a
    have hrun := hl.accepted.count_eq a
    simp only [Flow.acceptedMessages_append, Flow.received_append, Flow.displaced_append,
      Flow.unread_append, List.count_append] at hmove hrun ⊢
    omega

theorem ledger_of_moved {actorId : ChildId} {F : Flow M} {s : MailboxSystem M}
    (h : Moved (.new actorId) F s) : Ledger F s := by
  induction h with
  | refl => exact ⟨rfl, .refl _, .refl _⟩
  | tail _ hmove ih => exact ih.moves hmove

namespace Ledger

variable {F : Flow M} {s : MailboxSystem M}

theorem nodup_posted (hl : Ledger F s) : F.posted.Nodup := by
  refine List.Nodup.of_map Posted.number ?_
  rw [hl.numbers]
  exact List.nodup_range

theorem number_lt (hl : Ledger F s) {m : Posted M} (hm : m ∈ F.posted) : m.number < s.posted := by
  have hmem := List.mem_map_of_mem (f := Posted.number) hm
  rw [hl.numbers, List.mem_range] at hmem
  exact hmem

theorem nodup_owned (hl : Ledger F s) : (s.held ++ F.acceptedMessages ++ F.returned).Nodup :=
  hl.posted.nodup_iff.mpr hl.nodup_posted

theorem nodup_accepted (hl : Ledger F s) : F.acceptedMessages.Nodup :=
  (List.nodup_append.mp (List.nodup_append.mp hl.nodup_owned).1).2.1

theorem accepted_subset (hl : Ledger F s) {m : Posted M} (hm : m ∈ F.acceptedMessages) :
    m ∈ F.posted :=
  hl.posted.mem_iff.mp (List.mem_append_left _ (List.mem_append_right _ hm))

/-- A message handed back was never accepted. -/
theorem not_accepted_of_returned (hl : Ledger F s) {m : Posted M} (hm : m ∈ F.returned) :
    m ∉ F.acceptedMessages := by
  intro haccepted
  have hdisjoint := (List.nodup_append.mp hl.nodup_owned).2.2
  exact hdisjoint m (List.mem_append_right _ haccepted) m hm rfl

/-- A received message was accepted. -/
theorem accepted_of_received (hl : Ledger F s) {m : Posted M} (hm : m ∈ F.received) :
    m ∈ F.acceptedMessages :=
  hl.accepted.mem_iff.mp
    (List.mem_append_left _ (List.mem_append_left _ (List.mem_append_right _ hm)))

end Ledger

/-! ### Where each message is -/

/-- Where a message can be.  The last four name the section of the run that took
the message. -/
inductive Place
  | operation (reference : OperationRef)
  | queue
  | latest
  | received (section_ : ℕ)
  | displaced (section_ : ℕ)
  | unread (section_ : ℕ)
  | returned (section_ : ℕ)
  deriving DecidableEq, Repr

/-- A list of lists of messages, each message with the place its list stands
for. -/
def placed {α : Type*} (messages : α → List (Posted M)) (place : ℕ → Place) (l : List α) :
    List (Place × Posted M) :=
  l.zipIdx.flatMap fun x => (messages x.1).map fun m => (place x.2, m)

theorem map_snd_placed {α : Type*} (messages : α → List (Posted M)) (place : ℕ → Place)
    (l : List α) : (placed messages place l).map Prod.snd = l.flatMap messages := by
  have hmap : ∀ x : α × ℕ,
      ((messages x.1).map fun m => (place x.2, m)).map Prod.snd = messages x.1 := by
    intro x
    rw [List.map_map]
    exact List.map_id _
  rw [placed, List.map_flatMap]
  simp only [hmap]
  conv_rhs => rw [← List.zipIdx_map_fst 0 l, List.flatMap_map]

/-- Every message that was submitted in a run, with the places it is in at the
end. -/
def located (tr : List (MailboxEdge M)) (s : MailboxSystem M) : List (Place × Posted M) :=
  placed SendOperation.held .operation s.cell.operations ++
    s.cell.state.queue.map (fun e => (.queue, e.message)) ++
    (s.cell.state.latest.map fun e => (.latest, e.message)).toList ++
    placed MailboxEdge.received .received tr ++
    placed (fun e => e.output.effects.displaced.map Envelope.message) .displaced tr ++
    placed MailboxEdge.unread .unread tr ++
    placed MailboxEdge.returned .returned tr

theorem map_snd_located (tr : List (MailboxEdge M)) (s : MailboxSystem M) :
    (located tr s).map Prod.snd =
      s.held ++ s.stored ++ (flows tr).received ++ (flows tr).displaced ++ (flows tr).unread ++
        (flows tr).returned := by
  have hlatest : (s.cell.state.latest.map fun e => (Place.latest, e.message)).toList.map Prod.snd =
      (s.cell.state.latest.map Envelope.message).toList := by
    cases s.cell.state.latest <;> rfl
  have hqueue : (s.cell.state.queue.map fun e => (Place.queue, e.message)).map Prod.snd =
      s.cell.state.queue.map Envelope.message := by
    rw [List.map_map]
    rfl
  simp only [located, List.map_append, map_snd_placed, hlatest, hqueue, MailboxSystem.held,
    MailboxSystem.stored, flows, List.append_assoc]

theorem Ledger.located_perm {tr : List (MailboxEdge M)} {s : MailboxSystem M}
    (hl : Ledger (flows tr) s) : ((located tr s).map Prod.snd).Perm (flows tr).posted := by
  classical
  rw [map_snd_located, List.perm_iff_count]
  intro a
  have hposted := hl.posted.count_eq a
  have haccepted := hl.accepted.count_eq a
  simp only [List.count_append] at hposted haccepted ⊢
  omega

/-! ### What the senders are told -/

/-- A section told the sender of `message` that `incarnation` accepted it.  The
sender of a parked message is known by its operation. -/
def MailboxEdge.Reports (parked : List (OperationRef × Posted M)) (e : MailboxEdge M)
    (message : Posted M) (incarnation : Incarnation) : Prop :=
  match e.input, e.output.result with
  | .submit body, .submitted (.accepted i) => message = e.before.post body ∧ incarnation = i
  | .trySend body, .sent (.ok i) => message = e.before.post body ∧ incarnation = i
  | .poll reference _ _, .polled (some (.accepted i)) =>
    (reference, message) ∈ parked ∧ incarnation = i
  | .withdraw reference _, .withdrawn withdrawal =>
    (reference, message) ∈ parked ∧ withdrawal.outcome = some (.accepted incarnation)
  | _, _ => False

/-- The operation a section consults for its owner. -/
def MailboxEdge.Consults (e : MailboxEdge M) (reference : OperationRef) : Prop :=
  match e.input with
  | .poll r _ _ => r = reference
  | .withdraw r _ => r = reference
  | _ => False

section Reports

variable {e : MailboxEdge M}

/-- A message is handed back by the section that posted it or by a section of
the operation that owns it. -/
theorem returned_cases (h : IsMailboxEdge e) {m : Posted M} (hm : m ∈ e.returned) :
    e.posted = [m] ∨
      ∃ reference operation, e.Consults reference ∧
        e.before.cell.operations[reference]? = some operation ∧ operation.held = [m] := by
  obtain ⟨s, step, o, t⟩ := e
  cases step with
  | submit body =>
    obtain ⟨-, message, rfl⟩ | ⟨submission, txn, hsubmit, rfl, rfl⟩ := submit_edge h
    · cases hm
    · cases hsubmit with
      | refused =>
        obtain rfl := List.mem_singleton.mp hm
        exact .inl rfl
      | parked | accepted => cases hm
  | trySend body =>
    obtain ⟨-, message, rfl⟩ | ⟨result, txn, hsend, rfl, rfl⟩ := trySend_edge h
    · cases hm
    · cases hsend with
      | refused =>
        obtain rfl := List.mem_singleton.mp hm
        exact .inl rfl
      | accepted => cases hm
  | poll reference replacement current =>
    obtain ⟨operation, hget, ⟨-, message, rfl⟩ | ⟨result, after, wakers, hpoll, rfl, rfl⟩⟩ :=
      poll_edge h
    · cases hm
    · refine .inr ⟨reference, operation, rfl, hget, ?_⟩
      cases hpoll with
      | registered | undecided | pending | needsWakerClone | accepted => cases hm
      | terminated outcome =>
        obtain rfl := List.mem_singleton.mp hm
        simp [SendOperation.held, outcome]
  | withdraw reference disposition =>
    obtain ⟨operation, hget, rfl, rfl⟩ := withdraw_edge h
    refine .inr ⟨reference, operation, rfl, hget, ?_⟩
    cases houtcome : operation.outcome <;>
      simp_all [MailboxEdge.returned, MailboxCell.withdraw, SendOperation.held]
  | receive | acceptedSequence | currentObservation | configure | bind | freeze | close
  | prepareTermination | clearRegistration | terminate => cases hm

/-- A section that reports an acceptance to a sender reports one that happened,
of that sender's message. -/
theorem accepted_of_reports {F : Flow M} (h : IsMailboxEdge e) (hc : Custody F e.before)
    {m : Posted M} {incarnation : Incarnation} (hr : e.Reports F.parked m incarnation) :
    ∃ a ∈ (F ++ e.flow).accepted, a.envelope.message = m ∧ a.incarnation = incarnation := by
  -- an operation that reports an acceptance has one in custody
  have howned : ∀ reference operation, e.before.cell.operations[reference]? = some operation →
      (reference, m) ∈ F.parked → operation.outcome = .accepted incarnation →
      ∃ a ∈ (F ++ e.flow).accepted, a.envelope.message = m ∧ a.incarnation = incarnation := by
    intro reference operation hget hparked houtcome
    obtain ⟨m', hm', howns⟩ := hc.owner reference operation hget
    obtain rfl := hc.message_unique hparked hm'
    simp only [Owns, houtcome] at howns
    obtain ⟨a, ha, hrest⟩ := howns
    exact ⟨a, List.mem_append_left _ ha, hrest⟩
  obtain ⟨s, step, o, t⟩ := e
  have haccepts : ∀ {body binding} {txn : MailboxTxn (Posted M)} {result after},
      s.cell.Accepts binding (s.post body) txn →
      ∃ a ∈ (F ++ MailboxEdge.flow ⟨s, step, ⟨result, txn.effects⟩, after⟩).accepted,
        a.envelope.message = s.post body ∧ a.incarnation = binding.incarnation := by
    intro body binding txn result after haccepts
    refine ⟨s.cell.acceptance binding (s.post body), List.mem_append_right _ ?_, rfl, rfl⟩
    show _ ∈ txn.effects.accepted
    rw [haccepts.accepted]
    exact List.mem_singleton_self _
  cases step with
  | submit body =>
    obtain ⟨-, message, rfl⟩ | ⟨submission, txn, hsubmit, rfl, rfl⟩ := submit_edge h
    · cases hr
    · cases hsubmit with
      | refused | parked => cases hr
      | accepted accepts =>
        obtain ⟨rfl, rfl⟩ := hr
        exact haccepts accepts
  | trySend body =>
    obtain ⟨-, message, rfl⟩ | ⟨result, txn, hsend, rfl, rfl⟩ := trySend_edge h
    · cases hr
    · cases hsend with
      | refused => cases hr
      | accepted accepts =>
        obtain ⟨rfl, rfl⟩ := hr
        exact haccepts accepts
  | poll reference replacement current =>
    obtain ⟨operation, hget, ⟨-, message, rfl⟩ | ⟨result, after, wakers, hpoll, rfl, rfl⟩⟩ :=
      poll_edge h
    · cases hr
    · cases hpoll with
      | registered | undecided | pending | needsWakerClone | terminated => cases hr
      | accepted outcome =>
        obtain ⟨hparked, rfl⟩ := hr
        exact howned reference operation hget hparked outcome
  | withdraw reference disposition =>
    obtain ⟨operation, hget, rfl, rfl⟩ := withdraw_edge h
    obtain ⟨hparked, hreported⟩ := hr
    refine howned reference operation hget hparked ?_
    cases houtcome : operation.outcome <;>
      simp_all [MailboxCell.withdraw]
  | receive | acceptedSequence | currentObservation | configure | bind | freeze | close
  | prepareTermination | clearRegistration | terminate => cases hr

end Reports

/-- **Message conservation.**  In any run of a fresh mailbox, of any length and
with any number of senders: the messages in all places are the submitted ones,
each in exactly one place; a message handed back goes to its own sender; a
message handed back is never accepted; and a message reported as accepted by an
incarnation was accepted by it and is never handed back. -/
theorem messages_conserved {actorId : ChildId} {tr : List (MailboxEdge M)} {s : MailboxSystem M}
    (h : MailboxRun actorId tr s) :
    ((located tr s).map Prod.snd).Perm (flows tr).posted ∧
      (flows tr).posted.Nodup ∧
      (∀ m ∈ (flows tr).posted, ∃! place, (place, m) ∈ located tr s) ∧
      ((flows tr).parked.map Prod.fst).Nodup ∧
      (∀ pre e post, tr = pre ++ e :: post → ∀ m ∈ e.returned,
        e.posted = [m] ∨
          ∃ reference, e.Consults reference ∧ (reference, m) ∈ (flows pre).parked) ∧
      (∀ m ∈ (flows tr).returned, ∀ a ∈ (flows tr).accepted, a.envelope.message ≠ m) ∧
      ∀ pre e post, tr = pre ++ e :: post → ∀ m incarnation,
        e.Reports (flows pre).parked m incarnation →
          (∃ a ∈ (flows (pre ++ [e])).accepted,
            a.envelope.message = m ∧ a.incarnation = incarnation) ∧
          m ∉ (flows tr).returned := by
  have hledger := ledger_of_moved (moved_of_run h)
  have hperm := hledger.located_perm
  have hnodup : ((located tr s).map Prod.snd).Nodup := hperm.nodup_iff.mpr hledger.nodup_posted
  refine ⟨hperm, hledger.nodup_posted, ?_, ?_, ?_, ?_, ?_⟩
  · intro m hm
    obtain ⟨⟨place, _⟩, hmem, rfl⟩ := List.mem_map.mp (hperm.mem_iff.mpr hm)
    refine ⟨place, hmem, ?_⟩
    intro place' hmem'
    exact congrArg Prod.fst (List.inj_on_of_nodup_map hnodup hmem' hmem rfl)
  · rw [(custody_of_moved (moved_of_run h)).references]
    exact List.nodup_range
  · rintro pre e post rfl m hm
    obtain ⟨hpre, he, -⟩ := h.split_at
    obtain hposted | ⟨reference, operation, hconsults, hget, hheld⟩ := returned_cases he hm
    · exact .inl hposted
    · obtain ⟨m', hparked, howns⟩ :=
        (custody_of_moved (moved_of_run hpre)).owner reference operation hget
      have hsame : m = m' := by
        unfold SendOperation.held at hheld
        unfold Owns at howns
        cases houtcome : operation.outcome <;> simp_all
      exact .inr ⟨reference, hconsults, hsame ▸ hparked⟩
  · intro m hm a ha hsame
    exact hledger.not_accepted_of_returned hm (List.mem_map.mpr ⟨a, ha, hsame⟩)
  · rintro pre e post rfl m incarnation hreports
    obtain ⟨hpre, he, -⟩ := h.split_at
    have haccepted := accepted_of_reports he (custody_of_moved (moved_of_run hpre)) hreports
    have hflow : flows pre ++ e.flow = flows (pre ++ [e]) := by
      rw [flows_append, flows_cons, flows_nil, Flow.append_nil]
    rw [hflow] at haccepted
    refine ⟨haccepted, ?_⟩
    intro hreturned
    obtain ⟨a, ha, hmessage, -⟩ := haccepted
    refine hledger.not_accepted_of_returned hreturned (List.mem_map.mpr ⟨a, ?_, hmessage⟩)
    have hsplit : flows (pre ++ e :: post) = flows (pre ++ [e]) ++ flows post := by
      rw [← flows_append, List.append_assoc]
      rfl
    rw [hsplit]
    exact List.mem_append_left _ ha

/-- A queue of one slot: a message is accepted, one parks, one is refused; the
receive promotes the parked one, and a later sender withdraws. -/
def crowdedQueue : List (MailboxStep ℕ) :=
  [.configure (.queue ⟨1, Nat.one_pos⟩), .bind ⟨0⟩ (sampleIncarnation 1), .submit 10, .submit 11,
    .trySend 12, .receive (sampleIncarnation 1) .drain, .submit 13, .withdraw 1 .inline]

theorem messages_conserved_crowdedQueue :
    ∃ tr s, MailboxRun ⟨"worker"⟩ tr s ∧ tr.map Edge.input = crowdedQueue ∧
      located tr s = [(.queue, ⟨1, 11⟩), (.received 5, ⟨0, 10⟩), (.returned 4, ⟨2, 12⟩),
        (.returned 7, ⟨3, 13⟩)] ∧
      ((located tr s).map Prod.snd).Perm (flows tr).posted := by
  have hexec : ∃ tr s, exec (fun s step => MailboxStep.apply s step)
      (.new ⟨"worker"⟩ : MailboxSystem ℕ) crowdedQueue = some (tr, s) ∧
      located tr s = [(.queue, ⟨1, 11⟩), (.received 5, ⟨0, 10⟩), (.returned 4, ⟨2, 12⟩),
        (.returned 7, ⟨3, 13⟩)] := ⟨_, _, rfl, by decide⟩
  obtain ⟨tr, s, hrun, hlocated⟩ := hexec
  exact ⟨tr, s, run_of_exec _ hrun, exec_inputs _ hrun, hlocated,
    (messages_conserved (run_of_exec _ hrun)).1⟩

end Shelterwood
