/-
Shelterwood/FutureSafety.lean

What the rest of the system cannot do to a future, and what one section of the
future can do.

The assertions about the shared state are few: the message was not submitted,
is parked under an operation nobody retired, was accepted by an incarnation, or
was handed back; and of the reply, that the receiver has not closed, or that it
closed before any send.  Each is stable, and each section has one lemma that
says which of them it leads to.
-/
import Shelterwood.FutureRun
import Shelterwood.MailboxConservation
import Shelterwood.MailboxEvidence

namespace Shelterwood

variable {M T : Type} [TokioOneshot T]

/-- The rest of the system, as a future sees it. -/
def futureSharing : Sharing (Shared M T) (Section M) (Section.Answer M T) where
  others s s' :=
    (∃ step output, s.allows step = true ∧ s.mailboxSection step = some (s', output)) ∨
      ∃ step reply, s.reply.senderStep step = some reply ∧ s' = { s with reply }
  perform s i o s' := ∃ reading, s.perform reading i = some (o, s')

/-! ### Assertions -/

namespace Shared

/-- The history variables record what happened. -/
structure Traced (actorId : ChildId) (s : Shared M T) : Prop where
  run : MailboxRun actorId s.log s.mailbox
  reply : s.reply.WellFormed
  operation : ∀ reference, s.operation = some reference →
    ∃ message, s.submitted = some message ∧ (reference, message) ∈ (flows s.log).parked

/-- The future's message never reached the mailbox. -/
def Unsubmitted (s : Shared M T) : Prop := s.submitted = none

/-- The message is parked under an operation that nobody has retired. -/
def Parked (s : Shared M T) (reference : OperationRef) : Prop :=
  s.operation = some reference ∧
    ∃ operation, s.mailbox.cell.operations[reference]? = some operation ∧
      operation.outcome ≠ .retired

/-- The parked message is no longer waiting. -/
def Settled (s : Shared M T) (reference : OperationRef) : Prop :=
  s.mailbox.waits reference = false

def AcceptedBy (s : Shared M T) (incarnation : Incarnation) : Prop :=
  ∃ message, s.submitted = some message ∧
    ∃ a ∈ (flows s.log).accepted, a.envelope.message = message ∧ a.incarnation = incarnation

def Returned (s : Shared M T) : Prop :=
  ∃ message, s.submitted = some message ∧ message ∈ (flows s.log).returned

/-- The message was not accepted. -/
def Denied (s : Shared M T) : Prop := s.Unsubmitted ∨ s.Returned

/-- The history went on without a submission of the future. -/
structure Extends (s s' : Shared M T) : Prop where
  submitted : s'.submitted = s.submitted
  operation : s'.operation = s.operation
  log : ∃ more, s'.log = s.log ++ more

variable {s s' : Shared M T}

theorem Extends.of_reply (reply : OneShot T) : Extends s { s with reply } :=
  ⟨rfl, rfl, [], (List.append_nil _).symm⟩

theorem AcceptedBy.extends {incarnation : Incarnation} (h : s.AcceptedBy incarnation)
    (he : Extends s s') : s'.AcceptedBy incarnation := by
  obtain ⟨message, hsubmitted, a, ha, hrest⟩ := h
  obtain ⟨more, hmore⟩ := he.log
  refine ⟨message, he.submitted.trans hsubmitted, a, ?_, hrest⟩
  rw [hmore, flows_append]
  exact List.mem_append_left _ ha

theorem Returned.extends (h : s.Returned) (he : Extends s s') : s'.Returned := by
  obtain ⟨message, hsubmitted, hmem⟩ := h
  obtain ⟨more, hmore⟩ := he.log
  refine ⟨message, he.submitted.trans hsubmitted, ?_⟩
  rw [hmore, flows_append]
  exact List.mem_append_left _ hmem

theorem Denied.extends (h : s.Denied) (he : Extends s s') : s'.Denied := by
  obtain h | h := h
  · exact .inl (he.submitted.trans h)
  · exact .inr (h.extends he)

end Shared

open Shared

/-! ### Sections of the mailbox -/

section Mailbox

variable {actorId : ChildId} {s s' : Shared M T} {step : MailboxStep M} {output : MailboxOutput M}

theorem mailboxSection_eq_some (h : s.mailboxSection step = some (s', output)) :
    ∃ mailbox, IsMailboxEdge ⟨s.mailbox, step, output, mailbox⟩ ∧
      s' = { s with mailbox, log := s.log ++ [⟨s.mailbox, step, output, mailbox⟩] } := by
  unfold Shared.mailboxSection at h
  cases hstep : step.apply s.mailbox with
  | none => simp [hstep] at h
  | some result =>
    obtain ⟨mailbox, output'⟩ := result
    simp only [hstep] at h
    cases h
    exact ⟨mailbox, hstep, rfl⟩

theorem Shared.Extends.mailboxSection (h : s.mailboxSection step = some (s', output)) :
    Extends s s' := by
  obtain ⟨mailbox, -, rfl⟩ := mailboxSection_eq_some h
  exact ⟨rfl, rfl, _, rfl⟩

theorem Shared.Traced.mailboxSection (ht : s.Traced actorId)
    (h : s.mailboxSection step = some (s', output)) : s'.Traced actorId := by
  obtain ⟨mailbox, hedge, rfl⟩ := mailboxSection_eq_some h
  refine ⟨ht.run.snoc hedge, ht.reply, ?_⟩
  intro reference hoperation
  obtain ⟨message, hsubmitted, hmem⟩ := ht.operation reference hoperation
  refine ⟨message, hsubmitted, ?_⟩
  rw [flows_append]
  exact List.mem_append_left _ hmem

variable {reference : OperationRef}

/-- A move that does not take the operation leaves it unretired. -/
theorem unretired_of_moved {s t : MailboxSystem M} {F : Flow M}
    {operation : SendOperation (Posted M)} (h : Moved s F t) (htaken : reference ∉ F.taken)
    (hget : s.cell.operations[reference]? = some operation) (hlive : operation.outcome ≠ .retired) :
    ∃ after, t.cell.operations[reference]? = some after ∧ after.outcome ≠ .retired := by
  induction h with
  | refl => exact ⟨operation, hget, hlive⟩
  | @tail F f t u _ hmove ih =>
    rw [Flow.taken_append, List.mem_append, not_or] at htaken
    obtain ⟨before, hbefore, hlive⟩ := ih htaken.1
    obtain ⟨after, hafter, hturn⟩ := hmove.turn hbefore
    refine ⟨after, hafter, ?_⟩
    cases hturn with
    | same | clear | rewake => exact hlive
    | observe incarnation =>
      cases houtcome : before.outcome <;> simp_all [SendOperation.observe]
    | accept | terminate => rintro ⟨⟩
    | retire _ taken | reclaim _ _ _ _ taken =>
      exact absurd (taken ▸ List.mem_singleton_self _) htaken.2

/-- Only a poll or a withdrawal takes an operation. -/
theorem MailboxEdge.mem_taken {e : MailboxEdge M} (h : reference ∈ e.taken) :
    (∃ replacement current, e.input = .poll reference replacement current) ∨
      ∃ disposition, e.input = .withdraw reference disposition := by
  unfold MailboxEdge.taken at h
  split at h
  · next hinput _ => exact .inl ⟨_, _, List.mem_singleton.mp h ▸ hinput⟩
  · next hinput _ => exact .inr ⟨_, List.mem_singleton.mp h ▸ hinput⟩
  · cases h

theorem taken_of_allows {mailbox : MailboxSystem M} (hallows : s.allows step = true)
    (hoperation : s.operation = some reference) :
    reference ∉ MailboxEdge.taken ⟨s.mailbox, step, output, mailbox⟩ := by
  intro hmem
  obtain ⟨replacement, current, rfl⟩ | ⟨disposition, rfl⟩ := MailboxEdge.mem_taken hmem
  · simp [Shared.allows, hoperation] at hallows
  · simp [Shared.allows, hoperation] at hallows

theorem Shared.Parked.mailboxSection (hp : s.Parked reference) (hallows : s.allows step = true)
    (h : s.mailboxSection step = some (s', output)) : s'.Parked reference := by
  obtain ⟨mailbox, hedge, rfl⟩ := mailboxSection_eq_some h
  obtain ⟨hoperation, operation, hget, hlive⟩ := hp
  exact ⟨hoperation, unretired_of_moved (moved_of_edge hedge)
    (taken_of_allows hallows hoperation) hget hlive⟩

theorem Shared.Settled.mailboxSection (hp : s.Parked reference) (hs : s.Settled reference)
    (h : s.mailboxSection step = some (s', output)) : s'.Settled reference := by
  obtain ⟨mailbox, hedge, rfl⟩ := mailboxSection_eq_some h
  obtain ⟨-, operation, hget, -⟩ := hp
  obtain ⟨-, hback⟩ := waits_back (moved_of_edge hedge) (List.getElem?_eq_some_iff.mp hget).1
  show mailbox.waits reference = false
  rw [Bool.eq_false_iff]
  intro hwaits
  have hbefore := hback hwaits
  rw [hs] at hbefore
  cases hbefore

end Mailbox

/-! ### Stability -/

section Stable

variable {actorId : ChildId} {s s' : Shared M T}

theorem extends_of_others (h : futureSharing.others s s') : Extends s s' := by
  obtain ⟨step, output, -, hsection⟩ | ⟨step, reply, -, rfl⟩ := h
  · exact Extends.mailboxSection hsection
  · exact .of_reply reply

theorem sends_of_others (h : futureSharing.others s s') :
    s'.reply = s.reply ∨ ∃ step, OneShot.Sends s.reply step s'.reply := by
  obtain ⟨step, output, -, hsection⟩ | ⟨step, reply, hstep, rfl⟩ := h
  · obtain ⟨mailbox, -, rfl⟩ := mailboxSection_eq_some hsection
    exact .inl rfl
  · exact .inr ⟨step, OneShot.sends_of_senderStep hstep⟩

theorem stable_traced : futureSharing.Stable (Traced (M := M) (T := T) actorId) := by
  rintro s s' (⟨step, output, -, hsection⟩ | ⟨step, reply, hstep, rfl⟩) hs
  · exact Traced.mailboxSection hs hsection
  · exact ⟨hs.run, hs.reply.sends (OneShot.sends_of_senderStep hstep), hs.operation⟩

theorem stable_unsubmitted : futureSharing.Stable (Unsubmitted (M := M) (T := T)) :=
  fun _ _ hothers hs => (extends_of_others hothers).submitted.trans hs

theorem stable_acceptedBy (incarnation : Incarnation) :
    futureSharing.Stable fun s : Shared M T => s.AcceptedBy incarnation :=
  fun _ _ hothers hs => hs.extends (extends_of_others hothers)

theorem stable_denied : futureSharing.Stable (Denied (M := M) (T := T)) :=
  fun _ _ hothers hs => hs.extends (extends_of_others hothers)

theorem stable_parked (reference : OperationRef) :
    futureSharing.Stable fun s : Shared M T => s.Parked reference := by
  rintro s s' (⟨step, output, hallows, hsection⟩ | ⟨step, reply, hstep, rfl⟩) hs
  · exact Parked.mailboxSection hs hallows hsection
  · exact hs

theorem stable_settled (reference : OperationRef) :
    futureSharing.Stable fun s : Shared M T => s.Parked reference ∧ s.Settled reference := by
  rintro s s' (⟨step, output, hallows, hsection⟩ | ⟨step, reply, hstep, rfl⟩) ⟨hp, hs⟩
  · exact ⟨Parked.mailboxSection hp hallows hsection, Settled.mailboxSection hp hs hsection⟩
  · exact ⟨hp, hs⟩

theorem stable_unclosed :
    futureSharing.Stable fun s : Shared M T => s.Traced actorId ∧ s.reply.Unclosed := by
  rintro s s' hothers ⟨ht, hu⟩
  refine ⟨stable_traced s s' hothers ht, ?_⟩
  obtain hsame | ⟨step, hsends⟩ := sends_of_others hothers
  · exact hsame ▸ hu
  · exact hu.sends ht.reply hsends

theorem stable_unanswered : futureSharing.Stable fun s : Shared M T => s.reply.Unanswered := by
  intro s s' hothers hu
  obtain hsame | ⟨step, hsends⟩ := sends_of_others hothers
  · exact hsame ▸ hu
  · exact hu.sends hsends

theorem stable_won (value : T) :
    futureSharing.Stable fun s : Shared M T => s.Traced actorId ∧ s.reply.won = some value := by
  rintro s s' hothers ⟨ht, hwon⟩
  refine ⟨stable_traced s s' hothers ht, ?_⟩
  obtain hsame | ⟨step, hsends⟩ := sends_of_others hothers
  · exact hsame ▸ hwon
  · exact ht.reply.won_sends hsends hwon

end Stable

/-! ### The future's own sections -/

section Answers

variable {actorId : ChildId} {s s' : Shared M T}

variable {answer : MailboxResult M}

theorem perform_mailbox {step : MailboxStep M}
    (h : futureSharing.perform s (.mailbox step) answer s') :
    ∃ t output, s.mailboxSection step = some (t, output) ∧ answer = output.result ∧
      s' = t.remember s.mailbox step output.result := by
  obtain ⟨reading, h⟩ := h
  unfold Shared.perform at h
  cases hsection : s.mailboxSection step with
  | none => simp [hsection] at h
  | some result =>
    obtain ⟨t, output⟩ := result
    simp only [hsection, Option.some.injEq] at h
    obtain ⟨rfl, rfl⟩ := Prod.mk.inj h
    exact ⟨t, output, rfl, rfl, rfl⟩

variable {fault : Fault} {message : M}

theorem park_fault {t : MailboxTxn M} {observed : Option Incarnation}
    (h : t.park message observed = .error fault) : fault = .exhausted := by
  unfold MailboxTxn.park at h
  cases hmint : t.cell.state.waiters.ids.mint with
  | error fault' =>
    simp only [hmint, Except.error.injEq] at h
    exact h ▸ MonotonicCounter.mint_error hmint
  | ok minted => simp [hmint] at h

/-- A submission fails only at the end of a counter. -/
theorem submit_fault {cell : MailboxCell M} (h : cell.submit message = .error fault) :
    fault = .exhausted := by
  unfold MailboxCell.submit at h
  cases hphase : cell.state.phase with
  | terminal finalIncarnation => simp [hphase] at h
  | unbound | frozen =>
    simp only [hphase] at h
    exact park_fault h
  | bound binding =>
    simp only [hphase] at h
    cases haccept : cell.begin.acceptLocked binding message with
    | error fault' =>
      simp only [haccept, Except.error.injEq] at h
      subst h
      unfold MailboxTxn.acceptLocked at haccept
      split_ifs at haccept
      cases hpush : cell.begin.pushAccepted binding message with
      | error fault'' =>
        simp only [hpush, Except.error.injEq] at haccept
        exact haccept ▸ pushAccepted_fault hpush
      | ok t => simp [hpush] at haccept
    | ok accepted =>
      obtain ⟨result, t⟩ := accepted
      cases result with
      | error message' =>
        simp only [haccept] at h
        exact park_fault h
      | ok incarnation => simp [haccept] at h

/-- What a submission says. -/
def Shared.Submitted (s : Shared M T) : Submission (Posted M) → Prop
  | .accepted incarnation => s.AcceptedBy incarnation
  | .parked reference => s.Parked reference
  | .terminated _ _ => s.Returned

/-- The future's submission is accepted, parked or handed back. -/
theorem submit_answer {body : M} (ht : s.Traced actorId)
    (h : futureSharing.perform s (.mailbox (.submit body)) answer s') :
    ∃ submission, answer = .submitted submission ∧ s'.Traced actorId ∧ s'.Submitted submission := by
  obtain ⟨t, output, hsection, rfl, rfl⟩ := perform_mailbox h
  have htraced := Traced.mailboxSection ht hsection
  obtain ⟨mailbox, hedge, rfl⟩ := mailboxSection_eq_some hsection
  cases hsubmit : s.mailbox.cell.submit (s.mailbox.post body) with
  | error fault =>
    obtain rfl := submit_fault hsubmit
    simp [stepEdge, MailboxStep.apply, hsubmit, MailboxSystem.faulted] at hedge
  | ok submitted =>
    obtain ⟨submission, txn⟩ := submitted
    simp only [stepEdge, MailboxStep.apply, hsubmit, MailboxSystem.commit] at hedge
    cases hedge
    have hflow := flows_append s.log [⟨s.mailbox, .submit body,
      ⟨.submitted submission, txn.effects⟩,
      MailboxSystem.setCell { s.mailbox with posted := s.mailbox.posted + 1 } txn.cell⟩]
    cases MailboxCell.submit_ok hsubmit with
    | refused =>
      refine ⟨_, rfl, ⟨htraced.run, htraced.reply, by rintro _ ⟨⟩⟩, ?_⟩
      refine ⟨s.mailbox.post body, rfl, ?_⟩
      show _ ∈ (flows (s.log ++ _)).returned
      rw [hflow]
      exact List.mem_append_right _ (List.mem_singleton_self _)
    | parked =>
      refine ⟨_, rfl, ⟨htraced.run, htraced.reply, ?_⟩, ?_⟩
      · intro reference hreference
        cases hreference
        refine ⟨s.mailbox.post body, rfl, ?_⟩
        show _ ∈ (flows (s.log ++ _)).parked
        rw [hflow]
        exact List.mem_append_right _ (List.mem_singleton_self _)
      · refine ⟨rfl, _, List.getElem?_concat_length, ?_⟩
        rintro ⟨⟩
    | @accepted binding _ accepts =>
      refine ⟨_, rfl, ⟨htraced.run, htraced.reply, by rintro _ ⟨⟩⟩, ?_⟩
      refine ⟨s.mailbox.post body, rfl, s.mailbox.cell.acceptance binding (s.mailbox.post body),
        ?_, rfl, rfl⟩
      show _ ∈ (flows (s.log ++ _)).accepted
      rw [hflow]
      refine List.mem_append_right _ ?_
      show _ ∈ txn.effects.accepted ++ []
      rw [accepts.accepted]
      exact List.mem_singleton_self _

/-- An operation that is not retired answers a poll. -/
theorem poll_of_unretired {operation : SendOperation M} (hlive : operation.outcome ≠ .retired)
    (replacement : Option Waker) (current : Waker) :
    ∃ result after wakers, operation.poll replacement current = .ok (result, after, wakers) ∧
      ((result = some .pending ∧ operation.isWaiting = true ∧ after.outcome = operation.outcome) ∨
        (result = some .needsWakerClone ∧ operation.isWaiting = true ∧ replacement = none ∧
          after = operation) ∨
        (result = none ∧ operation.isWaiting = false ∧ replacement.isSome = true ∧
          after = operation) ∨
        (∃ incarnation, operation.outcome = .accepted incarnation ∧
          result = some (.accepted incarnation)) ∨
        ∃ message finalIncarnation, operation.outcome = .terminated message finalIncarnation ∧
          result = some (.terminated message finalIncarnation)) := by
  cases houtcome : operation.outcome with
  | waiting message observed =>
    cases replacement with
    | some replacement => simp [SendOperation.poll, SendOperation.isWaiting, houtcome]
    | none =>
      by_cases hwaker : operation.waker = some current
      · simp [SendOperation.poll, SendOperation.isWaiting, houtcome, hwaker]
      · simp [SendOperation.poll, SendOperation.isWaiting, houtcome, hwaker]
  | accepted | terminated =>
    cases replacement <;> simp [SendOperation.poll, SendOperation.isWaiting, houtcome]
  | retired => exact absurd houtcome hlive

variable {reference : OperationRef} {operation : SendOperation (Posted M)}

/-- The message an operation accepted or handed back is the future's. -/
theorem Shared.Traced.owner (ht : s.Traced actorId) (hoperation : s.operation = some reference)
    (hget : s.mailbox.cell.operations[reference]? = some operation) :
    ∃ message, s.submitted = some message ∧ Owns (flows s.log) operation message := by
  obtain ⟨message, hsubmitted, hparked⟩ := ht.operation reference hoperation
  have hcustody := custody_of_moved (moved_of_run ht.run)
  obtain ⟨message', hparked', howns⟩ := hcustody.owner reference operation hget
  obtain rfl := hcustody.message_unique hparked hparked'
  exact ⟨message, hsubmitted, howns⟩

theorem Shared.Traced.acceptedBy {incarnation : Incarnation} (ht : s.Traced actorId)
    (hoperation : s.operation = some reference)
    (hget : s.mailbox.cell.operations[reference]? = some operation)
    (houtcome : operation.outcome = .accepted incarnation) : s.AcceptedBy incarnation := by
  obtain ⟨message, hsubmitted, howns⟩ := ht.owner hoperation hget
  simp only [Owns, houtcome] at howns
  exact ⟨message, hsubmitted, howns⟩

/-- The future's own section hands its message back. -/
theorem Shared.Traced.returned {message : Posted M} {e : MailboxEdge M} {mailbox : MailboxSystem M}
    (ht : s.Traced actorId) (hoperation : s.operation = some reference)
    (hget : s.mailbox.cell.operations[reference]? = some operation)
    (hheld : operation.held = [message]) (hreturned : e.returned = [message]) :
    Shared.Returned { s with mailbox, log := s.log ++ [e] } := by
  obtain ⟨message', hsubmitted, howns⟩ := ht.owner hoperation hget
  have hsame : message = message' := by
    unfold SendOperation.held at hheld
    unfold Owns at howns
    cases houtcome : operation.outcome <;> simp_all
  refine ⟨message, hsame ▸ hsubmitted, ?_⟩
  rw [flows_append, flows_cons, flows_nil, Flow.append_nil]
  refine List.mem_append_right _ ?_
  show message ∈ e.returned
  rw [hreturned]
  exact List.mem_singleton_self _

/-- What a poll of a parked operation says.  A refused clone means that the
operation has settled; a wish for one, that it had not. -/
def OperationPolled (actorId : ChildId) (reference : OperationRef) (cloned : Option Waker)
    (A : Shared M T → Prop) (s : Shared M T) : Option (OperationPoll (Posted M)) → Prop
  | some (.accepted incarnation) => s.Traced actorId ∧ s.AcceptedBy incarnation
  | some (.terminated _ _) => s.Traced actorId ∧ s.Returned
  | some .pending => s.Traced actorId ∧ s.Parked reference
  | some .needsWakerClone =>
    s.Traced actorId ∧ s.Parked reference ∧ cloned = none ∧
      ∃ before, A before ∧ ¬ before.Settled reference
  | none => s.Traced actorId ∧ s.Parked reference ∧ cloned.isSome = true ∧ s.Settled reference

/-- The future's poll of its operation. -/
theorem poll_answer {replacement : Option Waker} {current : Waker} {A : Shared M T → Prop}
    (hs : A s) (ht : s.Traced actorId) (hp : s.Parked reference)
    (h : futureSharing.perform s (.mailbox (.poll reference replacement current)) answer s') :
    ∃ result, answer = .polled result ∧
      OperationPolled actorId reference replacement A s' result := by
  obtain ⟨t, output, hsection, rfl, rfl⟩ := perform_mailbox h
  have htraced := Traced.mailboxSection ht hsection
  obtain ⟨mailbox, hedge, rfl⟩ := mailboxSection_eq_some hsection
  obtain ⟨hoperation, operation, hget, hlive⟩ := hp
  obtain ⟨result, after, wakers, hpoll, hcases⟩ := poll_of_unretired hlive replacement current
  simp only [stepEdge, MailboxStep.apply, hget, hpoll] at hedge
  cases hedge
  have hlt : reference < s.mailbox.cell.operations.length :=
    (List.getElem?_eq_some_iff.mp hget).1
  have hafter : (s.mailbox.setOperation reference after).cell.operations[reference]? =
      some after := by
    show (s.mailbox.cell.operations.set reference after)[reference]? = some after
    rw [List.getElem?_set_self hlt]
  refine ⟨result, rfl, ?_⟩
  obtain ⟨rfl, -, hsame⟩ | ⟨rfl, hwaits, hnone, rfl⟩ | ⟨rfl, hsettled, hsome, rfl⟩ |
      ⟨incarnation, houtcome, rfl⟩ | ⟨message, finalIncarnation, houtcome, rfl⟩ := hcases
  · exact ⟨htraced, hoperation, after, hafter, hsame ▸ hlive⟩
  · refine ⟨htraced, ⟨hoperation, after, hafter, hlive⟩, hnone, s, hs, ?_⟩
    intro hsettled
    rw [Shared.Settled, MailboxSystem.waits, hget, Option.any_some, hwaits] at hsettled
    cases hsettled
  · refine ⟨htraced, ⟨hoperation, after, hafter, hlive⟩, hsome, ?_⟩
    show (s.mailbox.setOperation reference after).waits reference = false
    rw [MailboxSystem.waits, hafter, Option.any_some, hsettled]
  · exact ⟨htraced, AcceptedBy.extends (ht.acceptedBy hoperation hget houtcome)
      (Extends.mailboxSection hsection)⟩
  · have hheld : operation.held = [message] := by simp [SendOperation.held, houtcome]
    exact ⟨htraced, ht.returned hoperation hget hheld rfl⟩

/-- What a withdrawal says. -/
def Shared.Withdrew {N : Type} (s : Shared M T) : Option (WithdrawalOutcome N) → Prop
  | some (.accepted incarnation) => s.AcceptedBy incarnation
  | some (.withdrawn _ _) | some (.terminated _ _) => s.Returned
  | none => False

/-- The future's withdrawal of its operation. -/
theorem withdraw_answer {disposition : WithdrawalDisposition} (ht : s.Traced actorId)
    (hp : s.Parked reference)
    (h : futureSharing.perform s (.mailbox (.withdraw reference disposition)) answer s') :
    ∃ withdrawal, answer = .withdrawn withdrawal ∧ s'.Traced actorId ∧
      s'.Withdrew withdrawal.outcome := by
  obtain ⟨t, output, hsection, rfl, rfl⟩ := perform_mailbox h
  have htraced := Traced.mailboxSection ht hsection
  have hextends := Extends.mailboxSection hsection
  obtain ⟨mailbox, hedge, rfl⟩ := mailboxSection_eq_some hsection
  obtain ⟨hoperation, operation, hget, hlive⟩ := hp
  obtain ⟨operation', hget', rfl, rfl⟩ := withdraw_edge hedge
  obtain rfl := Option.some.inj (hget.symm.trans hget')
  refine ⟨_, rfl, htraced, ?_⟩
  cases houtcome : operation.outcome with
  | waiting message _ | terminated message _ =>
    have hheld : operation.held = [message] := by simp [SendOperation.held, houtcome]
    simp only [MailboxCell.withdraw, houtcome]
    refine ht.returned hoperation hget hheld ?_
    simp [MailboxEdge.returned]
  | accepted incarnation =>
    have hresult : (s.mailbox.cell.withdraw reference operation disposition).1.outcome =
        some (.accepted incarnation) := by simp [MailboxCell.withdraw, houtcome]
    rw [hresult]
    exact AcceptedBy.extends (ht.acceptedBy hoperation hget houtcome) hextends
  | retired => exact absurd houtcome hlive

end Answers

end Shelterwood
