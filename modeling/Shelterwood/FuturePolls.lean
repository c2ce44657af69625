/-
Shelterwood/FuturePolls.lean

What a poll of a deadline-bearing future returns.

For each part of the code one triple: from a future that has not returned a
result yet, a poll returns a justified result and leaves the future spent, or it
is pending and the future is as before; and it never panics.  A spent future
panics at once, without touching anything shared; a send that reported its
acceptance from the submission or the operation reports it again.
-/
import Shelterwood.FutureSafety

namespace Shelterwood

open Shared Thread

variable {M T φ : Type} [TokioOneshot T] {actorId : ChildId}

/-- From `P` the code returns with `Q`, and does not panic. -/
abbrev Returns {α : Type} (P : φ → Shared M T → Prop) (m : Polling M T φ α)
    (Q : α → φ → Shared M T → Prop) : Prop :=
  Triple futureSharing P m Q fun _ _ _ => False

/-! ### Receiving a reply -/

/-- The call was accepted, and its receiver has not closed. -/
structure Awaiting (actorId : ChildId) (incarnation : Incarnation) (s : Shared M T) : Prop where
  traced : s.Traced actorId
  accepted : s.AcceptedBy incarnation
  reply : s.reply.Unclosed

theorem stable_awaiting (incarnation : Incarnation) :
    futureSharing.Stable (Awaiting (M := M) (T := T) actorId incarnation) := by
  intro s s' hothers h
  obtain ⟨htraced, hreply⟩ := stable_unclosed s s' hothers ⟨h.traced, h.reply⟩
  exact ⟨htraced, stable_acceptedBy incarnation s s' hothers h.accepted, hreply⟩

/-- What a poll of the reply says. -/
def ReplyAnswered (actorId : ChildId) (incarnation : Incarnation) (s : Shared M T) :
    ReplyPoll T → Prop
  | .value value => s.Traced actorId ∧ s.AcceptedBy incarnation ∧ s.reply.won = some value
  | .senderClosed => s.Traced actorId ∧ s.AcceptedBy incarnation
  | .timedOut => s.Traced actorId ∧ s.AcceptedBy incarnation ∧ s.reply.Unanswered

section Reply

variable {incarnation : Incarnation} {s s' : Shared M T}

theorem Shared.Traced.setReply (h : s.Traced actorId) {reply : OneShot T}
    (hreply : reply.WellFormed) : Shared.Traced actorId { s with reply } :=
  ⟨h.run, hreply, h.operation⟩

theorem awaiting_pollChannel {answer : Poll (Option T)} (h : Awaiting actorId incarnation s)
    (hperform : futureSharing.perform s (.pollChannel : Section M) answer s') :
    Awaiting actorId incarnation s' ∧ ∀ value, answer = .ready (some value) →
      s'.reply.won = some value := by
  obtain ⟨reading, hperform⟩ := hperform
  cases hperform
  refine ⟨⟨h.traced.setReply h.traced.reply.poll, h.accepted.extends (.of_reply _), ?_⟩, ?_⟩
  · exact ⟨h.reply.state, OneShot.poll_closed.trans h.reply.channel⟩
  · intro value hvalue
    show s.reply.won = some value
    exact OneShot.poll_ready h.traced.reply hvalue

theorem perform_closeTransition {answer : Except OneShotState Unit}
    (h : futureSharing.perform s (.closeTransition : Section M) answer s') :
    answer = (s.reply.exchange .receiverClosed).1 ∧
      s' = { s with reply := (s.reply.exchange .receiverClosed).2 } := by
  obtain ⟨reading, h⟩ := h
  cases h
  exact ⟨rfl, rfl⟩

theorem perform_closeChannel {answer : Unit}
    (h : futureSharing.perform s (.closeChannel : Section M) answer s') :
    s' = { s with reply.channel := TokioOneshot.close s.reply.channel } := by
  obtain ⟨reading, h⟩ := h
  exact (Prod.mk.inj (Option.some.inj h)).2.symm

/-- A receiver that is not completed passes its own assertion. -/
theorem assertNotCompleted_bind {α : Type} {A : Shared M T → Prop}
    {k : Unit → Polling M T OneShotReceiver α} {Q : α → OneShotReceiver → Shared M T → Prop}
    (h : Returns (At ⟨false⟩ A) (k ()) Q) :
    Returns (At ⟨false⟩ A) (OneShotReceiver.assertNotCompleted >>= k) Q := by
  rintro r s ⟨rfl, hs⟩
  exact h _ s ⟨rfl, hs⟩

theorem receiver_pollReceive (actorId : ChildId) (incarnation : Incarnation) :
    Returns (At ⟨false⟩ (Awaiting actorId incarnation))
      (OneShotReceiver.pollReceive (M := M) (T := T)) fun result r s =>
        Awaiting actorId incarnation s ∧ r = ⟨!result.isPending⟩ ∧
          ∀ value, result = .ready (some value) → s.reply.won = some value := by
  apply assertNotCompleted_bind
  refine Triple.call_bind (stable_awaiting _) (fun _ _ _ => awaiting_pollChannel) fun result => ?_
  apply Triple.modify_bind
  apply Triple.pure_at
  rintro s ⟨hs, hvalue⟩
  exact ⟨hs, rfl, hvalue⟩

/-- What arbitration between a close and a send says. -/
def Arbitrated (actorId : ChildId) (incarnation : Incarnation) (s : Shared M T) :
    OneShotClose T → Prop
  | .value value => ReplyAnswered actorId incarnation s (.value value)
  | .senderClosed => ReplyAnswered actorId incarnation s .senderClosed
  | .empty => ReplyAnswered actorId incarnation s .timedOut
  | .pending => Awaiting actorId incarnation s

theorem receiver_receiveSent (actorId : ChildId) (incarnation : Incarnation) :
    Returns (At ⟨false⟩ (Awaiting actorId incarnation))
      (OneShotReceiver.receiveSent (M := M) (T := T)) fun result r s =>
        r = ⟨false⟩ ∧ Arbitrated actorId incarnation s result := by
  refine Triple.call_bind (stable_awaiting _) (fun _ _ _ => awaiting_pollChannel) fun result => ?_
  match result with
  | .ready (some value) =>
    apply Triple.pure_at
    rintro s ⟨hs, hvalue⟩
    exact ⟨rfl, hs.traced, hs.accepted, hvalue value rfl⟩
  | .ready none =>
    apply Triple.pure_at
    rintro s ⟨hs, -⟩
    exact ⟨rfl, hs.traced, hs.accepted⟩
  | .pending =>
    apply Triple.pure_at
    rintro s ⟨hs, -⟩
    exact ⟨rfl, hs⟩

/-- The close transition wins and no send will; or it finds who won. -/
theorem awaiting_closeTransition {answer : Except OneShotState Unit}
    (h : Awaiting actorId incarnation s)
    (hperform : futureSharing.perform s (.closeTransition : Section M) answer s') :
    (answer = .ok () ∧ ReplyAnswered actorId incarnation s' .timedOut) ∨
      ∃ state, answer = .error state ∧ state ≠ .opened ∧ state ≠ .receiverClosed ∧
        Awaiting actorId incarnation s' := by
  obtain ⟨rfl, rfl⟩ := perform_closeTransition hperform
  obtain ⟨hopened, hexchange⟩ | ⟨hstate, hexchange⟩ := s.reply.exchange_cases .receiverClosed
  · rw [hexchange]
    refine .inl ⟨rfl, ?_, h.accepted.extends (.of_reply _), fun h => (nomatch h), ?_⟩
    · have hreply := h.traced.reply.exchange
      rw [hexchange] at hreply
      exact h.traced.setReply hreply
    · exact h.traced.reply.opened hopened
  · rw [hexchange]
    exact .inr ⟨s.reply.state, rfl, hstate, h.reply.state, h⟩

theorem answered_closeChannel {answer : Unit} (h : ReplyAnswered actorId incarnation s .timedOut)
    (hperform : futureSharing.perform s (.closeChannel : Section M) answer s') :
    ReplyAnswered actorId incarnation s' .timedOut := by
  obtain ⟨htraced, haccepted, hreply⟩ := h
  obtain rfl := perform_closeChannel hperform
  exact ⟨htraced.setReply htraced.reply.close, haccepted.extends (.of_reply _), hreply.state,
    hreply.won⟩

theorem stable_timedOut :
    futureSharing.Stable fun s : Shared M T => ReplyAnswered actorId incarnation s .timedOut := by
  rintro s s' hothers ⟨htraced, haccepted, hreply⟩
  exact ⟨stable_traced s s' hothers htraced, stable_acceptedBy _ s s' hothers haccepted,
    stable_unanswered s s' hothers hreply⟩

theorem receiver_arbitrateClose (actorId : ChildId) (incarnation : Incarnation) :
    Returns (At ⟨false⟩ (Awaiting actorId incarnation))
      (OneShotReceiver.arbitrateClose (M := M) (T := T)) fun result r s =>
        r = ⟨false⟩ ∧ Arbitrated actorId incarnation s result := by
  refine Triple.call_bind (stable_awaiting _) (fun _ _ _ => awaiting_closeTransition)
    fun answer => ?_
  -- the word is neither open nor closed by the receiver when the transition fails
  match answer with
  | .ok _ =>
    refine Triple.pre (P := At ⟨false⟩ fun s => ReplyAnswered actorId incarnation s .timedOut) ?_ ?_
    · refine Triple.call_bind stable_timedOut (fun _ _ _ => answered_closeChannel) fun _ => ?_
      apply Triple.pure_at
      intro s hs
      exact ⟨rfl, hs⟩
    · rintro r s ⟨hr, ⟨-, hs⟩ | ⟨state, hstate, -⟩⟩
      · exact ⟨hr, hs⟩
      · cases hstate
  | .error .senderClosed =>
    apply Triple.pure_at
    rintro s (⟨hanswer, -⟩ | ⟨state, -, -, -, hs⟩)
    · cases hanswer
    · exact ⟨rfl, hs.traced, hs.accepted⟩
  | .error .sending | .error .sent =>
    refine (receiver_receiveSent actorId incarnation).pre ?_
    rintro r s ⟨hr, ⟨hanswer, -⟩ | ⟨state, -, -, -, hs⟩⟩
    · cases hanswer
    · exact ⟨hr, hs⟩
  | .error .receiverClosed =>
    apply Triple.pure_at
    rintro s (⟨hanswer, -⟩ | ⟨state, hstate, -, hclosed, -⟩)
    · cases hanswer
    · cases hstate
      exact absurd rfl hclosed
  | .error .opened =>
    apply Triple.throw_at
    rintro s (⟨hanswer, -⟩ | ⟨state, hstate, hopened, -⟩)
    · cases hanswer
    · cases hstate
      exact absurd rfl hopened

theorem receiver_closeAndPollReceive (actorId : ChildId) (incarnation : Incarnation) :
    Returns (At ⟨false⟩ (Awaiting actorId incarnation))
      (OneShotReceiver.closeAndPollReceive (M := M) (T := T)) fun result r s =>
        r = ⟨!result.isPending⟩ ∧ Arbitrated actorId incarnation s result := by
  apply assertNotCompleted_bind
  refine Triple.bind (receiver_arbitrateClose actorId incarnation) fun result => ?_
  refine Triple.bind (Q := fun _ r s => r = ⟨!result.isPending⟩ ∧
    Arbitrated actorId incarnation s result) ?_ fun _ => ?_
  · rintro r s ⟨rfl, hs⟩
    exact ⟨rfl, hs⟩
  · intro r s hs
    exact hs

/-- A proxied poll is one or two polls of the receiver. -/
theorem disposing_poll {ρ : Type} {m : Polling M T OneShotReceiver ρ} {isPending : ρ → Bool}
    {A : Shared M T → Prop} {Q : ρ → OneShotReceiver → Shared M T → Prop}
    (h : Returns (At ⟨false⟩ A) m Q)
    (hpending : ∀ result r s, isPending result = true → Q result r s → r = ⟨false⟩ ∧ A s) :
    Returns (fun d s => d.inner = ⟨false⟩ ∧ A s) (DisposingReceiver.poll m isPending)
      fun result d s => Q result d.inner s := by
  refine Triple.bind (Q := fun result d s => Q result d.inner s) ?_ fun result => ?_
  · refine Triple.fix fun d => ?_
    apply Triple.get_bind
    split
    · refine Triple.focus_at h ?_ (fun _ _ _ hq => hq) fun _ _ _ he => he
      rintro s ⟨hinner, hs⟩
      exact ⟨hinner, hs⟩
    · refine Triple.focus_bind h ?_ (fun _ _ _ he => he) fun result r => ?_
      · rintro s ⟨hinner, hs⟩
        exact ⟨hinner, hs⟩
      · split
        · rename_i hresult
          apply Triple.modify_bind
          refine Triple.focus_at h ?_ (fun _ _ _ hq => hq) fun _ _ _ he => he
          intro s hq
          exact hpending result r s hresult hq
        · exact Triple.pure_at fun s hq => hq
  · refine Triple.fix fun d => ?_
    apply Triple.modify_bind
    exact Triple.pure_at fun s hq => hq

/-- The receiver is used up exactly when the poll of the reply is ready. -/
def ReplyPolled (actorId : ChildId) (incarnation : Incarnation) (result : Poll (ReplyPoll T))
    (d : DisposingReceiver) (s : Shared M T) : Prop :=
  match result with
  | .ready answer => d.inner = ⟨true⟩ ∧ ReplyAnswered actorId incarnation s answer
  | .pending => d.inner = ⟨false⟩ ∧ Awaiting actorId incarnation s

theorem disposing_pollReply (actorId : ChildId) (incarnation : Incarnation)
    (phase : DeadlinePhase) :
    Returns (fun d s => d.inner = ⟨false⟩ ∧ Awaiting actorId incarnation s)
      (pollReply (M := M) (T := T) phase) (ReplyPolled actorId incarnation) := by
  refine Triple.bind (disposing_poll (receiver_pollReceive actorId incarnation) ?_) fun result => ?_
  · rintro result r s hresult ⟨hs, hr, -⟩
    rw [hresult] at hr
    exact ⟨hr, hs⟩
  · refine Triple.fix fun d => ?_
    match result with
    | .ready (some value) =>
      apply Triple.pure_at
      rintro s ⟨hs, hd, hvalue⟩
      exact ⟨hd, hs.traced, hs.accepted, hvalue value rfl⟩
    | .ready none =>
      apply Triple.pure_at
      rintro s ⟨hs, hd, -⟩
      exact ⟨hd, hs.traced, hs.accepted⟩
    | .pending =>
      dsimp only
      split
      · refine Triple.bind (Triple.pre (disposing_poll
          (receiver_closeAndPollReceive actorId incarnation) ?_) ?_) fun result => ?_
        · rintro result r s hresult ⟨hr, hs⟩
          cases result with
          | pending => exact ⟨hr, hs⟩
          | value | senderClosed | empty => cases hresult
        · rintro f s ⟨rfl, hs, hd, -⟩
          exact ⟨hd, hs⟩
        · refine Triple.fix fun d => ?_
          match result with
          | .value value => exact Triple.pure_at fun s hs => hs
          | .senderClosed => exact Triple.pure_at fun s hs => hs
          | .empty => exact Triple.pure_at fun s hs => hs
          | .pending => exact Triple.pure_at fun s hs => hs
      · apply Triple.pure_at
        rintro s ⟨hs, hd, -⟩
        exact ⟨hd, hs⟩

end Reply

/-! ### Sections on the mailbox -/

section Operations

variable {f : φ} {A : Shared M T → Prop}

/-- A section answers in one way, so what is done with the other answers does not
matter. -/
theorem section_returns {α β : Type} {step : MailboxStep M} (wrap : α → MailboxResult M)
    {out : α → β} {k : MailboxResult M → Polling M T φ β} {B : β → Shared M T → Prop}
    (hstable : futureSharing.Stable A) (hk : ∀ x, k (wrap x) = pure (out x))
    (hanswer : ∀ s answer s', A s → futureSharing.perform s (.mailbox step) answer s' →
      ∃ x, answer = wrap x ∧ B (out x) s') :
    Returns (At f A) ((Thread.call (Section.mailbox step) : Polling M T φ (MailboxResult M)) >>= k)
      fun y => At f (B y) := by
  apply Triple.call_bind hstable hanswer
  rintro answer g s ⟨rfl, x, rfl, hs⟩
  rw [hk]
  exact ⟨rfl, hs⟩

theorem submit_returns (body : M) (hstable : futureSharing.Stable A)
    (hA : ∀ s, A s → s.Traced actorId) :
    Returns (At f A) (Polling.submit body) fun submission => At f fun s =>
      s.Traced actorId ∧ s.Submitted submission :=
  section_returns .submitted hstable (fun _ => rfl) fun s _ _ hs => submit_answer (hA s hs)

theorem pollOperation_returns {reference : OperationRef} (cloned : Option Waker) (current : Waker)
    (hstable : futureSharing.Stable A)
    (hA : ∀ s, A s → s.Traced actorId ∧ s.Parked reference) :
    Returns (At f A) (Polling.pollOperation reference cloned current) fun result =>
      At f fun s => OperationPolled actorId reference cloned A s result :=
  section_returns .polled hstable (fun _ => rfl)
    fun s _ _ hs => poll_answer hs (hA s hs).1 (hA s hs).2

theorem withdrawOperation_returns {reference : OperationRef} (disposition : WithdrawalDisposition)
    (hstable : futureSharing.Stable A)
    (hA : ∀ s, A s → s.Traced actorId ∧ s.Parked reference) :
    Returns (At f A) (Polling.withdrawOperation reference disposition) fun outcome =>
      At f fun s => s.Traced actorId ∧ s.Withdrew outcome :=
  section_returns .withdrawn hstable (fun _ => rfl)
    fun s _ _ hs => withdraw_answer (hA s hs).1 (hA s hs).2

/-- Looking at the binding changes nothing. -/
theorem currentObservation_returns (hstable : futureSharing.Stable A)
    (hA : ∀ s, A s → s.Traced actorId ∧ s.Denied) :
    Returns (At f A) Polling.currentObservation fun _ => At f fun s =>
      s.Traced actorId ∧ s.Denied := by
  refine section_returns .observed hstable (fun _ => rfl) ?_
  intro s answer s' hs hperform
  obtain ⟨htraced, hdenied⟩ := hA s hs
  obtain ⟨t, output, hsection, rfl, rfl⟩ := perform_mailbox hperform
  have hextends := Extends.mailboxSection hsection
  have htraced' := Traced.mailboxSection htraced hsection
  obtain ⟨mailbox, hedge, rfl⟩ := mailboxSection_eq_some hsection
  have houtput := (Prod.mk.inj (Option.some.inj hedge)).2
  exact ⟨_, (congrArg MailboxOutput.result houtput).symm, htraced', hdenied.extends hextends⟩

end Operations

/-! ### Results -/

/-- What has to be true when a future reports `result`. -/
def Justified (s : Shared M T) : ClientResult M T → Prop
  | .send (.ok incarnation) => s.AcceptedBy incarnation
  | .send (.error error) => (error.kind = .timedOut ∨ error.kind = .terminated) ∧ s.Denied
  | .call (.ok replied) =>
    s.AcceptedBy replied.incarnation ∧ s.reply.won = some replied.value
  | .call (.error error) =>
    match error.kind with
    | .terminated | .acceptanceTimedOut => s.Denied
    | .replyDropped =>
      ∃ incarnation, error.incarnationObserved = some incarnation ∧ s.AcceptedBy incarnation
    | .responseTimedOut =>
      ∃ incarnation, error.incarnationObserved = some incarnation ∧
        s.AcceptedBy incarnation ∧ s.reply.Unanswered

/-- What a poll of an operation under a deadline says: it is as before, with `L`,
or has a result with `R`. -/
def Deadlined.OperationPolled {ρ : Type} (L : φ → Shared M T → Prop)
    (R : ρ → φ → Shared M T → Prop) (result : Poll ρ) (f : φ) (s : Shared M T) : Prop :=
  match result with
  | .ready result => R result f s
  | .pending => L f s

/-! ### Sends -/

namespace SendFuture

/-- The send has not returned a result yet. -/
def Live (actorId : ChildId) (f : SendFuture M) (s : Shared M T) : Prop :=
  s.Traced actorId ∧
    ((∃ message, f.state = .immediate (some message) ∧ s.Unsubmitted) ∨
      ∃ reference, f.state = .parked reference ∧ s.Parked reference)

/-- Another poll panics. -/
def Spent (f : SendFuture M) : Prop := f.state = .immediate none ∨ f.state = .done

/-- What a poll says. -/
def Polled (actorId : ChildId) (result : Poll (Except (SendError M) Incarnation))
    (f : SendFuture M) (s : Shared M T) : Prop :=
  s.Traced actorId ∧
    match result with
    | .ready (.ok incarnation) => f.state = .sent incarnation ∧ s.AcceptedBy incarnation
    | .ready (.error error) => f.state = .done ∧ error.kind = .terminated ∧ s.Returned
    | .pending => ∃ reference, f.state = .parked reference ∧ s.Parked reference

theorem stable_live (f : SendFuture M) :
    futureSharing.Stable (Live (T := T) actorId f) := by
  rintro s s' hothers ⟨htraced, hs⟩
  refine ⟨stable_traced s s' hothers htraced, ?_⟩
  obtain ⟨message, hstate, hs⟩ | ⟨reference, hstate, hs⟩ := hs
  · exact .inl ⟨message, hstate, stable_unsubmitted s s' hothers hs⟩
  · exact .inr ⟨reference, hstate, stable_parked reference s s' hothers hs⟩

section Poll

variable {f : SendFuture M} {A : Shared M T → Prop} {reference : OperationRef} {current : Waker}

theorem terminated_returns {message : Posted M} {finalIncarnation : Option Incarnation}
    (hA : ∀ s, A s → s.Traced actorId ∧ s.Returned) :
    Returns (At f A) (terminated message finalIncarnation) (Polled actorId) := by
  apply Triple.get_bind
  apply Triple.modify_bind
  apply Triple.pure_at
  intro s hs
  exact ⟨(hA s hs).1, rfl, rfl, (hA s hs).2⟩

theorem sent_returns {incarnation : Incarnation}
    (hA : ∀ s, A s → s.Traced actorId ∧ s.AcceptedBy incarnation) :
    Returns (At f A) (do
      setState (.sent incarnation)
      pure (.ready (.ok incarnation))) (Polled actorId) := by
  apply Triple.modify_bind
  apply Triple.pure_at
  intro s hs
  exact ⟨(hA s hs).1, rfl, (hA s hs).2⟩

/-- One round of the loop over a parked operation. -/
theorem pollParked_succ {rounds : ℕ} {cloned : Option Waker} (hf : f.state = .parked reference)
    (hstable : futureSharing.Stable A)
    (hA : ∀ s, A s → s.Traced actorId ∧ s.Parked reference)
    (hclone : cloned = none → (∃ s, A s ∧ ¬ s.Settled reference) →
      Returns (At f fun s : Shared M T => s.Traced actorId ∧ s.Parked reference)
        (pollParked current reference rounds (some current)) (Polled actorId))
    (hrefused : cloned.isSome = true →
      Returns (At f fun s : Shared M T => s.Traced actorId ∧ s.Parked reference ∧
          s.Settled reference)
        (pollParked current reference rounds none) (Polled actorId)) :
    Returns (At f A) (pollParked current reference (rounds + 1) cloned) (Polled actorId) := by
  refine Triple.bind (pollOperation_returns cloned current hstable hA) fun result => ?_
  match result with
  | some (.accepted incarnation) => exact sent_returns fun s hs => hs
  | some (.terminated message finalIncarnation) => exact terminated_returns fun s hs => hs
  | some .pending => exact Triple.pure_at fun s hs => ⟨hs.1, reference, hf, hs.2⟩
  | some .needsWakerClone =>
    rintro g s ⟨hg, htraced, hparked, hnone, hbefore⟩
    exact hclone hnone hbefore g s ⟨hg, htraced, hparked⟩
  | none =>
    rintro g s ⟨hg, htraced, hparked, hsome, hsettled⟩
    exact hrefused hsome g s ⟨hg, htraced, hparked, hsettled⟩

/-- A settled operation answers in one round. -/
theorem pollParked_settled (rounds : ℕ) (hf : f.state = .parked reference) :
    Returns (At f fun s : Shared M T => s.Traced actorId ∧ s.Parked reference ∧
        s.Settled reference)
      (pollParked current reference (rounds + 1) none) (Polled actorId) := by
  apply pollParked_succ hf (stable_traced.and (stable_settled reference))
  · exact fun s hs => ⟨hs.1, hs.2.1⟩
  · rintro - ⟨s, hs, hunsettled⟩
    exact absurd hs.2.2 hunsettled
  · exact fun h => (nomatch h)

theorem pollParked_cloned (rounds : ℕ) (hf : f.state = .parked reference) :
    Returns (At f fun s : Shared M T => s.Traced actorId ∧ s.Parked reference)
      (pollParked current reference (rounds + 2) (some current)) (Polled actorId) := by
  apply pollParked_succ hf (stable_traced.and (stable_parked reference)) fun s hs => hs
  · exact fun h => (nomatch h)
  · exact fun _ => pollParked_settled rounds hf

/-- Three rounds are enough. -/
theorem pollParked_returns (hf : f.state = .parked reference) :
    Returns (At f fun s : Shared M T => s.Traced actorId ∧ s.Parked reference)
      (pollParked current reference pollRounds none) (Polled actorId) := by
  apply pollParked_succ hf (stable_traced.and (stable_parked reference)) fun s hs => hs
  · exact fun _ _ => pollParked_cloned 0 hf
  · exact fun h => (nomatch h)

theorem poll_returns (actorId : ChildId) (current : Waker) :
    Returns (Live (T := T) actorId) (poll (M := M) current) (Polled actorId) := by
  refine Triple.fix fun f => ?_
  apply Triple.get_bind
  match hstate : f.state with
  | .immediate (some message) =>
    apply Triple.modify_bind
    apply Triple.expect_bind
    refine Triple.bind (submit_returns message (stable_live f)
      fun s hs => hs.1) fun submission => ?_
    match submission with
    | .accepted incarnation => exact sent_returns fun s hs => hs
    | .parked reference =>
      apply Triple.modify_bind
      exact pollParked_returns rfl
    | .terminated message finalIncarnation => exact terminated_returns fun s hs => hs
  | .parked reference =>
    refine (pollParked_returns hstate).pre ?_
    rintro g s ⟨hg, htraced, ⟨message, hstate', -⟩ | ⟨reference', hstate', hs⟩⟩
    · rw [hstate] at hstate'
      cases hstate'
    · rw [hstate] at hstate'
      cases hstate'
      exact ⟨hg, htraced, hs⟩
  | .immediate none | .sent incarnation | .done =>
    rintro g s ⟨-, -, ⟨message, hstate', -⟩ | ⟨reference', hstate', -⟩⟩
    all_goals
      rw [hstate] at hstate'
      cases hstate'

/-- Withdrawing a parked send. -/
theorem withdraw_returns (disposition : WithdrawalDisposition) (hf : f.state = .parked reference) :
    Returns (At f fun s : Shared M T => s.Traced actorId ∧ s.Parked reference)
      (withdraw disposition) fun outcome g s =>
        g = { f with state := .done } ∧ s.Traced actorId ∧ s.Withdrew (some outcome) := by
  apply Triple.get_bind
  apply Triple.modify_bind
  rw [hf]
  refine Triple.bind (withdrawOperation_returns disposition
    (stable_traced.and (stable_parked reference)) fun s hs => hs) fun outcome => ?_
  match outcome with
  | none =>
    rintro g s ⟨-, -, hfalse⟩
    exact absurd hfalse id
  | some (.withdrawn _ _) | some (.accepted _) | some (.terminated _ _) =>
    apply Triple.expect_bind
    exact Triple.pure_at fun s hs => ⟨rfl, hs⟩

/-- A withdrawal reports the acceptance it found, or hands the message back. -/
def Withdrawn (actorId : ChildId) (result : Except (SendError M) Incarnation) (f : SendFuture M)
    (s : Shared M T) : Prop :=
  f.state = .done ∧ s.Traced actorId ∧
    match result with
    | .ok incarnation => s.AcceptedBy incarnation
    | .error error => (error.kind = .timedOut ∨ error.kind = .terminated) ∧ s.Returned

theorem withdrawSendWith_returns (actorId : ChildId) (disposition : WithdrawalDisposition)
    (hf : f.state = .parked reference) :
    Returns (At f fun s : Shared M T => s.Traced actorId ∧ s.Parked reference)
      (withdrawSendWith disposition) (Withdrawn actorId) := by
  apply Triple.get_bind
  refine Triple.bind (withdraw_returns disposition hf) fun outcome => ?_
  refine Triple.fix fun g => ?_
  match outcome with
  | .withdrawn message observed =>
    apply Triple.pure_at
    rintro s ⟨rfl, htraced, hs⟩
    exact ⟨rfl, htraced, .inl rfl, hs⟩
  | .accepted incarnation =>
    apply Triple.pure_at
    rintro s ⟨rfl, htraced, hs⟩
    exact ⟨rfl, htraced, hs⟩
  | .terminated message observed =>
    apply Triple.pure_at
    rintro s ⟨rfl, htraced, hs⟩
    exact ⟨rfl, htraced, .inr rfl, hs⟩

/-- What a send leaves behind when it reports `result`: it repeats an acceptance
it still knows of, and is spent otherwise. -/
def Finished (actorId : ChildId) (result : Except (SendError M) Incarnation) (f : SendFuture M)
    (s : Shared M T) : Prop :=
  s.Traced actorId ∧ Justified s (.send result) ∧
    (f.Spent ∨ ∃ incarnation, result = .ok incarnation ∧ f.state = .sent incarnation)

theorem pollDeadlined_returns (current : Waker) (budget : Option Instant) (phase : DeadlinePhase) :
    Returns (Live (T := T) actorId) (pollDeadlined (M := M) current budget phase)
      (Deadlined.OperationPolled (Live actorId) (Finished actorId)) := by
  refine Triple.bind (poll_returns actorId current) fun result => ?_
  refine Triple.fix fun f => ?_
  match result with
  | .ready (.ok incarnation) =>
    apply Triple.pure_at
    rintro s ⟨htraced, hstate, hs⟩
    exact ⟨htraced, hs, .inr ⟨incarnation, rfl, hstate⟩⟩
  | .ready (.error error) =>
    apply Triple.pure_at
    rintro s ⟨htraced, hstate, hkind, hs⟩
    exact ⟨htraced, ⟨.inr hkind, .inr hs⟩, .inl (.inr hstate)⟩
  | .pending =>
    dsimp only
    split
    · apply Triple.pure_at
      rintro s ⟨htraced, reference, hstate, hs⟩
      exact ⟨htraced, .inr ⟨reference, hstate, hs⟩⟩
    · match hstate : f.state with
      | .parked reference =>
        refine Triple.bind (Q := Withdrawn actorId)
          (Triple.pre (withdrawSendWith_returns actorId .inline hstate) ?_) fun result => ?_
        · rintro g s ⟨rfl, htraced, reference', hstate', hs⟩
          rw [hstate] at hstate'
          cases hstate'
          exact ⟨rfl, htraced, hs⟩
        · refine Triple.fix fun g => ?_
          match result with
          | .ok incarnation =>
            apply Triple.pure_at
            rintro s ⟨hdone, htraced, hs⟩
            exact ⟨htraced, hs, .inl (.inr hdone)⟩
          | .error error =>
            apply Triple.pure_at
            rintro s ⟨hdone, htraced, hkind, hs⟩
            exact ⟨htraced, ⟨hkind, .inr hs⟩, .inl (.inr hdone)⟩
      | .immediate message | .sent incarnation | .done =>
        rintro g s ⟨-, -, reference', hstate', -⟩
        rw [hstate] at hstate'
        cases hstate'

end Poll

end SendFuture

/-! ### Deadlines -/

namespace Deadlined

/-- The budget is not zero, and a started deadline knows its budget and has its
timer armed until it elapsed. -/
structure Armed (d : Deadlined φ) : Prop where
  width : d.budgetWidth ≠ 0
  captured : d.started = true → ∃ budget, d.budget = some budget ∧
    (d.phase = .initialAttempt → budget.isSome = true → d.timer = true)

/-- The budget is not zero and was captured. -/
structure Started (d : Deadlined φ) : Prop where
  width : d.budgetWidth ≠ 0
  started : d.started = true
  budget : d.budget.isSome = true

variable {ρ : Type} {L : φ → Shared M T → Prop} {R : ρ → φ → Shared M T → Prop}
  {D : DeadlineOperation M T φ ρ} {ceiling : Instant} {current : Waker}

/-- What a poll of the deadline says. -/
def Polled (L : φ → Shared M T → Prop) (R : ρ → φ → Shared M T → Prop) (result : Poll ρ)
    (d : Deadlined φ) (s : Shared M T) : Prop :=
  match result with
  | .ready result => d.Started ∧ R result d.operation s
  | .pending => d.Armed ∧ L d.operation s

theorem start_returns (hL : ∀ f, futureSharing.Stable (L f)) :
    Returns (fun d s => d.Armed ∧ L d.operation s) (start (M := M) (T := T) ceiling)
      fun _ d s => d.Armed ∧ d.Started ∧ L d.operation s := by
  refine Triple.fix fun d => ?_
  apply Triple.get_bind
  split
  · rename_i hstarted
    apply Triple.pure_at
    rintro s ⟨hd, hs⟩
    obtain ⟨budget, hbudget, -⟩ := hd.captured hstarted
    exact ⟨hd, ⟨hd.width, hstarted, by rw [hbudget]; rfl⟩, hs⟩
  · apply Triple.modify_bind
    apply Triple.call_bind (B := fun _ s => d.Armed ∧ L d.operation s)
      ((Sharing.Stable.const _).and (hL _))
    · rintro s answer s' hs ⟨reading, hperform⟩
      cases hperform
      exact hs
    · intro startedAt
      apply Triple.modify_at
      rintro s ⟨hd, hs⟩
      refine ⟨⟨hd.width, fun _ => ⟨_, rfl, ?_⟩⟩, ⟨hd.width, rfl, rfl⟩, hs⟩
      intro _ hsome
      show (d.timer || (d.budgetWidth != 0 && _)) = true
      rw [hsome]
      simp [hd.width]

theorem pollTimer_returns (hL : ∀ f, futureSharing.Stable (L f)) (d : Deadlined φ)
    (hphase : d.phase = .initialAttempt) :
    Returns (At d fun s => d.Armed ∧ d.Started ∧ L d.operation s)
      (pollTimer (M := M) (T := T)) fun _ =>
        At d fun s => d.Armed ∧ d.Started ∧ L d.operation s := by
  intro g s hs
  obtain ⟨rfl, hd, hstarted, hs⟩ := hs
  obtain ⟨budget, hbudget, htimer⟩ := hd.captured hstarted.started
  refine (?_ : Returns (At g fun s => g.Armed ∧ g.Started ∧ L g.operation s) pollTimer fun _ =>
    At g fun s => g.Armed ∧ g.Started ∧ L g.operation s) g s ⟨rfl, hd, hstarted, hs⟩
  apply Triple.get_bind
  rw [hbudget]
  apply Triple.expect_bind
  match budget with
  | none => exact Triple.pure_at fun s hs => ⟨rfl, hs⟩
  | some deadline =>
    dsimp only
    split
    · apply Triple.call_at ((Sharing.Stable.const _).and ((Sharing.Stable.const _).and (hL _)))
      rintro s answer s' hs ⟨reading, hperform⟩
      cases hperform
      exact ⟨rfl, hs⟩
    · rename_i hunarmed
      exact absurd (htimer hphase rfl) hunarmed

/-- A pass of the operation under the deadline. -/
theorem onOperation_returns {m : Polling M T φ (Poll ρ)} (h : Returns L m (OperationPolled L R))
    (d : Deadlined φ) :
    Returns (At d fun s => d.Armed ∧ d.Started ∧ L d.operation s) (onOperation m)
      fun result g s => g.Armed ∧ g.Started ∧ OperationPolled L R result g.operation s := by
  intro g s hs
  obtain ⟨rfl, hd, hstarted, hs⟩ := hs
  refine Triple.focus_at (A := L g.operation) h (fun s hs => hs) ?_ (fun _ _ _ he => he) g s
    ⟨rfl, hs⟩
  intro result f s hs
  exact ⟨⟨hd.width, hd.captured⟩, ⟨hstarted.width, hstarted.started, hstarted.budget⟩, hs⟩

theorem polled_of_operationPolled {result : Poll ρ} {d : Deadlined φ} {s : Shared M T}
    (h : d.Armed ∧ d.Started ∧ OperationPolled L R result d.operation s) :
    Polled L R result d s := by
  obtain ⟨hd, hstarted, hs⟩ := h
  cases result with
  | ready result => exact ⟨hstarted, hs⟩
  | pending => exact ⟨hd, hs⟩

theorem arbitrate_returns (hL : ∀ f, futureSharing.Stable (L f)) (budget : Option Instant)
    (h : ∀ budget phase, Returns L (D.pollDeadlined current budget phase) (OperationPolled L R)) :
    Returns (fun d s => d.Armed ∧ d.Started ∧ L d.operation s) (arbitrate D current budget)
      (Polled L R) := by
  have hpass : ∀ d, Returns (At d fun s => d.Armed ∧ d.Started ∧ L d.operation s)
      (onOperation (D.pollDeadlined current budget .timeoutArbitration)) (Polled L R) := by
    intro d
    refine (onOperation_returns (h budget .timeoutArbitration) d).weaken (fun _ _ hs => hs) ?_
      fun _ _ _ he => he
    exact fun result g s hs => polled_of_operationPolled hs
  refine Triple.fix fun d => ?_
  apply Triple.get_bind
  split
  · rename_i hphase
    refine Triple.bind (pollTimer_returns hL d hphase) fun elapsed => ?_
    cases elapsed with
    | true =>
      apply Triple.modify_bind
      refine (hpass { d with phase := .timeoutArbitration, timer := false }).pre ?_
      rintro g s ⟨hg, hd, hstarted, hs⟩
      obtain ⟨budget, hbudget, -⟩ := hd.captured hstarted.started
      refine ⟨hg, ⟨hd.width, fun _ => ⟨budget, hbudget, fun h => (nomatch h)⟩⟩, ?_, hs⟩
      exact ⟨hstarted.width, hstarted.started, hstarted.budget⟩
    | false => exact Triple.pure_at fun s hs => ⟨hs.1, hs.2.2⟩
  · exact hpass d

/-- **A deadline adds nothing to what its operation says.** -/
theorem poll_returns (ceiling : Instant) (hL : ∀ f, futureSharing.Stable (L f))
    (h : ∀ budget phase, Returns L (D.pollDeadlined current budget phase) (OperationPolled L R)) :
    Returns (fun d s => d.Armed ∧ L d.operation s) (poll D ceiling current) (Polled L R) := by
  refine Triple.bind (start_returns hL) fun _ => ?_
  intro d s hs
  obtain ⟨hd, hstarted, hs⟩ := hs
  obtain ⟨budget, hbudget, -⟩ := hd.captured hstarted.started
  refine (?_ : Returns (At d fun s => d.Armed ∧ d.Started ∧ L d.operation s) _ (Polled L R)) d s
    ⟨rfl, hd, hstarted, hs⟩
  apply Triple.get_bind
  rw [if_neg hd.width, hbudget]
  apply Triple.expect_bind
  refine Triple.bind (onOperation_returns (h budget .initialAttempt) d) fun result => ?_
  refine Triple.fix fun g => ?_
  match result with
  | .ready result =>
    apply Triple.modify_bind
    apply Triple.pure_at
    rintro s ⟨-, hstarted, hs⟩
    exact ⟨⟨hstarted.width, hstarted.started, hstarted.budget⟩, hs⟩
  | .pending =>
    refine (arbitrate_returns hL budget h).pre ?_
    rintro _ s ⟨rfl, hs⟩
    exact hs

end Deadlined

end Shelterwood
