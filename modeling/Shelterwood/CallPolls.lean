/-
Shelterwood/CallPolls.lean

What a poll of a call returns.

A call is fresh, sending or awaiting its reply until it reports a result.  While
its send is polled or withdrawn the receiver of the reply stays as it is, which
is a frame around the send's triples: a send has sections on the mailbox only.
-/
import Shelterwood.FuturePolls

namespace Shelterwood

open Shared Thread

variable {M T φ : Type} {actorId : ChildId}

/-! ### The frame of a send -/

/-- Sections on the mailbox. -/
def Section.OnMailbox (i : Section M) : Prop := ∃ step, i = .mailbox step

section Only

theorem submit_onMailbox (body : M) :
    Only Section.OnMailbox (Polling.submit body : Polling M T φ _) := by
  refine .bind (.call_only ⟨_, rfl⟩) fun answer => ?_
  cases answer <;> first | exact .pure_only _ | exact .throw_only _

theorem pollOperation_onMailbox (reference : OperationRef) (cloned : Option Waker)
    (current : Waker) :
    Only Section.OnMailbox
      (Polling.pollOperation reference cloned current : Polling M T φ _) := by
  refine .bind (.call_only ⟨_, rfl⟩) fun answer => ?_
  cases answer <;> first | exact .pure_only _ | exact .throw_only _

theorem withdrawOperation_onMailbox (reference : OperationRef)
    (disposition : WithdrawalDisposition) :
    Only Section.OnMailbox
      (Polling.withdrawOperation reference disposition : Polling M T φ _) := by
  refine .bind (.call_only ⟨_, rfl⟩) fun answer => ?_
  cases answer <;> first | exact .pure_only _ | exact .throw_only _

theorem currentObservation_onMailbox :
    Only Section.OnMailbox (Polling.currentObservation : Polling M T φ _) := by
  refine .bind (.call_only ⟨_, rfl⟩) fun answer => ?_
  cases answer <;> first | exact .pure_only _ | exact .throw_only _

namespace SendFuture

theorem terminated_onMailbox (message : Posted M) (finalIncarnation : Option Incarnation) :
    Only Section.OnMailbox (terminated (T := T) message finalIncarnation) :=
  .bind .get_only fun _ => .bind (.modify_only _) fun _ => .pure_only _

theorem pollParked_onMailbox (current : Waker) (reference : OperationRef) (rounds : ℕ)
    (cloned : Option Waker) :
    Only Section.OnMailbox (pollParked (M := M) (T := T) current reference rounds cloned) := by
  induction rounds generalizing cloned with
  | zero => exact .throw_only _
  | succ rounds ih =>
    refine .bind (pollOperation_onMailbox reference cloned current) fun result => ?_
    match result with
    | some (.accepted incarnation) => exact .bind (.modify_only _) fun _ => .pure_only _
    | some (.terminated message finalIncarnation) => exact terminated_onMailbox _ _
    | some .pending => exact .pure_only _
    | some .needsWakerClone => exact ih _
    | none => exact ih _

theorem poll_onMailbox (current : Waker) :
    Only Section.OnMailbox (poll (M := M) (T := T) current) := by
  refine .bind .get_only fun f => ?_
  match f.state with
  | .immediate message =>
    refine .bind (.modify_only _) fun _ => .bind (.expect_only _ _) fun message => ?_
    refine .bind (submit_onMailbox message) fun submission => ?_
    match submission with
    | .accepted incarnation => exact .bind (.modify_only _) fun _ => .pure_only _
    | .parked reference =>
      exact .bind (.modify_only _) fun _ => pollParked_onMailbox _ _ _ _
    | .terminated message finalIncarnation => exact terminated_onMailbox _ _
  | .sent incarnation => exact .pure_only _
  | .parked reference => exact pollParked_onMailbox _ _ _ _
  | .done => exact .throw_only _

theorem withdrawSendWith_onMailbox (disposition : WithdrawalDisposition) :
    Only Section.OnMailbox (withdrawSendWith (M := M) (T := T) disposition) := by
  refine .bind .get_only fun f => .bind ?_ fun outcome => ?_
  · refine .bind .get_only fun f => .bind (.modify_only _) fun _ => ?_
    match f.state with
    | .immediate message =>
      exact .bind (.expect_only _ _) fun _ =>
        .bind currentObservation_onMailbox fun _ => .pure_only _
    | .parked reference =>
      refine .bind (withdrawOperation_onMailbox reference disposition) fun outcome =>
        .bind (.expect_only _ _) fun outcome => ?_
      cases outcome <;> exact .pure_only _
    | .sent incarnation => exact .pure_only _
    | .done => exact .throw_only _
  · cases outcome <;> exact .pure_only _

end SendFuture

end Only

variable [TokioOneshot T]

/-- The reply is well formed and its receiver has not closed. -/
def ReplyUnclosed (s : Shared M T) : Prop := s.reply.WellFormed ∧ s.reply.Unclosed

theorem stable_replyUnclosed : futureSharing.Stable (ReplyUnclosed (M := M) (T := T)) := by
  rintro s s' hothers ⟨hw, hu⟩
  obtain hsame | ⟨step, hsends⟩ := sends_of_others hothers
  · exact ⟨hsame ▸ hw, hsame ▸ hu⟩
  · exact ⟨hw.sends hsends, hu.sends hw hsends⟩

/-- Sections on the mailbox leave the reply alone. -/
theorem reply_of_onMailbox {s s' : Shared M T} {i : Section M} {answer : i.Answer M T}
    (hi : i.OnMailbox) (h : futureSharing.perform s i answer s') : s'.reply = s.reply := by
  obtain ⟨step, rfl⟩ := hi
  obtain ⟨t, output, hsection, -, rfl⟩ := perform_mailbox h
  obtain ⟨mailbox, -, rfl⟩ := mailboxSection_eq_some hsection
  unfold Shared.remember
  split <;> rfl

/-- A send leaves the reply's receiver unclosed. -/
theorem frame_replyUnclosed {α : Type} {P : φ → Shared M T → Prop} {m : Polling M T φ α}
    {Q : α → φ → Shared M T → Prop} (h : Returns P m Q) (honly : Only Section.OnMailbox m) :
    Returns (fun f s => P f s ∧ ReplyUnclosed s) m fun a f s => Q a f s ∧ ReplyUnclosed s := by
  refine h.frame honly stable_replyUnclosed ?_
  rintro i hi s answer s' hs hperform
  rw [ReplyUnclosed, reply_of_onMailbox hi hperform]
  exact hs

/-! ### Closing the reply -/

/-- The message was not accepted, and the history is sound. -/
def Refused (actorId : ChildId) (s : Shared M T) : Prop := s.Traced actorId ∧ s.Denied

theorem stable_refused : futureSharing.Stable (Refused (M := M) (T := T) actorId) :=
  stable_traced.and stable_denied

/-- A section on the reply leaves the refusal alone. -/
theorem Refused.setReply {s : Shared M T} (h : Refused actorId s) {reply : OneShot T}
    (hreply : reply.WellFormed) : Refused actorId { s with reply } :=
  ⟨h.1.setReply hreply, h.2.extends (.of_reply _)⟩

theorem receiver_close (actorId : ChildId) (r : OneShotReceiver) :
    Returns (At r (Refused actorId)) (OneShotReceiver.close (M := M) (T := T)) fun _ =>
      At r (Refused actorId) := by
  apply Triple.call_bind (B := fun _ s => Refused actorId s) stable_refused
  · intro s answer s' hs hperform
    obtain ⟨-, rfl⟩ := perform_closeTransition hperform
    exact hs.setReply hs.1.reply.exchange
  · intro _
    apply Triple.call_bind (B := fun _ s => Refused actorId s) stable_refused
    · intro s answer s' hs hperform
      obtain rfl := perform_closeChannel hperform
      exact hs.setReply hs.1.reply.close
    · intro _
      exact Triple.pure_at fun s hs => ⟨rfl, hs⟩

theorem receiver_closeAndTake (actorId : ChildId) (r : OneShotReceiver) :
    Returns (At r (Refused actorId)) (OneShotReceiver.closeAndTake (M := M) (T := T)) fun _ _ s =>
      Refused actorId s := by
  refine Triple.bind (receiver_close actorId r) fun _ => ?_
  apply Triple.call_bind (B := fun _ s => Refused actorId s) stable_refused
  · rintro s answer s' hs ⟨reading, hperform⟩
    cases hperform
    exact hs.setReply hs.1.reply.tryRecv
  · intro _
    apply Triple.modify_bind
    exact Triple.pure_at fun s hs => hs

theorem disposing_close (actorId : ChildId) (d : DisposingReceiver) :
    Returns (At d (Refused actorId)) (DisposingReceiver.close (M := M) (T := T)) fun _ _ s =>
      Refused actorId s := by
  refine Triple.focus_bind (receiver_close actorId d.inner) (fun s hs => ⟨rfl, hs⟩)
    (fun _ _ _ he => he) fun _ r => ?_
  exact Triple.modify_at fun s hs => hs.2

theorem disposing_drop (actorId : ChildId) (d : DisposingReceiver) :
    Returns (At d (Refused actorId)) (DisposingReceiver.drop (M := M) (T := T)) fun _ _ s =>
      Refused actorId s := by
  refine Triple.focus_bind (receiver_closeAndTake actorId d.inner)
    (fun s hs => ⟨rfl, hs⟩) (fun _ _ _ he => he) fun _ r => ?_
  exact Triple.modify_at fun s hs => hs

/-! ### Calls -/

namespace CallOperation

/-- The call has not returned a result yet. -/
inductive Live (actorId : ChildId) (c : CallOperation M) (s : Shared M T) : Prop
  | fresh (makeMsg : Reply → M) (unstarted : c.makeMsg = some makeMsg)
      (unaccepted : c.accepted = none) (unsent : c.send = none) (traced : s.Traced actorId)
      (unsubmitted : s.Unsubmitted)
  | sending (reply : DisposingReceiver) (send : SendFuture M) (started : c.makeMsg = none)
      (unaccepted : c.accepted = none) (receiver : c.reply = some reply)
      (open_ : reply.inner = ⟨false⟩) (sent : c.send = some send) (live : send.Live actorId s)
      (unclosed : ReplyUnclosed s)
  | awaiting (incarnation : Incarnation) (reply : DisposingReceiver) (started : c.makeMsg = none)
      (accepted : c.accepted = some incarnation) (receiver : c.reply = some reply)
      (open_ : reply.inner = ⟨false⟩) (awaiting : Awaiting actorId incarnation s)

/-- Another poll panics. -/
def Spent (c : CallOperation M) : Prop :=
  c.makeMsg = none ∧
    ((∃ incarnation reply, c.accepted = some incarnation ∧ c.reply = some reply ∧
        reply.inner = ⟨true⟩) ∨
      (c.accepted = none ∧ ∀ send, c.send = some send → send.Spent))

/-- What a call leaves behind when it reports `result`. -/
def Finished (actorId : ChildId) (result : Except CallError (Replied T)) (c : CallOperation M)
    (s : Shared M T) : Prop :=
  s.Traced actorId ∧ Justified s (.call result) ∧ c.Spent

theorem stable_live (c : CallOperation M) :
    futureSharing.Stable (Live (T := T) actorId c) := by
  intro s s' hothers hs
  cases hs with
  | fresh makeMsg unstarted unaccepted unsent traced unsubmitted =>
    exact .fresh makeMsg unstarted unaccepted unsent (stable_traced s s' hothers traced)
      (stable_unsubmitted s s' hothers unsubmitted)
  | sending reply send started unaccepted receiver open_ sent live unclosed =>
    exact .sending reply send started unaccepted receiver open_ sent
      (SendFuture.stable_live send s s' hothers live) (stable_replyUnclosed s s' hothers unclosed)
  | awaiting incarnation reply started accepted receiver open_ awaiting =>
    exact .awaiting incarnation reply started accepted receiver open_
      (stable_awaiting incarnation s s' hothers awaiting)

/-- What a poll of a call says. -/
abbrev Polled (actorId : ChildId) : Poll (Except CallError (Replied T)) → CallOperation M →
    Shared M T → Prop :=
  Deadlined.OperationPolled (Live actorId) (Finished actorId)

section Poll

variable {c : CallOperation M} {reply : DisposingReceiver} {incarnation : Incarnation}

/-- An accepted call polls its reply. -/
theorem pollReply_returns (phase : DeadlinePhase) (hstarted : c.makeMsg = none)
    (haccepted : c.accepted = some incarnation) (hreply : c.reply = some reply)
    (hinner : reply.inner = ⟨false⟩) :
    Returns (At c (Awaiting (T := T) actorId incarnation)) (pollReply incarnation phase)
      (Polled actorId) := by
  apply Triple.get_bind
  rw [hreply]
  apply Triple.expect_bind
  refine Triple.focus_bind (disposing_pollReply actorId incarnation phase)
    (fun s hs => ⟨hinner, hs⟩) (fun _ _ _ he => he) fun result d => ?_
  have hspent : d.inner = ⟨true⟩ → Spent { c with reply := some d } :=
    fun hd => ⟨hstarted, .inl ⟨incarnation, d, haccepted, rfl, hd⟩⟩
  match result with
  | .ready (.value value) =>
    apply Triple.pure_at
    rintro s ⟨hd, htraced, hs, hwon⟩
    exact ⟨htraced, ⟨hs, hwon⟩, hspent hd⟩
  | .ready .senderClosed =>
    apply Triple.pure_at
    rintro s ⟨hd, htraced, hs⟩
    exact ⟨htraced, ⟨incarnation, rfl, hs⟩, hspent hd⟩
  | .ready .timedOut =>
    apply Triple.pure_at
    rintro s ⟨hd, htraced, hs, hunanswered⟩
    exact ⟨htraced, ⟨incarnation, rfl, hs, hunanswered⟩, hspent hd⟩
  | .pending =>
    apply Triple.pure_at
    rintro s ⟨hd, hs⟩
    exact .awaiting incarnation d hstarted haccepted rfl hd hs

/-- The three fields that say whether a call is spent. -/
def SameProgress (c g : CallOperation M) : Prop :=
  g.makeMsg = c.makeMsg ∧ g.accepted = c.accepted ∧ g.send = c.send

theorem closeReply_returns (c : CallOperation M) :
    Returns (At c (Refused (T := T) actorId)) closeReply fun _ g s =>
      SameProgress c g ∧ Refused actorId s := by
  apply Triple.get_bind
  match c.reply with
  | some reply =>
    refine Triple.focus_at (disposing_close actorId reply) (fun s hs => ⟨rfl, hs⟩)
      (fun _ _ _ hs => ⟨⟨rfl, rfl, rfl⟩, hs⟩) fun _ _ _ he => he
  | none => exact Triple.pure_at fun s hs => ⟨⟨rfl, rfl, rfl⟩, hs⟩

/-- A call whose send failed reports a refusal. -/
theorem failSend_returns {error : SendError M} {kind : CallErrorKind}
    (hkind : kind = .terminated ∨ kind = .acceptanceTimedOut) (hstarted : c.makeMsg = none)
    (hunaccepted : c.accepted = none) (hspent : ∀ send, c.send = some send → send.Spent) :
    Returns (At c (Refused (T := T) actorId)) (failSend error kind) (Polled actorId) := by
  refine Triple.bind (closeReply_returns c) fun _ => ?_
  refine Triple.fix fun g => ?_
  apply Triple.pure_at
  rintro s ⟨⟨hmake, haccepted, hsend⟩, htraced, hdenied⟩
  refine ⟨htraced, ?_, hmake.trans hstarted, .inr ⟨haccepted.trans hunaccepted, ?_⟩⟩
  · obtain rfl | rfl := hkind
    · exact hdenied
    · exact hdenied
  · intro send hsome
    exact hspent send (hsend ▸ hsome)

/-- The second pass withdraws the send, and learns whether it was accepted. -/
theorem withdrawPhase_returns {send : SendFuture M} {reference : OperationRef}
    (hstarted : c.makeMsg = none) (hunaccepted : c.accepted = none)
    (hreply : c.reply = some reply) (hinner : reply.inner = ⟨false⟩) (hsend : c.send = some send)
    (hstate : send.state = .parked reference) :
    Returns (At c fun s : Shared M T => (s.Traced actorId ∧ s.Parked reference) ∧ ReplyUnclosed s)
      withdrawPhase (Polled actorId) := by
  apply Triple.get_bind
  rw [hsend]
  apply Triple.expect_bind
  refine Triple.focus_bind (frame_replyUnclosed
    (SendFuture.withdrawSendWith_returns actorId .isolated hstate)
    (SendFuture.withdrawSendWith_onMailbox _)) (fun s hs => ⟨⟨rfl, hs.1⟩, hs.2⟩)
    (fun _ _ _ he => he) fun result f => ?_
  apply Triple.modify_bind
  match result with
  | .ok incarnation =>
    apply Triple.modify_bind
    refine (pollReply_returns (c := { c with send := none, accepted := some incarnation })
      .timeoutArbitration hstarted rfl hreply hinner).pre ?_
    rintro g s ⟨rfl, ⟨-, htraced, hs⟩, hunclosed⟩
    exact ⟨rfl, htraced, hs, hunclosed.2⟩
  | .error error =>
    have hnone : ∀ send' : SendFuture M, none = some send' → send'.Spent := fun _ h => (nomatch h)
    match hkind : error.kind with
    | .timedOut | .terminated =>
      simp only [hkind]
      refine (failSend_returns (c := { c with send := none }) (by simp) hstarted hunaccepted
        hnone).pre ?_
      rintro g s ⟨rfl, ⟨-, htraced, -, hs⟩, -⟩
      exact ⟨rfl, htraced, .inr hs⟩
    | .notRunning | .full =>
      rintro g s ⟨-, ⟨-, -, hcases, -⟩, -⟩
      rw [hkind] at hcases
      obtain hcases | hcases := hcases <;> cases hcases

/-- A call that was not accepted yet polls its send. -/
theorem sendPhase_returns {send : SendFuture M} (current : Waker) (phase : DeadlinePhase)
    (hstarted : c.makeMsg = none) (hunaccepted : c.accepted = none)
    (hreply : c.reply = some reply) (hinner : reply.inner = ⟨false⟩) (hsend : c.send = some send) :
    Returns (At c fun s : Shared M T => send.Live actorId s ∧ ReplyUnclosed s)
      (sendPhase current phase) (Polled actorId) := by
  apply Triple.get_bind
  rw [hsend]
  apply Triple.expect_bind
  refine Triple.focus_bind (frame_replyUnclosed (SendFuture.poll_returns actorId
    current) (SendFuture.poll_onMailbox current)) (fun s hs => hs) (fun _ _ _ he => he)
    fun result f => ?_
  match result with
  | .ready (.ok incarnation) =>
    apply Triple.modify_bind
    refine (pollReply_returns (c := { c with send := none, accepted := some incarnation })
      phase hstarted rfl hreply hinner).pre ?_
    rintro g s ⟨rfl, ⟨htraced, -, hs⟩, hunclosed⟩
    exact ⟨rfl, htraced, hs, hunclosed.2⟩
  | .ready (.error error) =>
    match hstate : f.state with
    | .done =>
      refine (failSend_returns (c := { c with send := some f }) (.inl rfl) hstarted hunaccepted
        ?_).pre ?_
      · intro send' hsome
        cases hsome
        exact .inr hstate
      · rintro g s ⟨rfl, ⟨htraced, -, -, hs⟩, -⟩
        exact ⟨rfl, htraced, .inr hs⟩
    | .immediate message | .parked reference | .sent incarnation =>
      rintro g s ⟨-, ⟨-, hdone, -⟩, -⟩
      rw [hstate] at hdone
      cases hdone
  | .pending =>
    dsimp only
    match hstate : f.state with
    | .parked reference =>
      have hpending : ∀ s : Shared M T, SendFuture.Polled actorId .pending f s ∧
          ReplyUnclosed s → (s.Traced actorId ∧ s.Parked reference) ∧ ReplyUnclosed s := by
        rintro s ⟨⟨htraced, reference', hstate', hs⟩, hunclosed⟩
        rw [hstate] at hstate'
        cases hstate'
        exact ⟨⟨htraced, hs⟩, hunclosed⟩
      split
      · apply Triple.pure_at
        intro s hs
        obtain ⟨⟨htraced, hs⟩, hunclosed⟩ := hpending s hs
        exact .sending reply f hstarted hunaccepted hreply hinner rfl
          ⟨htraced, .inr ⟨reference, hstate, hs⟩⟩ hunclosed
      · refine (withdrawPhase_returns (c := { c with send := some f }) hstarted hunaccepted
          hreply hinner rfl hstate).pre ?_
        rintro g s ⟨hg, hs⟩
        exact ⟨hg, hpending s hs⟩
    | .immediate message | .sent incarnation | .done =>
      rintro g s ⟨-, ⟨-, reference', hstate', -⟩, -⟩
      rw [hstate] at hstate'
      cases hstate'

theorem shortCircuit_returns (actorId : ChildId) (c : CallOperation M) :
    Returns (At c fun s : Shared M T => s.Traced actorId ∧ s.Unsubmitted) shortCircuit
      fun result => At c fun s => Refused actorId s ∧
        ∃ observed, result = .error ⟨c.actorId, observed, .acceptanceTimedOut⟩ := by
  apply Triple.get_bind
  refine Triple.bind (currentObservation_returns (stable_traced.and stable_unsubmitted)
    fun s hs => ⟨hs.1, .inl hs.2⟩) fun observed => ?_
  exact Triple.pure_at fun s hs => ⟨rfl, hs, observed, rfl⟩

/-- The first poll builds the message, and starts no send once the budget is
over. -/
theorem construct_returns {makeMsg : Reply → M} (current : Waker) (budget : Option Instant)
    (phase : DeadlinePhase) (hunaccepted : c.accepted = none) (hunsent : c.send = none) :
    Returns (At c fun s : Shared M T => s.Traced actorId ∧ s.Unsubmitted)
      (construct current budget phase makeMsg) (Polled actorId) := by
  obtain ⟨id, make, send, reply, accepted⟩ := c
  obtain rfl : accepted = none := hunaccepted
  obtain rfl : send = none := hunsent
  have hstable : futureSharing.Stable fun s : Shared M T =>
      (s.Traced actorId ∧ s.Unsubmitted) ∧ ReplyUnclosed s :=
    (stable_traced.and stable_unsubmitted).and stable_replyUnclosed
  apply Triple.call_bind (B := fun _ s => (s.Traced actorId ∧ s.Unsubmitted) ∧ ReplyUnclosed s)
    (stable_traced.and stable_unsubmitted)
  · rintro s answer s' ⟨htraced, hs⟩ ⟨reading, hperform⟩
    cases hperform
    exact ⟨⟨htraced.setReply OneShot.wellFormed_oneshot, hs⟩, OneShot.wellFormed_oneshot,
      OneShot.unclosed_oneshot⟩
  · intro _
    apply Triple.modify_bind
    apply Triple.call_bind (B := fun _ s => (s.Traced actorId ∧ s.Unsubmitted) ∧ ReplyUnclosed s)
      hstable
    · rintro s answer s' hs ⟨reading, hperform⟩
      cases hperform
      exact hs
    · intro now
      split
      · refine Triple.bind (Triple.pre (shortCircuit_returns actorId
          ⟨id, none, none, reply, none⟩) ?_) fun result => ?_
        · rintro g s ⟨rfl, hs, -⟩
          exact ⟨rfl, hs⟩
        · rintro g s ⟨rfl, hs, observed, rfl⟩
          refine (?_ : Returns (At _ (Refused actorId)) _ (Polled actorId)) _ s ⟨rfl, hs⟩
          refine Triple.focus_bind (disposing_drop actorId .new) (fun s hs => ⟨rfl, hs⟩)
            (fun _ _ _ he => he) fun _ _ => ?_
          apply Triple.pure_at
          rintro s ⟨htraced, hdenied⟩
          exact ⟨htraced, hdenied, rfl, .inr ⟨rfl, fun _ h => (nomatch h)⟩⟩
      · apply Triple.modify_bind
        apply Triple.get_bind
        refine (sendPhase_returns (c := ⟨id, none, some (.new id (makeMsg .mk)), some .new, none⟩)
          current phase rfl rfl rfl rfl rfl).pre ?_
        rintro g s ⟨hg, ⟨htraced, hs⟩, hunclosed⟩
        exact ⟨hg, ⟨htraced, .inl ⟨_, rfl, hs⟩⟩, hunclosed⟩

theorem pollDeadlined_returns (current : Waker) (budget : Option Instant) (phase : DeadlinePhase) :
    Returns (Live (T := T) actorId) (pollDeadlined (M := M) current budget phase)
      (Polled actorId) := by
  intro c s hs
  cases hs with
  | fresh makeMsg unstarted unaccepted unsent traced unsubmitted =>
    refine (?_ : Returns (At c fun s => s.Traced actorId ∧ s.Unsubmitted) _ _) c s
      ⟨rfl, traced, unsubmitted⟩
    apply Triple.get_bind
    rw [unstarted]
    exact construct_returns current budget phase unaccepted unsent
  | sending reply send started unaccepted receiver open_ sent live unclosed =>
    refine (?_ : Returns (At c fun s => send.Live actorId s ∧ ReplyUnclosed s) _ _) c s
      ⟨rfl, live, unclosed⟩
    apply Triple.get_bind
    rw [started]
    apply Triple.get_bind
    rw [unaccepted]
    exact sendPhase_returns current phase started unaccepted receiver open_ sent
  | awaiting incarnation reply started accepted receiver open_ awaiting =>
    refine (?_ : Returns (At c (Awaiting actorId incarnation)) _ _) c s ⟨rfl, awaiting⟩
    apply Triple.get_bind
    rw [started]
    apply Triple.get_bind
    rw [accepted]
    exact pollReply_returns phase started accepted receiver open_

end Poll

end CallOperation

end Shelterwood
