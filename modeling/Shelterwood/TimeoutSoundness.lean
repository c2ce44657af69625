/-
Shelterwood/TimeoutSoundness.lean

The results of deadline-bearing sends and calls are sound.

A future that has not reported is live: its polls report justified results and
do not panic.  One that has reported is spent, and its polls panic before any
section; only a send that remembers its acceptance reports again, and the same.
So the results of a run are justified at every later point of it, whatever the
rest of the system does.
-/
import Shelterwood.CallPolls

namespace Shelterwood

open Shared Thread

variable {M T φ : Type} {actorId : ChildId}

/-! ### Spent futures -/

section Spent

variable {current : Waker} {ceiling : Instant}

variable {f : SendFuture M}

theorem SendFuture.poll_spent (current : Waker) (h : f.Spent) :
    ∃ message, (SendFuture.poll (T := T) current).runFrom f = .pure (.error message, f) := by
  obtain ⟨id, state⟩ := f
  obtain rfl | rfl : state = .immediate none ∨ state = .done := h
  · exact ⟨_, rfl⟩
  · exact ⟨_, rfl⟩

theorem SendFuture.pollDeadlined_spent (h : f.Spent) (budget : Option Instant)
    (phase : DeadlinePhase) :
    ∃ message, (SendFuture.pollDeadlined (T := T) current budget phase).runFrom f =
      .pure (.error message, f) := by
  obtain ⟨message, hpoll⟩ := SendFuture.poll_spent (T := T) current h
  exact ⟨message, runFrom_bind_of_error hpoll⟩

theorem SendFuture.pollDeadlined_sent {incarnation : Incarnation} (h : f.state = .sent incarnation)
    (budget : Option Instant) (phase : DeadlinePhase) :
    (SendFuture.pollDeadlined (T := T) current budget phase).runFrom f =
      .pure (.ok (.ready (.ok incarnation)), f) := by
  obtain ⟨id, state⟩ := f
  obtain rfl : state = .sent incarnation := h
  rfl

theorem DisposingReceiver.pollReceive_spent {d : DisposingReceiver} (h : d.inner = ⟨true⟩) :
    ∃ message, (DisposingReceiver.pollReceive (M := M) (T := T)).runFrom d =
      .pure (.error message, d) := by
  obtain ⟨inner, proxy⟩ := d
  obtain rfl : inner = ⟨true⟩ := h
  cases proxy with
  | true | false => exact ⟨_, rfl⟩

variable {c : CallOperation M}

theorem CallOperation.pollReply_spent {d : DisposingReceiver} (hreply : c.reply = some d)
    (h : d.inner = ⟨true⟩) (incarnation : Incarnation) (phase : DeadlinePhase) :
    ∃ message, (CallOperation.pollReply (T := T) incarnation phase).runFrom c =
      .pure (.error message, c) := by
  obtain ⟨id, makeMsg, send, reply, accepted⟩ := c
  obtain rfl : reply = some d := hreply
  obtain ⟨message, hpoll⟩ := DisposingReceiver.pollReceive_spent (M := M) (T := T) h
  refine ⟨message, ?_⟩
  unfold CallOperation.pollReply
  rw [runFrom_get_bind, runFrom_expect_bind]
  exact runFrom_bind_of_error (runFrom_focus (runFrom_bind_of_error hpoll))

theorem CallOperation.sendPhase_spent (h : ∀ f, c.send = some f → f.Spent) (current : Waker)
    (phase : DeadlinePhase) :
    ∃ message, (CallOperation.sendPhase (T := T) current phase).runFrom c =
      .pure (.error message, c) := by
  obtain ⟨id, makeMsg, send, reply, accepted⟩ := c
  cases send with
  | none => exact ⟨_, rfl⟩
  | some f =>
    obtain ⟨message, hpoll⟩ := SendFuture.poll_spent (T := T) current (h f rfl)
    refine ⟨message, ?_⟩
    unfold CallOperation.sendPhase
    rw [runFrom_get_bind, runFrom_expect_bind]
    exact runFrom_bind_of_error (runFrom_focus hpoll)

theorem CallOperation.pollDeadlined_spent (h : c.Spent) (budget : Option Instant)
    (phase : DeadlinePhase) :
    ∃ message, (CallOperation.pollDeadlined (T := T) current budget phase).runFrom c =
      .pure (.error message, c) := by
  obtain ⟨hstarted, ⟨incarnation, d, haccepted, hreply, hinner⟩ | ⟨haccepted, hspent⟩⟩ := h
  · obtain ⟨message, hpoll⟩ :=
      CallOperation.pollReply_spent (T := T) hreply hinner incarnation phase
    refine ⟨message, ?_⟩
    unfold CallOperation.pollDeadlined CallOperation.progress
    rw [runFrom_get_bind, hstarted]
    dsimp only
    rw [runFrom_get_bind, haccepted]
    exact hpoll
  · obtain ⟨message, hpoll⟩ := CallOperation.sendPhase_spent (T := T) hspent current phase
    refine ⟨message, ?_⟩
    unfold CallOperation.pollDeadlined CallOperation.progress
    rw [runFrom_get_bind, hstarted]
    dsimp only
    rw [runFrom_get_bind, haccepted]
    exact hpoll

variable {ρ : Type} {D : DeadlineOperation M T φ ρ} {d : Deadlined φ}

/-- A started deadline goes straight to its operation. -/
theorem Deadlined.poll_started (D : DeadlineOperation M T φ ρ) (ceiling : Instant)
    (current : Waker) (hd : d.Started) :
    ∃ budget, (Deadlined.poll D ceiling current).runFrom d =
      (Deadlined.attempt D current budget).runFrom d := by
  obtain ⟨operation, width, budget, timer, started, phase⟩ := d
  obtain ⟨hwidth, hstarted, hbudget⟩ := hd
  obtain rfl : started = true := hstarted
  obtain ⟨budget, rfl⟩ := Option.isSome_iff_exists.mp hbudget
  refine ⟨budget, ?_⟩
  show Thread.runFrom (if width = 0 then _ else _) _ = _
  rw [if_neg hwidth]
  rfl

theorem Deadlined.poll_spent (ceiling : Instant) (current : Waker) (hd : d.Started)
    (h : ∀ budget, ∃ message, (D.pollDeadlined current budget .initialAttempt).runFrom
      d.operation = .pure (.error message, d.operation)) :
    ∃ message, (Deadlined.poll D ceiling current).runFrom d = .pure (.error message, d) := by
  obtain ⟨budget, hpoll⟩ := Deadlined.poll_started D ceiling current hd
  obtain ⟨message, hmessage⟩ := h budget
  refine ⟨message, hpoll.trans ?_⟩
  exact runFrom_bind_of_error (runFrom_focus hmessage)

theorem Deadlined.poll_ready (ceiling : Instant) (current : Waker) (hd : d.Started) {result : ρ}
    (h : ∀ budget, (D.pollDeadlined current budget .initialAttempt).runFrom d.operation =
      .pure (.ok (.ready result), d.operation)) :
    (Deadlined.poll D ceiling current).runFrom d =
      .pure (.ok (.ready result), { d with timer := false }) := by
  obtain ⟨budget, hpoll⟩ := Deadlined.poll_started D ceiling current hd
  refine hpoll.trans ?_
  exact runFrom_bind_of_ok (runFrom_focus (h budget))

end Spent

/-! ### What keeps a result justified -/

section Justified

variable [TokioOneshot T] {s s' : Shared M T}

theorem Justified.mono {result : ClientResult M T} (h : Justified s result) (he : Extends s s')
    (hwon : ∀ value, s.reply.won = some value → s'.reply.won = some value)
    (hunanswered : s.reply.Unanswered → s'.reply.Unanswered) : Justified s' result := by
  match result with
  | .send (.ok incarnation) => exact AcceptedBy.extends h he
  | .send (.error error) => exact ⟨h.1, h.2.extends he⟩
  | .call (.ok replied) => exact ⟨h.1.extends he, hwon _ h.2⟩
  | .call (.error ⟨id, observed, .terminated⟩)
  | .call (.error ⟨id, observed, .acceptanceTimedOut⟩) => exact Denied.extends h he
  | .call (.error ⟨id, observed, .replyDropped⟩) =>
    obtain ⟨incarnation, hobserved, haccepted⟩ := h
    exact ⟨incarnation, hobserved, haccepted.extends he⟩
  | .call (.error ⟨id, observed, .responseTimedOut⟩) =>
    obtain ⟨incarnation, hobserved, haccepted, hreply⟩ := h
    exact ⟨incarnation, hobserved, haccepted.extends he, hunanswered hreply⟩

theorem stable_justified (result : ClientResult M T) :
    futureSharing.Stable fun s : Shared M T => s.Traced actorId ∧ Justified s result := by
  rintro s s' hothers ⟨htraced, hs⟩
  refine ⟨stable_traced s s' hothers htraced, hs.mono (extends_of_others hothers) ?_ ?_⟩
  · exact fun value hwon => (stable_won value s s' hothers ⟨htraced, hwon⟩).2
  · exact stable_unanswered s s' hothers

/-- A section that neither submits a message nor opens a reply. -/
def Section.Passive : Section M → Prop
  | .mailbox (.submit _) | .openReply => False
  | _ => True

/-- What a passive section leaves alone. -/
structure Kept (s s' : Shared M T) : Prop where
  extends_ : Extends s s'
  traced : ∀ actorId, s.Traced actorId → s'.Traced actorId
  won : s'.reply.won = s.reply.won
  unanswered : s.reply.Unanswered → s'.reply.Unanswered

theorem kept_of_passive {i : Section M} {answer : i.Answer M T} (hi : i.Passive)
    (h : futureSharing.perform s i answer s') : Kept s s' := by
  cases i with
  | mailbox step =>
    obtain ⟨t, output, hsection, -, rfl⟩ := perform_mailbox h
    have hsame : t.remember s.mailbox step output.result = t := by
      cases step with
      | submit body => exact hi.elim
      | trySend | poll | withdraw | receive | acceptedSequence | currentObservation | configure
      | bind | freeze | close | prepareTermination | clearRegistration | terminate => rfl
    rw [hsame]
    have hreply : t.reply = s.reply := by
      obtain ⟨mailbox, -, rfl⟩ := mailboxSection_eq_some hsection
      rfl
    exact ⟨Extends.mailboxSection hsection, fun _ ht => Traced.mailboxSection ht hsection,
      congrArg _ hreply, fun hu => hreply ▸ hu⟩
  | openReply => exact hi.elim
  | pollChannel =>
    obtain ⟨reading, h⟩ := h
    cases h
    exact ⟨.of_reply _, fun _ ht => ht.setReply ht.reply.poll, rfl, fun hu => ⟨hu.state, hu.won⟩⟩
  | closeTransition =>
    obtain ⟨-, rfl⟩ := perform_closeTransition h
    exact ⟨.of_reply _, fun _ ht => ht.setReply ht.reply.exchange, OneShot.exchange_won _,
      OneShot.Unanswered.exchange⟩
  | closeChannel =>
    obtain rfl := perform_closeChannel h
    exact ⟨.of_reply _, fun _ ht => ht.setReply ht.reply.close, rfl, fun hu => ⟨hu.state, hu.won⟩⟩
  | tryRecv =>
    obtain ⟨reading, h⟩ := h
    cases h
    exact ⟨.of_reply _, fun _ ht => ht.setReply ht.reply.tryRecv, rfl,
      fun hu => ⟨hu.state, hu.won⟩⟩
  | pollTimer | now =>
    obtain ⟨reading, h⟩ := h
    cases h
    exact ⟨.of_reply _, fun _ => id, rfl, id⟩

theorem passive_or_starts (i : Section M) :
    i.Passive ∨ (∃ body, i = .mailbox (.submit body)) ∨ i = .openReply := by
  cases i with
  | mailbox step =>
    cases step with
    | submit body => exact .inr (.inl ⟨body, rfl⟩)
    | trySend | poll | withdraw | receive | acceptedSequence | currentObservation | configure
    | bind | freeze | close | prepareTermination | clearRegistration | terminate =>
      exact .inl trivial
  | openReply => exact .inr (.inr rfl)
  | pollChannel | closeTransition | closeChannel | tryRecv | pollTimer | now => exact .inl trivial

theorem Shared.Traced.perform {i : Section M} {answer : i.Answer M T} (ht : s.Traced actorId)
    (h : futureSharing.perform s i answer s') : s'.Traced actorId := by
  obtain hi | ⟨body, rfl⟩ | rfl := passive_or_starts i
  · exact (kept_of_passive hi h).traced actorId ht
  · obtain ⟨-, -, htraced, -⟩ := submit_answer ht h
    exact htraced
  · obtain ⟨reading, h⟩ := h
    cases h
    exact ht.setReply OneShot.wellFormed_oneshot

/-- No section of the future makes a reply win. -/
theorem won_of_perform {i : Section M} {answer : i.Answer M T} {value : T}
    (h : futureSharing.perform s i answer s') (hwon : s'.reply.won = some value) :
    s.reply.won = some value := by
  obtain hi | ⟨body, rfl⟩ | rfl := passive_or_starts i
  · exact (kept_of_passive hi h).won ▸ hwon
  · exact reply_of_onMailbox ⟨_, rfl⟩ h ▸ hwon
  · obtain ⟨reading, h⟩ := h
    cases h
    cases hwon

end Justified

/-! ### Cancellation -/

section Drop

theorem withdrawOperation_passive (reference : OperationRef)
    (disposition : WithdrawalDisposition) :
    Only Section.Passive
      (Polling.withdrawOperation reference disposition : Polling M T φ _) := by
  refine .bind (.call_only trivial) fun answer => ?_
  cases answer <;> first | exact .pure_only _ | exact .throw_only _

theorem SendFuture.drop_passive : Only Section.Passive (SendFuture.drop (M := M) (T := T)) := by
  refine .bind .get_only fun f => .bind (.modify_only _) fun _ => ?_
  match f.state with
  | .parked reference =>
    exact .bind (withdrawOperation_passive reference .isolated) fun _ => .pure_only _
  | .immediate _ | .sent _ | .done => exact .pure_only _

theorem DisposingReceiver.drop_passive :
    Only Section.Passive (DisposingReceiver.drop (M := M) (T := T)) := by
  refine .bind (.focus_only (.bind (.bind (.call_only trivial) fun _ =>
    .bind (.call_only trivial) fun _ => .pure_only _) fun _ => ?_)) fun _ => .modify_only _
  exact .bind (.call_only trivial) fun _ => .bind (.modify_only _) fun _ => .pure_only _

theorem CallOperation.drop_passive :
    Only Section.Passive (CallOperation.drop (M := M) (T := T)) := by
  refine .bind .get_only fun c => ?_
  obtain ⟨id, makeMsg, send, reply, accepted⟩ := c
  cases send with
  | none =>
    cases reply with
    | none => exact .pure_only _
    | some reply => exact .focus_only DisposingReceiver.drop_passive
  | some send =>
    refine .bind (.focus_only SendFuture.drop_passive) fun _ => ?_
    cases reply with
    | none => exact .pure_only _
    | some reply => exact .focus_only DisposingReceiver.drop_passive

/-- Cancellation submits nothing and opens no reply. -/
theorem ClientFuture.drop_passive (future : ClientFuture M) :
    (future.drop (T := T)).Only Section.Passive := by
  cases future with
  | send d => exact Routine.Only.bind (SendFuture.drop_passive d.operation) fun _ => trivial
  | call d => exact Routine.Only.bind (CallOperation.drop_passive d.operation) fun _ => trivial

end Drop

variable [TokioOneshot T]

/-! ### A future between two polls -/

/-- Where a future is between two polls that reported `results`. -/
inductive ClientFuture.Rest (actorId : ChildId) (s : Shared M T) :
    ClientFuture M → List (ClientResult M T) → Prop
  | sending {d : Deadlined (SendFuture M)} (armed : d.Armed) (live : d.operation.Live actorId s) :
      Rest actorId s (.send d) []
  | sent {d : Deadlined (SendFuture M)} {incarnation : Incarnation}
      {results : List (ClientResult M T)} (started : d.Started) (traced : s.Traced actorId)
      (state : d.operation.state = .sent incarnation) (accepted : s.AcceptedBy incarnation)
      (same : ∀ r ∈ results, r = .send (.ok incarnation)) : Rest actorId s (.send d) results
  | sendSpent {d : Deadlined (SendFuture M)} {result : ClientResult M T} (started : d.Started)
      (traced : s.Traced actorId) (spent : d.operation.Spent) (justified : Justified s result) :
      Rest actorId s (.send d) [result]
  | calling {d : Deadlined (CallOperation M)} (armed : d.Armed)
      (live : d.operation.Live actorId s) : Rest actorId s (.call d) []
  | callSpent {d : Deadlined (CallOperation M)} {result : ClientResult M T} (started : d.Started)
      (traced : s.Traced actorId) (spent : d.operation.Spent) (justified : Justified s result) :
      Rest actorId s (.call d) [result]

namespace ClientFuture.Rest

variable {future : ClientFuture M} {results : List (ClientResult M T)} {s : Shared M T}

theorem stable (future : ClientFuture M) (results : List (ClientResult M T)) :
    futureSharing.Stable fun s : Shared M T => future.Rest actorId s results := by
  intro s s' hothers hs
  cases hs with
  | sending armed live => exact .sending armed (SendFuture.stable_live _ s s' hothers live)
  | sent started traced state accepted same =>
    exact .sent started (stable_traced s s' hothers traced) state
      (stable_acceptedBy _ s s' hothers accepted) same
  | sendSpent started traced spent justified =>
    obtain ⟨htraced, hjustified⟩ := stable_justified _ s s' hothers ⟨traced, justified⟩
    exact .sendSpent started htraced spent hjustified
  | calling armed live => exact .calling armed (CallOperation.stable_live _ s s' hothers live)
  | callSpent started traced spent justified =>
    obtain ⟨htraced, hjustified⟩ := stable_justified _ s s' hothers ⟨traced, justified⟩
    exact .callSpent started htraced spent hjustified

theorem justified (h : future.Rest actorId s results) : ∀ r ∈ results, Justified s r := by
  cases h with
  | sending | calling => exact fun _ h => (nomatch h)
  | sent started traced state accepted same =>
    intro r hr
    rw [same r hr]
    exact accepted
  | sendSpent started traced spent justified | callSpent started traced spent justified =>
    intro r hr
    rw [List.mem_singleton.mp hr]
    exact justified

/-- There is one result, or a send that knows its acceptance repeated it. -/
theorem single (h : future.Rest actorId s results) :
    results.length ≤ 1 ∨ ∃ incarnation, ∀ r ∈ results, r = .send (.ok incarnation) := by
  cases h with
  | sending | calling => exact .inl (Nat.zero_le 1)
  | sent started traced state accepted same => exact .inr ⟨_, same⟩
  | sendSpent | callSpent => exact .inl (Nat.le_refl 1)

/-- **A poll goes from rest to rest.**  After a result it touches nothing
shared. -/
theorem poll (h : future.Rest actorId s results) (ceiling : Instant) (current : Waker) :
    (future.poll ceiling current).Safe futureSharing
        (fun r s => r.2.Rest actorId s (results ++ r.1.results)) s ∧
      (results = [] ∨ ∃ r, future.poll (T := T) ceiling current = .pure r) := by
  cases h with
  | @sending d armed live =>
    refine ⟨?_, .inl rfl⟩
    have hpoll := Deadlined.poll_returns (D := SendFuture.deadlineOperation) (T := T)
      (L := SendFuture.Live actorId) (R := SendFuture.Finished actorId) ceiling
      SendFuture.stable_live (SendFuture.pollDeadlined_returns current) d s ⟨armed, live⟩
    refine Routine.Safe.bind hpoll ?_
    rintro ⟨failure | result, d'⟩ s' hr
    · exact hr.elim
    · cases result with
      | pending => exact .sending hr.1 hr.2
      | ready result =>
        obtain ⟨started, traced, justified, spent | ⟨incarnation, rfl, state⟩⟩ := hr
        · exact .sendSpent started traced spent justified
        · exact .sent started traced state justified fun r hr => List.mem_singleton.mp hr
  | @sent d incarnation results started traced state accepted same =>
    have hpoll := Deadlined.poll_ready (T := T) (D := SendFuture.deadlineOperation) ceiling
      current started (SendFuture.pollDeadlined_sent state · .initialAttempt)
    have heq : (ClientFuture.send d).poll (T := T) ceiling current =
        .pure (.ok (.ready (.send (.ok incarnation))), .send { d with timer := false }) := by
      show Routine.bind (Thread.runFrom _ d) _ = _
      rw [hpoll]
      rfl
    rw [heq]
    refine ⟨?_, .inr ⟨_, rfl⟩⟩
    refine .sent ⟨started.width, started.started, started.budget⟩ traced state accepted ?_
    intro r hr
    obtain hr | hr := List.mem_append.mp hr
    · exact same r hr
    · exact List.mem_singleton.mp hr
  | @sendSpent d result started traced spent justified =>
    obtain ⟨message, hpoll⟩ := Deadlined.poll_spent (T := T)
      (D := SendFuture.deadlineOperation) ceiling current started
      (SendFuture.pollDeadlined_spent spent · .initialAttempt)
    have heq : (ClientFuture.send d).poll (T := T) ceiling current =
        .pure (.error message, .send d) := by
      show Routine.bind (Thread.runFrom _ d) _ = _
      rw [hpoll]
      rfl
    rw [heq]
    exact ⟨.sendSpent started traced spent justified, .inr ⟨_, rfl⟩⟩
  | @calling d armed live =>
    refine ⟨?_, .inl rfl⟩
    have hpoll := Deadlined.poll_returns (D := CallOperation.deadlineOperation) (T := T)
      (L := CallOperation.Live actorId) (R := CallOperation.Finished actorId) ceiling
      CallOperation.stable_live (CallOperation.pollDeadlined_returns current) d s ⟨armed, live⟩
    refine Routine.Safe.bind hpoll ?_
    rintro ⟨failure | result, d'⟩ s' hr
    · exact hr.elim
    · cases result with
      | pending => exact .calling hr.1 hr.2
      | ready result =>
        obtain ⟨started, traced, justified, spent⟩ := hr
        exact .callSpent started traced spent justified
  | @callSpent d result started traced spent justified =>
    obtain ⟨message, hpoll⟩ := Deadlined.poll_spent (T := T)
      (D := CallOperation.deadlineOperation) ceiling current started
      (CallOperation.pollDeadlined_spent spent · .initialAttempt)
    have heq : (ClientFuture.call d).poll (T := T) ceiling current =
        .pure (.error message, .call d) := by
      show Routine.bind (Thread.runFrom _ d) _ = _
      rw [hpoll]
      rfl
    rw [heq]
    exact ⟨.callSpent started traced spent justified, .inr ⟨_, rfl⟩⟩

end ClientFuture.Rest

/-! ### The whole system -/

/-- Where the owner of a future that reported `results` is. -/
def Client.Sound (actorId : ChildId) (s : Shared M T) (results : List (ClientResult M T)) :
    Client M T → Prop
  | .idle future => future.Rest actorId s results
  | .polling rest =>
    rest.Safe futureSharing (fun r s => r.2.Rest actorId s (results ++ r.1.results)) s ∧
      (results = [] ∨ ∃ r, rest = .pure r)
  | .dropping rest => rest.Only Section.Passive
  | .dropped => True

structure FutureSystem.Sound (actorId : ChildId) (s : FutureSystem M T) : Prop where
  traced : s.shared.Traced actorId
  justified : ∀ r ∈ s.results, Justified s.shared r
  single : s.results.length ≤ 1 ∨ ∃ incarnation, ∀ r ∈ s.results, r = .send (.ok incarnation)
  client : s.client.Sound actorId s.shared s.results

section System

variable {ceiling : Instant} {s s' : FutureSystem M T} {input : FutureStep M T}
  {outcome : Option (PollOutcome M T)}

/-- What one step does. -/
inductive FutureMove (ceiling : Instant) (s : FutureSystem M T) :
    FutureStep M T → FutureSystem M T → Prop
  | poll (current : Waker) (future : ClientFuture M) (idle : s.client = .idle future) :
      FutureMove ceiling s (.poll current)
        { s with client := .polling (future.poll ceiling current) }
  | drop (future : ClientFuture M) (idle : s.client = .idle future) :
      FutureMove ceiling s .drop { s with client := .dropping future.drop }
  | finish (reading : Reading) (result : PollOutcome M T) (future : ClientFuture M)
      (polling : s.client = .polling (.pure (result, future))) :
      FutureMove ceiling s (.advance reading)
        { s with client := .idle future, results := s.results ++ result.results }
  | finishDrop (reading : Reading) (result : Unit)
      (dropping : s.client = .dropping (.pure result)) :
      FutureMove ceiling s (.advance reading) { s with client := .dropped }
  | pollSection (reading : Reading) (i : Section M)
      (k : i.Answer M T → Routine (Section M) (Section.Answer M T) _) (answer : i.Answer M T)
      (shared : Shared M T) (polling : s.client = .polling (.call i k))
      (performs : futureSharing.perform s.shared i answer shared) :
      FutureMove ceiling s (.advance reading) { s with shared, client := .polling (k answer) }
  | dropSection (reading : Reading) (i : Section M)
      (k : i.Answer M T → Routine (Section M) (Section.Answer M T) _) (answer : i.Answer M T)
      (shared : Shared M T) (dropping : s.client = .dropping (.call i k))
      (performs : futureSharing.perform s.shared i answer shared) :
      FutureMove ceiling s (.advance reading) { s with shared, client := .dropping (k answer) }
  | mailbox (step : MailboxStep M) (output : MailboxOutput M) (shared : Shared M T)
      (allowed : s.shared.allows step = true)
      (runs : s.shared.mailboxSection step = some (shared, output)) :
      FutureMove ceiling s (.mailbox step) { s with shared }
  | sender (step : SenderStep T) (reply : OneShot T)
      (runs : s.shared.reply.senderStep step = some reply) :
      FutureMove ceiling s (.sender step) { s with shared := { s.shared with reply } }

theorem futureMove_of_advance {reading : Reading}
    (h : FutureStep.apply ceiling s (.advance reading) = some (s', outcome)) :
    FutureMove ceiling s (.advance reading) s' := by
  obtain ⟨shared, client, results⟩ := s
  cases client with
  | idle | dropped => cases h
  | polling rest =>
    cases rest with
    | pure r =>
      cases h
      exact .finish reading r.1 r.2 rfl
    | call i k =>
      cases hperform : shared.perform reading i with
      | none => simp [FutureStep.apply, hperform] at h
      | some performed =>
        simp only [FutureStep.apply, hperform] at h
        cases h
        exact .pollSection reading i k performed.1 performed.2 rfl ⟨reading, hperform⟩
  | dropping rest =>
    cases rest with
    | pure r =>
      cases h
      exact .finishDrop reading r rfl
    | call i k =>
      cases hperform : shared.perform reading i with
      | none => simp [FutureStep.apply, hperform] at h
      | some performed =>
        simp only [FutureStep.apply, hperform] at h
        cases h
        exact .dropSection reading i k performed.1 performed.2 rfl ⟨reading, hperform⟩

theorem futureMove_of_apply (h : FutureStep.apply ceiling s input = some (s', outcome)) :
    FutureMove ceiling s input s' := by
  cases input with
  | poll current =>
    obtain ⟨shared, client, results⟩ := s
    cases client with
    | idle future =>
      cases h
      exact .poll current future rfl
    | polling | dropping | dropped => cases h
  | drop =>
    obtain ⟨shared, client, results⟩ := s
    cases client with
    | idle future =>
      cases h
      exact .drop future rfl
    | polling | dropping | dropped => cases h
  | advance reading => exact futureMove_of_advance h
  | mailbox step =>
    simp only [FutureStep.apply] at h
    split_ifs at h with hallows
    cases hsection : s.shared.mailboxSection step with
    | none => simp [hsection] at h
    | some result =>
      simp only [hsection] at h
      cases h
      exact .mailbox step result.2 result.1 hallows hsection
  | sender step =>
    cases hstep : s.shared.reply.senderStep step with
    | none => simp [FutureStep.apply, hstep] at h
    | some reply =>
      simp only [FutureStep.apply, hstep] at h
      cases h
      exact .sender step reply hstep

theorem FutureSystem.Sound.others (hs : s.Sound actorId) {shared : Shared M T}
    (h : futureSharing.others s.shared shared) : FutureSystem.Sound actorId { s with shared } := by
  refine ⟨stable_traced _ _ h hs.traced, ?_, hs.single, ?_⟩
  · exact fun r hr => (stable_justified r _ _ h ⟨hs.traced, hs.justified r hr⟩).2
  · obtain ⟨shared₀, client, results⟩ := s
    have hclient := hs.client
    cases client with
    | idle future => exact ClientFuture.Rest.stable future results _ _ h hclient
    | polling rest =>
      refine ⟨hclient.1.interfere h fun r => ?_, hclient.2⟩
      exact ClientFuture.Rest.stable r.2 _
    | dropping rest => exact hclient
    | dropped => trivial

/-- One step of the system. -/
theorem FutureSystem.Sound.step (hs : s.Sound actorId) (h : FutureMove ceiling s input s') :
    s'.Sound actorId := by
  obtain ⟨traced, justified, single, hclient⟩ := hs
  cases h with
  | poll current future idle =>
    rw [idle] at hclient
    exact ⟨traced, justified, single, ClientFuture.Rest.poll hclient ceiling current⟩
  | drop future idle => exact ⟨traced, justified, single, future.drop_passive⟩
  | finish reading result future polling =>
    rw [polling] at hclient
    have hrest : future.Rest actorId s.shared (s.results ++ result.results) := hclient.1
    exact ⟨traced, hrest.justified, hrest.single, hrest⟩
  | finishDrop reading result dropping => exact ⟨traced, justified, single, trivial⟩
  | pollSection reading i k answer shared polling performs =>
    rw [polling] at hclient
    -- a poll that still has a section to run has no result before it
    obtain hnil | ⟨r, hr⟩ := hclient.2
    · refine ⟨traced.perform performs, ?_, single, hclient.1.step performs, .inl hnil⟩
      rw [hnil]
      exact fun _ h => (nomatch h)
    · cases hr
  | dropSection reading i k answer shared dropping performs =>
    rw [dropping] at hclient
    have hkept : Kept s.shared shared := kept_of_passive hclient.1 performs
    refine ⟨hkept.traced actorId traced, ?_, single, hclient.2 answer⟩
    intro r hr
    refine (justified r hr).mono hkept.extends_ ?_ hkept.unanswered
    exact fun value hwon => hkept.won.trans hwon
  | mailbox step output shared allowed runs =>
    exact .others ⟨traced, justified, single, hclient⟩ (.inl ⟨step, output, allowed, runs⟩)
  | sender step reply runs =>
    exact .others ⟨traced, justified, single, hclient⟩ (.inr ⟨step, reply, runs, rfl⟩)

/-- A `SendTimeout` or `CallFuture` with a budget, before its first poll. -/
def ClientFuture.Budgeted (future : ClientFuture M) : Prop :=
  ∃ (id : ChildId) (deadline : Duration), deadline ≠ 0 ∧
    ((∃ message, future = .sendTimeout id message deadline) ∨
      ∃ makeMsg, future = .callFuture id makeMsg deadline)

theorem traced_new (actorId : ChildId) : (Shared.new actorId : Shared M T).Traced actorId :=
  ⟨.nil _, OneShot.wellFormed_absent, fun _ h => (nomatch h)⟩

theorem ClientFuture.Budgeted.rest {future : ClientFuture M} (h : future.Budgeted) :
    future.Rest actorId (Shared.new actorId : Shared M T) [] := by
  obtain ⟨id, deadline, hdeadline, ⟨message, rfl⟩ | ⟨makeMsg, rfl⟩⟩ := h
  · refine .sending ⟨hdeadline, fun h => (nomatch h)⟩ ⟨traced_new actorId, .inl ?_⟩
    exact ⟨message, rfl, rfl⟩
  · refine .calling ⟨hdeadline, fun h => (nomatch h)⟩ ?_
    exact .fresh makeMsg rfl rfl rfl (traced_new actorId) rfl

theorem sound_of_futureRun {future : ClientFuture M} {tr : List (FutureEdge M T)}
    (hfuture : future.Budgeted) (h : FutureRun ceiling actorId future tr s) : s.Sound actorId := by
  refine h.invariant ?_ fun e he _ hs => hs.step (futureMove_of_apply he)
  exact ⟨traced_new actorId, fun _ h => (nomatch h), .inl (Nat.zero_le 1), hfuture.rest⟩

end System

/-! ### Replies -/

/-- The send transition of the reply wins at this edge. -/
def FutureEdge.Wins (e : FutureEdge M T) (value : T) : Prop :=
  e.input = .sender (.send value) ∧ e.before.shared.reply.state = .opened

section Wins

variable {ceiling : Instant} {value : T}

theorem won_of_move {s s' : FutureSystem M T} {input : FutureStep M T}
    (h : FutureMove ceiling s input s') (hwon : s'.shared.reply.won = some value) :
    s.shared.reply.won = some value ∨
      input = .sender (.send value) ∧ s.shared.reply.state = .opened := by
  cases h with
  | poll | drop | finish | finishDrop => exact .inl hwon
  | pollSection _ _ _ _ _ _ performs | dropSection _ _ _ _ _ _ performs =>
    exact .inl (won_of_perform performs hwon)
  | mailbox step output shared allowed runs =>
    obtain ⟨mailbox, -, rfl⟩ := mailboxSection_eq_some runs
    exact .inl hwon
  | sender step reply runs =>
    obtain hbefore | ⟨rfl, hstate⟩ := (OneShot.sends_of_senderStep runs).won hwon
    · exact .inl hbefore
    · exact .inr ⟨rfl, hstate⟩

/-- A reply that won was sent in the run. -/
theorem wins_of_run {future : ClientFuture M} {tr : List (FutureEdge M T)} {s : FutureSystem M T}
    (h : FutureRun ceiling actorId future tr s) (hwon : s.shared.reply.won = some value) :
    ∃ e ∈ tr, FutureEdge.Wins e value := by
  revert hwon
  refine h.history (fun hwon => (nomatch hwon)) ?_
  intro pre e _ he _ ih hwon
  obtain hbefore | hwins := won_of_move (futureMove_of_apply he) hwon
  · obtain ⟨e', hmem, hwins⟩ := ih hbefore
    exact ⟨e', List.mem_append_left _ hmem, hwins⟩
  · exact ⟨e, List.mem_append_right _ (List.mem_singleton_self e), hwins⟩

end Wins

/-! ### Soundness -/

namespace ClientResult

/-- `TimedOut`, `AcceptanceTimedOut` or `Terminated`. -/
def deniesAcceptance : ClientResult M T → Bool
  | .send (.ok _) | .call (.ok _) => false
  | .send (.error error) => error.kind == .timedOut || error.kind == .terminated
  | .call (.error error) => error.kind == .acceptanceTimedOut || error.kind == .terminated

/-- `TimedOut` or `AcceptanceTimedOut`. -/
def timesOutAcceptance : ClientResult M T → Bool
  | .send (.ok _) | .call (.ok _) => false
  | .send (.error error) => error.kind == .timedOut
  | .call (.error error) => error.kind == .acceptanceTimedOut

/-- A result that reports an acceptance: an `Ok`, `ResponseTimedOut` or
`ReplyDropped`. -/
def affirmsAcceptance : ClientResult M T → Bool
  | .send (.ok _) | .call (.ok _) => true
  | .send (.error _) => false
  | .call (.error error) => error.kind == .responseTimedOut || error.kind == .replyDropped

def timesOutResponse : ClientResult M T → Bool
  | .call (.error error) => error.kind == .responseTimedOut
  | _ => false

/-- The incarnation a result reports. -/
def incarnation : ClientResult M T → Option Incarnation
  | .send (.ok incarnation) => some incarnation
  | .send (.error error) => error.incarnationObserved
  | .call (.ok replied) => some replied.incarnation
  | .call (.error error) => error.incarnationObserved

end ClientResult

section Soundness

variable {s : Shared M T} {r : ClientResult M T}

theorem Justified.denied (h : Justified s r) (hr : r.deniesAcceptance = true) : s.Denied := by
  match r with
  | .send (.error error) => exact h.2
  | .call (.error ⟨id, observed, .terminated⟩)
  | .call (.error ⟨id, observed, .acceptanceTimedOut⟩) => exact h

theorem Justified.acceptedBy (h : Justified s r) (hr : r.affirmsAcceptance = true) :
    ∃ incarnation, r.incarnation = some incarnation ∧ s.AcceptedBy incarnation := by
  match r with
  | .send (.ok incarnation) => exact ⟨incarnation, rfl, h⟩
  | .call (.ok replied) => exact ⟨_, rfl, h.1⟩
  | .call (.error ⟨id, observed, .replyDropped⟩) => exact h
  | .call (.error ⟨id, observed, .responseTimedOut⟩) =>
    obtain ⟨incarnation, hobserved, haccepted, -⟩ := h
    exact ⟨incarnation, hobserved, haccepted⟩

theorem Justified.unanswered (h : Justified s r) (hr : r.timesOutResponse = true) :
    s.reply.Unanswered := by
  match r with
  | .call (.error ⟨id, observed, .responseTimedOut⟩) =>
    obtain ⟨-, -, -, hreply⟩ := h
    exact hreply

omit [TokioOneshot T] in
theorem ClientResult.deniesAcceptance_of_timesOut (hr : r.timesOutAcceptance = true) :
    r.deniesAcceptance = true := by
  match r with
  | .send (.error error) => exact Bool.or_eq_true_iff.mpr (.inl hr)
  | .call (.error error) => exact Bool.or_eq_true_iff.mpr (.inl hr)

/-- A denied message has no acceptance in the mailbox's history. -/
theorem Shared.Traced.unaccepted (ht : s.Traced actorId) (h : s.Denied) {message : Posted M}
    (hsubmitted : s.submitted = some message) :
    ∀ a ∈ (flows s.log).accepted, a.envelope.message ≠ message := by
  rintro a ha rfl
  obtain hunsubmitted | ⟨returned, hreturned, hmem⟩ := h
  · rw [hunsubmitted] at hsubmitted
    cases hsubmitted
  · obtain rfl := Option.some.inj (hreturned.symm.trans hsubmitted)
    refine (ledger_of_moved (moved_of_run ht.run)).not_accepted_of_returned hmem ?_
    exact List.mem_map.mpr ⟨a, ha, rfl⟩

/-- Nobody accepts a message twice. -/
theorem Shared.Traced.accepted_unique (ht : s.Traced actorId) {a a' : Acceptance (Posted M)}
    (ha : a ∈ (flows s.log).accepted) (ha' : a' ∈ (flows s.log).accepted)
    (hsame : a'.envelope.message = a.envelope.message) : a' = a :=
  List.inj_on_of_nodup_map (ledger_of_moved (moved_of_run ht.run)).nodup_accepted ha' ha hsame

end Soundness

/-- **What a send or call with a deadline reports is true, and stays true.**  At
any point of a run of a future with a non-zero budget: a result that denies
acceptance finds no acceptance of the message in the mailbox's history; one that
reports an acceptance finds exactly one, by the incarnation it names; a reply is
the value whose send transition won; a withdrawal that comes after the acceptance
does not make the result a timeout, nor does a reply that won; and there is one
outcome. -/
theorem timeout_classification_sound {ceiling : Instant} {future : ClientFuture M}
    {tr : List (FutureEdge M T)} {s : FutureSystem M T} (hfuture : future.Budgeted)
    (h : FutureRun ceiling actorId future tr s) :
    MailboxRun actorId s.shared.log s.shared.mailbox ∧
      (∀ r ∈ s.results, r.deniesAcceptance = true → ∀ message,
        s.shared.submitted = some message →
          ∀ a ∈ (flows s.shared.log).accepted, a.envelope.message ≠ message) ∧
      (∀ r ∈ s.results, r.affirmsAcceptance = true → ∃ incarnation message,
        r.incarnation = some incarnation ∧ s.shared.submitted = some message ∧
          ∃ a ∈ (flows s.shared.log).accepted, a.envelope.message = message ∧
            a.incarnation = incarnation ∧
              ∀ a' ∈ (flows s.shared.log).accepted, a'.envelope.message = message → a' = a) ∧
      (∀ replied, .call (.ok replied) ∈ s.results → s.shared.reply.won = some replied.value ∧
        ∃ e ∈ tr, FutureEdge.Wins e replied.value) ∧
      (∀ pre e post reference disposition message, s.shared.log = pre ++ e :: post →
        s.shared.operation = some reference → e.input = .withdraw reference disposition →
          s.shared.submitted = some message →
            (∃ a ∈ (flows pre).accepted, a.envelope.message = message) →
              ∀ r ∈ s.results, r.timesOutAcceptance = false) ∧
      (s.shared.reply.won.isSome = true → ∀ r ∈ s.results, r.timesOutResponse = false) ∧
      (∀ r ∈ s.results, ∀ r' ∈ s.results, r = r') ∧
      (s.results.length ≤ 1 ∨ ∃ incarnation, ∀ r ∈ s.results, r = .send (.ok incarnation)) := by
  have hs := sound_of_futureRun hfuture h
  refine ⟨hs.traced.run, ?_, ?_, ?_, ?_, ?_, ?_, hs.single⟩
  · intro r hr hdenies message hsubmitted
    exact hs.traced.unaccepted ((hs.justified r hr).denied hdenies) hsubmitted
  · intro r hr haffirms
    obtain ⟨incarnation, hincarnation, message, hsubmitted, a, ha, rfl, hby⟩ :=
      (hs.justified r hr).acceptedBy haffirms
    refine ⟨incarnation, a.envelope.message, hincarnation, hsubmitted, a, ha, rfl, hby, ?_⟩
    exact fun a' ha' hsame => hs.traced.accepted_unique ha ha' hsame
  · intro replied hr
    have hwon : s.shared.reply.won = some replied.value := (hs.justified _ hr).2
    exact ⟨hwon, wins_of_run h hwon⟩
  · rintro pre e post reference disposition message hlog - - hsubmitted ⟨a, ha, hmessage⟩ r hr
    rw [Bool.eq_false_iff]
    intro htimesOut
    have hdenied := (hs.justified r hr).denied (ClientResult.deniesAcceptance_of_timesOut htimesOut)
    refine hs.traced.unaccepted hdenied hsubmitted a ?_ hmessage
    rw [hlog, flows_append]
    exact List.mem_append_left _ ha
  · intro hwon r hr
    rw [Bool.eq_false_iff]
    intro htimesOut
    rw [((hs.justified r hr).unanswered htimesOut).won] at hwon
    cases hwon
  · intro r hr r' hr'
    obtain hlength | ⟨incarnation, hsame⟩ := hs.single
    · obtain ⟨x, hx⟩ | hnil : (∃ x, s.results = [x]) ∨ s.results = [] := by
        match s.results, hlength with
        | [], _ => exact .inr rfl
        | [x], _ => exact .inl ⟨x, rfl⟩
      · rw [hx] at hr hr'
        rw [List.mem_singleton.mp hr, List.mem_singleton.mp hr']
      · rw [hnil] at hr
        cases hr
    · rw [hsame r hr, hsame r' hr']

/-- A call that is accepted at once; its timer elapses while the reply is being
sent, so that the second poll is still pending and the third finds the value. -/
def lateReply (current : Waker) : List (FutureStep ℕ ℕ) :=
  [.mailbox (.configure (.queue ⟨1, Nat.one_pos⟩)), .mailbox (.bind ⟨0⟩ (sampleIncarnation 1)),
    .poll current] ++ List.replicate 8 (.advance ⟨false, 0⟩) ++
  [.sender (.send 7), .poll current] ++ List.replicate 6 (.advance ⟨true, 9⟩) ++
  [.sender .publish, .sender .store, .poll current] ++ List.replicate 2 (.advance ⟨true, 9⟩)

attribute [local instance] Channel.tokio in
theorem timeout_classification_sound_lateReply :
    ∃ (tr : List (FutureEdge ℕ ℕ)) (s : FutureSystem ℕ ℕ),
      FutureRun 1000000000000 ⟨"worker"⟩ (.callFuture ⟨"worker"⟩ (fun _ => 10) 5) tr s ∧
      s.results = [.call (.ok ⟨7, sampleIncarnation 1⟩)] ∧ s.shared.reply.won = some 7 ∧
      ∀ r ∈ s.results, r.timesOutResponse = false := by
  have hexec : ∃ tr s, exec (fun s step => FutureStep.apply 1000000000000 s step)
      (.new ⟨"worker"⟩ (.callFuture ⟨"worker"⟩ (fun _ => 10) 5)) (lateReply ⟨0⟩) = some (tr, s) ∧
      s.results = [.call (.ok ⟨7, sampleIncarnation 1⟩)] ∧ s.shared.reply.won = some 7 := by
    refine ⟨_, _, rfl, ?_, ?_⟩
    · rfl
    · rfl
  obtain ⟨tr, s, hrun, hresults, hwon⟩ := hexec
  have hsound := timeout_classification_sound
    ⟨⟨"worker"⟩, 5, Nat.succ_ne_zero 4, .inr ⟨fun _ => 10, rfl⟩⟩ (run_of_exec _ hrun)
  exact ⟨tr, s, run_of_exec _ hrun, hresults, hwon, hsound.2.2.2.2.2.1 (hwon ▸ rfl)⟩

end Shelterwood
