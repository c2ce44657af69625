/-
Shelterwood/OneShotClose.lean

Closing the receiving half of a one-shot channel.

The word decides who was first: a send, a dropped sender or a closing receiver.
The value, if there is one, travels through the channel, which has a close of its
own.  Between an exchange of the word and the access to the channel that follows it
the two can disagree.  `Futures` has the receiver's functions as threads inside a
future; here both halves are taken by themselves, access by access, and may
interleave at every one.

The invariant follows the decision: while the word is open nothing has happened
(`Fresh`), and from then on the state stays in the regime of the winner
(`ReceiverWon`, `DropWon`, `SendWon`).  In the last one `Placed` says where the
value is.
-/
import Shelterwood.OneShot
import Shelterwood.Trace

namespace Shelterwood

/-! ### The receiving half -/

/-- Where the receiving half is. -/
inductive ReceiverPhase
  /-- Between two calls. -/
  | idle
  /-- `close_and_poll_receive`: the word is closed, the channel is not. -/
  | closing
  /-- `close_and_poll_receive`: a send came first; the channel is to be polled. -/
  | polling
  /-- `close_and_take`: the word was tried, the channel is not closed. -/
  | tried
  /-- `close_and_take`: the channel is closed and not yet read. -/
  | closed
  /-- `close_and_take` returned. -/
  | taken
  deriving DecidableEq, Repr

/-- Both halves, the argument and the answer of `send`, and the values that came out
of the receiving half. -/
structure OneShotRace (T : Type) [TokioOneshot T] where
  shared : OneShot T
  sent : Option T
  answer : Option (Except T Unit)
  phase : ReceiverPhase
  completed : Bool
  delivered : List T
  recovered : List T

inductive ReceiverStep
  | pollReceive
  /-- `close_and_poll_receive`: the exchange of the word. -/
  | closeAndPoll
  /-- `close_and_poll_receive`: the channel close after the exchange. -/
  | closeChannel
  /-- `close_and_poll_receive`: the channel poll after a send. -/
  | pollChannel
  /-- `close_and_take`: the exchange of the word. -/
  | closeAndTake
  /-- `close_and_take`: the channel close. -/
  | closeTaken
  /-- `close_and_take`: the channel read. -/
  | tryRecv
  deriving DecidableEq, Repr

inductive ReceiverAnswer (T : Type)
  | silent
  | polled (result : Poll (Option T))
  | closed (result : OneShotClose T)
  | taken (value : Option T)
  | panicked
  deriving DecidableEq, Repr

inductive RaceStep (T : Type)
  | sender (step : SenderStep T)
  | receiver (step : ReceiverStep)
  deriving DecidableEq, Repr

namespace OneShotRace

variable {T : Type} [TokioOneshot T]

def new : OneShotRace T := ⟨.oneshot, none, none, .idle, false, [], []⟩

/-- What a sender's step makes of its call: `send` starts with its exchange, and
answers when the exchange fails or the word is stored. -/
def senderCall (r : OneShotRace T) : SenderStep T → Option T × Option (Except T Unit)
  | .send value =>
    (some value, if r.shared.state = .opened then none else some (.error value))
  | .store =>
    match r.shared.sender with
    | .published result => (r.sent, some result)
    | _ => (r.sent, r.answer)
  | _ => (r.sent, r.answer)

def senderStep (r : OneShotRace T) (step : SenderStep T) :
    Option (OneShotRace T × ReceiverAnswer T) :=
  match r.shared.senderStep step with
  | none => none
  | some shared =>
    some ({ r with shared, sent := (r.senderCall step).1, answer := (r.senderCall step).2 },
      .silent)

/-- `poll_receive` of a receiver that is not completed. -/
def pollReceive (r : OneShotRace T) : OneShotRace T × ReceiverAnswer T :=
  match TokioOneshot.poll r.shared.channel with
  | (.ready value, channel) =>
    ({ r with
        shared := { r.shared with channel }
        completed := true
        delivered := r.delivered ++ value.toList },
      .polled (.ready value))
  | (.pending, channel) => ({ r with shared := { r.shared with channel } }, .polled .pending)

/-- The exchange of `close_and_poll_receive`. -/
def closeAndPoll (r : OneShotRace T) : OneShotRace T × ReceiverAnswer T :=
  match r.shared.exchange .receiverClosed with
  | (.ok _, shared) => ({ r with shared, phase := .closing }, .silent)
  | (.error .senderClosed, _) => ({ r with completed := true }, .closed .senderClosed)
  | (.error .sending, _) => ({ r with phase := .polling }, .silent)
  | (.error .sent, _) => ({ r with phase := .polling }, .silent)
  | (.error .receiverClosed, _) => ({ r with completed := true }, .closed .empty)
  | (.error .opened, _) => (r, .panicked)

/-- The channel poll of `close_and_poll_receive`. -/
def pollChannel (r : OneShotRace T) : OneShotRace T × ReceiverAnswer T :=
  match TokioOneshot.poll r.shared.channel with
  | (.ready (some value), channel) =>
    ({ r with
        shared := { r.shared with channel }
        phase := .idle
        completed := true
        delivered := r.delivered ++ [value] },
      .closed (.value value))
  | (.ready none, channel) =>
    ({ r with shared := { r.shared with channel }, phase := .idle, completed := true },
      .closed .senderClosed)
  | (.pending, channel) =>
    ({ r with shared := { r.shared with channel }, phase := .idle }, .closed .pending)

/-- One access of the receiving half.  A call on a completed receiver panics, except
for `close_and_take`, after which the receiver is not used again. -/
def receiverStep (r : OneShotRace T) (step : ReceiverStep) :
    Option (OneShotRace T × ReceiverAnswer T) :=
  match step, r.phase with
  | .pollReceive, .idle => some (if r.completed then (r, .panicked) else r.pollReceive)
  | .closeAndPoll, .idle => some (if r.completed then (r, .panicked) else r.closeAndPoll)
  | .closeChannel, .closing =>
    some ({ r with
        shared := { r.shared with channel := TokioOneshot.close r.shared.channel }
        phase := .idle
        completed := true },
      .closed .empty)
  | .pollChannel, .polling => some r.pollChannel
  | .closeAndTake, .idle =>
    some ({ r with shared := (r.shared.exchange .receiverClosed).2, phase := .tried }, .silent)
  | .closeTaken, .tried =>
    some ({ r with
        shared := { r.shared with channel := TokioOneshot.close r.shared.channel }
        phase := .closed },
      .silent)
  | .tryRecv, .closed =>
    some ({ r with
        shared := { r.shared with channel := (TokioOneshot.tryRecv r.shared.channel).2 }
        phase := .taken
        completed := true
        recovered := r.recovered ++ (TokioOneshot.tryRecv r.shared.channel).1.toList },
      .taken (TokioOneshot.tryRecv r.shared.channel).1)
  | _, _ => none

def step (r : OneShotRace T) : RaceStep T → Option (OneShotRace T × ReceiverAnswer T)
  | .sender s => r.senderStep s
  | .receiver s => r.receiverStep s

/-- The value `send` gave back. -/
def returned (r : OneShotRace T) : List T :=
  match r.answer with
  | some (.error value) => [value]
  | _ => []

/-- The places where a value can end. -/
def places (r : OneShotRace T) : List T := r.delivered ++ r.recovered ++ r.returned

/-- Both halves are through: the sender is gone, and the receiver is between calls
after the one that completed it. -/
def Over (r : OneShotRace T) : Prop :=
  r.shared.sender = .gone ∧ r.completed = true ∧ r.phase ∈ [.idle, .taken]

/-! ### The regimes -/

/-- Nothing happened but polls of the channel. -/
def Fresh (r : OneShotRace T) : Prop :=
  ∃ channel, TokioOneshot.held channel = ⟨false, none, false⟩ ∧
    r = { new with shared := { OneShot.oneshot with channel } }

/-- The receiver closed the word first: `send`, if it is called at all, gives its value
back. -/
structure ReceiverWon (r : OneShotRace T) : Prop where
  state : r.shared.state = .receiverClosed
  value : r.shared.held.value = none
  refused : r.sent = none ∧ r.answer = none ∧ r.shared.sender ∈ [.live, .dropping, .gone] ∨
    ∃ v, r.sent = some v ∧ r.answer = some (.error v) ∧
      r.shared.sender ∈ [.refused, .dropping, .gone]
  phase : r.phase ≠ .polling
  idle : r.phase = .idle → r.completed = true
  delivered : r.delivered = []
  recovered : r.recovered = []

/-- The sender was dropped first, without a send. -/
structure DropWon (r : OneShotRace T) : Prop where
  state : r.shared.state = .senderClosed
  value : r.shared.held.value = none
  sender : r.shared.sender ∈ [.dropping, .gone]
  sent : r.sent = none
  answer : r.answer = none
  phase : r.phase ≠ .polling ∧ r.phase ≠ .closing
  delivered : r.delivered = []
  recovered : r.recovered = []

/-- The channel answered the send; the store of the word may still be to come. -/
def Answered (result : Except T Unit) (stored : OneShotState) (r : OneShotRace T) : Prop :=
  r.shared.sender = .published result ∧ r.shared.state = .sending ∧ r.answer = none ∨
    r.shared.sender = .gone ∧ r.shared.state = stored ∧ r.answer = some result

/-- The channel took the value. -/
def Accepted (r : OneShotRace T) : Prop :=
  r.shared.held.complete = true ∧ r.Answered (.ok ()) .sent

/-- The channel refused the value. -/
def Bounced (v : T) (r : OneShotRace T) : Prop :=
  r.shared.held.complete = false ∧ r.shared.held.value = none ∧
    r.Answered (.error v) .receiverClosed

/-- Where the value of a send that won is. -/
inductive Placed (v : T) (r : OneShotRace T) : Prop
  /-- With the sender, whose channel send is to come. -/
  | onItsWay (sender : r.shared.sender = .sending v) (state : r.shared.state = .sending)
      (answer : r.answer = none) (complete : r.shared.held.complete = false)
      (value : r.shared.held.value = none)
      (closed : r.shared.held.closed = true ↔ r.phase ∈ [.closed, .taken])
      (usable : r.phase ∈ [.idle, .polling] → r.completed = false)
      (delivered : r.delivered = []) (recovered : r.recovered = [])
  /-- In the channel. -/
  | stored (accepted : r.Accepted) (value : r.shared.held.value = some v)
      (phase : r.phase ≠ .taken) (usable : r.phase ∈ [.idle, .polling] → r.completed = false)
      (delivered : r.delivered = []) (recovered : r.recovered = [])
  /-- With the receiver. -/
  | received (accepted : r.Accepted) (value : r.shared.held.value = none)
      (phase : r.phase ≠ .polling) (completed : r.completed = true)
      (delivered : r.delivered = [v]) (recovered : r.recovered = [])
  /-- With the caller of `close_and_take`. -/
  | reclaimed (accepted : r.Accepted) (value : r.shared.held.value = none)
      (phase : r.phase = .taken) (delivered : r.delivered = []) (recovered : r.recovered = [v])
  /-- Back with the sender. -/
  | handedBack (bounced : r.Bounced v) (closed : r.shared.held.closed = true)
      (phase : r.phase ∈ [.closed, .taken]) (delivered : r.delivered = [])
      (recovered : r.recovered = [])

/-- A send won the word. -/
structure SendWon (v : T) (r : OneShotRace T) : Prop where
  won : r.shared.won = some v
  sent : r.sent = some v
  phase : r.phase ≠ .closing
  placed : r.Placed v

end OneShotRace

/-! ### One step -/

namespace OneShotRace

variable {T : Type} [TokioOneshot T] {r r' : OneShotRace T} {a : ReceiverAnswer T} {v : T}

/-- What the sending half can do in one step. -/
def SenderMove (r : OneShotRace T) (step : SenderStep T) (r' : OneShotRace T) : Prop :=
  ∃ shared, OneShot.Sends r.shared step shared ∧
    r' = { r with shared, sent := (r.senderCall step).1, answer := (r.senderCall step).2 }

variable {s : SenderStep T}

theorem senderMove (h : r.senderStep s = some (r', a)) : a = .silent ∧ SenderMove r s r' := by
  unfold senderStep at h
  cases hshared : r.shared.senderStep s with
  | none => simp [hshared] at h
  | some shared =>
    simp only [hshared, Option.some.injEq, Prod.mk.injEq] at h
    exact ⟨h.2.symm, shared, OneShot.sends_of_senderStep hshared, h.1.symm⟩

theorem senderCall_win (v : T) (h : r.shared.state = .opened) :
    r.senderCall (.send v) = (some v, none) := by
  rw [senderCall, if_pos h]

theorem senderCall_lose (v : T) (h : r.shared.state ≠ .opened) :
    r.senderCall (.send v) = (some v, some (.error v)) := by
  rw [senderCall, if_neg h]

theorem senderCall_store {result : Except T Unit} (h : r.shared.sender = .published result) :
    r.senderCall .store = (r.sent, some result) := by
  rw [senderCall, h]

/-- The first move decides between a send and a drop. -/
theorem Fresh.sender (h : r.Fresh) (hmove : SenderMove r s r') :
    (∃ v, r'.SendWon v) ∨ r'.DropWon := by
  obtain ⟨channel, hheld, rfl⟩ := h
  have hvalue : (TokioOneshot.held channel).value = none := by rw [hheld]
  have hcomplete : (TokioOneshot.held channel).complete = false := by rw [hheld]
  obtain ⟨shared, hsends, rfl⟩ := hmove
  cases hsends with
  | win v _ opened =>
    rw [senderCall_win v opened]
    refine .inl ⟨v, rfl, rfl, by rintro ⟨⟩, ?_⟩
    have hclosed : (TokioOneshot.held channel).closed = true ↔
        ReceiverPhase.idle ∈ [ReceiverPhase.closed, .taken] := by simp [hheld]
    exact .onItsWay rfl rfl rfl hcomplete hvalue hclosed (fun _ => rfl) rfl rfl
  | close =>
    refine .inr ⟨rfl, hvalue, List.mem_cons_self, rfl, rfl, ⟨?_, ?_⟩, rfl, rfl⟩
    · rintro ⟨⟩
    · rintro ⟨⟩
  | lose _ _ taken | drop _ taken => exact absurd rfl taken
  | bounce _ _ phase | deliver _ _ phase | sent phase | bounced _ phase | release _ _ phase =>
    cases phase

theorem ReceiverWon.sender (h : r.ReceiverWon) (hmove : SenderMove r s r') : r'.ReceiverWon := by
  have hnot : r.shared.state ≠ .opened := by simp [h.state]
  have hsender : r.shared.sender ∈ [.live, .dropping, .gone, .refused] := by
    rcases h.refused with ⟨-, -, hsender⟩ | ⟨v, -, -, hsender⟩ <;> simp at hsender ⊢ <;> tauto
  obtain ⟨shared, hsends, rfl⟩ := hmove
  cases hsends with
  | win _ _ opened | close _ opened => exact absurd opened hnot
  | lose v =>
    rw [senderCall_lose v hnot]
    exact { h with refused := .inr ⟨v, rfl, rfl, List.mem_cons_self⟩ }
  | drop =>
    refine { h with refused := h.refused.imp ?_ ?_ }
    · rintro ⟨hsent, hanswer, -⟩
      exact ⟨hsent, hanswer, by simp⟩
    · rintro ⟨v, hsent, hanswer, -⟩
      exact ⟨v, hsent, hanswer, by simp⟩
  | release channel complete _ dropped =>
    refine { h with
      value := (congrArg Channel.value dropped).trans h.value
      refused := h.refused.imp ?_ ?_ }
    · rintro ⟨hsent, hanswer, -⟩
      exact ⟨hsent, hanswer, by simp⟩
    · rintro ⟨v, hsent, hanswer, -⟩
      exact ⟨v, hsent, hanswer, by simp⟩
  | bounce _ _ phase | deliver _ _ phase | sent phase | bounced _ phase =>
    simp [phase] at hsender

theorem DropWon.sender_move (h : r.DropWon) (hmove : SenderMove r s r') : r'.DropWon := by
  have hsender := h.sender
  obtain ⟨shared, hsends, rfl⟩ := hmove
  cases hsends with
  | release channel complete _ dropped =>
    exact { h with value := (congrArg Channel.value dropped).trans h.value, sender := by simp }
  | win _ phase | lose _ phase | bounce _ _ phase | deliver _ _ phase | sent phase
  | bounced _ phase => simp [phase] at hsender
  | close held | drop held =>
    rcases List.mem_pair.1 held with phase | phase <;> simp [phase] at hsender

/-- Only the store is left to a sender that the channel answered. -/
theorem Answered.sender {result : Except T Unit} {stored : OneShotState}
    (h : r.Answered result stored)
    (hstored : stored = match result with | .ok _ => .sent | .error _ => .receiverClosed)
    (hmove : SenderMove r s r') :
    r'.Answered result stored ∧ ∃ state sender answer,
      r' = { r with shared := { r.shared with state, sender }, answer } := by
  have hsender : r.shared.sender ∈ [.published result, .gone] := by
    rcases h with ⟨hsender, -⟩ | ⟨hsender, -⟩ <;> simp [hsender]
  obtain ⟨shared, hsends, rfl⟩ := hmove
  cases hsends with
  | sent published =>
    obtain rfl : .ok () = result := by simpa [published] using hsender
    rw [senderCall_store published]
    exact ⟨.inr ⟨rfl, hstored.symm, rfl⟩, _, _, _, rfl⟩
  | bounced w published =>
    obtain rfl : .error w = result := by simpa [published] using hsender
    rw [senderCall_store published]
    exact ⟨.inr ⟨rfl, hstored.symm, rfl⟩, _, _, _, rfl⟩
  | win _ phase | lose _ phase | bounce _ _ phase | deliver _ _ phase | release _ _ phase =>
    simp [phase] at hsender
  | close held | drop held =>
    rcases List.mem_pair.1 held with phase | phase <;> simp [phase] at hsender

theorem SendWon.sender (h : r.SendWon v) (hmove : SenderMove r s r') : r'.SendWon v := by
  obtain ⟨hwon, hsent, hphase, hplaced⟩ := h
  cases hplaced with
  | onItsWay sender state answer complete value closed usable delivered recovered =>
    obtain ⟨shared, hsends, rfl⟩ := hmove
    cases hsends with
    | bounce w channel sending hclosed same =>
      obtain rfl : v = w := OneShotSender.sending.inj (sender.symm.trans sending)
      have hbounced : (⟨⟨r.shared.state, channel, .published (.error v), r.shared.won⟩, r.sent,
          r.answer, r.phase, r.completed, r.delivered, r.recovered⟩ : OneShotRace T).Bounced v :=
        ⟨(congrArg Channel.complete same).trans complete, (congrArg Channel.value same).trans value,
          .inl ⟨rfl, state, answer⟩⟩
      exact ⟨hwon, hsent, hphase, .handedBack hbounced
        ((congrArg Channel.closed same).trans hclosed) (closed.1 hclosed) delivered recovered⟩
    | deliver w channel sending hopen filled =>
      obtain rfl : v = w := OneShotSender.sending.inj (sender.symm.trans sending)
      refine ⟨hwon, hsent, hphase, .stored ⟨congrArg Channel.complete filled,
        .inl ⟨rfl, state, answer⟩⟩ (congrArg Channel.value filled) ?_ usable delivered recovered⟩
      intro htaken
      have hclosed := closed.2 (htaken ▸ by simp : r.phase ∈ _)
      rw [hopen] at hclosed
      cases hclosed
    | win _ phase | lose _ phase | sent phase | bounced _ phase | release _ _ phase =>
      simp [phase] at sender
    | close held | drop held =>
      rcases List.mem_pair.1 held with phase | phase <;> simp [phase] at sender
  | stored accepted value phase usable delivered recovered =>
    obtain ⟨hanswered, _, _, _, rfl⟩ := accepted.2.sender rfl hmove
    exact ⟨hwon, hsent, hphase, .stored ⟨accepted.1, hanswered⟩ value phase usable delivered
      recovered⟩
  | received accepted value phase completed delivered recovered =>
    obtain ⟨hanswered, _, _, _, rfl⟩ := accepted.2.sender rfl hmove
    exact ⟨hwon, hsent, hphase, .received ⟨accepted.1, hanswered⟩ value phase completed
      delivered recovered⟩
  | reclaimed accepted value phase delivered recovered =>
    obtain ⟨hanswered, _, _, _, rfl⟩ := accepted.2.sender rfl hmove
    exact ⟨hwon, hsent, hphase, .reclaimed ⟨accepted.1, hanswered⟩ value phase delivered
      recovered⟩
  | handedBack bounced closed phase delivered recovered =>
    obtain ⟨hanswered, _, _, _, rfl⟩ := bounced.2.2.sender rfl hmove
    exact ⟨hwon, hsent, hphase, .handedBack ⟨bounced.1, bounced.2.1, hanswered⟩ closed phase
      delivered recovered⟩

/-- What each step of the receiving half can do. -/
inductive ReceiverMove (r : OneShotRace T) :
    ReceiverStep → OneShotRace T → ReceiverAnswer T → Prop
  | misuse {s : ReceiverStep} (call : s ∈ [.pollReceive, .closeAndPoll]) (idle : r.phase = .idle)
      (completed : r.completed = true) : ReceiverMove r s r .panicked
  | pollPending (idle : r.phase = .idle) (usable : r.completed = false)
      (channel : TokioOneshot.Chan T) (same : TokioOneshot.held channel = r.shared.held) :
      ReceiverMove r .pollReceive { r with shared := { r.shared with channel } } (.polled .pending)
  | pollReady (idle : r.phase = .idle) (usable : r.completed = false)
      (channel : TokioOneshot.Chan T)
      (through : r.shared.held.complete = true ∨ r.shared.held.closed = true)
      (taken : TokioOneshot.held channel = { r.shared.held with value := none }) :
      ReceiverMove r .pollReceive
        { r with
          shared := { r.shared with channel }
          completed := true
          delivered := r.delivered ++ r.shared.held.value.toList }
        (.polled (.ready r.shared.held.value))
  | closes (idle : r.phase = .idle) (usable : r.completed = false)
      (opened : r.shared.state = .opened) :
      ReceiverMove r .closeAndPoll
        { r with shared := { r.shared with state := .receiverClosed }, phase := .closing } .silent
  | meetsSend (idle : r.phase = .idle) (usable : r.completed = false)
      (sent : r.shared.state = .sending ∨ r.shared.state = .sent) :
      ReceiverMove r .closeAndPoll { r with phase := .polling } .silent
  | meetsClose (idle : r.phase = .idle) (usable : r.completed = false) (c : OneShotClose T)
      (closed : r.shared.state = .senderClosed ∧ c = .senderClosed ∨
        r.shared.state = .receiverClosed ∧ c = .empty) :
      ReceiverMove r .closeAndPoll { r with completed := true } (.closed c)
  | closeChannel (closing : r.phase = .closing) :
      ReceiverMove r .closeChannel
        { r with
          shared := { r.shared with channel := TokioOneshot.close r.shared.channel }
          phase := .idle
          completed := true }
        (.closed .empty)
  | closePending (polling : r.phase = .polling) (channel : TokioOneshot.Chan T)
      (same : TokioOneshot.held channel = r.shared.held) :
      ReceiverMove r .pollChannel { r with shared := { r.shared with channel }, phase := .idle }
        (.closed .pending)
  | closeReady (polling : r.phase = .polling) (channel : TokioOneshot.Chan T)
      (through : r.shared.held.complete = true ∨ r.shared.held.closed = true)
      (taken : TokioOneshot.held channel = { r.shared.held with value := none }) :
      ReceiverMove r .pollChannel
        { r with
          shared := { r.shared with channel }
          phase := .idle
          completed := true
          delivered := r.delivered ++ r.shared.held.value.toList }
        (.closed (r.shared.held.value.elim .senderClosed .value))
  | closeAndTake (idle : r.phase = .idle) :
      ReceiverMove r .closeAndTake
        { r with shared := (r.shared.exchange .receiverClosed).2, phase := .tried } .silent
  | closeTaken (tried : r.phase = .tried) :
      ReceiverMove r .closeTaken
        { r with
          shared := { r.shared with channel := TokioOneshot.close r.shared.channel }
          phase := .closed }
        .silent
  | tryRecv (closed : r.phase = .closed) :
      ReceiverMove r .tryRecv
        { r with
          shared := { r.shared with channel := (TokioOneshot.tryRecv r.shared.channel).2 }
          phase := .taken
          completed := true
          recovered := r.recovered ++ r.shared.held.value.toList }
        (.taken r.shared.held.value)

theorem pollReceive_move (hidle : r.phase = .idle) (hcompleted : r.completed = false) :
    ReceiverMove r .pollReceive r.pollReceive.1 r.pollReceive.2 := by
  unfold pollReceive
  split
  · next result channel hpoll =>
    obtain ⟨⟨⟩, -⟩ | ⟨⟨⟩, hthrough, htaken⟩ := OneShot.poll_cases hpoll
    exact .pollReady hidle hcompleted channel hthrough htaken
  · next channel hpoll =>
    obtain ⟨-, hsame⟩ | ⟨⟨⟩, -⟩ := OneShot.poll_cases hpoll
    exact .pollPending hidle hcompleted channel hsame

theorem pollChannel_move (hpolling : r.phase = .polling) :
    ReceiverMove r .pollChannel r.pollChannel.1 r.pollChannel.2 := by
  unfold pollChannel
  split
  · next value channel hpoll =>
    obtain ⟨⟨⟩, -⟩ | ⟨hresult, hthrough, htaken⟩ := OneShot.poll_cases hpoll
    have hvalue : r.shared.held.value = some value := (Poll.ready.inj hresult).symm
    simpa [hvalue] using ReceiverMove.closeReady hpolling channel hthrough htaken
  · next channel hpoll =>
    obtain ⟨⟨⟩, -⟩ | ⟨hresult, hthrough, htaken⟩ := OneShot.poll_cases hpoll
    have hvalue : r.shared.held.value = none := (Poll.ready.inj hresult).symm
    simpa [hvalue] using ReceiverMove.closeReady hpolling channel hthrough htaken
  · next channel hpoll =>
    obtain ⟨-, hsame⟩ | ⟨⟨⟩, -⟩ := OneShot.poll_cases hpoll
    exact .closePending hpolling channel hsame

theorem exchange_of_taken {o : OneShot T} (h : o.state ≠ .opened) (next : OneShotState) :
    o.exchange next = (.error o.state, o) :=
  if_neg h

theorem closeAndPoll_move (hidle : r.phase = .idle) (hcompleted : r.completed = false) :
    ReceiverMove r .closeAndPoll r.closeAndPoll.1 r.closeAndPoll.2 := by
  cases hstate : r.shared.state with
  | opened =>
    have hclose := ReceiverMove.closes hidle hcompleted hstate
    simpa [closeAndPoll, OneShot.exchange, hstate] using hclose
  | sending =>
    have hmeets := ReceiverMove.meetsSend hidle hcompleted (.inl hstate)
    simpa [closeAndPoll, OneShot.exchange, hstate] using hmeets
  | sent =>
    have hmeets := ReceiverMove.meetsSend hidle hcompleted (.inr hstate)
    simpa [closeAndPoll, OneShot.exchange, hstate] using hmeets
  | senderClosed =>
    have hmeets := ReceiverMove.meetsClose hidle hcompleted _ (.inl ⟨hstate, rfl⟩)
    simpa [closeAndPoll, OneShot.exchange, hstate] using hmeets
  | receiverClosed =>
    have hmeets := ReceiverMove.meetsClose hidle hcompleted _ (.inr ⟨hstate, rfl⟩)
    simpa [closeAndPoll, OneShot.exchange, hstate] using hmeets

variable {c : ReceiverStep}

theorem receiverMove (h : r.receiverStep c = some (r', a)) : ReceiverMove r c r' a := by
  unfold receiverStep at h
  split at h
  · next hphase =>
    split_ifs at h with hcompleted
    · cases h
      exact .misuse (by simp) hphase hcompleted
    · have hmove := pollReceive_move hphase (Bool.eq_false_iff.2 hcompleted)
      rwa [Option.some.inj h] at hmove
  · next hphase =>
    split_ifs at h with hcompleted
    · cases h
      exact .misuse (by simp) hphase hcompleted
    · have hmove := closeAndPoll_move hphase (Bool.eq_false_iff.2 hcompleted)
      rwa [Option.some.inj h] at hmove
  · next hphase =>
    cases h
    exact .closeChannel hphase
  · next hphase =>
    have hmove := pollChannel_move hphase
    rwa [Option.some.inj h] at hmove
  · next hphase =>
    cases h
    exact .closeAndTake hphase
  · next hphase =>
    cases h
    exact .closeTaken hphase
  · next hphase =>
    rw [(TokioOneshot.tryRecv_eq r.shared.channel).1] at h
    cases h
    exact .tryRecv hphase
  · cases h

theorem close_value (c : TokioOneshot.Chan T) :
    (TokioOneshot.held (TokioOneshot.close c)).value = (TokioOneshot.held c).value := by
  rw [TokioOneshot.held_close]

theorem close_complete (c : TokioOneshot.Chan T) :
    (TokioOneshot.held (TokioOneshot.close c)).complete = (TokioOneshot.held c).complete := by
  rw [TokioOneshot.held_close]

theorem tryRecv_value (c : TokioOneshot.Chan T) :
    (TokioOneshot.held (TokioOneshot.tryRecv c).2).value = none := by
  rw [(TokioOneshot.tryRecv_eq c).2]

theorem tryRecv_complete (c : TokioOneshot.Chan T) :
    (TokioOneshot.held (TokioOneshot.tryRecv c).2).complete = (TokioOneshot.held c).complete := by
  rw [(TokioOneshot.tryRecv_eq c).2]

/-- Nothing came out of a channel that holds nothing. -/
theorem append_of_empty {values : List T} (hvalue : r.shared.held.value = none) (h : values = []) :
    values ++ r.shared.held.value.toList = [] := by
  rw [hvalue, h]
  rfl

theorem Fresh.receiver (h : r.Fresh) (hmove : ReceiverMove r c r' a) :
    (r'.Fresh ∨ r'.ReceiverWon) ∧ ∀ c, a ≠ .closed c := by
  obtain ⟨channel, hheld, rfl⟩ := h
  have hwon : ∀ phase : ReceiverPhase, phase ≠ .polling → phase ≠ .idle →
      (⟨⟨.receiverClosed, channel, .live, none⟩, none, none, phase, false, [], []⟩ :
        OneShotRace T).ReceiverWon := by
    intro phase hpolling hidle
    exact ⟨rfl, congrArg Channel.value hheld, .inl ⟨rfl, rfl, List.mem_cons_self⟩, hpolling,
      fun h => absurd h hidle, rfl, rfl⟩
  cases hmove with
  | pollPending _ _ channel' same =>
    exact ⟨.inl ⟨channel', same.trans hheld, rfl⟩, by rintro c ⟨⟩⟩
  | pollReady _ _ _ through => simp [OneShot.held, hheld] at through
  | closes =>
    exact ⟨.inr (hwon .closing (by rintro ⟨⟩) (by rintro ⟨⟩)), by rintro c ⟨⟩⟩
  | closeAndTake => exact ⟨.inr (hwon .tried (by rintro ⟨⟩) (by rintro ⟨⟩)), by rintro c ⟨⟩⟩
  | misuse _ _ completed => cases completed
  | meetsSend _ _ taken | meetsClose _ _ _ taken => simp [OneShot.oneshot] at taken
  | closeChannel phase | closePending phase | closeReady phase | closeTaken phase
  | tryRecv phase => cases phase

theorem ReceiverWon.receiver (h : r.ReceiverWon) (hmove : ReceiverMove r c r' a) :
    r'.ReceiverWon ∧ ∀ c, a = .closed c → c = .empty := by
  have hnot : r.shared.state ≠ .opened := by simp [h.state]
  cases hmove with
  | misuse => exact ⟨h, by rintro c ⟨⟩⟩
  | pollPending idle usable | pollReady idle usable | closes idle usable | meetsSend idle usable
  | meetsClose idle usable =>
    rw [h.idle idle] at usable
    cases usable
  | closeChannel =>
    refine ⟨{ h with
      value := (close_value _).trans h.value
      phase := by rintro ⟨⟩
      idle := fun _ => rfl }, ?_⟩
    rintro c ⟨⟩
    rfl
  | closePending polling | closeReady polling => exact absurd polling h.phase
  | closeAndTake =>
    rw [exchange_of_taken hnot]
    exact ⟨{ h with phase := by rintro ⟨⟩, idle := by rintro ⟨⟩ }, by rintro c ⟨⟩⟩
  | closeTaken =>
    exact ⟨{ h with
      value := (close_value _).trans h.value
      phase := by rintro ⟨⟩
      idle := by rintro ⟨⟩ }, by rintro c ⟨⟩⟩
  | tryRecv =>
    exact ⟨{ h with
      value := tryRecv_value _
      phase := by rintro ⟨⟩
      idle := by rintro ⟨⟩
      recovered := append_of_empty h.value h.recovered }, by rintro c ⟨⟩⟩

theorem DropWon.receiver (h : r.DropWon) (hmove : ReceiverMove r c r' a) :
    r'.DropWon ∧ ∀ c, a = .closed c → c = .senderClosed := by
  have hnot : r.shared.state ≠ .opened := by simp [h.state]
  cases hmove with
  | misuse => exact ⟨h, by rintro c ⟨⟩⟩
  | pollPending _ _ channel same =>
    exact ⟨{ h with value := (congrArg Channel.value same).trans h.value }, by rintro c ⟨⟩⟩
  | pollReady _ _ channel _ taken =>
    exact ⟨{ h with
      value := congrArg Channel.value taken
      delivered := append_of_empty h.value h.delivered }, by rintro c ⟨⟩⟩
  | closes _ _ opened => exact absurd opened hnot
  | meetsSend _ _ sent => simp [h.state] at sent
  | meetsClose _ _ _ closed =>
    refine ⟨{ h with }, ?_⟩
    rintro c ⟨⟩
    simpa [h.state] using closed
  | closeChannel closing => exact absurd closing h.phase.2
  | closePending polling | closeReady polling => exact absurd polling h.phase.1
  | closeAndTake =>
    rw [exchange_of_taken hnot]
    exact ⟨{ h with phase := ⟨by rintro ⟨⟩, by rintro ⟨⟩⟩ }, by rintro c ⟨⟩⟩
  | closeTaken =>
    exact ⟨{ h with
      value := (close_value _).trans h.value
      phase := ⟨by rintro ⟨⟩, by rintro ⟨⟩⟩ }, by rintro c ⟨⟩⟩
  | tryRecv =>
    exact ⟨{ h with
      value := tryRecv_value _
      phase := ⟨by rintro ⟨⟩, by rintro ⟨⟩⟩
      recovered := append_of_empty h.value h.recovered }, by rintro c ⟨⟩⟩

/-- The receiver leaves the winner alone, and starts to close only a word that it
found open. -/
theorem ReceiverMove.frame (hmove : ReceiverMove r c r' a) :
    r'.shared.won = r.shared.won ∧ r'.sent = r.sent ∧
      (r'.phase = .closing → r.phase = .closing ∨ r.shared.state = .opened) := by
  cases hmove with
  | closes _ _ opened => exact ⟨rfl, rfl, fun _ => .inr opened⟩
  | closeAndTake => exact ⟨OneShot.exchange_won _, rfl, by rintro ⟨⟩⟩
  | misuse | pollPending | pollReady | meetsClose => exact ⟨rfl, rfl, .inl⟩
  | meetsSend | closeChannel | closePending | closeReady | closeTaken | tryRecv =>
    exact ⟨rfl, rfl, by rintro ⟨⟩⟩

theorem Accepted.sent (h : r.Accepted) : r.shared.state = .sending ∨ r.shared.state = .sent :=
  h.2.imp (·.2.1) (·.2.1)

theorem Placed.not_opened (h : r.Placed v) : r.shared.state ≠ .opened := by
  cases h with
  | onItsWay _ state => simp [state]
  | stored accepted | received accepted | reclaimed accepted =>
    rcases accepted.sent with hstate | hstate <;> simp [hstate]
  | handedBack bounced => rcases bounced.2.2 with ⟨-, hstate, -⟩ | ⟨-, hstate, -⟩ <;> simp [hstate]

/-- The value has its place, and a close is pending or has it. -/
def Keeps (v : T) (r : OneShotRace T) (a : ReceiverAnswer T) : Prop :=
  r.Placed v ∧ ∀ c, a = .closed c → c = .pending ∨ c = .value v ∧ r.delivered = [v]

theorem keeps_of_stored (accepted : r.Accepted) (value : r.shared.held.value = some v)
    (phase : r.phase ≠ .taken ∧ r.phase ≠ .closing)
    (usable : r.phase ∈ [.idle, .polling] → r.completed = false) (delivered : r.delivered = [])
    (recovered : r.recovered = []) (hmove : ReceiverMove r c r' a) : r'.Keeps v a := by
  have hnot := (Placed.stored accepted value phase.1 usable delivered recovered).not_opened
  have hone : r.delivered ++ r.shared.held.value.toList = [v] := by
    rw [delivered, value]
    rfl
  cases hmove with
  | misuse _ idle completed =>
    rw [usable (by simp [idle])] at completed
    cases completed
  | pollPending _ _ channel same =>
    replace same : OneShot.held { r.shared with channel } = r.shared.held := same
    exact ⟨.stored ⟨same ▸ accepted.1, accepted.2⟩ (same ▸ value) phase.1 usable delivered
      recovered, by rintro c ⟨⟩⟩
  | pollReady idle _ channel _ taken =>
    exact ⟨.received ⟨(congrArg Channel.complete taken).trans accepted.1, accepted.2⟩
      (congrArg Channel.value taken) (by simp [idle]) rfl hone recovered, by rintro c ⟨⟩⟩
  | closes _ _ opened => exact absurd opened hnot
  | meetsClose _ _ _ closed => rcases accepted.sent with hstate | hstate <;> simp [hstate] at closed
  | meetsSend _ hcompleted =>
    exact ⟨.stored accepted value (by rintro ⟨⟩) (fun _ => hcompleted) delivered recovered,
      by rintro c ⟨⟩⟩
  | closeChannel closing => exact absurd closing phase.2
  | closePending polling channel same =>
    replace same : OneShot.held { r.shared with channel } = r.shared.held := same
    refine ⟨.stored ⟨same ▸ accepted.1, accepted.2⟩ (same ▸ value) (by rintro ⟨⟩)
      (fun _ => usable (by simp [polling])) delivered recovered, ?_⟩
    rintro c ⟨⟩
    exact .inl rfl
  | closeReady polling channel _ taken =>
    refine ⟨.received ⟨(congrArg Channel.complete taken).trans accepted.1, accepted.2⟩
      (congrArg Channel.value taken) (by rintro ⟨⟩) rfl hone recovered, ?_⟩
    rintro c ⟨⟩
    exact .inr ⟨by rw [value]; rfl, hone⟩
  | closeAndTake idle =>
    rw [exchange_of_taken hnot]
    exact ⟨.stored accepted value (by rintro ⟨⟩) (by simp) delivered recovered, by rintro c ⟨⟩⟩
  | closeTaken =>
    exact ⟨.stored ⟨(close_complete _).trans accepted.1, accepted.2⟩
      ((close_value _).trans value) (by rintro ⟨⟩) (by simp) delivered recovered, by rintro c ⟨⟩⟩
  | tryRecv =>
    refine ⟨.reclaimed ⟨(tryRecv_complete _).trans accepted.1, accepted.2⟩
      (tryRecv_value _) rfl delivered ?_, by rintro c ⟨⟩⟩
    rw [recovered, value]
    rfl

theorem Placed.keeps (h : r.Placed v) (hphase : r.phase ≠ .closing)
    (hmove : ReceiverMove r c r' a) : r'.Keeps v a := by
  have hnot := h.not_opened
  cases h with
  | onItsWay sender state answer complete value closed usable delivered recovered =>
    have hopen : r.phase ∈ [.idle, .polling] → r.shared.held.closed = false := by
      intro hp
      rw [← Bool.not_eq_true, closed]
      rcases List.mem_pair.1 hp with hp | hp <;> simp [hp]
    cases hmove with
    | misuse => exact ⟨.onItsWay sender state answer complete value closed usable delivered
        recovered, by rintro c ⟨⟩⟩
    | pollPending _ _ channel same =>
      replace same : OneShot.held { r.shared with channel } = r.shared.held := same
      exact ⟨.onItsWay sender state answer (same ▸ complete) (same ▸ value) (same ▸ closed) usable
        delivered recovered, by rintro c ⟨⟩⟩
    | pollReady idle _ _ through => simp [complete, hopen (by simp [idle])] at through
    | closes _ _ opened => exact absurd opened hnot
    | meetsClose _ _ _ closed => simp [state] at closed
    | meetsSend idle hcompleted =>
      refine ⟨.onItsWay sender state answer complete value ?_ (fun _ => hcompleted) delivered
        recovered, by rintro c ⟨⟩⟩
      simp [hopen (by simp [idle])]
    | closeChannel closing => exact absurd closing hphase
    | closePending polling channel same =>
      replace same : OneShot.held { r.shared with channel } = r.shared.held := same
      refine ⟨.onItsWay sender state answer (same ▸ complete) (same ▸ value) ?_
        (fun _ => usable (by simp [polling])) delivered recovered, ?_⟩
      · simp [same, hopen (by simp [polling])]
      · rintro c ⟨⟩
        exact .inl rfl
    | closeReady polling _ through => simp [complete, hopen (by simp [polling])] at through
    | closeAndTake idle =>
      rw [exchange_of_taken hnot]
      refine ⟨.onItsWay sender state answer complete value ?_ (by simp) delivered recovered,
        by rintro c ⟨⟩⟩
      simp [hopen (by simp [idle])]
    | closeTaken =>
      refine ⟨.onItsWay sender state answer ((close_complete _).trans complete)
        ((close_value _).trans value) ?_ (by simp) delivered recovered, by rintro c ⟨⟩⟩
      simp [OneShot.held, TokioOneshot.held_close]
    | tryRecv hclosed =>
      refine ⟨.onItsWay sender state answer ((tryRecv_complete _).trans complete)
        (tryRecv_value _) ?_ (by simp) delivered (append_of_empty value recovered),
        by rintro c ⟨⟩⟩
      have htrue : r.shared.held.closed = true := closed.2 (by simp [hclosed])
      simp [(congrArg Channel.closed (TokioOneshot.tryRecv_eq _).2).trans htrue, OneShot.held]
  | stored accepted value phase usable delivered recovered =>
    exact keeps_of_stored accepted value ⟨phase, hphase⟩ usable delivered recovered hmove
  | received accepted value phase completed delivered recovered =>
    cases hmove with
    | misuse =>
      exact ⟨.received accepted value phase completed delivered recovered, by rintro c ⟨⟩⟩
    | pollPending _ usable | pollReady _ usable | closes _ usable | meetsSend _ usable
    | meetsClose _ usable =>
      rw [completed] at usable
      cases usable
    | closeChannel closing => exact absurd closing hphase
    | closePending polling | closeReady polling => exact absurd polling phase
    | closeAndTake =>
      rw [exchange_of_taken hnot]
      exact ⟨.received accepted value (by rintro ⟨⟩) completed delivered recovered,
        by rintro c ⟨⟩⟩
    | closeTaken =>
      exact ⟨.received ⟨(close_complete _).trans accepted.1, accepted.2⟩
        ((close_value _).trans value) (by rintro ⟨⟩) completed delivered recovered, by rintro c ⟨⟩⟩
    | tryRecv =>
      exact ⟨.received ⟨(tryRecv_complete _).trans accepted.1, accepted.2⟩ (tryRecv_value _)
        (by rintro ⟨⟩) rfl delivered (append_of_empty value recovered), by rintro c ⟨⟩⟩
  | reclaimed accepted value phase =>
    cases hmove with
    | misuse _ hp | pollPending hp | pollReady hp | closes hp | meetsSend hp | meetsClose hp
    | closeChannel hp | closePending hp | closeReady hp | closeAndTake hp | closeTaken hp
    | tryRecv hp => simp [phase] at hp
  | handedBack bounced closed phase delivered recovered =>
    cases hmove with
    | tryRecv =>
      exact ⟨.handedBack ⟨(tryRecv_complete _).trans bounced.1, tryRecv_value _, bounced.2.2⟩
        ((congrArg Channel.closed (TokioOneshot.tryRecv_eq _).2).trans closed) (by simp) delivered
        (append_of_empty bounced.2.1 recovered), by rintro c ⟨⟩⟩
    | misuse _ hp | pollPending hp | pollReady hp | closes hp | meetsSend hp | meetsClose hp
    | closeChannel hp | closePending hp | closeReady hp | closeAndTake hp | closeTaken hp =>
      simp [hp] at phase

theorem SendWon.receiver (h : r.SendWon v) (hmove : ReceiverMove r c r' a) :
    r'.SendWon v ∧ ∀ c, a = .closed c → c = .pending ∨ c = .value v ∧ r'.delivered = [v] := by
  obtain ⟨hwon, hsent, hclosing⟩ := hmove.frame
  obtain ⟨hplaced, hanswer⟩ := h.placed.keeps h.phase hmove
  refine ⟨⟨hwon.trans h.won, hsent.trans h.sent, ?_, hplaced⟩, hanswer⟩
  intro hphase
  exact (hclosing hphase).elim h.phase h.placed.not_opened

variable {i : RaceStep T}

/-- What one step of the race is. -/
theorem step_cases (h : r.step i = some (r', a)) :
    (∃ s, i = .sender s ∧ a = .silent ∧ SenderMove r s r') ∨
      ∃ c, i = .receiver c ∧ ReceiverMove r c r' a := by
  cases i with
  | sender s => exact .inl ⟨s, rfl, senderMove h⟩
  | receiver c => exact .inr ⟨c, rfl, receiverMove h⟩

theorem ReceiverWon.step (h : r.ReceiverWon) (hstep : r.step i = some (r', a)) :
    r'.ReceiverWon ∧ ∀ c, a = .closed c → c = .empty := by
  rcases step_cases hstep with ⟨s, -, rfl, hmove⟩ | ⟨c, -, hmove⟩
  · exact ⟨h.sender hmove, by rintro c ⟨⟩⟩
  · exact h.receiver hmove

theorem DropWon.step (h : r.DropWon) (hstep : r.step i = some (r', a)) :
    r'.DropWon ∧ ∀ c, a = .closed c → c = .senderClosed := by
  rcases step_cases hstep with ⟨s, -, rfl, hmove⟩ | ⟨c, -, hmove⟩
  · exact ⟨h.sender_move hmove, by rintro c ⟨⟩⟩
  · exact h.receiver hmove

theorem SendWon.step (h : r.SendWon v) (hstep : r.step i = some (r', a)) :
    r'.SendWon v ∧ ∀ c, a = .closed c → c = .pending ∨ c = .value v ∧ r'.delivered = [v] := by
  rcases step_cases hstep with ⟨s, -, rfl, hmove⟩ | ⟨c, -, hmove⟩
  · exact ⟨h.sender hmove, by rintro c ⟨⟩⟩
  · exact h.receiver hmove

/-! ### Runs -/

/-- One of the regimes holds. -/
inductive Decided (r : OneShotRace T) : Prop
  | undecided (fresh : r.Fresh)
  | receiver (won : r.ReceiverWon)
  | drop (won : r.DropWon)
  | send (v : T) (won : r.SendWon v)

theorem Decided.step (h : r.Decided) (hstep : r.step i = some (r', a)) : r'.Decided := by
  cases h with
  | undecided fresh =>
    rcases step_cases hstep with ⟨s, -, -, hmove⟩ | ⟨c, -, hmove⟩
    · rcases fresh.sender hmove with ⟨v, hwon⟩ | hwon
      · exact .send v hwon
      · exact .drop hwon
    · rcases (fresh.receiver hmove).1 with hfresh | hwon
      · exact .undecided hfresh
      · exact .receiver hwon
  | receiver won => exact .receiver (won.step hstep).1
  | drop won => exact .drop (won.step hstep).1
  | send v won => exact .send v (won.step hstep).1

abbrev RaceRun (r : OneShotRace T)
    (tr : List (Edge (OneShotRace T) (RaceStep T) (ReceiverAnswer T)))
    (r' : OneShotRace T) : Prop :=
  Run (stepEdge fun r s => OneShotRace.step r s) r tr r'

variable {tr : List (Edge (OneShotRace T) (RaceStep T) (ReceiverAnswer T))}
variable {e : Edge (OneShotRace T) (RaceStep T) (ReceiverAnswer T)}

theorem decided (h : RaceRun .new tr r) : r.Decided :=
  h.invariant (.undecided ⟨_, TokioOneshot.held_channel, rfl⟩) fun _ he _ hd => hd.step he

theorem ReceiverWon.run (hw : r.ReceiverWon) (h : RaceRun r tr r') : r'.ReceiverWon :=
  h.invariant hw fun _ he _ hw => (hw.step he).1

theorem DropWon.run (hw : r.DropWon) (h : RaceRun r tr r') : r'.DropWon :=
  h.invariant hw fun _ he _ hw => (hw.step he).1

theorem SendWon.run (hw : r.SendWon v) (h : RaceRun r tr r') : r'.SendWon v :=
  h.invariant hw fun _ he _ hw => (hw.step he).1

/-- A close tells who won, and the run stays with it. -/
theorem closed_cases (h : RaceRun .new tr r) (he : e ∈ tr) {c : OneShotClose T}
    (hclosed : e.output = .closed c) :
    c = .empty ∧ r.ReceiverWon ∨ c = .senderClosed ∧ r.DropWon ∨
      ∃ v, e.after.SendWon v ∧ r.SendWon v ∧
        (c = .pending ∨ c = .value v ∧ e.after.delivered = [v]) := by
  obtain ⟨pre, post, -, hpre, hedge, hpost⟩ := h.mem_split he
  cases decided hpre with
  | undecided fresh =>
    rcases step_cases hedge with ⟨s, -, hsilent, -⟩ | ⟨s, -, hmove⟩
    · rw [hsilent] at hclosed
      cases hclosed
    · exact absurd hclosed ((fresh.receiver hmove).2 c)
  | receiver won =>
    obtain ⟨hafter, hanswer⟩ := won.step hedge
    exact .inl ⟨hanswer c hclosed, hafter.run hpost⟩
  | drop won =>
    obtain ⟨hafter, hanswer⟩ := won.step hedge
    exact .inr (.inl ⟨hanswer c hclosed, hafter.run hpost⟩)
  | send v won =>
    obtain ⟨hafter, hanswer⟩ := won.step hedge
    exact .inr (.inr ⟨v, hafter, hafter.run hpost, hanswer c hclosed⟩)

/-- What was delivered stays delivered. -/
theorem delivered_step {w : T} (hstep : r.step i = some (r', a)) (hmem : w ∈ r.delivered) :
    w ∈ r'.delivered := by
  rcases step_cases hstep with ⟨s, -, -, hmove⟩ | ⟨c, -, hmove⟩
  · obtain ⟨shared, -, rfl⟩ := hmove
    exact hmem
  · cases hmove with
    | pollReady | closeReady => exact List.mem_append_left _ hmem
    | misuse | pollPending | closes | meetsSend | meetsClose | closeChannel | closePending
    | closeAndTake | closeTaken | tryRecv => exact hmem

theorem delivered_of_mem {w : T} (hmem : w ∈ r.delivered) (h : RaceRun r tr r') :
    w ∈ r'.delivered :=
  h.invariant hmem fun _ he _ hmem => delivered_step he hmem

/-- Only a close that found a send goes on to poll the channel. -/
theorem polling_of_move (hmove : ReceiverMove r c r' a) (hpolling : r'.phase = .polling) :
    c = .closeAndPoll ∧ (r.shared.state = .sending ∨ r.shared.state = .sent) := by
  cases hmove with
  | meetsSend _ _ sent => exact ⟨rfl, sent⟩
  | misuse _ idle | pollPending idle | pollReady idle | meetsClose idle =>
    simp [idle] at hpolling
  | closes | closeChannel | closePending | closeReady | closeAndTake | closeTaken | tryRecv =>
    cases hpolling

theorem Decided.won_of_sent (h : r.Decided)
    (hstate : r.shared.state = .sending ∨ r.shared.state = .sent) : ∃ v, r.shared.won = some v := by
  cases h with
  | undecided fresh =>
    obtain ⟨channel, -, rfl⟩ := fresh
    rcases hstate with hstate | hstate <;> cases hstate
  | receiver won | drop won => simp [won.state] at hstate
  | send v won => exact ⟨v, won.won⟩

/-- Only a send that found the word open wins. -/
theorem won_step (hstep : r.step i = some (r', a)) (hwon : r'.shared.won = some v) :
    r.shared.won = some v ∨ i = .sender (.send v) ∧ r.shared.state = .opened := by
  cases i with
  | sender s =>
    obtain ⟨-, shared, hsends, rfl⟩ := senderMove hstep
    exact (hsends.won hwon).imp_right fun ⟨hsend, hopened⟩ => ⟨by rw [hsend], hopened⟩
  | receiver s => exact .inl ((receiverMove hstep).frame.1.symm.trans hwon)

/-- The exchange by which a send won is in the history. -/
theorem won_history (h : RaceRun .new tr r) :
    ∀ v, r.shared.won = some v →
      ∃ w ∈ tr, w.input = .sender (.send v) ∧ w.before.shared.state = .opened := by
  refine h.history ?_ ?_
  · rintro v ⟨⟩
  · intro pre e _ he _ ih v hwon
    rcases won_step he hwon with hold | ⟨hinput, hopened⟩
    · obtain ⟨w, hw, hrest⟩ := ih v hold
      exact ⟨w, List.mem_append_left _ hw, hrest⟩
    · exact ⟨e, by simp, hinput, hopened⟩

/-- Before a receiver polls the channel for a close, its exchange came after that of
the sender. -/
def SentBefore (tr : List (Edge (OneShotRace T) (RaceStep T) (ReceiverAnswer T))) : Prop :=
  ∃ pre k mid, tr = pre ++ k :: mid ∧ k.input = .receiver .closeAndPoll ∧
    (∀ x ∈ mid, ∃ s, x.input = .sender s) ∧
    ∃ w ∈ pre, ∃ v, w.input = .sender (.send v) ∧ w.before.shared.state = .opened

theorem polling_history (h : RaceRun .new tr r) : r.phase = .polling → SentBefore tr := by
  refine h.history ?_ ?_
  · rintro ⟨⟩
  · intro pre e hpre he _ ih hpolling
    rcases step_cases he with ⟨s, hinput, -, hmove⟩ | ⟨c, hinput, hmove⟩
    · have hphase : e.before.phase = .polling := by
        obtain ⟨shared, -, hafter⟩ := hmove
        rw [hafter] at hpolling
        exact hpolling
      obtain ⟨p, k, mid, rfl, hk, hmid, hw⟩ := ih hphase
      refine ⟨p, k, mid ++ [e], by simp, hk, ?_, hw⟩
      intro x hx
      rcases List.mem_append.1 hx with hx | hx
      · exact hmid x hx
      · rw [List.mem_singleton.1 hx]
        exact ⟨s, hinput⟩
    · obtain ⟨rfl, hstate⟩ := polling_of_move hmove hpolling
      obtain ⟨v, hwon⟩ := (decided hpre).won_of_sent hstate
      obtain ⟨w, hw, hrest⟩ := won_history hpre v hwon
      exact ⟨pre, e, [], rfl, hinput, by simp, w, hw, v, hrest⟩

/-- A close that answers pending was polling the channel. -/
theorem polling_of_pending (h : r.step i = some (r', .closed .pending)) : r.phase = .polling := by
  rcases step_cases h with ⟨s, -, ⟨⟩, -⟩ | ⟨s, -, hmove⟩
  generalize hanswer : ReceiverAnswer.closed OneShotClose.pending = answer at hmove
  cases hmove with
  | closePending polling | closeReady polling => exact polling
  | meetsClose _ _ _ closed => rcases closed with ⟨-, rfl⟩ | ⟨-, rfl⟩ <;> cases hanswer
  | misuse | pollPending | pollReady | closes | meetsSend | closeChannel | closeAndTake
  | closeTaken | tryRecv => cases hanswer

/-! ### Where the value ends -/

theorem returned_of_accepted (h : r.Accepted) : r.returned = [] := by
  unfold returned
  rcases h.2 with ⟨-, -, hanswer⟩ | ⟨-, -, hanswer⟩ <;> rw [hanswer]

theorem SendWon.places (h : r.SendWon v) :
    r.places = [v] ∨ r.places = [] ∧ ¬ r.Over := by
  unfold OneShotRace.places
  cases h.placed with
  | onItsWay sender _ answer _ _ _ _ delivered recovered =>
    refine .inr ⟨by rw [delivered, recovered, returned, answer]; rfl, ?_⟩
    rintro ⟨hgone, -⟩
    rw [sender] at hgone
    cases hgone
  | stored accepted _ phase usable delivered recovered =>
    refine .inr ⟨by rw [delivered, recovered, returned_of_accepted accepted]; rfl, ?_⟩
    rintro ⟨-, hcompleted, hphase⟩
    rcases List.mem_pair.1 hphase with hidle | htaken
    · rw [usable (by simp [hidle])] at hcompleted
      cases hcompleted
    · exact phase htaken
  | received accepted _ _ _ delivered recovered | reclaimed accepted _ _ delivered recovered =>
    exact .inl (by rw [delivered, recovered, returned_of_accepted accepted]; rfl)
  | handedBack bounced _ _ delivered recovered =>
    rw [delivered, recovered]
    rcases bounced.2.2 with ⟨hsender, -, hanswer⟩ | ⟨-, -, hanswer⟩
    · refine .inr ⟨by rw [returned, hanswer]; rfl, ?_⟩
      rintro ⟨hgone, -⟩
      rw [hsender] at hgone
      cases hgone
    · exact .inl (by rw [returned, hanswer]; rfl)

/-- At most one place has the value, and exactly one when the race is over. -/
theorem Decided.places (h : r.Decided) :
    r.places.Sublist r.sent.toList ∧ (r.Over → r.places = r.sent.toList) := by
  cases h with
  | undecided fresh =>
    obtain ⟨channel, -, rfl⟩ := fresh
    exact ⟨List.Sublist.refl _, fun _ => rfl⟩
  | receiver won =>
    have hplaces : r.places = r.sent.toList := by
      rw [OneShotRace.places, won.delivered, won.recovered, returned]
      rcases won.refused with ⟨hsent, hanswer, -⟩ | ⟨v, hsent, hanswer, -⟩ <;>
        rw [hsent, hanswer] <;> rfl
    exact ⟨hplaces ▸ List.Sublist.refl _, fun _ => hplaces⟩
  | drop won =>
    have hplaces : r.places = r.sent.toList := by
      rw [OneShotRace.places, won.delivered, won.recovered, returned, won.sent, won.answer]
      rfl
    exact ⟨hplaces ▸ List.Sublist.refl _, fun _ => hplaces⟩
  | send v won =>
    rw [won.sent]
    rcases won.places with hone | ⟨hnone, hover⟩
    · exact ⟨hone ▸ List.Sublist.refl _, fun _ => hone⟩
    · exact ⟨hnone ▸ List.nil_sublist _, fun h => absurd h hover⟩

/-- A value that was delivered was accepted. -/
theorem SendWon.accepted_of_delivered (h : r.SendWon v) {w : T} (hmem : w ∈ r.delivered) :
    r.Accepted := by
  cases h.placed with
  | received accepted => exact accepted
  | onItsWay _ _ _ _ _ _ _ delivered | stored _ _ _ _ delivered | reclaimed _ _ _ delivered
  | handedBack _ _ _ delivered => simp [delivered] at hmem

end OneShotRace

/-- Close arbitration, for one sender that sends or is dropped and one receiver that
polls, closes and takes, interleaved at every access: the value ends in one place,
and the answer of a close tells what became of the send. -/
theorem one_shot_close_arbitrated {T : Type} [TokioOneshot T]
    {tr : List (Edge (OneShotRace T) (RaceStep T) (ReceiverAnswer T))} {r : OneShotRace T}
    (hrun : OneShotRace.RaceRun .new tr r) :
    (r.places.Sublist r.sent.toList ∧ (r.Over → r.places = r.sent.toList)) ∧
    (∀ e ∈ tr, ∀ v, e.output = .closed (.value v) →
      r.sent = some v ∧ (r.answer = some (.ok ()) ∨ r.shared.sender = .published (.ok ()))) ∧
    (∀ e ∈ tr, e.output = .closed .empty → ∀ v, r.sent = some v → r.answer = some (.error v)) ∧
    (∀ e ∈ tr, e.output = .closed .senderClosed →
      r.sent = none ∧ r.shared.sender ∈ [.dropping, .gone]) ∧
    ∀ pre e post, tr = pre ++ e :: post → e.output = .closed .pending →
      OneShotRace.SentBefore pre ∧
        ∀ e' ∈ post, e'.output ≠ .closed .empty ∧ e'.output ≠ .closed .senderClosed := by
  refine ⟨(OneShotRace.decided hrun).places, ?_, ?_, ?_, ?_⟩
  · intro e he v hvalue
    rcases OneShotRace.closed_cases hrun he hvalue with ⟨⟨⟩, -⟩ | ⟨⟨⟩, -⟩ |
      ⟨w, -, hwon, ⟨⟨⟩⟩ | ⟨hw, hdelivered⟩⟩
    cases hw
    obtain ⟨pre, post, -, -, -, hpost⟩ := hrun.mem_split he
    have hmem : v ∈ r.delivered :=
      OneShotRace.delivered_of_mem (hdelivered ▸ List.mem_cons_self) hpost
    refine ⟨hwon.sent, ?_⟩
    rcases (hwon.accepted_of_delivered hmem).2 with ⟨hsender, -⟩ | ⟨-, -, hanswer⟩
    · exact .inr hsender
    · exact .inl hanswer
  · intro e he hempty v hsent
    rcases OneShotRace.closed_cases hrun he hempty with ⟨-, hwon⟩ | ⟨⟨⟩, -⟩ |
      ⟨w, -, -, ⟨⟨⟩⟩ | ⟨⟨⟩, -⟩⟩
    rcases hwon.refused with ⟨hnone, -⟩ | ⟨w, hw, hanswer, -⟩
    · rw [hnone] at hsent
      cases hsent
    · rw [hw] at hsent
      cases hsent
      exact hanswer
  · intro e he hclosed
    rcases OneShotRace.closed_cases hrun he hclosed with ⟨⟨⟩, -⟩ | ⟨-, hwon⟩ |
      ⟨w, -, -, ⟨⟨⟩⟩ | ⟨⟨⟩, -⟩⟩
    exact ⟨hwon.sent, hwon.sender⟩
  · rintro pre e post rfl hpending
    obtain ⟨hpre, he, hpost⟩ := hrun.split_at
    have hpolling : e.before.phase = .polling := by
      have hstep : e.before.step e.input = some (e.after, e.output) := he
      rw [hpending] at hstep
      exact OneShotRace.polling_of_pending hstep
    refine ⟨OneShotRace.polling_history hpre hpolling, ?_⟩
    -- the send that won stays the winner
    rcases OneShotRace.closed_cases hrun (List.mem_append_right pre List.mem_cons_self)
      hpending with
      ⟨⟨⟩, -⟩ | ⟨⟨⟩, -⟩ | ⟨w, hafter, -⟩
    intro e' he'
    obtain ⟨mid, rest, -, hmid, hedge, -⟩ := hpost.mem_split he'
    have hanswer := ((hafter.run hmid).step hedge).2
    constructor
    · intro hempty
      rcases hanswer _ hempty with ⟨⟨⟩⟩ | ⟨⟨⟩, -⟩
    · intro hclosed
      rcases hanswer _ hclosed with ⟨⟨⟩⟩ | ⟨⟨⟩, -⟩

attribute [local instance] Channel.tokio in
/-- The receiver closes in the window between the exchange of a send and its channel
send: the close is pending once, and then has the value. -/
theorem one_shot_close_arbitrated_pending :
    ∃ tr r, OneShotRace.RaceRun (.new : OneShotRace ℕ) tr r ∧
      tr.map Edge.output = [.polled .pending, .silent, .silent, .closed .pending, .silent, .silent,
        .closed (.value 7), .silent] ∧ r.Over ∧
      r.places = [7] ∧ r.answer = some (.ok ()) := by
  have hexec : ∃ tr r, exec (fun r s => OneShotRace.step r s) (.new : OneShotRace ℕ)
      [.receiver .pollReceive, .sender (.send 7), .receiver .closeAndPoll, .receiver .pollChannel,
        .sender .publish, .receiver .closeAndPoll, .receiver .pollChannel, .sender .store] =
        some (tr, r) ∧
      tr.map Edge.output = [.polled .pending, .silent, .silent, .closed .pending, .silent, .silent,
        .closed (.value 7), .silent] ∧
      r.shared.sender = .gone ∧ r.completed = true ∧ r.phase ∈ [.idle, .taken] ∧
      r.sent = some 7 := ⟨_, _, rfl, by decide, rfl, by decide, by decide, rfl⟩
  obtain ⟨tr, r, hexec, houtputs, hgone, hcompleted, hphase, hsent⟩ := hexec
  have hrun : OneShotRace.RaceRun .new tr r := run_of_exec _ hexec
  obtain ⟨⟨-, hplaces⟩, hvalue, -⟩ := one_shot_close_arbitrated hrun
  have hover : r.Over := ⟨hgone, hcompleted, hphase⟩
  have hmem : ReceiverAnswer.closed (.value 7) ∈ tr.map Edge.output := by
    rw [houtputs]
    decide
  obtain ⟨e, he, heq⟩ := List.mem_map.1 hmem
  refine ⟨tr, r, hrun, houtputs, hover, (hplaces hover).trans (by rw [hsent]; rfl), ?_⟩
  rcases (hvalue e he 7 heq).2 with hok | hpublished
  · exact hok
  · rw [hgone] at hpublished
    cases hpublished

end Shelterwood
