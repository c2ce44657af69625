/-
Shelterwood/OneShot.lean

The single-delivery channel of a reply.

Two things are shared by its halves: a transition word, which arbitrates
between a send, a dropped sender and a closed receiver, and a Tokio channel,
which carries the value.  The channel is a parameter, `TokioOneshot`, of which
only the contract is used.  The sending half is in the hands of whoever holds
the reply, so it is a state machine of its own: each `SenderStep` is one access
to the word or to the channel.  The receiving half belongs to one future and is
part of that future's code.
-/
import Mathlib.Tactic.SplitIfs

namespace Shelterwood

/-! ### The channel -/

inductive Poll (α : Type)
  | ready (value : α)
  | pending
  deriving DecidableEq, Repr

def Poll.isPending {α : Type} : Poll α → Bool
  | .ready _ => false
  | .pending => true

variable {T : Type}

/-- What a channel holds: whether the sender sent or was dropped, the value it sent,
and whether the receiver closed. -/
structure Channel (T : Type) where
  complete : Bool
  value : Option T
  closed : Bool
  deriving DecidableEq, Repr

/-- Tokio's channel, by its contract: its calls, and what each does to what the channel
holds.  A channel may hold more, so a poll that could be ready may be pending. -/
class TokioOneshot (T : Type) where
  Chan : Type
  channel : Chan
  send : Chan → T → Except T Unit × Chan
  dropSender : Chan → Chan
  /-- `none` is the receive error. -/
  poll : Chan → Poll (Option T) × Chan
  close : Chan → Chan
  tryRecv : Chan → Option T × Chan
  held : Chan → Channel T
  held_channel : held channel = ⟨false, none, false⟩
  /-- A closed channel refuses the value and hands it back. -/
  send_closed {c : Chan} (v : T) : (held c).closed = true →
    (send c v).1 = .error v ∧ held (send c v).2 = held c
  send_open {c : Chan} (v : T) : (held c).closed = false →
    (send c v).1 = .ok () ∧ held (send c v).2 = ⟨true, some v, false⟩
  held_dropSender (c : Chan) : ∃ complete, held (dropSender c) = { held c with complete }
  /-- A pending poll changes nothing. -/
  poll_pending {c : Chan} : (poll c).1 = .pending → held (poll c).2 = held c
  /-- A poll is ready once the sender or the receiver is through.  The value it takes is
  not there for another. -/
  poll_ready {c : Chan} {result : Option T} : (poll c).1 = .ready result →
    ((held c).complete = true ∨ (held c).closed = true) ∧ result = (held c).value ∧
      held (poll c).2 = { held c with value := none }
  held_close (c : Chan) : held (close c) = { held c with closed := true }
  tryRecv_eq (c : Chan) : (tryRecv c).1 = (held c).value ∧
    held (tryRecv c).2 = { held c with value := none }

/-- The channel that holds nothing else meets the contract. -/
@[reducible] def Channel.tokio : TokioOneshot T where
  Chan := Channel T
  channel := ⟨false, none, false⟩
  send c v := if c.closed then (.error v, c) else (.ok (), ⟨true, some v, false⟩)
  dropSender c := { c with complete := true }
  poll c :=
    if c.complete || c.closed then (.ready c.value, { c with value := none }) else (.pending, c)
  close c := { c with closed := true }
  tryRecv c := (c.value, { c with value := none })
  held c := c
  held_channel := rfl
  send_closed v h := by simp [h]
  send_open v h := by simp [h]
  held_dropSender c := ⟨true, rfl⟩
  poll_pending h := by
    split_ifs at h ⊢
    rfl
  poll_ready h := by
    split_ifs at h ⊢ with hthrough
    exact ⟨by simpa using hthrough, (Poll.ready.inj h).symm, rfl⟩
  held_close _ := rfl
  tryRecv_eq _ := ⟨rfl, rfl⟩

/-! ### The transition word and the sending half -/

inductive OneShotState
  | opened
  | sending
  | sent
  | senderClosed
  | receiverClosed
  deriving DecidableEq, Repr

/-- Where the sending half is. -/
inductive OneShotSender (T : Type)
  /-- In its holder's hands. -/
  | live
  /-- Its send transition won; the value is not in the channel yet. -/
  | sending (value : T)
  /-- The channel answered; the word is not stored yet. -/
  | published (result : Except T Unit)
  /-- Its send transition lost; it is about to be dropped. -/
  | refused
  /-- Its drop has tried the word; the channel is not dropped yet. -/
  | dropping
  | gone

/-- What the two halves share, and the sending half.  `won` is a history
variable: the value whose send transition won. -/
structure OneShot (T : Type) [TokioOneshot T] where
  state : OneShotState
  channel : TokioOneshot.Chan T
  sender : OneShotSender T
  won : Option T

inductive SenderStep (T : Type)
  /-- `send`: the transition from open to sending. -/
  | send (value : T)
  /-- `publish_oneshot`: the channel send. -/
  | publish
  /-- `publish_oneshot`: the store that closes the sending window. -/
  | store
  /-- `drop`: the transition from open to sender-closed. -/
  | drop
  /-- `drop`: the channel goes. -/
  | release
  deriving DecidableEq, Repr

namespace OneShot

variable [TokioOneshot T]

/-- No reply channel has been made: nobody holds a sending half. -/
def absent : OneShot T := ⟨.opened, TokioOneshot.channel, .gone, none⟩

def oneshot : OneShot T := ⟨.opened, TokioOneshot.channel, .live, none⟩

/-- What the channel holds. -/
def held (o : OneShot T) : Channel T := TokioOneshot.held o.channel

/-- `compare_exchange` from open. -/
def exchange (o : OneShot T) (next : OneShotState) : Except OneShotState Unit × OneShot T :=
  if o.state = .opened then (.ok (), { o with state := next }) else (.error o.state, o)

def senderStep (o : OneShot T) : SenderStep T → Option (OneShot T)
  | .send value =>
    match o.sender with
    | .live =>
      match o.exchange .sending with
      | (.ok _, o') => some { o' with sender := .sending value, won := some value }
      | (.error _, o') => some { o' with sender := .refused }
    | _ => none
  | .publish =>
    match o.sender with
    | .sending value =>
      let (result, channel) := TokioOneshot.send o.channel value
      some { o with channel, sender := .published result }
    | _ => none
  | .store =>
    match o.sender with
    | .published (.ok _) => some { o with state := .sent, sender := .gone }
    | .published (.error _) => some { o with state := .receiverClosed, sender := .gone }
    | _ => none
  | .drop =>
    match o.sender with
    | .live | .refused => some { (o.exchange .senderClosed).2 with sender := .dropping }
    | _ => none
  | .release =>
    match o.sender with
    | .dropping => some { o with channel := TokioOneshot.dropSender o.channel, sender := .gone }
    | _ => none

end OneShot

/-- What closing the receiving half came to. -/
inductive OneShotClose (T : Type)
  | value (value : T)
  | senderClosed
  | empty
  | pending
  deriving DecidableEq, Repr

/-! ### What holds of every channel -/

namespace OneShot

variable [TokioOneshot T]

/-- The value in the channel, or on its way there, is the one whose send
transition won. -/
structure WellFormed (o : OneShot T) : Prop where
  value : ∀ v, o.held.value = some v → o.won = some v
  sending : ∀ v, o.sender = .sending v → o.won = some v
  undelivered : ∀ v, o.sender = .published (.error v) → o.held.closed = true
  opened : o.state = .opened → o.won = none

/-- The receiver has closed neither the word nor the channel. -/
structure Unclosed (o : OneShot T) : Prop where
  state : o.state ≠ .receiverClosed
  channel : o.held.closed = false

/-- The receiver closed first: no send transition won, and none will. -/
structure Unanswered (o : OneShot T) : Prop where
  state : o.state ≠ .opened
  won : o.won = none

@[simp] theorem held_oneshot : (oneshot : OneShot T).held = ⟨false, none, false⟩ :=
  TokioOneshot.held_channel

@[simp] theorem held_absent : (absent : OneShot T).held = ⟨false, none, false⟩ :=
  TokioOneshot.held_channel

theorem wellFormed_absent : (absent : OneShot T).WellFormed :=
  ⟨by simp, fun _ h => (nomatch h), fun _ h => (nomatch h), fun _ => rfl⟩

theorem wellFormed_oneshot : (oneshot : OneShot T).WellFormed :=
  ⟨by simp, fun _ h => (nomatch h), fun _ h => (nomatch h), fun _ => rfl⟩

theorem unclosed_oneshot : (oneshot : OneShot T).Unclosed := ⟨fun h => (nomatch h), by simp⟩

/-- An exchange moves an open word, or returns what it found. -/
theorem exchange_cases (o : OneShot T) (next : OneShotState) :
    (o.state = .opened ∧ o.exchange next = (.ok (), { o with state := next })) ∨
      (o.state ≠ .opened ∧ o.exchange next = (.error o.state, o)) := by
  by_cases h : o.state = .opened
  · exact .inl ⟨h, by rw [exchange, if_pos h]⟩
  · exact .inr ⟨h, by rw [exchange, if_neg h]⟩

/-- The exchange moves the word only. -/
theorem exchange_won {o : OneShot T} (next : OneShotState) : (o.exchange next).2.won = o.won := by
  obtain ⟨-, hex⟩ | ⟨-, hex⟩ := o.exchange_cases next <;> rw [hex]

/-- What each step of the sending half can do. -/
inductive Sends (o : OneShot T) : SenderStep T → OneShot T → Prop
  | win (v : T) (live : o.sender = .live) (opened : o.state = .opened) :
      Sends o (.send v) { o with state := .sending, sender := .sending v, won := some v }
  | lose (v : T) (live : o.sender = .live) (taken : o.state ≠ .opened) :
      Sends o (.send v) { o with sender := .refused }
  | bounce (v : T) (channel : TokioOneshot.Chan T) (sending : o.sender = .sending v)
      (closed : o.held.closed = true) (same : TokioOneshot.held channel = o.held) :
      Sends o .publish { o with channel, sender := .published (.error v) }
  | deliver (v : T) (channel : TokioOneshot.Chan T) (sending : o.sender = .sending v)
      (opened : o.held.closed = false)
      (filled : TokioOneshot.held channel = ⟨true, some v, false⟩) :
      Sends o .publish { o with channel, sender := .published (.ok ()) }
  | sent (published : o.sender = .published (.ok ())) :
      Sends o .store { o with state := .sent, sender := .gone }
  | bounced (v : T) (published : o.sender = .published (.error v)) :
      Sends o .store { o with state := .receiverClosed, sender := .gone }
  | close (held : o.sender ∈ [.live, .refused]) (opened : o.state = .opened) :
      Sends o .drop { o with state := .senderClosed, sender := .dropping }
  | drop (held : o.sender ∈ [.live, .refused]) (taken : o.state ≠ .opened) :
      Sends o .drop { o with sender := .dropping }
  | release (channel : TokioOneshot.Chan T) (complete : Bool) (dropping : o.sender = .dropping)
      (dropped : TokioOneshot.held channel = { o.held with complete }) :
      Sends o .release { o with channel, sender := .gone }

section Sender

variable {o o' : OneShot T} {step : SenderStep T}

theorem sends_of_senderStep (h : o.senderStep step = some o') : Sends o step o' := by
  cases step with
  | send v =>
    simp only [senderStep] at h
    split at h
    · next live =>
      obtain ⟨hstate, hex⟩ | ⟨hstate, hex⟩ := o.exchange_cases .sending
      · simp only [hex, Option.some.injEq] at h
        exact h ▸ .win v live hstate
      · simp only [hex, Option.some.injEq] at h
        exact h ▸ .lose v live hstate
    · cases h
  | publish =>
    simp only [senderStep] at h
    split at h
    · next v sending =>
      cases hclosed : o.held.closed with
      | true =>
        obtain ⟨hresult, hheld⟩ := TokioOneshot.send_closed v hclosed
        simp only [hresult, Option.some.injEq] at h
        exact h ▸ .bounce v _ sending hclosed hheld
      | false =>
        obtain ⟨hresult, hheld⟩ := TokioOneshot.send_open v hclosed
        simp only [hresult, Option.some.injEq] at h
        exact h ▸ .deliver v _ sending hclosed hheld
    · cases h
  | store =>
    simp only [senderStep] at h
    split at h
    · next published =>
      cases h
      exact .sent published
    · next v published =>
      cases h
      exact .bounced v published
    · cases h
  | drop =>
    have hheld : o.sender ∈ [.live, .refused] ∧
        { (o.exchange .senderClosed).2 with sender := .dropping } = o' := by
      cases hsender : o.sender with
      | live | refused => simpa [senderStep, hsender] using h
      | sending | published | dropping | gone => simp [senderStep, hsender] at h
    obtain ⟨hheld, rfl⟩ := hheld
    obtain ⟨hstate, hex⟩ | ⟨hstate, hex⟩ := o.exchange_cases .senderClosed
    · rw [hex]
      exact .close hheld hstate
    · rw [hex]
      exact .drop hheld hstate
  | release =>
    simp only [senderStep] at h
    split at h
    · next dropping =>
      cases h
      obtain ⟨complete, hheld⟩ := TokioOneshot.held_dropSender o.channel
      exact .release _ complete dropping hheld
    · cases h

/-- Only a send transition on an open word wins. -/
theorem Sends.won {v : T} (h : Sends o step o') (hwon : o'.won = some v) :
    o.won = some v ∨ step = .send v ∧ o.state = .opened := by
  cases h with
  | win w live opened => exact .inr ⟨by rw [Option.some.inj hwon], opened⟩
  | lose | bounce | deliver | sent | bounced | close | drop | release => exact .inl hwon

theorem WellFormed.sends (hw : o.WellFormed) (h : Sends o step o') : o'.WellFormed := by
  cases h with
  | win v _ opened =>
    -- the word was open, so no value is in the channel yet
    refine ⟨?_, ?_, fun _ h => (nomatch h), fun h => (nomatch h)⟩
    · intro w hvalue
      have hnone := hw.opened opened
      rw [hw.value w hvalue] at hnone
      cases hnone
    · intro w hsender
      cases hsender
      rfl
  | bounce v channel _ closed same =>
    exact ⟨fun w h => hw.value w (same ▸ h), fun _ h => (nomatch h),
      fun _ _ => (congrArg Channel.closed same).trans closed, hw.opened⟩
  | deliver v channel sending opened filled =>
    refine ⟨?_, fun _ h => (nomatch h), fun _ h => (nomatch h), hw.opened⟩
    intro w hvalue
    obtain rfl : v = w := Option.some.inj ((congrArg Channel.value filled).symm.trans hvalue)
    exact hw.sending v sending
  | release channel complete _ dropped =>
    exact ⟨fun w h => hw.value w ((congrArg Channel.value dropped).symm.trans h),
      fun _ h => (nomatch h), fun _ h => (nomatch h), hw.opened⟩
  | sent | bounced | close =>
    exact ⟨hw.value, fun _ h => (nomatch h), fun _ h => (nomatch h), fun h => (nomatch h)⟩
  | lose | drop =>
    exact ⟨hw.value, fun _ h => (nomatch h), fun _ h => (nomatch h), hw.opened⟩

/-- A sender finds the receiver closed only if the receiver closed. -/
theorem Unclosed.sends (hu : o.Unclosed) (hw : o.WellFormed) (h : Sends o step o') :
    o'.Unclosed := by
  cases h with
  | bounced v published =>
    have hclosed := hw.undelivered v published
    rw [hu.channel] at hclosed
    cases hclosed
  | win | sent | close => exact ⟨fun h => (nomatch h), hu.channel⟩
  | deliver _ _ _ _ filled => exact ⟨hu.state, congrArg Channel.closed filled⟩
  | bounce _ _ _ _ held | release _ _ _ held =>
    exact ⟨hu.state, (congrArg Channel.closed held).trans hu.channel⟩
  | lose | drop => exact ⟨hu.state, hu.channel⟩

theorem Unanswered.sends (hu : o.Unanswered) (h : Sends o step o') : o'.Unanswered := by
  cases h with
  | win v _ opened => exact absurd opened hu.state
  | sent | bounced | close => exact ⟨fun h => (nomatch h), hu.won⟩
  | lose | bounce | deliver | drop | release => exact ⟨hu.state, hu.won⟩

/-- A send transition wins once. -/
theorem WellFormed.won_sends (hw : o.WellFormed) (h : Sends o step o') {v : T}
    (hwon : o.won = some v) : o'.won = some v := by
  cases h with
  | win w _ opened =>
    rw [hw.opened opened] at hwon
    cases hwon
  | lose | bounce | deliver | sent | bounced | close | drop | release => exact hwon

end Sender

/-! ### What the receiver does -/

section Receiver

variable {o : OneShot T}

theorem poll_ready {v : T} (hw : o.WellFormed)
    (h : (TokioOneshot.poll o.channel).1 = .ready (some v)) : o.won = some v :=
  hw.value v (TokioOneshot.poll_ready h).2.1.symm

/-- A poll takes the value, or changes nothing. -/
theorem poll_cases {c c' : TokioOneshot.Chan T} {result : Poll (Option T)}
    (h : TokioOneshot.poll c = (result, c')) :
    (result = .pending ∧ TokioOneshot.held c' = TokioOneshot.held c) ∨
      result = .ready (TokioOneshot.held c).value ∧
        ((TokioOneshot.held c).complete = true ∨ (TokioOneshot.held c).closed = true) ∧
        TokioOneshot.held c' = { TokioOneshot.held c with value := none } := by
  cases result with
  | pending =>
    have hheld := TokioOneshot.poll_pending (c := c) (by rw [h])
    rw [h] at hheld
    exact .inl ⟨rfl, hheld⟩
  | ready result =>
    obtain ⟨hthrough, hresult, hheld⟩ := TokioOneshot.poll_ready (c := c) (by rw [h])
    rw [h] at hheld
    exact .inr ⟨congrArg Poll.ready hresult, hthrough, hheld⟩

/-- What is held after a poll. -/
theorem held_poll (c : TokioOneshot.Chan T) :
    TokioOneshot.held (TokioOneshot.poll c).2 = TokioOneshot.held c ∨
      TokioOneshot.held (TokioOneshot.poll c).2 = { TokioOneshot.held c with value := none } :=
  (poll_cases (c := c) rfl).imp (·.2) (·.2.2)

theorem poll_closed :
    (TokioOneshot.held (TokioOneshot.poll o.channel).2).closed = o.held.closed := by
  rcases held_poll o.channel with hheld | hheld <;> rw [hheld] <;> rfl

/-- Taking the value out of the channel leaves nothing that was not sent. -/
theorem WellFormed.of_channel {channel : TokioOneshot.Chan T} (hw : o.WellFormed)
    (hvalue : ∀ v, (TokioOneshot.held channel).value = some v → o.held.value = some v)
    (hclosed : o.held.closed = true → (TokioOneshot.held channel).closed = true) :
    WellFormed { o with channel } :=
  ⟨fun v h => hw.value v (hvalue v h), hw.sending, fun v h => hclosed (hw.undelivered v h),
    hw.opened⟩

theorem WellFormed.poll (hw : o.WellFormed) :
    WellFormed { o with channel := (TokioOneshot.poll o.channel).2 } := by
  refine hw.of_channel ?_ fun h => poll_closed.trans h
  intro v hv
  rcases held_poll o.channel with hheld | hheld
  · rwa [hheld] at hv
  · rw [hheld] at hv
    cases hv

theorem WellFormed.tryRecv (hw : o.WellFormed) :
    WellFormed { o with channel := (TokioOneshot.tryRecv o.channel).2 } := by
  have hheld := (TokioOneshot.tryRecv_eq o.channel).2
  refine hw.of_channel ?_ fun h => (congrArg Channel.closed hheld).trans h
  intro v hv
  rw [hheld] at hv
  cases hv

theorem WellFormed.close (hw : o.WellFormed) :
    WellFormed { o with channel := TokioOneshot.close o.channel } := by
  have hheld := TokioOneshot.held_close o.channel
  exact hw.of_channel (fun v h => (congrArg Channel.value hheld).symm.trans h)
    fun _ => congrArg Channel.closed hheld

theorem WellFormed.exchange (hw : o.WellFormed) :
    (o.exchange .receiverClosed).2.WellFormed := by
  obtain ⟨-, hex⟩ | ⟨-, hex⟩ := o.exchange_cases .receiverClosed
  · rw [hex]
    exact ⟨hw.value, hw.sending, hw.undelivered, fun h => (nomatch h)⟩
  · rw [hex]
    exact hw

theorem Unanswered.exchange (hu : o.Unanswered) : (o.exchange .receiverClosed).2.Unanswered := by
  obtain ⟨hstate, -⟩ | ⟨-, hex⟩ := o.exchange_cases .receiverClosed
  · exact absurd hstate hu.state
  · rw [hex]
    exact hu

end Receiver

end OneShot

end Shelterwood
