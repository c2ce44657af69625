/-
Shelterwood/Offload.lean

Shared ownership of an offloaded future.

The future of an offload stands in a mutex.  A poll takes it out and runs the user's poll
with the lock released, a cancel takes an idle future or marks one that is being polled,
and whoever has it last hands it to disposal.  Polls and cancels each end by firing the
completion latch; the one that wins the latch wakes its waiters and then publishes.

Above the code stands the place of the future: in the mutex, with a poll, in the hands of
the party that is to dispose of it, or disposed of.  Every step of a party leaves the
place alone or moves it on (`place_step`), and who polls and who disposes is read off the
place.
-/
import Mathlib.Logic.Function.Basic
import Shelterwood.Trace

namespace Shelterwood

/-! ### The mutex -/

structure OffloadFutureState (φ : Type*) where
  future : Option φ
  polling : Bool
  cancelled : Bool

inductive OffloadPoll
  | pending
  | finished
  deriving DecidableEq, Repr

namespace OffloadFutureState

variable {φ : Type*}

def takeForPoll (state : OffloadFutureState φ) : OffloadFutureState φ × Option φ :=
  if state.cancelled || state.polling then (state, none)
  else ({ state with future := none, polling := state.future.isSome }, state.future)

/-- The future to dispose of, and whether the slot was found taken. -/
def finishPoll (state : OffloadFutureState φ) (future : φ) (outcome : OffloadPoll) :
    OffloadFutureState φ × Option φ × Bool :=
  if outcome = .pending ∧ state.cancelled = false ∧ state.future.isSome = false then
    ({ state with polling := false, future := some future }, none, false)
  else ({ state with polling := false }, some future, state.future.isSome)

/-- The critical section of `cancel`. -/
def cancel (state : OffloadFutureState φ) : OffloadFutureState φ × Option φ :=
  if state.polling then ({ state with cancelled := true }, none)
  else ({ state with cancelled := true, future := none }, state.future)

end OffloadFutureState

/-! ### Polls and cancels -/

/-- How the user's poll ended. -/
inductive UserPoll
  | pending
  | ready
  | panicked
  deriving DecidableEq, Repr

def UserPoll.outcome : UserPoll → OffloadPoll
  | .pending => .pending
  | .ready | .panicked => .finished

inductive OffloadCaller
  | poll
  /-- A cancel of the shared state, or of the resource that holds it. -/
  | cancel (resource : Bool)
  deriving DecidableEq, Repr

inductive OffloadReturn
  /-- A poll that found no future to poll. -/
  | absent
  | pending
  | finished
  | cancelled
  deriving DecidableEq, Repr

/-- Where a call is. -/
inductive OffloadPhase (φ : Type*)
  | called
  | taken (future : φ)
  | polling (future : φ)
  | polled (future : φ) (result : UserPoll)
  | recording (future : Option φ)
  | disposing (future : Option φ)
  /-- `fire_finished`: before the transition, in the wake, before the record of its panic
  and before the publication. -/
  | firing
  | notifying
  | recordingWake
  | publishing
  /-- The last step of cancelling a resource fires the latch itself. -/
  | refiring
  | renotifying
  | returned (result : OffloadReturn)

namespace OffloadPhase

variable {φ : Type*}

/-- After `finish_poll`. -/
def afterPoll : UserPoll → Option φ → OffloadPhase φ
  | .pending, none => .returned .pending
  | .pending, some future => .disposing (some future)
  | .ready, dispose => .disposing dispose
  | .panicked, dispose => .recording dispose

/-- After `fire_finished`. -/
def afterFire : OffloadCaller → OffloadPhase φ
  | .poll => .returned .finished
  | .cancel false => .returned .cancelled
  | .cancel true => .refiring

end OffloadPhase

/-- What the calls share. -/
structure SharedOffload (φ : Type*) where
  state : OffloadFutureState φ
  finished : Bool
  finishedPublished : Bool

inductive OffloadStep (φ : Type*)
  /-- The critical section of `take_for_poll` or of `cancel`. -/
  | enter
  | beginPoll
  | endPoll (future : φ) (result : UserPoll)
  | finishPoll
  | record
  | dispose
  | fireSilently
  | notify (panics : Bool)
  | recordWake
  | publish
  | refire
  | renotify

inductive OffloadAnswer (φ : Type*)
  | silent
  | took
  | began
  | disposed (future : φ)
  /-- The transition of the latch. -/
  | claimed
  /-- The assertion of `finish_poll` failed. -/
  | duplicate

namespace SharedOffload

variable {φ : Type*}

def new (future : φ) : SharedOffload φ := ⟨⟨some future, false, false⟩, false, false⟩

def step (caller : OffloadCaller) (cell : SharedOffload φ) (phase : OffloadPhase φ)
    (step : OffloadStep φ) : Option (SharedOffload φ × OffloadPhase φ × OffloadAnswer φ) :=
  match step, phase with
  | .enter, .called =>
    match caller with
    | .poll =>
      match cell.state.takeForPoll with
      | (state, none) => some ({ cell with state }, .returned .absent, .silent)
      | (state, some future) => some ({ cell with state }, .taken future, .took)
    | .cancel _ =>
      some ({ cell with state := cell.state.cancel.1 }, .disposing cell.state.cancel.2, .silent)
  | .beginPoll, .taken future => some (cell, .polling future, .began)
  | .endPoll future result, .polling _ => some (cell, .polled future result, .silent)
  | .finishPoll, .polled future result =>
    match cell.state.finishPoll future result.outcome with
    | (state, dispose, duplicate) =>
      some ({ cell with state }, .afterPoll result dispose,
        if duplicate then .duplicate else .silent)
  | .record, .recording future => some (cell, .disposing future, .silent)
  | .dispose, .disposing none => some (cell, .firing, .silent)
  | .dispose, .disposing (some future) => some (cell, .firing, .disposed future)
  | .fireSilently, .firing =>
    if cell.finished then some (cell, .afterFire caller, .silent)
    else some ({ cell with finished := true }, .notifying, .claimed)
  | .notify panics, .notifying =>
    some (cell, if panics then .recordingWake else .publishing, .silent)
  | .recordWake, .recordingWake => some (cell, .publishing, .silent)
  | .publish, .publishing =>
    some ({ cell with finishedPublished := true }, .afterFire caller, .silent)
  | .refire, .refiring =>
    if cell.finished then some (cell, .returned .cancelled, .silent)
    else some ({ cell with finished := true }, .renotifying, .claimed)
  | .renotify, .renotifying => some (cell, .returned .cancelled, .silent)
  | _, _ => none

/-! ### What one step is -/

inductive Move (caller : OffloadCaller) (cell : SharedOffload φ) : OffloadPhase φ →
    OffloadStep φ → SharedOffload φ → OffloadPhase φ → OffloadAnswer φ → Prop
  | turnedAway (isPoll : caller = .poll) :
      Move caller cell .called .enter cell (.returned .absent) .silent
  | took (future : φ) (stored : cell.state.future = some future)
      (idle : cell.state.polling = false) (live : cell.state.cancelled = false)
      (isPoll : caller = .poll) :
      Move caller cell .called .enter { cell with state := ⟨none, true, false⟩ }
        (.taken future) .took
  | marked (polling : cell.state.polling = true) :
      Move caller cell .called .enter
        { cell with state := { cell.state with cancelled := true } } (.disposing none) .silent
  | seized (idle : cell.state.polling = false) :
      Move caller cell .called .enter
        { cell with state := { cell.state with cancelled := true, future := none } }
        (.disposing cell.state.future) .silent
  | began (future : φ) :
      Move caller cell (.taken future) .beginPoll cell (.polling future) .began
  | ended (future future' : φ) (result : UserPoll) :
      Move caller cell (.polling future) (.endPoll future' result) cell
        (.polled future' result) .silent
  | putBack (future : φ) (live : cell.state.cancelled = false) (empty : cell.state.future = none) :
      Move caller cell (.polled future .pending) .finishPoll
        { cell with state := ⟨some future, false, false⟩ } (.returned .pending) .silent
  | kept (future : φ) (result : UserPoll) (phase : OffloadPhase φ)
      (answer : OffloadAnswer φ)
      (next : phase = .recording (some future) ∨ phase = .disposing (some future))
      (asserts : answer = .silent ∨ answer = .duplicate ∧ cell.state.future.isSome = true) :
      Move caller cell (.polled future result) .finishPoll
        { cell with state := { cell.state with polling := false } } phase answer
  | recorded (future : Option φ) :
      Move caller cell (.recording future) .record cell (.disposing future) .silent
  | disposedNone : Move caller cell (.disposing none) .dispose cell .firing .silent
  | disposed (future : φ) :
      Move caller cell (.disposing (some future)) .dispose cell .firing (.disposed future)
  | lost (phase : OffloadPhase φ) (next : phase = .afterFire caller)
      (finished : cell.finished = true) :
      Move caller cell .firing .fireSilently cell phase .silent
  | claimed (unfinished : cell.finished = false) :
      Move caller cell .firing .fireSilently { cell with finished := true } .notifying .claimed
  | notified : Move caller cell .notifying (.notify false) cell .publishing .silent
  | wakePanicked : Move caller cell .notifying (.notify true) cell .recordingWake .silent
  | wakeRecorded : Move caller cell .recordingWake .recordWake cell .publishing .silent
  | published (phase : OffloadPhase φ) (next : phase = .afterFire caller) :
      Move caller cell .publishing .publish { cell with finishedPublished := true } phase .silent
  | refireLost (finished : cell.finished = true) :
      Move caller cell .refiring .refire cell (.returned .cancelled) .silent
  | refired (unfinished : cell.finished = false) :
      Move caller cell .refiring .refire { cell with finished := true } .renotifying .claimed
  | renotified : Move caller cell .renotifying .renotify cell (.returned .cancelled) .silent

variable {caller : OffloadCaller} {cell cell' : SharedOffload φ} {phase phase' : OffloadPhase φ}
  {st : OffloadStep φ} {a : OffloadAnswer φ}

theorem enter_poll_move (h : step .poll cell .called .enter = some (cell', phase', a)) :
    Move .poll cell .called .enter cell' phase' a := by
  obtain ⟨⟨future, polling, cancelled⟩, finished, published⟩ := cell
  cases cancelled with
  | true =>
    cases h
    exact .turnedAway rfl
  | false =>
    cases polling with
    | true =>
      cases h
      exact .turnedAway rfl
    | false =>
      cases future with
      | none =>
        cases h
        exact .turnedAway rfl
      | some future =>
        cases h
        exact .took future rfl rfl rfl rfl

theorem enter_cancel_move {resource : Bool}
    (h : step (.cancel resource) cell .called .enter = some (cell', phase', a)) :
    Move (.cancel resource) cell .called .enter cell' phase' a := by
  obtain ⟨⟨future, polling, cancelled⟩, finished, published⟩ := cell
  cases polling with
  | true =>
    cases h
    exact .marked rfl
  | false =>
    cases h
    exact .seized rfl

theorem finishPoll_move {future : φ} {result : UserPoll}
    (h : step caller cell (.polled future result) .finishPoll = some (cell', phase', a)) :
    Move caller cell (.polled future result) .finishPoll cell' phase' a := by
  obtain ⟨⟨stored, polling, cancelled⟩, finished, published⟩ := cell
  have hkept : ∀ b : Bool, b = stored.isSome →
      (if b = true then OffloadAnswer.duplicate else .silent : OffloadAnswer φ) = .silent ∨
      (if b = true then OffloadAnswer.duplicate else .silent : OffloadAnswer φ) = .duplicate ∧
        stored.isSome = true := by
    rintro (_ | _) hb
    · exact .inl rfl
    · exact .inr ⟨rfl, hb.symm⟩
  cases result with
  | ready =>
    cases h
    exact .kept future .ready _ _ (.inr rfl) (hkept _ rfl)
  | panicked =>
    cases h
    exact .kept future .panicked _ _ (.inl rfl) (hkept _ rfl)
  | pending =>
    cases cancelled with
    | true =>
      cases h
      exact .kept future .pending _ _ (.inr rfl) (hkept _ rfl)
    | false =>
      cases stored with
      | none =>
        cases h
        exact .putBack future rfl rfl
      | some other =>
        cases h
        exact .kept future .pending _ _ (.inr rfl) (hkept _ rfl)

theorem move (h : step caller cell phase st = some (cell', phase', a)) :
    Move caller cell phase st cell' phase' a := by
  unfold step at h
  split at h
  · cases caller with
    | poll => exact enter_poll_move h
    | cancel resource => exact enter_cancel_move h
  · cases h
    exact .began _
  · cases h
    exact .ended _ _ _
  · exact finishPoll_move h
  · cases h
    exact .recorded _
  · cases h
    exact .disposedNone
  · cases h
    exact .disposed _
  · split_ifs at h with hfinished
    · cases h
      exact .lost _ rfl hfinished
    · cases h
      exact .claimed (Bool.eq_false_iff.2 hfinished)
  · next panics =>
    cases h
    cases panics with
    | false => exact .notified
    | true => exact .wakePanicked
  · cases h
    exact .wakeRecorded
  · cases h
    exact .published _ rfl
  · split_ifs at h with hfinished
    · cases h
      exact .refireLost hfinished
    · cases h
      exact .refired (Bool.eq_false_iff.2 hfinished)
  · cases h
    exact .renotified
  · cases h

end SharedOffload

/-! ### Any number of calls -/

structure OffloadParty (φ : Type*) where
  caller : OffloadCaller
  phase : OffloadPhase φ

/-- A shared offload and the calls on it. -/
structure OffloadWork (φ ι : Type*) where
  cell : SharedOffload φ
  parties : ι → Option (OffloadParty φ)

inductive OffloadInput (φ ι : Type*)
  | call (i : ι) (caller : OffloadCaller)
  | step (i : ι) (step : OffloadStep φ)

abbrev OffloadEdge (φ ι : Type*) := Edge (OffloadWork φ ι) (OffloadInput φ ι) (OffloadAnswer φ)

namespace OffloadWork

variable {φ ι : Type*}

def new (future : φ) : OffloadWork φ ι := ⟨.new future, fun _ => none⟩

variable [DecidableEq ι]

/-- The party moves on and the cell changes. -/
def put (s : OffloadWork φ ι) (i : ι) (cell : SharedOffload φ) (party : OffloadParty φ) :
    OffloadWork φ ι :=
  ⟨cell, Function.update s.parties i (some party)⟩

def apply (s : OffloadWork φ ι) : OffloadInput φ ι → Option (OffloadWork φ ι × OffloadAnswer φ)
  | .call i caller =>
    match s.parties i with
    | none => some (s.put i s.cell ⟨caller, .called⟩, .silent)
    | some _ => none
  | .step i step =>
    match s.parties i with
    | none => none
    | some party =>
      match s.cell.step party.caller party.phase step with
      | none => none
      | some (cell, phase, answer) => some (s.put i cell ⟨party.caller, phase⟩, answer)

variable {s s' : OffloadWork φ ι} {input : OffloadInput φ ι} {a : OffloadAnswer φ} {i j : ι}

theorem apply_call {caller : OffloadCaller} (h : s.apply (.call i caller) = some (s', a)) :
    s.parties i = none ∧ s' = s.put i s.cell ⟨caller, .called⟩ ∧ a = .silent := by
  rw [apply] at h
  split at h
  · next hi =>
    cases h
    exact ⟨hi, rfl, rfl⟩
  · cases h

theorem apply_step {step : OffloadStep φ} (h : s.apply (.step i step) = some (s', a)) :
    ∃ caller phase cell phase', s.parties i = some ⟨caller, phase⟩ ∧
      SharedOffload.Move caller s.cell phase step cell phase' a ∧
      s' = s.put i cell ⟨caller, phase'⟩ := by
  rw [apply] at h
  split at h
  · cases h
  · next party hi =>
    split at h
    · cases h
    · next cell phase' answer hstep =>
      cases h
      exact ⟨party.caller, party.phase, cell, phase', hi, SharedOffload.move hstep, rfl⟩

end OffloadWork

/-! ### The place of the future -/

inductive FuturePlace (ι : Type*)
  | stored
  | polledBy (i : ι)
  | heldBy (i : ι)
  | disposed

/-- How a call of `i` moves the future on, and whether it hands it to disposal. -/
inductive FuturePlace.Moves {ι : Type*} (i : ι) : FuturePlace ι → Bool → FuturePlace ι → Prop
  | stays (place : FuturePlace ι) : Moves i place false place
  | took : Moves i .stored false (.polledBy i)
  | putBack : Moves i (.polledBy i) false .stored
  | kept : Moves i (.polledBy i) false (.heldBy i)
  | seized : Moves i .stored false (.heldBy i)
  | disposed : Moves i (.heldBy i) true .disposed

/-- How often the future was handed to disposal on its way here. -/
def FuturePlace.disposals {ι : Type*} : FuturePlace ι → ℕ
  | .disposed => 1
  | _ => 0

theorem FuturePlace.Moves.disposals {ι : Type*} {i : ι} {place place' : FuturePlace ι}
    {disposes : Bool}
    (h : Moves i place disposes place') :
    place'.disposals = place.disposals + disposes.toNat := by
  cases h <;> rfl

def OffloadAnswer.isDisposal {φ : Type*} : OffloadAnswer φ → Bool
  | .disposed _ => true
  | _ => false

def OffloadAnswer.isClaim {φ : Type*} : OffloadAnswer φ → Bool
  | .claimed => true
  | _ => false

namespace OffloadPhase

variable {φ : Type*}

/-- Has the future for a poll. -/
def polls : OffloadPhase φ → Bool
  | .taken _ | .polling _ | .polled _ _ => true
  | _ => false

/-- Has the future for disposal. -/
def holds : OffloadPhase φ → Bool
  | .recording (some _) | .disposing (some _) => true
  | _ => false

end OffloadPhase

namespace OffloadWork

variable {φ ι : Type*}

def polls (s : OffloadWork φ ι) (i : ι) : Bool :=
  match s.parties i with
  | none => false
  | some party => party.phase.polls

def holds (s : OffloadWork φ ι) (i : ι) : Bool :=
  match s.parties i with
  | none => false
  | some party => party.phase.holds

/-- The mutex and the calls agree on where the future is. -/
structure At (s : OffloadWork φ ι) (place : FuturePlace ι) : Prop where
  future : s.cell.state.future.isSome = true ↔ place = .stored
  polling : s.cell.state.polling = true ↔ ∃ i, place = .polledBy i
  polls : ∀ i, s.polls i = true ↔ place = .polledBy i
  holds : ∀ i, s.holds i = true ↔ place = .heldBy i

theorem at_new (future : φ) : At (new future : OffloadWork φ ι) .stored where
  future := ⟨fun _ => rfl, fun _ => rfl⟩
  polling := ⟨by rintro ⟨⟩, by rintro ⟨i, ⟨⟩⟩⟩
  polls i := ⟨by rintro ⟨⟩, by rintro ⟨⟩⟩
  holds i := ⟨by rintro ⟨⟩, by rintro ⟨⟩⟩

variable {s : OffloadWork φ ι} {place : FuturePlace ι}

theorem At.polledBy {party : OffloadParty φ} {i : ι} (h : At s place)
    (hi : s.parties i = some party)
    (hpolls : party.phase.polls = true) : place = .polledBy i := by
  rw [← h.polls i, OffloadWork.polls, hi]
  exact hpolls

theorem At.heldBy {party : OffloadParty φ} {i : ι} (h : At s place) (hi : s.parties i = some party)
    (hholds : party.phase.holds = true) : place = .heldBy i := by
  rw [← h.holds i, OffloadWork.holds, hi]
  exact hholds

variable [DecidableEq ι] {s' : OffloadWork φ ι} {input : OffloadInput φ ι}
  {a : OffloadAnswer φ} {i j : ι} {cell : SharedOffload φ} {party : OffloadParty φ}
  {place' : FuturePlace ι}

theorem polls_put_self : (s.put i cell party).polls i = party.phase.polls := by
  simp [polls, put]

theorem holds_put_self : (s.put i cell party).holds i = party.phase.holds := by
  simp [holds, put]

theorem parties_put_self : (s.put i cell party).parties i = some party :=
  Function.update_self _ _ _

theorem parties_put_of_ne (h : j ≠ i) : (s.put i cell party).parties j = s.parties j :=
  Function.update_of_ne h _ _

/-- A party after a step is the one that made it or was there before. -/
theorem parties_put_cases {old : OffloadParty φ} (h : (s.put i cell party).parties j = some old) :
    j = i ∧ old = party ∨ s.parties j = some old := by
  by_cases hj : j = i
  · subst hj
    rw [parties_put_self] at h
    exact .inl ⟨rfl, (Option.some.inj h).symm⟩
  · rw [parties_put_of_ne hj] at h
    exact .inr h

theorem polls_put_of_ne (h : j ≠ i) : (s.put i cell party).polls j = s.polls j := by
  rw [polls, parties_put_of_ne h, polls]

theorem holds_put_of_ne (h : j ≠ i) : (s.put i cell party).holds j = s.holds j := by
  rw [holds, parties_put_of_ne h, holds]

/-- A step of one party is checked on that party, if it moves the future between itself,
the mutex and disposal only. -/
theorem At.put (h : At s place)
    (future : cell.state.future.isSome = true ↔ place' = .stored)
    (polling : cell.state.polling = true ↔ ∃ i, place' = .polledBy i)
    (self_polls : party.phase.polls = true ↔ place' = .polledBy i)
    (self_holds : party.phase.holds = true ↔ place' = .heldBy i)
    (others : ∀ j, j ≠ i → ((place' = .polledBy j ↔ place = .polledBy j) ∧
      (place' = .heldBy j ↔ place = .heldBy j))) : At (s.put i cell party) place' where
  future := future
  polling := polling
  polls j := by
    by_cases hj : j = i
    · subst hj
      rw [polls_put_self, self_polls]
    · rw [polls_put_of_ne hj, h.polls, (others j hj).1]
  holds j := by
    by_cases hj : j = i
    · subst hj
      rw [holds_put_self, self_holds]
    · rw [holds_put_of_ne hj, h.holds, (others j hj).2]

/-- A step that changes neither what the mutex says of the future nor what the party has. -/
theorem At.put_same {old : OffloadParty φ} (h : At s place) (hi : s.parties i = some old)
    (future : cell.state.future = s.cell.state.future)
    (polling : cell.state.polling = s.cell.state.polling)
    (self_polls : party.phase.polls = old.phase.polls)
    (self_holds : party.phase.holds = old.phase.holds) : At (s.put i cell party) place := by
  refine h.put ?_ ?_ ?_ ?_ fun j _ => ⟨Iff.rfl, Iff.rfl⟩
  · rw [future, h.future]
  · rw [polling, h.polling]
  · rw [self_polls, ← h.polls i, OffloadWork.polls, hi]
  · rw [self_holds, ← h.holds i, OffloadWork.holds, hi]

theorem place_call {caller : OffloadCaller} (hi : s.parties i = none) (hat : At s place) :
    At (s.put i s.cell ⟨caller, .called⟩) place := by
  refine hat.put hat.future hat.polling ?_ ?_ fun j _ => ⟨Iff.rfl, Iff.rfl⟩
  · rw [← hat.polls i, OffloadWork.polls, hi]
    exact Iff.rfl
  · rw [← hat.holds i, OffloadWork.holds, hi]
    exact Iff.rfl

theorem place_move {caller : OffloadCaller} {phase phase' : OffloadPhase φ} {step : OffloadStep φ}
    (hi : s.parties i = some ⟨caller, phase⟩)
    (hmove : SharedOffload.Move caller s.cell phase step cell phase' a) (hat : At s place) :
    ∃ place', At (s.put i cell ⟨caller, phase'⟩) place' ∧
      FuturePlace.Moves i place a.isDisposal place' := by
  -- the steps outside the critical sections leave the future with whom it was
  have hsame : cell.state.future = s.cell.state.future → cell.state.polling = s.cell.state.polling →
      phase'.polls = phase.polls → phase'.holds = phase.holds → a.isDisposal = false →
      ∃ place', At (s.put i cell ⟨caller, phase'⟩) place' ∧
        FuturePlace.Moves i place a.isDisposal place' := by
    intro hfuture hpolling hpolls hholds hdisposal
    rw [hdisposal]
    exact ⟨place, hat.put_same hi hfuture hpolling hpolls hholds, .stays place⟩
  cases hmove with
  | turnedAway | began | ended | disposedNone | claimed | notified | wakePanicked | wakeRecorded
  | refireLost | refired | renotified | marked => exact hsame rfl rfl rfl rfl rfl
  | recorded future => cases future <;> exact hsame rfl rfl rfl rfl rfl
  | lost next hnext | published next hnext =>
    subst hnext
    rcases caller with _ | _ | _ <;> exact hsame rfl rfl rfl rfl rfl
  | took future stored idle live =>
    have hplace : place = .stored := hat.future.1 (by rw [stored]; rfl)
    subst hplace
    exact ⟨.polledBy i, hat.put (by simp) (by simp) (by simp [OffloadPhase.polls])
      (by simp [OffloadPhase.holds]) (by simp +contextual [eq_comm]), .took⟩
  | seized idle =>
    rcases Option.eq_none_or_eq_some s.cell.state.future with hfuture | ⟨future, hfuture⟩
    · exact hsame hfuture.symm rfl rfl (by rw [hfuture]; rfl) rfl
    · have hplace : place = .stored := hat.future.1 (by rw [hfuture]; rfl)
      subst hplace
      exact ⟨.heldBy i, hat.put (by simp) (by simp [idle]) (by simp [OffloadPhase.polls])
        (by simp [OffloadPhase.holds, hfuture]) (by simp +contextual [eq_comm]), .seized⟩
  | putBack future live empty =>
    have hplace := hat.polledBy hi rfl
    subst hplace
    exact ⟨.stored, hat.put (by simp) (by simp) (by simp [OffloadPhase.polls])
      (by simp [OffloadPhase.holds]) (by simp +contextual [eq_comm]), .putBack⟩
  | kept future result _ _ next asserts =>
    have hplace := hat.polledBy hi rfl
    subst hplace
    have hempty : s.cell.state.future.isSome = false := by
      rw [Bool.eq_false_iff, Ne, hat.future]
      rintro ⟨⟩
    have hanswer : a.isDisposal = false := by
      rcases asserts with rfl | ⟨rfl, -⟩ <;> rfl
    have hphase : phase'.polls = false ∧ phase'.holds = true := by
      rcases next with rfl | rfl <;> exact ⟨rfl, rfl⟩
    rw [hanswer]
    exact ⟨.heldBy i, hat.put (by simp [hempty]) (by simp) (by simp [hphase.1])
      (by simp [hphase.2]) (by simp +contextual [eq_comm]), .kept⟩
  | disposed future =>
    have hplace := hat.heldBy hi rfl
    subst hplace
    have hfuture : ¬ s.cell.state.future.isSome = true := by
      rw [hat.future]
      rintro ⟨⟩
    have hpolling : ¬ s.cell.state.polling = true := by
      rw [hat.polling]
      rintro ⟨j, ⟨⟩⟩
    exact ⟨.disposed, hat.put (by simp [hfuture]) (by simp [hpolling])
      (by simp [OffloadPhase.polls]) (by simp [OffloadPhase.holds])
      (by simp +contextual [eq_comm]), .disposed⟩

/-- Every step leaves the future where it is or moves it on. -/
theorem place_step (h : s.apply input = some (s', a)) (hat : At s place) :
    ∃ i place', At s' place' ∧ FuturePlace.Moves i place a.isDisposal place' := by
  cases input with
  | call i caller =>
    obtain ⟨hi, rfl, rfl⟩ := apply_call h
    exact ⟨i, place, place_call hi hat, .stays place⟩
  | step i step =>
    obtain ⟨caller, phase, cell, phase', hi, hmove, rfl⟩ := apply_step h
    exact ⟨i, place_move hi hmove hat⟩

abbrev OffloadRun (future : φ) (tr : List (OffloadEdge φ ι)) (s : OffloadWork φ ι) : Prop :=
  Run (stepEdge fun s input => OffloadWork.apply s input) (.new future) tr s

variable {future : φ} {tr : List (OffloadEdge φ ι)}

/-- The future has a place, and was handed to disposal as often as the place says. -/
theorem placed (h : OffloadRun future tr s) :
    ∃ place, At s place ∧ tr.countP (fun e => e.output.isDisposal) = place.disposals := by
  refine h.history ⟨.stored, at_new future, rfl⟩ ?_
  rintro pre e _ he _ ⟨place, hat, hcount⟩
  obtain ⟨i, place', hat', hmoves⟩ := place_step he hat
  refine ⟨place', hat', ?_⟩
  rw [List.countP_append, hcount, hmoves.disposals, List.countP_singleton]
  cases e.output.isDisposal <;> rfl

/-! ### Calls that have settled the future -/

end OffloadWork

namespace OffloadPhase

variable {φ : Type*}

/-- Past the critical section of a cancel, or past a poll that did not put the future back. -/
def settled : OffloadPhase φ → Bool
  | .called | .taken _ | .polling _ | .polled _ _ | .returned .absent | .returned .pending => false
  | _ => true

/-- Past the transition of the latch. -/
def fired : OffloadPhase φ → Bool
  | .notifying | .recordingWake | .publishing | .refiring | .renotifying
  | .returned .finished | .returned .cancelled => true
  | _ => false

end OffloadPhase

/-- The future will not be stored or polled again but by a poll that is to give it up. -/
def OffloadFutureState.Over {φ : Type*} (state : OffloadFutureState φ) : Prop :=
  state.future = none ∧ (state.polling = true → state.cancelled = true)

namespace SharedOffload

variable {φ : Type*} {caller : OffloadCaller} {cell cell' : SharedOffload φ}
  {phase phase' : OffloadPhase φ} {st : OffloadStep φ} {a : OffloadAnswer φ}

/-- A call settles the future for good. -/
theorem Move.over (h : Move caller cell phase st cell' phase' a)
    (hpolls : phase.polls = true → cell.state.future = none ∧ cell.state.polling = true)
    (hpolling : cell.state.polling = true → cell.state.future = none)
    (hover : phase.settled = true → cell.state.Over) :
    (phase'.settled = true → cell'.state.Over) ∧ (cell.state.Over → cell'.state.Over) := by
  cases h with
  | turnedAway | began | ended => exact ⟨by rintro ⟨⟩, id⟩
  | took future stored =>
    refine ⟨by rintro ⟨⟩, ?_⟩
    rintro ⟨hempty, -⟩
    rw [stored] at hempty
    cases hempty
  | marked polling =>
    exact ⟨fun _ => ⟨hpolling polling, fun _ => rfl⟩, fun h => ⟨h.1, fun _ => rfl⟩⟩
  | seized idle => exact ⟨fun _ => ⟨rfl, fun _ => rfl⟩, fun _ => ⟨rfl, fun _ => rfl⟩⟩
  | putBack future live empty =>
    refine ⟨by rintro ⟨⟩, ?_⟩
    rintro ⟨-, hcancelled⟩
    rw [hcancelled (hpolls rfl).2] at live
    cases live
  | kept future result _ _ next asserts =>
    exact ⟨fun _ => ⟨(hpolls rfl).1, by rintro ⟨⟩⟩, fun h => ⟨h.1, by rintro ⟨⟩⟩⟩
  | recorded | disposedNone | disposed | lost | claimed | notified | wakePanicked | wakeRecorded
  | published | refireLost | refired | renotified => exact ⟨fun _ => hover rfl, id⟩

/-- The latch stays fired, and a call is past it only then. -/
theorem Move.fired (h : Move caller cell phase st cell' phase' a)
    (hfired : phase.fired = true → cell.finished = true) :
    (phase'.fired = true → cell'.finished = true) ∧
      cell'.finished.toNat = cell.finished.toNat + a.isClaim.toNat := by
  cases h with
  | turnedAway | took | marked | seized | began | ended | putBack | recorded | disposedNone
  | disposed => exact ⟨by rintro ⟨⟩, rfl⟩
  | kept future result _ _ next asserts =>
    refine ⟨?_, ?_⟩
    · rcases next with rfl | rfl <;> rintro ⟨⟩
    · rcases asserts with rfl | ⟨rfl, -⟩ <;> rfl
  | lost _ _ finished | refireLost finished => exact ⟨fun _ => finished, rfl⟩
  | claimed unfinished | refired unfinished => exact ⟨fun _ => rfl, by rw [unfinished]; rfl⟩
  | notified | wakePanicked | wakeRecorded | published | renotified =>
    exact ⟨fun _ => hfired rfl, rfl⟩

/-- A cancelled future is never taken for a poll, and stays cancelled. -/
theorem Move.cancelled (h : Move caller cell phase st cell' phase' a)
    (hcancelled : cell.state.cancelled = true) : cell'.state.cancelled = true ∧ a ≠ .took := by
  cases h with
  | took _ _ _ live | putBack _ live => rw [live] at hcancelled; cases hcancelled
  | marked | seized => exact ⟨rfl, by rintro ⟨⟩⟩
  | kept _ _ _ _ _ asserts =>
    refine ⟨hcancelled, ?_⟩
    rcases asserts with rfl | ⟨rfl, -⟩ <;> rintro ⟨⟩
  | _ => exact ⟨hcancelled, by rintro ⟨⟩⟩

end SharedOffload

namespace OffloadWork

variable {φ ι : Type*} [DecidableEq ι] {s s' : OffloadWork φ ι} {input : OffloadInput φ ι}
  {a : OffloadAnswer φ} {place : FuturePlace ι}

/-- Where each call stands agrees with the mutex and the latch. -/
def Sound (s : OffloadWork φ ι) : Prop :=
  ∀ i party, s.parties i = some party →
    (party.phase.settled = true → s.cell.state.Over) ∧
      (party.phase.fired = true → s.cell.finished = true)

theorem sound_step (h : s.apply input = some (s', a)) (hat : At s place) (hsound : Sound s) :
    Sound s' ∧ s'.cell.finished.toNat = s.cell.finished.toNat + a.isClaim.toNat := by
  cases input with
  | call i caller =>
    obtain ⟨-, rfl, rfl⟩ := apply_call h
    refine ⟨?_, rfl⟩
    intro j party hj
    rcases parties_put_cases hj with ⟨rfl, rfl⟩ | hj
    · exact ⟨by rintro ⟨⟩, by rintro ⟨⟩⟩
    · exact hsound j party hj
  | step i step =>
    obtain ⟨caller, phase, cell, phase', hi, hmove, rfl⟩ := apply_step h
    have hpolling : s.cell.state.polling = true → s.cell.state.future = none := by
      intro hpolling
      obtain ⟨k, rfl⟩ := hat.polling.1 hpolling
      rw [← Option.not_isSome_iff_eq_none, hat.future]
      rintro ⟨⟩
    have hpolls : phase.polls = true →
        s.cell.state.future = none ∧ s.cell.state.polling = true := by
      intro hpolls
      have hbusy := hat.polling.2 ⟨i, hat.polledBy hi hpolls⟩
      exact ⟨hpolling hbusy, hbusy⟩
    have hself := hsound i _ hi
    obtain ⟨hsettled, hover⟩ := hmove.over hpolls hpolling hself.1
    obtain ⟨hfired, hclaims⟩ := hmove.fired hself.2
    refine ⟨?_, hclaims⟩
    intro j party hj
    rcases parties_put_cases hj with ⟨rfl, rfl⟩ | hj
    · exact ⟨hsettled, hfired⟩
    · obtain ⟨hsettled', hfired'⟩ := hsound j party hj
      refine ⟨fun h => hover (hsettled' h), fun h => ?_⟩
      rw [hfired' h] at hclaims
      show cell.finished = true
      cases hfinished : cell.finished with
      | true => rfl
      | false =>
        rw [hfinished, Bool.toNat_false, Bool.toNat_true] at hclaims
        omega

variable {future : φ} {tr : List (OffloadEdge φ ι)}

theorem sound (h : OffloadRun future tr s) :
    Sound s ∧ tr.countP (fun e => e.output.isClaim) = s.cell.finished.toNat := by
  refine h.history ⟨?_, rfl⟩ ?_
  · rintro i party ⟨⟩
  · rintro pre e hpre he _ ⟨hsound, hcount⟩
    obtain ⟨place, hat, -⟩ := placed hpre
    obtain ⟨hsound', hclaims⟩ := sound_step he hat hsound
    refine ⟨hsound', ?_⟩
    rw [List.countP_append, hcount, hclaims, List.countP_singleton]
    cases e.output.isClaim <;> rfl

/-- `finish_poll` finds the slot empty. -/
theorem no_duplicate (h : s.apply input = some (s', a)) (hat : At s place) : a ≠ .duplicate := by
  cases input with
  | call i caller =>
    obtain ⟨-, -, rfl⟩ := apply_call h
    rintro ⟨⟩
  | step i step =>
    obtain ⟨caller, phase, cell, phase', hi, hmove, rfl⟩ := apply_step h
    cases hmove with
    | kept future result _ _ next asserts =>
      have hplace := hat.polledBy hi rfl
      subst hplace
      rcases asserts with rfl | ⟨-, hstored⟩
      · rintro ⟨⟩
      · cases hat.future.1 hstored
    | _ => rintro ⟨⟩

/-! ### After a cancel -/

/-- The critical section of a cancel. -/
def IsCancel (e : OffloadEdge φ ι) : Prop :=
  ∃ i resource, e.input = .step i .enter ∧ e.before.parties i = some ⟨.cancel resource, .called⟩

theorem isCancel_step {e : OffloadEdge φ ι}
    (he : e.before.apply e.input = some (e.after, e.output)) (h : IsCancel e) :
    e.after.cell.state.cancelled = true ∧ e.output ≠ .took := by
  obtain ⟨i, resource, hinput, hi⟩ := h
  rw [hinput] at he
  obtain ⟨caller, phase, cell, phase', hi', hmove, hafter⟩ := apply_step he
  rw [hi] at hi'
  cases hi'
  rw [hafter]
  generalize e.output = a at hmove
  cases hmove with
  | turnedAway isPoll | took _ _ _ _ isPoll => cases isPoll
  | marked | seized => exact ⟨rfl, by rintro ⟨⟩⟩

theorem cancelled_step (h : s.apply input = some (s', a))
    (hcancelled : s.cell.state.cancelled = true) :
    s'.cell.state.cancelled = true ∧ a ≠ .took := by
  cases input with
  | call i caller =>
    obtain ⟨-, rfl, rfl⟩ := apply_call h
    exact ⟨hcancelled, by rintro ⟨⟩⟩
  | step i step =>
    obtain ⟨caller, phase, cell, phase', hi, hmove, rfl⟩ := apply_step h
    exact hmove.cancelled hcancelled

theorem cancelled_run (h : Run (stepEdge OffloadWork.apply) s tr s')
    (hcancelled : s.cell.state.cancelled = true) : ∀ y ∈ tr, y.output ≠ .took := by
  induction h with
  | nil => rintro y ⟨⟩
  | cons he _ ih =>
    obtain ⟨hcancelled', htook⟩ := cancelled_step he hcancelled
    intro y hy
    rcases List.mem_cons.1 hy with rfl | hy
    · exact htook
    · exact ih hcancelled' y hy

/-! ### How a call got where it is -/

variable {party : OffloadParty φ} {i : ι}

theorem entered_step {P : OffloadPhase φ → Prop} (h : s.apply input = some (s', a))
    (hcalled : ¬ P .called) (hi : s'.parties i = some party) (hP : P party.phase) :
    (∃ old, s.parties i = some old ∧ P old.phase) ∨ ∃ caller phase step phase' cell,
      input = .step i step ∧ ¬ P phase ∧ P phase' ∧
        SharedOffload.Move caller s.cell phase step cell phase' a := by
  cases input with
  | call k caller =>
    obtain ⟨-, rfl, -⟩ := apply_call h
    rcases parties_put_cases hi with ⟨-, rfl⟩ | hi
    · exact absurd hP hcalled
    · exact .inl ⟨party, hi, hP⟩
  | step k step =>
    obtain ⟨caller, phase, cell, phase', hk, hmove, rfl⟩ := apply_step h
    rcases parties_put_cases hi with ⟨rfl, rfl⟩ | hi
    · by_cases hPold : P phase
      · exact .inl ⟨_, hk, hPold⟩
      · exact .inr ⟨caller, phase, step, phase', cell, rfl, hPold, hP, hmove⟩
    · exact .inl ⟨party, hi, hP⟩

/-- A call stands in a phase other than its first by a step of its own. -/
theorem entered {P : OffloadPhase φ → Prop} (h : OffloadRun future tr s) (hcalled : ¬ P .called) :
    ∀ i party, s.parties i = some party → P party.phase → ∃ e ∈ tr, ∃ caller phase step phase' cell,
      e.input = .step i step ∧ ¬ P phase ∧ P phase' ∧
        SharedOffload.Move caller e.before.cell phase step cell phase' e.output := by
  refine h.history ?_ ?_
  · rintro i party ⟨⟩
  · intro pre e _ he _ ih i party hi hP
    rcases entered_step he hcalled hi hP with ⟨old, hold, hPold⟩ | hnow
    · obtain ⟨x, hx, hentered⟩ := ih i old hold hPold
      exact ⟨x, List.mem_append_left _ hx, hentered⟩
    · exact ⟨e, List.mem_append_right _ (List.mem_singleton_self e), hnow⟩

/-- Only the publication step publishes. -/
theorem publishes_step (h : s.apply input = some (s', a))
    (hbefore : s.cell.finishedPublished = false) (hafter : s'.cell.finishedPublished = true) :
    ∃ i party, input = .step i .publish ∧ s.parties i = some party ∧
      party.phase = .publishing := by
  cases input with
  | call i caller =>
    obtain ⟨-, rfl, -⟩ := apply_call h
    rw [show s.cell.finishedPublished = true from hafter] at hbefore
    cases hbefore
  | step i step =>
    obtain ⟨caller, phase, cell, phase', hi, hmove, rfl⟩ := apply_step h
    have hcell : cell.finishedPublished = true := hafter
    cases hmove with
    | published => exact ⟨i, _, rfl, hi, rfl⟩
    | _ =>
      rw [show s.cell.finishedPublished = true from hcell] at hbefore
      cases hbefore

/-- The wake of the latch returned, or its panic was recorded. -/
def WakeOver (i : ι) (pre : List (OffloadEdge φ ι)) : Prop :=
  ∃ y ∈ pre, y.input = .step i (.notify false) ∨ y.input = .step i .recordWake

theorem wakeOver_of_publishing (h : OffloadRun future tr s) (hi : s.parties i = some party)
    (hphase : party.phase = .publishing) : WakeOver i tr := by
  obtain ⟨e, he, caller, phase, step, phase', cell, hinput, -, rfl, hmove⟩ :=
    entered (P := fun phase => phase = .publishing) h (by rintro ⟨⟩) i party hi hphase
  refine ⟨e, he, ?_⟩
  rw [hinput]
  generalize hpublishing : (OffloadPhase.publishing : OffloadPhase φ) = phase' at hmove
  generalize e.output = a at hmove
  cases hmove with
  | notified => exact .inl rfl
  | wakeRecorded => exact .inr rfl
  | lost _ hnext | published _ hnext =>
    rw [← hpublishing] at hnext
    rcases caller with _ | _ | _ <;> cases hnext
  | kept _ _ _ _ hnext =>
    rw [← hpublishing] at hnext
    rcases hnext with hnext | hnext <;> cases hnext
  | _ => cases hpublishing

/-- A user poll begins after its call took the future. -/
theorem began_after_took (h : OffloadRun future tr s) {f : φ} (hi : s.parties i = some party)
    (hphase : party.phase = .taken f) : ∃ y ∈ tr, y.input = .step i .enter ∧ y.output = .took := by
  obtain ⟨e, he, caller, phase, step, phase', cell, hinput, hnot, ⟨g, rfl⟩, hmove⟩ :=
    entered (P := fun phase => ∃ g, phase = .taken g) h (by rintro ⟨g, ⟨⟩⟩) i party hi ⟨f, hphase⟩
  refine ⟨e, he, ?_⟩
  rw [hinput]
  generalize htaken : (OffloadPhase.taken g : OffloadPhase φ) = phase' at hmove
  generalize e.output = a at hmove
  cases hmove with
  | took => exact ⟨rfl, rfl⟩
  | lost _ hnext | published _ hnext =>
    rw [← htaken] at hnext
    rcases caller with _ | _ | _ <;> cases hnext
  | kept _ _ _ _ hnext => rw [← htaken] at hnext; rcases hnext with hnext | hnext <;> cases hnext
  | _ => cases htaken

theorem polling_unique (h : OffloadRun future tr s) {j : ι} (hi : s.polls i = true)
    (hj : s.polls j = true) : i = j := by
  obtain ⟨place, hat, -⟩ := placed h
  have hplace := (hat.polls i).1 hi
  rw [(hat.polls j).1 hj] at hplace
  exact (FuturePlace.polledBy.inj hplace).symm

/-- Once a call has settled the future and none has it, it was disposed of. -/
theorem disposed_of_settled (h : OffloadRun future tr s) (hi : s.parties i = some party)
    (hsettled : party.phase.settled = true) (hfree : ∀ j, s.polls j = false ∧ s.holds j = false) :
    tr.countP (fun e => e.output.isDisposal) = 1 := by
  obtain ⟨place, hat, hcount⟩ := placed h
  rw [hcount]
  cases place with
  | stored =>
    have hempty := ((sound h).1 i party hi).1 hsettled
    have hstored := hat.future.2 rfl
    rw [hempty.1] at hstored
    cases hstored
  | polledBy j =>
    have hpolls := (hat.polls j).2 rfl
    rw [(hfree j).1] at hpolls
    cases hpolls
  | heldBy j =>
    have hholds := (hat.holds j).2 rfl
    rw [(hfree j).2] at hholds
    cases hholds
  | disposed => rfl

/-- A cancel returns while another still has the future it took, with no poll in progress
and the future not yet handed to disposal.  And a user poll begins after the critical
section of a cancel, which came between the poll's own section and the poll. -/
theorem offload_cancel_returns_early :
    (∃ (tr : List (OffloadEdge Unit Bool)) (s : OffloadWork Unit Bool), OffloadRun () tr s ∧
      (∃ i, s.parties i = some ⟨.cancel false, .returned .cancelled⟩) ∧
      (∀ j party, s.parties j = some party → party.caller ≠ .poll) ∧
      tr.countP (fun e => e.output.isDisposal) = 0) ∧
    ∃ (pre : List (OffloadEdge Unit Bool)) (x y : OffloadEdge Unit Bool)
      (s : OffloadWork Unit Bool),
      OffloadRun () (pre ++ [x, y]) s ∧ IsCancel x ∧ y.output = .began := by
  constructor
  · have hexec : ∃ tr s, exec (fun s input => OffloadWork.apply s input)
        (.new () : OffloadWork Unit Bool)
        [.call false (.cancel false), .call true (.cancel false), .step false .enter,
          .step true .enter, .step true .dispose, .step true .fireSilently,
          .step true (.notify false), .step true .publish] = some (tr, s) ∧
        s.parties true = some ⟨.cancel false, .returned .cancelled⟩ ∧
        s.parties false = some ⟨.cancel false, .disposing (some ())⟩ ∧
        tr.countP (fun e => e.output.isDisposal) = 0 := ⟨_, _, rfl, rfl, rfl, rfl⟩
    obtain ⟨tr, s, hexec, htrue, hfalse, hcount⟩ := hexec
    refine ⟨tr, s, run_of_exec _ hexec, ⟨true, htrue⟩, ?_, hcount⟩
    intro j party hj
    cases j with
    | true =>
      rw [htrue] at hj
      cases hj
      rintro ⟨⟩
    | false =>
      rw [hfalse] at hj
      cases hj
      rintro ⟨⟩
  · have hexec : ∃ pre x y s, exec (fun s input => OffloadWork.apply s input)
        (.new () : OffloadWork Unit Bool)
        [.call false .poll, .call true (.cancel false), .step false .enter, .step true .enter,
          .step false .beginPoll] = some (pre ++ [x, y], s) ∧
        x.input = .step true .enter ∧
        x.before.parties true = some ⟨.cancel false, .called⟩ ∧ y.output = .began :=
      ⟨[_, _, _], _, _, _, rfl, rfl, rfl, rfl⟩
    obtain ⟨pre, x, y, s, hexec, hinput, hparty, hbegan⟩ := hexec
    exact ⟨pre, x, y, s, run_of_exec _ hexec, ⟨true, false, hinput, hparty⟩, hbegan⟩

/-- Shared ownership of an offload.  At most one call has the future for a poll; after the
critical section of a cancel no call takes it, so a user poll that still begins is that of
a call that had taken it before; it is handed to disposal at most once, and exactly once
when a cancel or a poll that finished has returned and no call has it any more; the latch
makes its transition at most once, and has made it when such a call has returned; the
completion is published by the call whose wake is over; and `finish_poll` never finds a
duplicate. -/
theorem shared_offload_ownership (h : OffloadRun future tr s) :
    (∀ i j, s.polls i = true → s.polls j = true → i = j) ∧
    (∀ pre x post, tr = pre ++ x :: post → IsCancel x → ∀ y ∈ post, y.output ≠ .took ∧
      ∀ i, y.input = .step i .beginPoll →
        ∃ z ∈ pre, z.input = .step i .enter ∧ z.output = .took) ∧
    tr.countP (fun e => e.output.isDisposal) ≤ 1 ∧
    tr.countP (fun e => e.output.isClaim) ≤ 1 ∧
    (∀ i party, s.parties i = some party →
      party.phase = .returned .finished ∨ party.phase = .returned .cancelled →
        tr.countP (fun e => e.output.isClaim) = 1 ∧
          ((∀ j, s.polls j = false ∧ s.holds j = false) →
            tr.countP (fun e => e.output.isDisposal) = 1)) ∧
    (∀ pre x post, tr = pre ++ x :: post → x.before.cell.finishedPublished = false →
      x.after.cell.finishedPublished = true → ∃ i, x.input = .step i .publish ∧ WakeOver i pre) ∧
    ∀ e ∈ tr, e.output ≠ .duplicate := by
  obtain ⟨place, hat, hdisposals⟩ := placed h
  obtain ⟨hsound, hclaims⟩ := sound h
  refine ⟨fun i j => polling_unique h, ?_, ?_, ?_, ?_, ?_, ?_⟩
  · rintro pre x post rfl hcancel y hy
    obtain ⟨hpre, hx, hpost⟩ := h.split_at
    obtain ⟨hcancelled, hxtook⟩ := isCancel_step hx hcancel
    have htook := cancelled_run hpost hcancelled
    refine ⟨htook y hy, ?_⟩
    intro i hbegin
    -- the call that begins its poll took the future, but not since the cancel
    obtain ⟨mid, rest, rfl⟩ := List.append_of_mem hy
    have hrun : OffloadRun future ((pre ++ x :: mid) ++ y :: rest) s := by simpa using h
    obtain ⟨hbefore, hstep, -⟩ := hrun.split_at
    obtain ⟨caller, phase, cell, phase', hi, hmove, -⟩ :=
      apply_step (show y.before.apply (.step i .beginPoll) = some (y.after, y.output) by
        rw [← hbegin]; exact hstep)
    generalize y.output = a at hmove
    cases hmove with
    | began f =>
      obtain ⟨z, hz, henter, hztook⟩ := began_after_took hbefore hi rfl
      rcases List.mem_append.1 hz with hz | hz
      · exact ⟨z, hz, henter, hztook⟩
      · rcases List.mem_cons.1 hz with rfl | hz
        · exact absurd hztook hxtook
        · exact absurd hztook (htook z (List.mem_append_left _ hz))
  · rw [hdisposals]
    cases place <;> simp [FuturePlace.disposals]
  · rw [hclaims]
    exact Bool.toNat_le _
  · intro i party hi hreturned
    have hfinished : s.cell.finished = true :=
      (hsound i party hi).2 (by rcases hreturned with h | h <;> rw [h] <;> rfl)
    refine ⟨by rw [hclaims, hfinished]; rfl, ?_⟩
    exact disposed_of_settled h hi (by rcases hreturned with h | h <;> rw [h] <;> rfl)
  · rintro pre x post rfl hbefore hafter
    obtain ⟨hpre, hx, -⟩ := h.split_at
    obtain ⟨i, party, hinput, hi, hphase⟩ := publishes_step hx hbefore hafter
    exact ⟨i, hinput, wakeOver_of_publishing hpre hi hphase⟩
  · intro e he
    obtain ⟨pre, post, -, hpre, hstep, -⟩ := h.mem_split he
    obtain ⟨place', hat', -⟩ := placed hpre
    exact no_duplicate hstep hat'

/-- A poll that had taken the future before a cancel disposes of it, and both have
returned. -/
theorem shared_offload_ownership_cancelled_poll :
    ∃ (tr : List (OffloadEdge Unit Bool)) (s : OffloadWork Unit Bool), OffloadRun () tr s ∧
      s.parties true = some ⟨.cancel true, .returned .cancelled⟩ ∧
      (∀ j, s.polls j = false ∧ s.holds j = false) ∧
      tr.countP (fun e => e.output.isClaim) = 1 ∧
      tr.countP (fun e => e.output.isDisposal) = 1 := by
  have hexec : ∃ tr s, exec (fun s input => OffloadWork.apply s input)
      (.new () : OffloadWork Unit Bool)
      [.call false .poll, .call true (.cancel true), .step false .enter, .step true .enter,
        .step false .beginPoll, .step true .dispose, .step true .fireSilently,
        .step false (.endPoll () .pending), .step true (.notify true), .step false .finishPoll,
        .step true .recordWake, .step false .dispose, .step false .fireSilently,
        .step true .publish, .step true .refire] = some (tr, s) ∧
      s.parties true = some ⟨.cancel true, .returned .cancelled⟩ ∧
      (∀ j, s.polls j = false ∧ s.holds j = false) :=
    ⟨_, _, rfl, rfl, by rintro (_ | _) <;> exact ⟨rfl, rfl⟩⟩
  obtain ⟨tr, s, hexec, hreturned, hfree⟩ := hexec
  have hrun := run_of_exec _ hexec
  obtain ⟨hclaims, hdisposals⟩ :=
    (shared_offload_ownership hrun).2.2.2.2.1 true _ hreturned (.inr rfl)
  exact ⟨tr, s, hrun, hreturned, hfree, hclaims, hdisposals hfree⟩

end OffloadWork

end Shelterwood
