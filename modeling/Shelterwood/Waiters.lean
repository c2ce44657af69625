/-
Shelterwood/Waiters.lean

Waiting for a latch or a watch channel.

A wait checks its condition, registers the caller's waker and checks again.  A
publisher changes the condition, takes all wakers out of the registry and wakes
them one by one.  Nothing holds these together but their order, so every load,
every access to the registry and every wake is a step of its own here, and the
steps of any number of waits and publishers interleave.

A cell is one latch or one watch channel with its registry.  Of its publishers it
keeps how many have published and not yet drained the registry (`owing`), and the
wakers each of the others has still to wake (`draining`).
-/
import Shelterwood.Identity
import Shelterwood.SwapRemove
import Shelterwood.Trace

namespace Shelterwood

/-! ### The registry -/

structure RegisteredWaker where
  identity : ℕ
  waker : ℕ
  deriving DecidableEq, Repr

namespace WaiterRegistry

def register (waiters : List RegisteredWaker) (identity waker : ℕ) : List RegisteredWaker :=
  match waiters.findIdx? fun waiter => waiter.identity == identity with
  | some index => waiters.set index ⟨identity, waker⟩
  | none => waiters ++ [⟨identity, waker⟩]

def remove (waiters : List RegisteredWaker) (identity : ℕ) : List RegisteredWaker :=
  match waiters.findIdx? fun waiter => waiter.identity == identity with
  | some index =>
    match swapRemove waiters index with
    | some (_, rest) => rest
    | none => waiters
  | none => waiters

variable {waiters : List RegisteredWaker} {identity : ℕ} {x : RegisteredWaker}

/-- The place a lookup finds is one of the identity. -/
theorem identity_of_findIdx? {index : ℕ}
    (h : waiters.findIdx? (fun waiter => waiter.identity == identity) = some index) :
    ∃ y, waiters[index]? = some y ∧ y.identity = identity := by
  obtain ⟨hlt, hp, -⟩ := List.findIdx?_eq_some_iff_getElem.1 h
  exact ⟨waiters[index], List.getElem?_eq_getElem hlt, by simpa using hp⟩

theorem mem_register_self (waker : ℕ) : ⟨identity, waker⟩ ∈ register waiters identity waker := by
  unfold register
  split
  · next index h =>
      obtain ⟨y, hy, -⟩ := identity_of_findIdx? h
      obtain ⟨rest, -, hset⟩ := set_perm hy
      exact (hset _).mem_iff.2 List.mem_cons_self
  · exact List.mem_append_right _ List.mem_cons_self

/-- Another wait's registration stays. -/
theorem mem_register_of_ne {waker : ℕ} (hx : x ∈ waiters) (hne : x.identity ≠ identity) :
    x ∈ register waiters identity waker := by
  unfold register
  split
  · next index h =>
      obtain ⟨y, hy, hidentity⟩ := identity_of_findIdx? h
      obtain ⟨rest, hperm, hset⟩ := set_perm hy
      rcases List.mem_cons.1 (hperm.mem_iff.1 hx) with rfl | hrest
      · exact absurd hidentity hne
      · exact (hset _).mem_iff.2 (List.mem_cons_of_mem _ hrest)
  · exact List.mem_append_left _ hx

theorem mem_remove_of_ne (hx : x ∈ waiters) (hne : x.identity ≠ identity) :
    x ∈ remove waiters identity := by
  unfold remove
  split
  · next index h =>
      obtain ⟨y, hy, hidentity⟩ := identity_of_findIdx? h
      obtain ⟨rest, hremove, hperm⟩ := swapRemove_perm hy
      simp only [hremove]
      rcases List.mem_cons.1 (hperm.mem_iff.1 hx) with rfl | hrest
      · exact absurd hidentity hne
      · exact hrest
  · exact hx

end WaiterRegistry

/-! ### Conditions -/

/-- A latch with its fired bit, or a watch channel with its version and the number of
its senders. -/
inductive SignalState
  | latch (fired : Bool)
  | watch (version senders : ℕ)
  deriving DecidableEq, Repr

namespace SignalState

/-- The condition a wait that has seen a version waits for. -/
def ready (seen : ℕ) : SignalState → Bool
  | .latch fired => fired
  | .watch version senders => version ≠ seen || senders = 0

/-- The part of it that the first load decides. -/
def changed (seen : ℕ) : SignalState → Bool
  | .latch fired => fired
  | .watch version _ => version ≠ seen

/-- What a wait has seen once its condition holds. -/
def seenAfter (seen : ℕ) : SignalState → ℕ
  | .latch _ => seen
  | .watch version _ => version

/-- Whether the condition needs a second load. -/
def isWatch : SignalState → Bool
  | .latch _ => false
  | .watch _ _ => true

def closed : SignalState → Bool
  | .latch _ => false
  | .watch _ senders => senders = 0

theorem ready_eq (signal : SignalState) (seen : ℕ) :
    signal.ready seen = (signal.changed seen || signal.closed) := by
  cases signal with
  | latch fired => simp [ready, changed, closed]
  | watch version senders => rfl

end SignalState

/-! ### Waits -/

/-- Where a wait is in `poll_registered`, with the waker of its poll. -/
inductive WaitPhase
  | created
  /-- About to check: the fired bit, or the version. -/
  | checking (waker : ℕ)
  /-- About to load the sender count in the check. -/
  | checkingSenders (waker : ℕ)
  /-- The check held; the registration is to be removed. -/
  | found (waker : ℕ)
  | registering (waker : ℕ)
  | rechecking (waker : ℕ)
  | recheckingSenders (waker : ℕ)
  /-- The recheck held; the registration is to be removed. -/
  | foundAgain (waker : ℕ)
  /-- The poll returned `Pending`. -/
  | pending (waker : ℕ)
  /-- The poll returned `Ready`. -/
  | finished
  /-- The poll unwound from the caller's waker. -/
  | unwound
  | dropped
  deriving DecidableEq, Repr

/-- No poll is in progress. -/
def WaitPhase.resting : WaitPhase → Bool
  | .created | .pending _ | .finished | .unwound => true
  | _ => false

structure Wait where
  seen : ℕ
  phase : WaitPhase
  deriving DecidableEq, Repr

inductive WaitStep
  | poll (waker : ℕ)
  | check
  | checkSenders
  /-- Removal after the check; dropping the removed waker may panic. -/
  | remove (dropPanics : Bool)
  /-- Registration; cloning the waker comes first and may panic. -/
  | register (clonePanics : Bool)
  /-- The recheck.  If it fails, the displaced waker is dropped, which may panic. -/
  | recheck (dropPanics : Bool)
  | recheckSenders (dropPanics : Bool)
  | removeAgain (dropPanics : Bool)
  | drop
  deriving DecidableEq, Repr

def returnReady (panics : Bool) : WaitPhase := if panics then .unwound else .finished

def returnPending (waker : ℕ) (panics : Bool) : WaitPhase :=
  if panics then .unwound else .pending waker

/-- One step of a wait: what becomes of it and of the registry. -/
def waitStep (signal : SignalState) (waiters : List RegisteredWaker) (identity : ℕ) (wait : Wait)
    (step : WaitStep) : Option (Wait × List RegisteredWaker) :=
  match step, wait.phase with
  | .poll waker, phase =>
    if phase.resting then some (⟨wait.seen, .checking waker⟩, waiters) else none
  | .check, .checking waker =>
    if signal.changed wait.seen then some (⟨signal.seenAfter wait.seen, .found waker⟩, waiters)
    else if signal.isWatch then some (⟨wait.seen, .checkingSenders waker⟩, waiters)
    else some (⟨wait.seen, .registering waker⟩, waiters)
  | .checkSenders, .checkingSenders waker =>
    if signal.closed then some (⟨wait.seen, .found waker⟩, waiters)
    else some (⟨wait.seen, .registering waker⟩, waiters)
  | .remove dropPanics, .found _ =>
    some (⟨wait.seen, returnReady dropPanics⟩, WaiterRegistry.remove waiters identity)
  | .register clonePanics, .registering waker =>
    if clonePanics then some (⟨wait.seen, .unwound⟩, waiters)
    else some (⟨wait.seen, .rechecking waker⟩, WaiterRegistry.register waiters identity waker)
  | .recheck dropPanics, .rechecking waker =>
    if signal.changed wait.seen then
      some (⟨signal.seenAfter wait.seen, .foundAgain waker⟩, waiters)
    else if signal.isWatch then some (⟨wait.seen, .recheckingSenders waker⟩, waiters)
    else some (⟨wait.seen, returnPending waker dropPanics⟩, waiters)
  | .recheckSenders dropPanics, .recheckingSenders waker =>
    if signal.closed then some (⟨wait.seen, .foundAgain waker⟩, waiters)
    else some (⟨wait.seen, returnPending waker dropPanics⟩, waiters)
  | .removeAgain dropPanics, .foundAgain _ =>
    some (⟨wait.seen, returnReady dropPanics⟩, WaiterRegistry.remove waiters identity)
  | .drop, phase =>
    if phase.resting then some (⟨wait.seen, .dropped⟩, WaiterRegistry.remove waiters identity)
    else none
  | _, _ => none

/-! ### Cells -/

structure SignalCell where
  signal : SignalState
  waiters : List RegisteredWaker
  identities : MonotonicCounter
  waits : ℕ → Option Wait
  owing : ℕ
  draining : List (List RegisteredWaker)

inductive SignalStep
  /-- `fired`, or a new wait of a receiver that has seen a version. -/
  | newWait (seen : ℕ)
  | wait (identity : ℕ) (step : WaitStep)
  /-- `fire_silently`. -/
  | fire
  /-- The version increment of `pulse`. -/
  | pulse
  | cloneSender
  | dropSender
  /-- `wake_all` takes the registry of its publisher. -/
  | drain
  /-- A `wake_all` wakes its next waker. -/
  | wake (index : ℕ)
  deriving DecidableEq, Repr

namespace SignalCell

/-- A new latch, or a new watch channel. -/
def new (signal : SignalState) : SignalCell := ⟨signal, [], .new, fun _ => none, 0, []⟩

def apply (c : SignalCell) : SignalStep → Option (SignalCell × Option RegisteredWaker)
  | .newWait seen =>
    match c.identities.mint with
    | .error _ => none
    | .ok (identity, identities) =>
      some ({ c with
        identities
        waits := Function.update c.waits identity (some ⟨seen, .created⟩) }, none)
  | .wait identity step =>
    match c.waits identity with
    | none => none
    | some wait =>
      match waitStep c.signal c.waiters identity wait step with
      | none => none
      | some (wait, waiters) =>
        some ({ c with waiters, waits := Function.update c.waits identity (some wait) }, none)
  | .fire =>
    match c.signal with
    | .latch false => some ({ c with signal := .latch true, owing := c.owing + 1 }, none)
    | .latch true => some (c, none)
    | .watch _ _ => none
  | .pulse =>
    match c.signal with
    | .watch version (senders + 1) =>
      some ({ c with
        signal := .watch ((version + 1) % (u64Max + 1)) (senders + 1)
        owing := c.owing + 1 }, none)
    | _ => none
  | .cloneSender =>
    match c.signal with
    | .watch version (senders + 1) =>
      some ({ c with signal := .watch version (senders + 2) }, none)
    | _ => none
  | .dropSender =>
    match c.signal with
    | .watch version 1 => some ({ c with signal := .watch version 0, owing := c.owing + 1 }, none)
    | .watch version (senders + 2) =>
      some ({ c with signal := .watch version (senders + 1) }, none)
    | _ => none
  | .drain =>
    match c.owing with
    | 0 => none
    | owing + 1 =>
      some ({ c with owing, waiters := [], draining := c.draining ++ [c.waiters] }, none)
  | .wake index =>
    match c.draining[index]? with
    | some (waiter :: rest) =>
      some ({ c with draining := c.draining.set index rest }, some waiter)
    | _ => none

end SignalCell

/-! ### Registrations -/

/-- The waker of a poll that got past its registration. -/
def WaitPhase.registered : WaitPhase → Option ℕ
  | .rechecking waker | .recheckingSenders waker | .pending waker => some waker
  | _ => none

/-- The condition holds although the loads of the recheck so far said it does not. -/
def Wait.missed (signal : SignalState) (wait : Wait) : Bool :=
  match wait.phase with
  | .recheckingSenders _ => signal.changed wait.seen
  | .pending _ => signal.ready wait.seen
  | _ => false

section WaitStep

variable {signal : SignalState} {waiters waiters' : List RegisteredWaker} {identity k : ℕ}
variable {wait wait' : Wait} {step : WaitStep}

/-- What one step of a wait does to its registration. -/
inductive RegistrationMove (signal : SignalState) (waiters : List RegisteredWaker) (identity : ℕ)
    (wait : Wait) (step : WaitStep) (wait' : Wait) : List RegisteredWaker → Prop
  | outside (unregistered : wait'.phase.registered = none) :
      RegistrationMove signal waiters identity wait step wait' waiters
  | removed (unregistered : wait'.phase.registered = none) :
      RegistrationMove signal waiters identity wait step wait'
        (WaiterRegistry.remove waiters identity)
  | registered (waker : ℕ) (made : step = .register false)
      (before : wait.phase = .registering waker) (after : wait'.phase = .rechecking waker) :
      RegistrationMove signal waiters identity wait step wait'
        (WaiterRegistry.register waiters identity waker)
  /-- The recheck goes on, or the poll returns `Pending`. -/
  | kept (waker : ℕ) (other : step ≠ .register false)
      (before : wait.phase.registered = some waker) (after : wait'.phase.registered = some waker)
      (missed : wait'.missed signal = true → wait.missed signal = true) :
      RegistrationMove signal waiters identity wait step wait' waiters

theorem returnReady_registered (panics : Bool) : (returnReady panics).registered = none := by
  cases panics <;> rfl

/-- A recheck that found the condition false. -/
theorem RegistrationMove.returned {waker : ℕ} (other : step ≠ .register false)
    (before : wait.phase.registered = some waker) (dropPanics : Bool)
    (missed : signal.ready wait.seen = true → wait.missed signal = true) :
    RegistrationMove signal waiters identity wait step
      ⟨wait.seen, returnPending waker dropPanics⟩ waiters := by
  cases dropPanics with
  | false => exact .kept waker other before rfl missed
  | true => exact .outside rfl

theorem registrationMove
    (h : waitStep signal waiters identity wait step = some (wait', waiters')) :
    RegistrationMove signal waiters identity wait step wait' waiters' := by
  obtain ⟨seen, phase⟩ := wait
  cases step with
  | poll waker =>
    simp only [waitStep] at h
    split_ifs at h
    cases h
    exact .outside rfl
  | drop =>
    simp only [waitStep] at h
    split_ifs at h
    cases h
    exact .removed rfl
  | check =>
    cases phase with
    | checking waker =>
      simp only [waitStep] at h
      split_ifs at h <;> cases h <;> exact .outside rfl
    | _ => cases h
  | checkSenders =>
    cases phase with
    | checkingSenders waker =>
      simp only [waitStep] at h
      split_ifs at h <;> cases h <;> exact .outside rfl
    | _ => cases h
  | remove dropPanics =>
    cases phase with
    | found waker =>
      cases h
      exact .removed (returnReady_registered dropPanics)
    | _ => cases h
  | removeAgain dropPanics =>
    cases phase with
    | foundAgain waker =>
      cases h
      exact .removed (returnReady_registered dropPanics)
    | _ => cases h
  | register clonePanics =>
    cases phase with
    | registering waker =>
      cases clonePanics with
      | true =>
        cases h
        exact .outside rfl
      | false =>
        cases h
        exact .registered waker rfl rfl rfl
    | _ => cases h
  | recheck dropPanics =>
    cases phase with
    | rechecking waker =>
      simp only [waitStep] at h
      split_ifs at h with hchanged hwatch
      · cases h
        exact .outside rfl
      · cases h
        refine .kept waker (by rintro ⟨⟩) rfl rfl fun hmissed => ?_
        exact absurd hmissed hchanged
      · cases h
        refine .returned (by rintro ⟨⟩) rfl dropPanics fun hready => ?_
        -- a latch has no second load
        cases signal with
        | latch fired => exact absurd hready hchanged
        | watch version senders => exact absurd rfl hwatch
    | _ => cases h
  | recheckSenders dropPanics =>
    cases phase with
    | recheckingSenders waker =>
      simp only [waitStep] at h
      split_ifs at h with hclosed
      · cases h
        exact .outside rfl
      · cases h
        refine .returned (by rintro ⟨⟩) rfl dropPanics fun hready => ?_
        rw [SignalState.ready_eq, Bool.eq_false_iff.2 hclosed, Bool.or_false] at hready
        exact hready
    | _ => cases h

end WaitStep

/-! ### One step of a cell -/

namespace SignalCell

variable {c c' : SignalCell} {step : SignalStep} {out : Option RegisteredWaker} {i k : ℕ}

/-- The registration is on its way to a wake: it is in the hands of a `wake_all`, or
in the registry, and then a publisher will come for it if the wait missed anything. -/
def Covered (c : SignalCell) (i k : ℕ) (wait : Wait) : Prop :=
  (∃ l ∈ c.draining, ⟨i, k⟩ ∈ l) ∨
    ⟨i, k⟩ ∈ c.waiters ∧ (wait.missed c.signal = true → 0 < c.owing)

/-- A publication leaves its publisher owing. -/
theorem Covered.publish {wait : Wait} (h : c.Covered i k wait) (signal : SignalState) :
    ({ c with signal, owing := c.owing + 1 } : SignalCell).Covered i k wait :=
  h.imp_right fun hin => ⟨hin.1, fun _ => Nat.succ_pos _⟩

/-- As long as one is left, the number of senders does not matter. -/
theorem missed_senders (wait : Wait) (version senders senders' : ℕ) :
    wait.missed (.watch version (senders + 1)) = wait.missed (.watch version (senders' + 1)) := by
  unfold Wait.missed
  split <;> simp [SignalState.ready, SignalState.changed]

theorem Covered.senders {wait : Wait} (h : c.Covered i k wait) {version senders : ℕ}
    (hsignal : c.signal = .watch version (senders + 1)) (senders' : ℕ) :
    ({ c with signal := .watch version (senders' + 1) } : SignalCell).Covered i k wait := by
  refine h.imp_right fun hin => ⟨hin.1, fun hmissed => hin.2 ?_⟩
  rw [hsignal, missed_senders wait version senders senders']
  exact hmissed

/-- Draining hands over every registration. -/
theorem Covered.drain {wait : Wait} (h : c.Covered i k wait) (owing : ℕ) :
    ({ c with owing, waiters := [], draining := c.draining ++ [c.waiters] } :
      SignalCell).Covered i k wait := by
  left
  rcases h with ⟨l, hl, hmem⟩ | ⟨hin, -⟩
  · exact ⟨l, List.mem_append_left _ hl, hmem⟩
  · exact ⟨c.waiters, by simp, hin⟩

/-- Waking one waker leaves the others to be woken. -/
theorem Covered.wake {wait : Wait} (h : c.Covered i k wait) {index : ℕ} {waiter : RegisteredWaker}
    {rest : List RegisteredWaker} (hget : c.draining[index]? = some (waiter :: rest)) :
    ({ c with draining := c.draining.set index rest } : SignalCell).Covered i k wait ∨
      waiter = ⟨i, k⟩ := by
  rcases h with ⟨l, hl, hmem⟩ | hin
  · obtain ⟨others, hperm, hset⟩ := set_perm hget
    rcases List.mem_cons.1 (hperm.mem_iff.1 hl) with rfl | hother
    · rcases List.mem_cons.1 hmem with heq | hrest
      · exact .inr heq.symm
      · exact .inl (.inl ⟨rest, (hset rest).mem_iff.2 List.mem_cons_self, hrest⟩)
    · exact .inl (.inl ⟨l, (hset rest).mem_iff.2 (List.mem_cons_of_mem _ hother), hmem⟩)
  · exact .inl (.inr hin)

/-- The step registers the wait's waker. -/
def Registers (c : SignalCell) (i k : ℕ) (step : SignalStep) : Prop :=
  step = .wait i (.register false) ∧ ∃ seen, c.waits i = some ⟨seen, .registering k⟩

theorem apply_covered (h : c.apply step = some (c', out)) {w' : Wait} (hw' : c'.waits i = some w')
    (hreg : w'.phase.registered = some k) :
    c.Registers i k step ∧ c'.Covered i k w' ∨
      ∃ w, c.waits i = some w ∧ w.phase.registered = some k ∧ step ≠ .wait i (.register false) ∧
        (c.Covered i k w → c'.Covered i k w' ∨ out = some ⟨i, k⟩) := by
  cases step with
  | newWait seen =>
    simp only [apply] at h
    split at h
    · cases h
    · next identity identities hmint =>
        cases h
        by_cases hi : i = identity
        · subst hi
          simp only [Function.update_self, Option.some.injEq] at hw'
          rw [← hw'] at hreg
          cases hreg
        · simp only [Function.update_of_ne hi] at hw'
          exact .inr ⟨w', hw', hreg, by rintro ⟨⟩, .inl⟩
  | wait j step =>
    simp only [apply] at h
    split at h
    · cases h
    · next w hw =>
        split at h
        · cases h
        · next wNew waiters hstep =>
            cases h
            by_cases hij : i = j
            · subst hij
              simp only [Function.update_self, Option.some.injEq] at hw'
              subst hw'
              cases registrationMove hstep with
              | outside unregistered | removed unregistered =>
                rw [unregistered] at hreg
                cases hreg
              | registered waker made before after =>
                subst made
                rw [after] at hreg
                cases hreg
                obtain ⟨seen, phase⟩ := w
                obtain rfl : phase = .registering k := before
                refine .inl ⟨⟨rfl, seen, hw⟩, .inr ⟨WaiterRegistry.mem_register_self k, ?_⟩⟩
                intro hmissed
                rw [Wait.missed, after] at hmissed
                cases hmissed
              | kept waker other before after missed =>
                rw [after] at hreg
                cases hreg
                refine .inr ⟨w, hw, before, ?_, ?_⟩
                · rintro heq
                  cases heq
                  exact other rfl
                · exact fun hcovered => .inl (hcovered.imp_right fun hin =>
                    ⟨hin.1, fun hmissed => hin.2 (missed hmissed)⟩)
            · simp only [Function.update_of_ne hij] at hw'
              refine .inr ⟨w', hw', hreg, ?_, ?_⟩
              · rintro heq
                cases heq
                exact hij rfl
              · have hkeep : (⟨i, k⟩ : RegisteredWaker) ∈ c.waiters → ⟨i, k⟩ ∈ waiters := by
                  intro hin
                  cases registrationMove hstep with
                  | outside | kept => exact hin
                  | removed => exact WaiterRegistry.mem_remove_of_ne hin hij
                  | registered waker => exact WaiterRegistry.mem_register_of_ne hin hij
                exact fun hcovered => .inl (hcovered.imp_right fun hin => ⟨hkeep hin.1, hin.2⟩)
  | fire =>
    simp only [apply] at h
    split at h
    · cases h
      exact .inr ⟨w', hw', hreg, by rintro ⟨⟩, fun hcovered => .inl (hcovered.publish _)⟩
    · cases h
      exact .inr ⟨w', hw', hreg, by rintro ⟨⟩, .inl⟩
    · cases h
  | pulse =>
    simp only [apply] at h
    split at h
    · cases h
      exact .inr ⟨w', hw', hreg, by rintro ⟨⟩, fun hcovered => .inl (hcovered.publish _)⟩
    · cases h
  | cloneSender =>
    simp only [apply] at h
    split at h
    · next version senders hsignal =>
        cases h
        exact .inr ⟨w', hw', hreg, by rintro ⟨⟩, fun hcovered => .inl (hcovered.senders hsignal _)⟩
    · cases h
  | dropSender =>
    simp only [apply] at h
    split at h
    · cases h
      exact .inr ⟨w', hw', hreg, by rintro ⟨⟩, fun hcovered => .inl (hcovered.publish _)⟩
    · next version senders hsignal =>
        cases h
        exact .inr ⟨w', hw', hreg, by rintro ⟨⟩, fun hcovered => .inl (hcovered.senders hsignal _)⟩
    · cases h
  | drain =>
    simp only [apply] at h
    split at h
    · cases h
    · cases h
      exact .inr ⟨w', hw', hreg, by rintro ⟨⟩, fun hcovered => .inl (hcovered.drain _)⟩
  | wake index =>
    simp only [apply] at h
    split at h
    · next waiter rest hget =>
        cases h
        refine .inr ⟨w', hw', hreg, by rintro ⟨⟩, fun hcovered => ?_⟩
        exact (hcovered.wake hget).imp_right fun heq => by rw [heq]
    · cases h

end SignalCell

/-! ### Many cells -/

/-- Latches and watch channels, each with the waits and publishers of its own. -/
abbrev Signals (ρ : Type) := ρ → SignalCell

namespace Signals

variable {ρ : Type} [DecidableEq ρ]

def apply (s : Signals ρ) (step : ρ × SignalStep) : Option (Signals ρ × Option RegisteredWaker) :=
  match (s step.1).apply step.2 with
  | none => none
  | some (cell, woken) => some (Function.update s step.1 cell, woken)

abbrev SignalEdge (ρ : Type) := Edge (Signals ρ) (ρ × SignalStep) (Option RegisteredWaker)

/-- The trace after the latest registration of a wait, which was of the waker. -/
def SinceRegistered (r : ρ) (i k : ℕ) (tr post : List (SignalEdge ρ)) : Prop :=
  ∃ pre e, tr = pre ++ e :: post ∧ e.input.1 = r ∧ (e.before r).Registers i k e.input.2 ∧
    ∀ x ∈ post, x.input ≠ (r, .wait i (.register false))

/-- The waker was woken in the trace. -/
def Woken (r : ρ) (i k : ℕ) (tr : List (SignalEdge ρ)) : Prop :=
  ∃ e ∈ tr, e.input.1 = r ∧ e.output = some ⟨i, k⟩

omit [DecidableEq ρ] in
theorem SinceRegistered.snoc {r : ρ} {i k : ℕ} {tr post : List (SignalEdge ρ)}
    (h : SinceRegistered r i k tr post) {e : SignalEdge ρ}
    (he : e.input ≠ (r, .wait i (.register false))) :
    SinceRegistered r i k (tr ++ [e]) (post ++ [e]) := by
  obtain ⟨pre, k, rfl, hcell, hregisters, hpost⟩ := h
  refine ⟨pre, k, by simp, hcell, hregisters, ?_⟩
  intro x hx
  rcases List.mem_append.1 hx with hx | hx
  · exact hpost x hx
  · rwa [List.mem_singleton.1 hx]

/-- What one step of the world is to one of its cells. -/
theorem apply_cell {s s' : Signals ρ} {step : ρ × SignalStep} {out : Option RegisteredWaker}
    (h : s.apply step = some (s', out)) (r : ρ) :
    step.1 ≠ r ∧ s' r = s r ∨ step.1 = r ∧ (s r).apply step.2 = some (s' r, out) := by
  unfold apply at h
  cases hcell : (s step.1).apply step.2 with
  | none => simp [hcell] at h
  | some result =>
    obtain ⟨cell, woken⟩ := result
    simp only [hcell] at h
    cases h
    by_cases hr : step.1 = r
    · subst hr
      exact .inr ⟨rfl, by rw [Function.update_self]; exact hcell⟩
    · exact .inl ⟨hr, Function.update_of_ne (Ne.symm hr) _ _⟩

/-- Along every run, a registration stays covered until its waker is woken. -/
theorem covered_history {start s : Signals ρ} {tr : List (SignalEdge ρ)}
    (hstart : ∀ r i, (start r).waits i = none)
    (hrun : Run (stepEdge Signals.apply) start tr s) :
    ∀ r i k w, (s r).waits i = some w → w.phase.registered = some k →
      ∃ post, SinceRegistered r i k tr post ∧ (Woken r i k post ∨ (s r).Covered i k w) := by
  refine hrun.history ?_ ?_
  · intro r i k w hw
    rw [hstart] at hw
    cases hw
  · intro pre e _ he _ ih r i k w hw hreg
    have hwoken : ∀ {post : List (SignalEdge ρ)}, Woken r i k post → Woken r i k (post ++ [e]) := by
      rintro post ⟨x, hx, hout⟩
      exact ⟨x, List.mem_append_left _ hx, hout⟩
    rcases apply_cell he r with ⟨hother, hsame⟩ | ⟨hcell, hstep⟩
    · rw [hsame] at hw
      obtain ⟨post, hsince, hcovered⟩ := ih r i k w hw hreg
      refine ⟨post ++ [e], hsince.snoc ?_, hcovered.imp hwoken fun h => hsame ▸ h⟩
      intro hinput
      exact hother (congrArg Prod.fst hinput)
    · rcases SignalCell.apply_covered hstep hw hreg with
        ⟨hregisters, hcovered⟩ | ⟨w₀, hw₀, hreg₀, hnot, hkeep⟩
      · exact ⟨[], ⟨pre, e, rfl, hcell, hregisters, by rintro x ⟨⟩⟩, .inr hcovered⟩
      · obtain ⟨post, hsince, hcovered⟩ := ih r i k w₀ hw₀ hreg₀
        refine ⟨post ++ [e], hsince.snoc fun hinput => hnot (congrArg Prod.snd hinput), ?_⟩
        rcases hcovered with hwoke | hcovered
        · exact .inl (hwoken hwoke)
        · rcases hkeep hcovered with hafter | hout
          · exact .inr hafter
          · exact .inl ⟨e, by simp, hcell, hout⟩

end Signals

/-- No wakeup is lost.  A wait whose latest poll returned `Pending` and whose condition
holds was woken since that poll registered its waker, or the waker is in the hands
of a `wake_all`, or it is registered and a publisher has yet to drain the registry. -/
theorem no_wakeup_lost {ρ : Type} [DecidableEq ρ] {start s : Signals ρ}
    {tr : List (Signals.SignalEdge ρ)} (hstart : ∀ r, ∃ signal, start r = .new signal)
    (hrun : Run (stepEdge fun s step => Signals.apply s step) start tr s)
    {r : ρ} {i k seen : ℕ} (hpending : (s r).waits i = some ⟨seen, .pending k⟩)
    (hready : (s r).signal.ready seen = true) :
    ∃ post, Signals.SinceRegistered r i k tr post ∧
      (Signals.Woken r i k post ∨ (∃ l ∈ (s r).draining, ⟨i, k⟩ ∈ l) ∨
        ⟨i, k⟩ ∈ (s r).waiters ∧ 0 < (s r).owing) := by
  have hnone : ∀ r i, (start r).waits i = none := by
    intro r i
    obtain ⟨signal, hnew⟩ := hstart r
    rw [hnew]
    rfl
  obtain ⟨post, hsince, hcovered⟩ := Signals.covered_history hnone hrun r i k _ hpending rfl
  exact ⟨post, hsince, hcovered.imp_right fun h => h.imp_right fun hin => ⟨hin.1, hin.2 hready⟩⟩

/-- A watch channel is pulsed between the two loads of a recheck, next to an idle
latch: the poll returns `Pending` with the change published, and its waker is still
registered for the publisher that has yet to drain. -/
theorem no_wakeup_lost_between_loads :
    ∃ (tr : List (Signals.SignalEdge Bool)) (s : Signals Bool),
      Run (stepEdge fun s step => Signals.apply s step)
        (fun isLatch => .new (if isLatch then .latch false else .watch 0 1)) tr s ∧
      (s false).waits 1 = some ⟨0, .pending 7⟩ ∧ (s false).signal.ready 0 = true ∧
      ∃ post, Signals.SinceRegistered false 1 7 tr post ∧
        (Signals.Woken false 1 7 post ∨ (∃ l ∈ (s false).draining, ⟨1, 7⟩ ∈ l) ∨
          ⟨1, 7⟩ ∈ (s false).waiters ∧ 0 < (s false).owing) := by
  have hexec : ∃ tr s, exec (fun s step => Signals.apply s step)
      (fun isLatch : Bool => .new (if isLatch then .latch false else .watch 0 1))
      [(false, .newWait 0), (false, .wait 1 (.poll 7)), (false, .wait 1 .check),
        (false, .wait 1 .checkSenders), (false, .wait 1 (.register false)),
        (false, .wait 1 (.recheck false)), (false, .pulse),
        (false, .wait 1 (.recheckSenders false))] = some (tr, s) ∧
      (s false).waits 1 = some ⟨0, .pending 7⟩ ∧ (s false).signal.ready 0 = true :=
    ⟨_, _, rfl, rfl, rfl⟩
  obtain ⟨tr, s, hexec, hpending, hready⟩ := hexec
  have hrun := run_of_exec _ hexec
  exact ⟨tr, s, hrun, hpending, hready,
    no_wakeup_lost (fun isLatch => ⟨_, rfl⟩) hrun hpending hready⟩

end Shelterwood
