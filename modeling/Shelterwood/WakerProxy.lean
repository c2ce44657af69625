/-
Shelterwood/WakerProxy.lean

Polling behind a waker proxy.

The first poll of a target goes out with a waker that does nothing.  If the target is
not ready, the caller's waker is put into the slot of a proxy and the target is polled
again, this time with the proxy.  Registering the caller takes two critical sections
with the clone of its waker between them, and a wake of the proxy may come at any of
these points: to the no-op waker, to an empty slot, or to the caller of an earlier
poll.  A count of wakes tells the second section what came since the first.

The target is modelled by what the protocol assumes of it: it stays ready until a poll
returns ready, and it keeps the last waker it was polled with.  A wake of the proxy is
its critical section, which takes the caller out of the slot, and later the wake of
that caller.
-/
import Shelterwood.Trace

namespace Shelterwood

/-! ### The state -/

/-- A caller's waker: the task it wakes, and the pointers `will_wake` compares. -/
structure CallerWaker where
  task : ℕ
  pointers : ℕ
  deriving DecidableEq, Repr

/-- A clone wakes the same task and may have pointers of its own. -/
def CallerWaker.cloned (w : CallerWaker) (pointers : ℕ) : CallerWaker := ⟨w.task, pointers⟩

structure ProxyRegistration where
  caller : Option CallerWaker
  wakes : ℕ
  deriving DecidableEq, Repr

/-- Where a poll is. -/
inductive ProxyPhase
  | idle
  /-- About to poll with the no-op waker. -/
  | probing (current : CallerWaker)
  /-- `register`: before its first critical section. -/
  | looking (current : CallerWaker)
  /-- `register`: between the sections, the waker is to be cloned. -/
  | cloning (current : CallerWaker) (observed : ℕ)
  /-- `register`: before its second critical section. -/
  | installing (current : CallerWaker) (observed pointers : ℕ)
  /-- `register`: unlocked, with a clone to wake or none. -/
  | flushing (current : CallerWaker) (woken : Option ℕ)
  /-- About to poll with the proxy. -/
  | repolling (current : CallerWaker)
  /-- Ready, with the proxy still to be retired. -/
  | retiring (current : CallerWaker)
  deriving DecidableEq, Repr

inductive TargetWaker
  | noop
  | proxy
  deriving DecidableEq, Repr

structure ProxiedPoll where
  /-- Whether the target is ready. -/
  ready : Bool
  /-- The last waker the target was polled with. -/
  polledWith : Option TargetWaker
  proxy : Option ProxyRegistration
  phase : ProxyPhase
  /-- The callers that wakes of the proxy have taken and not yet woken. -/
  inFlight : List CallerWaker
  deriving DecidableEq, Repr

inductive ProxyStep
  | poll (current : CallerWaker)
  /-- The first poll.  If it is ready, the target is left ready or not. -/
  | probe (still : Bool)
  | look
  | clone (pointers : ℕ) (panics : Bool)
  | install
  | flush (panics : Bool)
  | repoll (still : Bool)
  | retire
  /-- A wake of the proxy: its critical section. -/
  | wake
  /-- It wakes the caller it took. -/
  | deliver (index : ℕ)
  | becomeReady
  deriving DecidableEq, Repr

inductive PollResult
  | ready
  | pending
  | unwound
  deriving DecidableEq, Repr

inductive ProxyAnswer
  | silent
  | took (caller : Option CallerWaker)
  | woke (caller : CallerWaker)
  | returned (result : PollResult)
  deriving DecidableEq, Repr

/-- The second critical section of `register`.  The clone is to be woken if a wake came
since the first section. -/
def ProxyRegistration.install (registration : ProxyRegistration) (current : CallerWaker)
    (observed pointers : ℕ) : ProxyRegistration × Option ℕ :=
  if registration.wakes ≠ observed then ({ registration with caller := none }, some pointers)
  else ({ registration with caller := some (current.cloned pointers) }, none)

namespace ProxiedPoll

/-- The caller in the slot of the proxy. -/
def slot (s : ProxiedPoll) : Option CallerWaker :=
  match s.proxy with
  | none => none
  | some registration => registration.caller

def new : ProxiedPoll := ⟨false, none, none, .idle, []⟩

def apply (s : ProxiedPoll) (step : ProxyStep) : Option (ProxiedPoll × ProxyAnswer) :=
  match step, s.phase, s.proxy with
  | .poll current, .idle, none => some ({ s with phase := .probing current }, .silent)
  | .poll current, .idle, some _ => some ({ s with phase := .looking current }, .silent)
  | .probe still, .probing current, none =>
    if s.ready then
      some ({ s with ready := still, polledWith := some .noop, phase := .idle }, .returned .ready)
    else
      some ({ s with
          polledWith := some .noop
          proxy := some ⟨none, 0⟩
          phase := .looking current },
        .silent)
  | .look, .looking current, some registration =>
    if registration.caller = some current then
      some ({ s with phase := .repolling current }, .silent)
    else some ({ s with phase := .cloning current registration.wakes }, .silent)
  | .clone pointers panics, .cloning current observed, _ =>
    if panics then some ({ s with phase := .idle }, .returned .unwound)
    else
      some ({ s with phase := .installing current observed pointers }, .silent)
  | .install, .installing current observed pointers, some registration =>
    some ({ s with
        proxy := some (registration.install current observed pointers).1
        phase := .flushing current (registration.install current observed pointers).2 },
      .silent)
  -- a waker woken here may panic, and so may the drop of the displaced one
  | .flush false, .flushing current none, _ =>
    some ({ s with phase := .repolling current }, .silent)
  | .flush false, .flushing current (some pointers), _ =>
    some ({ s with phase := .repolling current }, .woke (current.cloned pointers))
  | .flush true, .flushing _ _, _ => some ({ s with phase := .idle }, .returned .unwound)
  | .repoll still, .repolling current, _ =>
    if s.ready then
      some ({ s with ready := still, polledWith := some .proxy, phase := .retiring current },
        .silent)
    else some ({ s with polledWith := some .proxy, phase := .idle }, .returned .pending)
  -- the slot of the retired proxy is empty, so its later wakes reach nobody
  | .retire, .retiring _, _ =>
    some ({ s with proxy := none, phase := .idle }, .returned .ready)
  | .wake, _, some registration =>
    some ({ s with
        proxy := some ⟨none, registration.wakes + 1⟩
        inFlight := s.inFlight ++ registration.caller.toList },
      .took registration.caller)
  | .deliver index, _, _ =>
    match s.inFlight[index]? with
    | none => none
    | some caller => some ({ s with inFlight := s.inFlight.eraseIdx index }, .woke caller)
  | .becomeReady, _, _ => some ({ s with ready := true }, .silent)
  | _, _, _ => none

/-! ### What one step is -/

inductive Move (s : ProxiedPoll) : ProxyStep → ProxiedPoll → ProxyAnswer → Prop
  | poll (current : CallerWaker) (next : ProxyPhase) (idle : s.phase = .idle)
      (starts : next = .probing current ∨ next = .looking current) :
      Move s (.poll current) { s with phase := next } .silent
  | probeReady (current : CallerWaker) (still : Bool) (probing : s.phase = .probing current)
      (absent : s.proxy = none) :
      Move s (.probe still) { s with ready := still, polledWith := some .noop, phase := .idle }
        (.returned .ready)
  | probePending (current : CallerWaker) (still : Bool) (probing : s.phase = .probing current)
      (absent : s.proxy = none) :
      Move s (.probe still)
        { s with polledWith := some .noop, proxy := some ⟨none, 0⟩, phase := .looking current }
        .silent
  | registered (current : CallerWaker) (looking : s.phase = .looking current)
      (same : s.slot = some current) :
      Move s .look { s with phase := .repolling current } .silent
  | looked (current : CallerWaker) (registration : ProxyRegistration)
      (looking : s.phase = .looking current) (proxy : s.proxy = some registration) :
      Move s .look { s with phase := .cloning current registration.wakes } .silent
  | cloned (current : CallerWaker) (observed pointers : ℕ)
      (cloning : s.phase = .cloning current observed) :
      Move s (.clone pointers false)
        { s with phase := .installing current observed pointers } .silent
  | cloneUnwound (pointers : ℕ) : Move s (.clone pointers true) { s with phase := .idle }
      (.returned .unwound)
  | installed (current : CallerWaker) (pointers : ℕ) (registration : ProxyRegistration)
      (installing : s.phase = .installing current registration.wakes pointers)
      (proxy : s.proxy = some registration) :
      Move s .install
        { s with
          proxy := some { registration with caller := some (current.cloned pointers) }
          phase := .flushing current none }
        .silent
  | overtaken (current : CallerWaker) (observed pointers : ℕ) (registration : ProxyRegistration)
      (installing : s.phase = .installing current observed pointers)
      (proxy : s.proxy = some registration) (moved : registration.wakes ≠ observed) :
      Move s .install
        { s with
          proxy := some { registration with caller := none }
          phase := .flushing current (some pointers) }
        .silent
  | flushed (current : CallerWaker) (flushing : s.phase = .flushing current none) :
      Move s (.flush false) { s with phase := .repolling current } .silent
  | flushedWoke (current : CallerWaker) (pointers : ℕ)
      (flushing : s.phase = .flushing current (some pointers)) :
      Move s (.flush false) { s with phase := .repolling current }
        (.woke (current.cloned pointers))
  | flushUnwound : Move s (.flush true) { s with phase := .idle } (.returned .unwound)
  | repollReady (current : CallerWaker) (still : Bool) (repolling : s.phase = .repolling current) :
      Move s (.repoll still)
        { s with ready := still, polledWith := some .proxy, phase := .retiring current } .silent
  | repollPending (current : CallerWaker) (still : Bool)
      (repolling : s.phase = .repolling current) (unready : s.ready = false) :
      Move s (.repoll still) { s with polledWith := some .proxy, phase := .idle }
        (.returned .pending)
  | retire (current : CallerWaker) (retiring : s.phase = .retiring current) :
      Move s .retire { s with proxy := none, phase := .idle } (.returned .ready)
  | wake (registration : ProxyRegistration) (proxy : s.proxy = some registration) :
      Move s .wake
        { s with
          proxy := some ⟨none, registration.wakes + 1⟩
          inFlight := s.inFlight ++ registration.caller.toList }
        (.took registration.caller)
  | deliver (index : ℕ) (caller : CallerWaker) (held : s.inFlight[index]? = some caller) :
      Move s (.deliver index) { s with inFlight := s.inFlight.eraseIdx index } (.woke caller)
  | becomeReady : Move s .becomeReady { s with ready := true } .silent

variable {s s' : ProxiedPoll} {step : ProxyStep} {a : ProxyAnswer}

theorem move (h : s.apply step = some (s', a)) : Move s step s' a := by
  unfold apply at h
  split at h
  · next hphase hproxy =>
      cases h
      exact .poll _ _ hphase (.inl rfl)
  · next hphase hproxy =>
      cases h
      exact .poll _ _ hphase (.inr rfl)
  · next hphase hproxy =>
      split_ifs at h with hready
      · cases h
        exact .probeReady _ _ hphase hproxy
      · cases h
        exact .probePending _ _ hphase hproxy
  · next hphase hproxy =>
      split_ifs at h with hsame
      · cases h
        refine .registered _ hphase ?_
        rw [slot, hproxy]
        exact hsame
      · cases h
        exact .looked _ _ hphase hproxy
  · next hphase =>
      split_ifs at h with hpanics
      · cases h
        subst hpanics
        exact .cloneUnwound _
      · cases h
        rw [Bool.eq_false_iff.2 hpanics]
        exact .cloned _ _ _ hphase
  · next registration hphase hproxy =>
      cases h
      unfold ProxyRegistration.install
      split_ifs with hmoved
      · exact .overtaken _ _ _ _ hphase hproxy hmoved
      · rw [← not_not.1 hmoved] at hphase
        exact .installed _ _ _ hphase hproxy
  · next hphase =>
      cases h
      exact .flushed _ hphase
  · next hphase =>
      cases h
      exact .flushedWoke _ _ hphase
  · cases h
    exact .flushUnwound
  · next hphase =>
      split_ifs at h with hready
      · cases h
        exact .repollReady _ _ hphase
      · cases h
        exact .repollPending _ _ hphase (Bool.eq_false_iff.2 hready)
  · next hphase =>
      cases h
      exact .retire _ hphase
  · next hproxy =>
      cases h
      exact .wake _ hproxy
  · split at h
    · cases h
    · next hheld =>
        cases h
        exact .deliver _ _ hheld
  · cases h
    exact .becomeReady
  · cases h

theorem slot_of_absent (h : s.proxy = none) : s.slot = none := by
  rw [slot, h]

theorem slot_of_proxy {registration : ProxyRegistration} (h : s.proxy = some registration) :
    s.slot = registration.caller := by
  rw [slot, h]

end ProxiedPoll

/-- The caller a poll in progress was called with. -/
def ProxyPhase.current : ProxyPhase → Option CallerWaker
  | .idle => none
  | .probing w | .looking w | .cloning w _ | .installing w _ _ | .flushing w _ | .repolling w
  | .retiring w => some w

abbrev ProxyEdge := Edge ProxiedPoll ProxyStep ProxyAnswer

namespace ProxyEdge

def IsPoll (e : ProxyEdge) : Prop := ∃ w, e.input = .poll w

def IsLook (e : ProxyEdge) : Prop := e.input = .look

def IsWake (e : ProxyEdge) : Prop := e.input = .wake

/-- The critical section by which a register puts its caller into the slot, or finds it
there. -/
def IsRegister (e : ProxyEdge) : Prop :=
  e.input = .install ∨ e.input = .look ∧ ∃ w, e.after.phase = .repolling w

end ProxyEdge

namespace ProxiedPoll

variable {s s' : ProxiedPoll} {step : ProxyStep} {a : ProxyAnswer}

theorem not_isRegister (hinstall : step ≠ .install) (hlook : step ≠ .look) :
    ¬ ProxyEdge.IsRegister ⟨s, step, a, s'⟩ := by
  rintro (h | ⟨h, -⟩)
  · exact hinstall h
  · exact hlook h

/-- What a step does to the slot. -/
theorem Move.slot_cases (h : Move s step s' a) :
    s'.slot = s.slot ∧ ¬ ProxyEdge.IsRegister ⟨s, step, a, s'⟩ ∨ s'.slot = none ∨
      ∃ w c, s'.slot = some c ∧ s.phase.current = some w ∧ w.task = c.task ∧
        ProxyEdge.IsRegister ⟨s, step, a, s'⟩ := by
  cases h with
  | poll | cloned | cloneUnwound | flushed | flushedWoke | flushUnwound | deliver | becomeReady
  | repollPending | repollReady | probeReady =>
    exact .inl ⟨rfl, not_isRegister (by rintro ⟨⟩) (by rintro ⟨⟩)⟩
  | looked =>
    refine .inl ⟨rfl, ?_⟩
    rintro (h | ⟨-, w, h⟩) <;> cases h
  | probePending | overtaken | retire | wake => exact .inr (.inl rfl)
  | registered current looking same =>
    exact .inr (.inr ⟨current, current, same, by rw [looking]; rfl, rfl, .inr ⟨rfl, current, rfl⟩⟩)
  | installed current pointers registration installing =>
    exact .inr (.inr ⟨current, current.cloned pointers, rfl, by rw [installing]; rfl, rfl,
      .inl rfl⟩)

/-- A quiet step neither touches the slot nor wakes, registers or returns ready. -/
def Quiet (e : ProxyEdge) : Prop :=
  ¬ e.IsWake ∧ ¬ e.IsRegister ∧ e.output ≠ .returned .ready

theorem Move.slot_of_quiet (h : Move s step s' a) (hquiet : Quiet ⟨s, step, a, s'⟩) :
    s'.slot = s.slot := by
  cases h with
  | poll | cloned | cloneUnwound | flushed | flushedWoke | flushUnwound | deliver | becomeReady
  | repollPending | repollReady | probeReady | looked | registered => rfl
  | probePending _ _ _ absent => rw [slot_of_absent absent]; rfl
  | installed | overtaken => exact absurd (.inl rfl) hquiet.2.1
  | retire => exact absurd rfl hquiet.2.2
  | wake => exact absurd rfl hquiet.1

/-- A wake takes the caller in the slot. -/
theorem Move.took (h : Move s .wake s' a) : a = .took s.slot := by
  cases h with
  | wake registration proxy => rw [slot_of_proxy proxy]

abbrev ProxyRun (s : ProxiedPoll) (tr : List ProxyEdge) (s' : ProxiedPoll) : Prop :=
  Run (stepEdge fun s step => ProxiedPoll.apply s step) s tr s'

variable {tr : List ProxyEdge}

theorem slot_of_quiet_run (h : ProxyRun s tr s') (hquiet : ∀ e ∈ tr, Quiet e) :
    s'.slot = s.slot := by
  induction h with
  | nil => rfl
  | @cons e rest s' he hrest ih =>
    have hkeep := ih fun x hx => hquiet x (List.mem_cons_of_mem _ hx)
    exact hkeep.trans ((move he).slot_of_quiet (hquiet e List.mem_cons_self))

/-- The caller in the slot is the one of the latest register. -/
theorem slot_owner (h : ProxyRun .new tr s) :
    ∀ c, s.slot = some c → ∃ e post w, Latest ProxyEdge.IsRegister tr e post ∧
      e.before.phase.current = some w ∧ w.task = c.task := by
  refine h.history ?_ ?_
  · rintro c ⟨⟩
  · intro pre e _ he _ ih c hc
    rcases (move he).slot_cases with ⟨hsame, hnot⟩ | hnone | ⟨w, c', hc', hw, htask, hregister⟩
    · rw [hsame] at hc
      obtain ⟨k, post, w, hlatest, hk⟩ := ih c hc
      exact ⟨k, post ++ [e], w, hlatest.snoc hnot, hk⟩
    · rw [hnone] at hc
      cases hc
    · rw [hc'] at hc
      cases hc
      exact ⟨e, [], w, .self hregister, hw, htask⟩

/-! ### From a register to its first wake -/

/-- Since the poll began its caller was registered, at a moment the target can only have
been ready at if it still is. -/
def Registered (w : CallerWaker) (since : List ProxyEdge) (s : ProxiedPoll) : Prop :=
  ∃ e post c, Latest ProxyEdge.IsRegister since e post ∧ c.task = w.task ∧
    e.after.slot = some c ∧ (e.after.ready = true → s.ready = true)

/-- The caller's task was woken. -/
def WokenSince (w : CallerWaker) (since : List ProxyEdge) : Prop :=
  ∃ x ∈ since, ∃ c, x.output = .woke c ∧ c.task = w.task

/-- The target stays ready until a poll returns ready. -/
theorem Move.ready_mono (h : Move s step s' a) (hout : a ≠ .returned .ready)
    (hrepoll : ∀ still, step ≠ .repoll still) (hready : s.ready = true) : s'.ready = true := by
  cases h with
  | probeReady => exact absurd rfl hout
  | repollReady _ still => exact absurd rfl (hrepoll still)
  | becomeReady => rfl
  | _ => exact hready

variable {w : CallerWaker} {since : List ProxyEdge}

theorem Registered.snoc (h : Registered w since s) (hmove : Move s step s' a)
    (hnot : ¬ ProxyEdge.IsRegister ⟨s, step, a, s'⟩) (hout : a ≠ .returned .ready)
    (hrepoll : ∀ still, step ≠ .repoll still) : Registered w (since ++ [⟨s, step, a, s'⟩]) s' := by
  obtain ⟨e, post, c, hlatest, htask, hslot, hready⟩ := h
  exact ⟨e, _, c, hlatest.snoc hnot, htask, hslot, fun he =>
    hmove.ready_mono hout hrepoll (hready he)⟩

theorem WokenSince.snoc (h : WokenSince w since) (e : ProxyEdge) : WokenSince w (since ++ [e]) := by
  obtain ⟨x, hx, hwoke⟩ := h
  exact ⟨x, List.mem_append_left _ hx, hwoke⟩

/-- What a poll has come to since it began. -/
def Progress (w : CallerWaker) (since : List ProxyEdge) (s : ProxiedPoll) : Prop :=
  match s.phase with
  | .flushing _ none => Registered w since s
  | .repolling _ => Registered w since s ∨ WokenSince w since
  | _ => True

/-- Steps of others leave a poll where it is. -/
theorem Progress.snoc (h : Progress w since s) (hmove : Move s step s' a)
    (hphase : s'.phase = s.phase) (hnot : ¬ ProxyEdge.IsRegister ⟨s, step, a, s'⟩)
    (hout : a ≠ .returned .ready) (hrepoll : ∀ still, step ≠ .repoll still) :
    Progress w (since ++ [⟨s, step, a, s'⟩]) s' := by
  unfold Progress at h ⊢
  rw [hphase]
  cases hp : s.phase with
  | flushing current woken =>
    rw [hp] at h
    cases woken with
    | none => exact Registered.snoc h hmove hnot hout hrepoll
    | some pointers => trivial
  | repolling current =>
    rw [hp] at h
    exact h.imp (fun h => h.snoc hmove hnot hout hrepoll) fun h => h.snoc _
  | idle | probing | looking | cloning | installing | retiring => trivial

/-- A step of the poll itself. -/
theorem progress_step (hmove : Move s step s' a) (hw : s'.phase.current = some w)
    (hpoll : ∀ current, step ≠ .poll current) (ih : s.phase.current = some w → Progress w since s) :
    s.phase.current = some w ∧ Progress w (since ++ [⟨s, step, a, s'⟩]) s' := by
  have hkeep : s'.phase = s.phase → ¬ ProxyEdge.IsRegister ⟨s, step, a, s'⟩ →
      a ≠ .returned .ready → (∀ still, step ≠ .repoll still) →
      s.phase.current = some w ∧ Progress w (since ++ [⟨s, step, a, s'⟩]) s' := by
    intro hphase hnot hout hrepoll
    rw [hphase] at hw
    exact ⟨hw, (ih hw).snoc hmove hphase hnot hout hrepoll⟩
  cases hmove with
  | poll current => exact absurd rfl (hpoll current)
  | probeReady | cloneUnwound | flushUnwound | repollPending | retire => cases hw
  | probePending current still probing =>
    cases hw
    exact ⟨by rw [probing]; rfl, trivial⟩
  | looked current registration looking =>
    cases hw
    exact ⟨by rw [looking]; rfl, trivial⟩
  | cloned current observed pointers cloning =>
    cases hw
    exact ⟨by rw [cloning]; rfl, trivial⟩
  | repollReady current still repolling =>
    cases hw
    exact ⟨by rw [repolling]; rfl, trivial⟩
  | overtaken current observed pointers registration installing =>
    cases hw
    exact ⟨by rw [installing]; rfl, trivial⟩
  | registered current looking same =>
    cases hw
    exact ⟨by rw [looking]; rfl, .inl ⟨_, [], w, .self (.inr ⟨rfl, w, rfl⟩), rfl, same, id⟩⟩
  | installed current pointers registration installing =>
    cases hw
    exact ⟨by rw [installing]; rfl, ⟨_, [], w.cloned pointers, .self (.inl rfl), rfl, rfl, id⟩⟩
  | flushed current flushing =>
    cases hw
    have hcurrent : s.phase.current = some w := by rw [flushing]; rfl
    have hregistered : Registered w since s := by
      have := ih hcurrent
      rwa [Progress, flushing] at this
    exact ⟨hcurrent, .inl (hregistered.snoc (.flushed w flushing)
      (not_isRegister (by rintro ⟨⟩) (by rintro ⟨⟩)) (by rintro ⟨⟩) (by rintro _ ⟨⟩))⟩
  | flushedWoke current pointers flushing =>
    cases hw
    exact ⟨by rw [flushing]; rfl,
      .inr ⟨_, List.mem_append_right _ (List.mem_singleton_self _), w.cloned pointers, rfl, rfl⟩⟩
  | wake | deliver | becomeReady =>
    exact hkeep rfl (not_isRegister (by rintro ⟨⟩) (by rintro ⟨⟩)) (by rintro ⟨⟩)
      (by rintro _ ⟨⟩)

theorem progress (h : ProxyRun .new tr s) :
    ∀ w, s.phase.current = some w → ∃ b since, Latest ProxyEdge.IsPoll tr b since ∧
      b.input = .poll w ∧ Progress w since s := by
  refine h.history ?_ ?_
  · rintro w ⟨⟩
  · rintro pre ⟨before, step, answer, after⟩ _ he _ ih w hw
    have hmove : Move before step after answer := move he
    by_cases hpoll : ∃ current, step = .poll current
    · obtain ⟨current, rfl⟩ := hpoll
      cases hmove with
      | poll _ next idle starts =>
        have hcurrent : current = w := by
          rcases starts with rfl | rfl <;> cases hw <;> rfl
        subst hcurrent
        refine ⟨_, [], .self ⟨current, rfl⟩, rfl, ?_⟩
        rcases starts with rfl | rfl <;> trivial
    · have hother : ∀ current, step ≠ .poll current := fun current h => hpoll ⟨current, h⟩
      by_cases hcurrent : before.phase.current = some w
      · obtain ⟨b, since, hlatest, hb, hprogress⟩ := ih w hcurrent
        exact ⟨b, _, hlatest.snoc hpoll, hb, (progress_step hmove hw hother fun _ => hprogress).2⟩
      · have hstep : before.phase.current = some w ∧
            Progress w ([] ++ [⟨before, step, answer, after⟩]) after :=
          progress_step hmove hw hother fun h => absurd h hcurrent
        exact absurd hstep.1 hcurrent

/-- In what follows on a register, the first wake takes the caller it registered. -/
theorem first_wake {e : ProxyEdge} {c : CallerWaker} (h : ProxyRun e.after since s)
    (hslot : e.after.slot = some c) {q r : List ProxyEdge} {x : ProxyEdge}
    (hsince : since = q ++ x :: r) (hquiet : ∀ y ∈ q, Quiet y) (hwake : x.IsWake) :
    x.output = .took (some c) := by
  subst hsince
  obtain ⟨hq, hx, -⟩ := h.split_at
  have hmove : Move x.before x.input x.after x.output := move hx
  rw [hwake] at hmove
  rw [hmove.took, slot_of_quiet_run hq hquiet, hslot]

/-! ### The two sections of a register -/

/-- A register in progress and what happened since its first section: as long as the wake
counter stands still there was no wake, and once the caller is installed every wake takes
it or nothing. -/
def Window (w : CallerWaker) (since : List ProxyEdge) (s : ProxiedPoll) : Prop :=
  match s.phase with
  | .cloning _ observed | .installing _ observed _ =>
    ∃ registration, s.proxy = some registration ∧ observed ≤ registration.wakes ∧
      (registration.wakes = observed → ∀ x ∈ since, ∀ c, x.output ≠ .took c)
  | .flushing _ none =>
    (∀ x ∈ since, ∀ c, x.output = .took (some c) → c.task = w.task) ∧
      ∀ c, s.slot = some c → c.task = w.task
  | _ => True

end ProxiedPoll

/-- The caller of the register in progress past its first section. -/
def ProxyPhase.registering : ProxyPhase → Option CallerWaker
  | .idle | .probing _ | .looking _ | .repolling _ | .retiring _ => none
  | .cloning w _ | .installing w _ _ | .flushing w _ => some w

namespace ProxiedPoll

variable {s s' : ProxiedPoll} {step : ProxyStep} {a : ProxyAnswer} {tr : List ProxyEdge}

/-- A step outside the register that takes no caller. -/
theorem Window.snoc {w : CallerWaker} {since : List ProxyEdge} (h : Window w since s)
    (hphase : s'.phase = s.phase) (hproxy : s'.proxy = s.proxy) (htook : ∀ c, a ≠ .took c) :
    Window w (since ++ [⟨s, step, a, s'⟩]) s' := by
  have hmem : ∀ {q : ProxyEdge → Prop}, (∀ x ∈ since, q x) → q ⟨s, step, a, s'⟩ →
      ∀ x ∈ since ++ [⟨s, step, a, s'⟩], q x := by
    intro q hsince he x hx
    rcases List.mem_append.1 hx with hx | hx
    · exact hsince x hx
    · rwa [List.mem_singleton.1 hx]
  have hslot : s'.slot = s.slot := by rw [slot, hproxy, slot]
  unfold Window at h ⊢
  rw [hphase, hproxy, hslot]
  cases hp : s.phase with
  | cloning _ observed | installing _ observed _ =>
    rw [hp] at h
    obtain ⟨registration, hregistration, hle, hstill⟩ := h
    exact ⟨registration, hregistration, hle, fun heq => hmem (hstill heq) htook⟩
  | flushing _ woken =>
    rw [hp] at h
    cases woken with
    | none => exact ⟨hmem h.1 fun c hc => absurd hc (htook _), h.2⟩
    | some pointers => trivial
  | idle | probing | looking | repolling | retiring => trivial

theorem window_step {w : CallerWaker} {since : List ProxyEdge} (hmove : Move s step s' a)
    (hw : s'.phase.registering = some w) (hlook : step ≠ .look)
    (ih : s.phase.registering = some w → Window w since s) :
    s.phase.registering = some w ∧ Window w (since ++ [⟨s, step, a, s'⟩]) s' := by
  cases hmove with
  | poll current next idle starts => rcases starts with rfl | rfl <;> cases hw
  | probeReady | probePending | cloneUnwound | flushed | flushedWoke | flushUnwound | repollReady
  | repollPending | retire => cases hw
  | registered | looked => exact absurd rfl hlook
  | cloned current observed pointers cloning =>
    cases hw
    have hbefore : s.phase.registering = some w := by rw [cloning]; rfl
    obtain ⟨registration, hproxy, hle, hstill⟩ : ∃ registration, s.proxy = some registration ∧
        observed ≤ registration.wakes ∧
        (registration.wakes = observed → ∀ x ∈ since, ∀ c, x.output ≠ .took c) := by
      have := ih hbefore
      rwa [Window, cloning] at this
    refine ⟨hbefore, registration, hproxy, hle, ?_⟩
    intro heq x hx
    rcases List.mem_append.1 hx with hx | hx
    · exact hstill heq x hx
    · rw [List.mem_singleton.1 hx]
      rintro c ⟨⟩
  | installed current pointers registration installing proxy =>
    cases hw
    have hbefore : s.phase.registering = some w := by rw [installing]; rfl
    obtain ⟨registration', hproxy, -, hstill⟩ : ∃ registration', s.proxy = some registration' ∧
        registration.wakes ≤ registration'.wakes ∧
        (registration'.wakes = registration.wakes → ∀ x ∈ since, ∀ c, x.output ≠ .took c) := by
      have := ih hbefore
      rwa [Window, installing] at this
    rw [proxy] at hproxy
    cases hproxy
    refine ⟨hbefore, ?_, ?_⟩
    · intro x hx c hc
      rcases List.mem_append.1 hx with hx | hx
      · exact absurd hc (hstill rfl x hx _)
      · rw [List.mem_singleton.1 hx] at hc
        cases hc
    · rintro c ⟨⟩
      rfl
  | overtaken current observed pointers registration installing =>
    cases hw
    exact ⟨by rw [installing]; rfl, trivial⟩
  | wake registration proxy =>
    refine ⟨hw, ?_⟩
    have hwindow := ih hw
    unfold Window at hwindow ⊢
    cases hp : s.phase with
    | cloning _ observed | installing _ observed _ =>
      rw [hp] at hwindow
      obtain ⟨registration', hproxy, hle, -⟩ := hwindow
      rw [proxy] at hproxy
      cases hproxy
      refine ⟨_, rfl, Nat.le_succ_of_le hle, ?_⟩
      intro heq
      exact absurd heq (Nat.ne_of_gt (Nat.lt_succ_of_le hle))
    | flushing _ woken =>
      rw [hp] at hwindow
      cases woken with
      | some pointers => trivial
      | none =>
        refine ⟨?_, by rintro c ⟨⟩⟩
        intro x hx c hc
        rcases List.mem_append.1 hx with hx | hx
        · exact hwindow.1 x hx c hc
        · rw [List.mem_singleton.1 hx] at hc
          have hslot : registration.caller = some c := ProxyAnswer.took.inj hc
          exact hwindow.2 c ((slot_of_proxy proxy).trans hslot)
    | idle | probing | looking | repolling | retiring => trivial
  | deliver | becomeReady => exact ⟨hw, (ih hw).snoc rfl rfl (by rintro c ⟨⟩)⟩

theorem window (h : ProxyRun .new tr s) :
    ∀ w, s.phase.registering = some w → ∃ l since, Latest ProxyEdge.IsLook tr l since ∧
      l.before.phase = .looking w ∧ Window w since s := by
  refine h.history ?_ ?_
  · rintro w ⟨⟩
  · rintro pre ⟨before, step, answer, after⟩ _ he _ ih w hw
    have hmove : Move before step after answer := move he
    by_cases hlook : step = .look
    · subst hlook
      cases hmove with
      | registered => cases hw
      | looked current registration looking proxy =>
        cases hw
        refine ⟨_, [], .self rfl, looking, registration, proxy, Nat.le_refl _, ?_⟩
        rintro _ x ⟨⟩
    · by_cases hbefore : before.phase.registering = some w
      · obtain ⟨l, since, hlatest, hl, hwindow⟩ := ih w hbefore
        exact ⟨l, _, hlatest.snoc hlook, hl, (window_step hmove hw hlook fun _ => hwindow).2⟩
      · have hstep : before.phase.registering = some w ∧
            Window w ([] ++ [⟨before, step, answer, after⟩]) after :=
          window_step hmove hw hlook fun h => absurd h hbefore
        exact absurd hstep.1 hbefore

/-! ### Taken callers -/

/-- The caller a wake took out of the slot. -/
def taken (e : ProxyEdge) : Option CallerWaker :=
  match e.output with
  | .took c => c
  | _ => none

/-- The caller woken by the thread that took it. -/
def delivered (e : ProxyEdge) : Option CallerWaker :=
  match e.input, e.output with
  | .deliver _, .woke c => some c
  | _, _ => none

theorem Move.taken_perm (h : Move s step s' a) :
    (s.inFlight ++ (taken ⟨s, step, a, s'⟩).toList).Perm
      ((delivered ⟨s, step, a, s'⟩).toList ++ s'.inFlight) := by
  cases h with
  | wake => exact .refl _
  | deliver index caller held =>
    obtain ⟨hlt, hget⟩ := List.getElem?_eq_some_iff.1 held
    show (s.inFlight ++ []).Perm (caller :: s.inFlight.eraseIdx index)
    rw [List.append_nil, ← hget]
    exact (List.getElem_cons_eraseIdx_perm hlt).symm
  | _ =>
    show (s.inFlight ++ []).Perm s.inFlight
    rw [List.append_nil]

/-- Every caller a wake took is woken once, or still held by the thread that took it. -/
theorem taken_perm (h : ProxyRun .new tr s) :
    (tr.filterMap taken).Perm (tr.filterMap delivered ++ s.inFlight) := by
  refine h.history (.refl _) ?_
  intro pre e _ he _ ih
  have hstep : (e.before.inFlight ++ (taken e).toList).Perm
      ((delivered e).toList ++ e.after.inFlight) := (move he).taken_perm
  rw [List.filterMap_append, List.filterMap_append]
  have hone : ∀ f : ProxyEdge → Option CallerWaker, [e].filterMap f = (f e).toList := by
    intro f
    cases hf : f e <;> simp [hf]
  rw [hone, hone]
  calc pre.filterMap taken ++ (taken e).toList
      _ |>.Perm (pre.filterMap delivered ++ e.before.inFlight ++ (taken e).toList) :=
        ih.append_right _
      _ |>.Perm (pre.filterMap delivered ++ (delivered e).toList ++ e.after.inFlight) := by
        rw [List.append_assoc, List.append_assoc]
        exact hstep.append_left _

/-! ### Proxied polling -/

/-- The first wake, before which nothing was registered and the future did not complete,
takes this caller. -/
def FirstWakeTakes (c : CallerWaker) (since : List ProxyEdge) : Prop :=
  ∀ q x r, since = q ++ x :: r → (∀ y ∈ q, Quiet y) → x.IsWake → x.output = .took (some c)

/-- The end of a poll that returned pending. -/
theorem pending_cases {pre : List ProxyEdge} {ret : ProxyEdge}
    (h : ProxyRun .new pre ret.before) (he : Move ret.before ret.input ret.after ret.output)
    (hret : ret.output = .returned .pending) :
    ret.after.polledWith = some .proxy ∧ ret.before.ready = false ∧ ∃ b since w,
      Latest ProxyEdge.IsPoll pre b since ∧ b.input = .poll w ∧
        (Registered w since ret.before ∨ WokenSince w since) := by
  obtain ⟨before, step, answer, after⟩ := ret
  have hmove : Move before step after answer := he
  cases hmove with
  | repollPending current still repolling unready =>
    obtain ⟨b, since, hlatest, hb, hprogress⟩ := progress h current (by rw [repolling]; rfl)
    rw [Progress, repolling] at hprogress
    exact ⟨rfl, unready, b, since, current, hlatest, hb, hprogress⟩
  | _ => cases hret

/-- Proxied polling loses no wake.  After a poll that returned pending the target holds the
proxy, and either the poll registered its caller while the target was not ready and the
first wake from then on takes that caller, or the caller was woken since the poll began.
A wake only takes the caller of the latest register, a register wakes its own caller if
another was taken while it was in progress, and each caller taken is woken once by the
thread that took it. -/
theorem proxied_poll_loses_no_wake (h : ProxyRun .new tr s) :
    (∀ pre ret post, tr = pre ++ ret :: post → ret.output = .returned .pending →
      ret.after.polledWith = some .proxy ∧ ∃ b since w,
        Latest ProxyEdge.IsPoll pre b since ∧ b.input = .poll w ∧
          ((∃ e rest c, Latest ProxyEdge.IsRegister since e rest ∧ c.task = w.task ∧
              e.after.ready = false ∧ FirstWakeTakes c (rest ++ ret :: post)) ∨
            WokenSince w since)) ∧
    (∀ pre x post c, tr = pre ++ x :: post → x.output = .took (some c) →
      ∃ e since w, Latest ProxyEdge.IsRegister pre e since ∧
        e.before.phase.current = some w ∧ w.task = c.task) ∧
    (∀ pre r post w, tr = pre ++ r :: post → r.before.phase.registering = some w →
      r.after.phase = .repolling w → ∃ l since, Latest ProxyEdge.IsLook pre l since ∧
        l.before.phase = .looking w ∧
          ((∀ x ∈ since, ∀ c, x.output = .took (some c) → c.task = w.task) ∨
            ∃ c, r.output = .woke c ∧ c.task = w.task)) ∧
    (tr.filterMap taken).Perm (tr.filterMap delivered ++ s.inFlight) := by
  refine ⟨?_, ?_, ?_, taken_perm h⟩
  · rintro pre ret post rfl hret
    obtain ⟨hpre, he, -⟩ := h.split_at
    obtain ⟨hpolled, hunready, b, since, w, hlatest, hb, hcases⟩ :=
      pending_cases hpre (move he) hret
    refine ⟨hpolled, b, since, w, hlatest, hb, hcases.imp ?_ id⟩
    rintro ⟨e, rest, c, hregister, htask, hslot, hready⟩
    refine ⟨e, rest, c, hregister, htask, ?_, ?_⟩
    · exact Bool.eq_false_iff.2 fun hr => by rw [hready hr] at hunready; cases hunready
    · -- the run goes on from the register to the end of the trace
      obtain ⟨upto, rfl, -⟩ := hlatest
      obtain ⟨upto', rfl, -⟩ := hregister
      have hrun : ProxyRun .new ((upto ++ b :: upto') ++ e :: (rest ++ ret :: post)) s := by
        simpa using h
      intro q x r hsplit hquiet hwake
      exact first_wake hrun.split_at.2.2 hslot hsplit hquiet hwake
  · rintro pre ⟨before, step, answer, after⟩ post c rfl hx
    obtain ⟨hpre, he, -⟩ := h.split_at
    have hmove : Move before step after answer := move he
    cases hmove with
    | wake registration proxy =>
      have hcaller : registration.caller = some c := ProxyAnswer.took.inj hx
      exact slot_owner hpre c ((slot_of_proxy proxy).trans hcaller)
    | _ => cases hx
  · rintro pre ⟨before, step, answer, after⟩ post w rfl hregistering hreturn
    obtain ⟨hpre, he, -⟩ := h.split_at
    have hmove : Move before step after answer := move he
    obtain ⟨l, since, hlatest, hl, hwindow⟩ := window hpre w hregistering
    refine ⟨l, since, hlatest, hl, ?_⟩
    cases hmove with
    | flushed current flushing =>
      rw [Window, flushing] at hwindow
      exact .inl hwindow.1
    | flushedWoke current pointers flushing =>
      cases hreturn
      exact .inr ⟨_, rfl, rfl⟩
    | registered current looking => rw [looking] at hregistering; cases hregistering
    | wake | deliver | becomeReady =>
      rw [show before.phase = .repolling w from hreturn] at hregistering
      cases hregistering
    | poll current next idle starts => rw [idle] at hregistering; cases hregistering
    | _ => cases hreturn

/-- A wake falls between the two sections of the first register, which then wakes its own
caller.  The next poll brings another caller and returns pending, and the wake after it
takes that caller. -/
theorem proxied_poll_loses_no_wake_in_window :
    ∃ (pre : List ProxyEdge) (ret : ProxyEdge) (post : List ProxyEdge) (s : ProxiedPoll),
      ProxyRun .new (pre ++ ret :: post) s ∧ ret.output = .returned .pending ∧
      post.map Edge.output = [.silent, .took (some ⟨2, 20⟩), .woke ⟨2, 20⟩] ∧
      ret.after.polledWith = some .proxy ∧ ∃ b since w,
        Latest ProxyEdge.IsPoll pre b since ∧ b.input = .poll w ∧
          ((∃ e rest c, Latest ProxyEdge.IsRegister since e rest ∧ c.task = w.task ∧
              e.after.ready = false ∧ FirstWakeTakes c (rest ++ ret :: post)) ∨
            WokenSince w since) := by
  have hexec : ∃ tr s, exec (fun s step => ProxiedPoll.apply s step) .new
      [.poll ⟨1, 1⟩, .probe false, .look, .wake, .clone 10 false, .install, .flush false,
        .repoll false, .poll ⟨2, 2⟩, .look, .clone 20 false, .install, .flush false,
        .repoll false, .becomeReady, .wake, .deliver 0] = some (tr, s) ∧
      tr.map Edge.output =
        [.silent, .silent, .silent, .took none, .silent, .silent, .woke ⟨1, 10⟩,
          .returned .pending, .silent, .silent, .silent, .silent, .silent] ++
        .returned .pending :: [.silent, .took (some ⟨2, 20⟩), .woke ⟨2, 20⟩] :=
    ⟨_, _, rfl, rfl⟩
  obtain ⟨tr, s, hexec, houtputs⟩ := hexec
  have hrun := run_of_exec _ hexec
  obtain ⟨pre, ret, post, rfl, -, hret, hpost, -⟩ := hrun.split_map houtputs
  exact ⟨pre, ret, post, s, hrun, hret, hpost,
    (proxied_poll_loses_no_wake hrun).1 pre ret post rfl hret⟩

end ProxiedPoll

end Shelterwood
