/-
Shelterwood/ScopeRun.lean

Runs of one scope cell, and what a run can do to its control plane.

A run is any interleaving of gated sections, whoever enters them: the driver of
the live incarnation, a stale driver, the parent's driver, a shutdown handle.  A
section whose assertion fires is a step too.  It reports the panic and changes
nothing, and the other owners go on.

`ScopeCall` lists the sections with what each returned, and `ControlMove` says
once what a section can do to the control plane.  Every property of latches and
epochs is derived from its eight cases.
-/
import Shelterwood.ScopeCell
import Shelterwood.Trace

namespace Shelterwood

/-- One gated section of a scope cell. -/
inductive ScopeStep
  | beginIncarnation
  | finishIncarnation (epoch : Epoch) (reason : StopReason) (terminalExit : Option Exit)
  | requestShutdown
  | takeShutdownRequest (epoch : Epoch)
  | takeForceRequest (epoch : Epoch)
  | forceShutdown (epoch : Epoch)
  | vacatePendingShutdown (target : Epoch)
  | startScopeChild (incarnation : Incarnation) (restartStopped : Bool)
  | setStartup (startup : Except StartupError Unit)
  | setStateAndStartup (state : ScopeState) (startup : Except StartupError Unit)
  | publishDrain (startup : Option (Except StartupError Unit))
  | publishRootStopped (reason : StopReason) (exit : Exit)
  | terminalizeNeverStarted
  | closeNeverStartedBody
  | terminalizeChild (resident : Bool) (exit : Exit) (startup : StartupDisposition)
  | publishControlEvent (event : ScopeControlEvent)
  | takeControlEvents
  deriving DecidableEq, Repr

/-- What a gated section returned. -/
inductive ScopeOutput
  | done
  | begun (owned : Option Epoch)
  | requested (target : Epoch) (parentEvent : Option ScopeControlEvent)
  | flag (value : Bool)
  | events (events : List ScopeControlEvent)
  | panicked (message : String)
  deriving DecidableEq, Repr

namespace ScopeStep

/-- A call that does not return: the abort ends the run, the unwinding leaves
the cell to the other owners. -/
def faulted (s : ScopeCell) : Fault → Option (ScopeCell × ScopeOutput)
  | .exhausted => none
  | .panicked message => some (s, .panicked message)

def apply (s : ScopeCell) : ScopeStep → Option (ScopeCell × ScopeOutput)
  | .beginIncarnation =>
    match s.beginIncarnationInto .starting none with
    | .ok (owned, s') => some (s', .begun owned)
    | .error fault => faulted s fault
  | .finishIncarnation epoch reason terminalExit =>
    some (s.finishIncarnationWithTerminal epoch reason terminalExit, .done)
  | .requestShutdown =>
    match s.requestShutdown with
    | .ok ((target, event), s') => some (s', .requested target event)
    | .error fault => faulted s fault
  | .takeShutdownRequest epoch =>
    some ((s.takeShutdownRequest epoch).2, .flag (s.takeShutdownRequest epoch).1)
  | .takeForceRequest epoch =>
    some ((s.takeForceRequest epoch).2, .flag (s.takeForceRequest epoch).1)
  | .forceShutdown epoch => some (s.forceShutdown epoch, .done)
  | .vacatePendingShutdown target =>
    match s.vacatePendingShutdown target with
    | .ok (vacated, s') => some (s', .flag vacated)
    | .error fault => faulted s fault
  | .startScopeChild incarnation restartStopped =>
    match s.startScopeChild incarnation restartStopped with
    | .ok (started, s') => some (s', .flag started)
    | .error fault => faulted s fault
  | .setStartup startup => some (s.setStartupLocked startup, .done)
  | .setStateAndStartup state startup =>
    match s.setStateAndStartup state startup with
    | .ok s' => some (s', .done)
    | .error fault => faulted s fault
  | .publishDrain startup =>
    match s.publishDrain .draining startup with
    | .ok s' => some (s', .done)
    | .error fault => faulted s fault
  | .publishRootStopped reason exit => some (s.publishRootStopped reason exit, .done)
  | .terminalizeNeverStarted => some (s.terminalizeNeverStarted, .done)
  | .closeNeverStartedBody => some (s.closeNeverStartedBody, .done)
  | .terminalizeChild resident exit startup =>
    match s.terminalizeChild resident exit startup with
    | .ok (terminalized, s') => some (s', .flag terminalized)
    | .error fault => faulted s fault
  | .publishControlEvent event => some (s.publishControlEvent event, .done)
  | .takeControlEvents => some ((s.takeControlEvents).2, .events (s.takeControlEvents).1)

end ScopeStep

abbrev ScopeEdge := Edge ScopeCell ScopeStep ScopeOutput

/-- A run of a fresh scope cell. -/
abbrev ScopeRun (member : MemberCell) (parent : Bool) (tr : List ScopeEdge) (s : ScopeCell) :
    Prop :=
  Run (stepEdge fun s step => ScopeStep.apply s step) (.new member parent) tr s

/-- What an edge of a run is: a section that returned, or one that unwound and
changed nothing. -/
inductive ScopeCall : ScopeEdge → Prop
  | unwound (s : ScopeCell) (step : ScopeStep) (message : String) :
      ScopeCall ⟨s, step, .panicked message, s⟩
  | begin {s s' : ScopeCell} {minted : Option Epoch}
      (ok : s.beginIncarnationInto .starting none = .ok (minted, s')) :
      ScopeCall ⟨s, .beginIncarnation, .begun minted, s'⟩
  | finish (s : ScopeCell) (epoch : Epoch) (reason : StopReason) (exit : Option Exit) :
      ScopeCall ⟨s, .finishIncarnation epoch reason exit, .done,
        s.finishIncarnationWithTerminal epoch reason exit⟩
  | request {s s' : ScopeCell} {target : Epoch} {event : Option ScopeControlEvent}
      (ok : s.requestShutdown = .ok ((target, event), s')) :
      ScopeCall ⟨s, .requestShutdown, .requested target event, s'⟩
  | takeShutdown (s : ScopeCell) (epoch : Epoch) :
      ScopeCall ⟨s, .takeShutdownRequest epoch, .flag (s.takeRequest .shutdown epoch).1,
        (s.takeRequest .shutdown epoch).2⟩
  | takeForce (s : ScopeCell) (epoch : Epoch) :
      ScopeCall ⟨s, .takeForceRequest epoch, .flag (s.takeRequest .force epoch).1,
        (s.takeRequest .force epoch).2⟩
  | force (s : ScopeCell) (epoch : Epoch) :
      ScopeCall ⟨s, .forceShutdown epoch, .done, s.forceShutdown epoch⟩
  | vacate {s s' : ScopeCell} {target : Epoch} {vacated : Bool}
      (ok : s.vacatePendingShutdown target = .ok (vacated, s')) :
      ScopeCall ⟨s, .vacatePendingShutdown target, .flag vacated, s'⟩
  | start {s s' : ScopeCell} {incarnation : Incarnation} {restartStopped started : Bool}
      (ok : s.startScopeChild incarnation restartStopped = .ok (started, s')) :
      ScopeCall ⟨s, .startScopeChild incarnation restartStopped, .flag started, s'⟩
  | setStartup (s : ScopeCell) (startup : Except StartupError Unit) :
      ScopeCall ⟨s, .setStartup startup, .done, s.setStartupLocked startup⟩
  | setState {s s' : ScopeCell} {state : ScopeState} {startup : Except StartupError Unit}
      (ok : s.setStateAndStartup state startup = .ok s') :
      ScopeCall ⟨s, .setStateAndStartup state startup, .done, s'⟩
  | drain {s s' : ScopeCell} {startup : Option (Except StartupError Unit)}
      (ok : s.publishDrain .draining startup = .ok s') :
      ScopeCall ⟨s, .publishDrain startup, .done, s'⟩
  | rootStopped (s : ScopeCell) (reason : StopReason) (exit : Exit) :
      ScopeCall ⟨s, .publishRootStopped reason exit, .done, s.publishRootStopped reason exit⟩
  | neverStarted (s : ScopeCell) :
      ScopeCall ⟨s, .terminalizeNeverStarted, .done, s.terminalizeNeverStarted⟩
  | closeBody (s : ScopeCell) :
      ScopeCall ⟨s, .closeNeverStartedBody, .done, s.closeNeverStartedBody⟩
  | terminalize {s s' : ScopeCell} {resident terminalized : Bool} {exit : Exit}
      {startup : StartupDisposition}
      (ok : s.terminalizeChild resident exit startup = .ok (terminalized, s')) :
      ScopeCall ⟨s, .terminalizeChild resident exit startup, .flag terminalized, s'⟩
  | controlEvent (s : ScopeCell) (event : ScopeControlEvent) :
      ScopeCall ⟨s, .publishControlEvent event, .done, s.publishControlEvent event⟩
  | takeEvents (s : ScopeCell) :
      ScopeCall ⟨s, .takeControlEvents, .events (s.takeControlEvents).1,
        (s.takeControlEvents).2⟩

theorem scopeCall_of_faulted {s s' : ScopeCell} {step : ScopeStep} {fault : Fault}
    {output : ScopeOutput} (h : ScopeStep.faulted s fault = some (s', output)) :
    ScopeCall ⟨s, step, output, s'⟩ := by
  cases fault with
  | exhausted => cases h
  | panicked message =>
    cases h
    exact .unwound s step message

theorem scopeCall_of_edge {e : ScopeEdge}
    (he : stepEdge ScopeStep.apply e) : ScopeCall e := by
  obtain ⟨s, step, output, s'⟩ := e
  replace he : ScopeStep.apply s step = some (s', output) := he
  cases step with
  | finishIncarnation epoch reason exit => cases he; exact .finish s epoch reason exit
  | takeShutdownRequest epoch => cases he; exact .takeShutdown s epoch
  | takeForceRequest epoch => cases he; exact .takeForce s epoch
  | forceShutdown epoch => cases he; exact .force s epoch
  | setStartup startup => cases he; exact .setStartup s startup
  | publishRootStopped reason exit => cases he; exact .rootStopped s reason exit
  | terminalizeNeverStarted => cases he; exact .neverStarted s
  | closeNeverStartedBody => cases he; exact .closeBody s
  | publishControlEvent event => cases he; exact .controlEvent s event
  | takeControlEvents => cases he; exact .takeEvents s
  -- the sections that can fail to return
  | beginIncarnation =>
    simp only [ScopeStep.apply] at he
    split at he
    · next ok => cases he; exact .begin ok
    · exact scopeCall_of_faulted he
  | requestShutdown =>
    simp only [ScopeStep.apply] at he
    split at he
    · next ok => cases he; exact .request ok
    · exact scopeCall_of_faulted he
  | vacatePendingShutdown target =>
    simp only [ScopeStep.apply] at he
    split at he
    · next ok => cases he; exact .vacate ok
    · exact scopeCall_of_faulted he
  | startScopeChild incarnation restartStopped =>
    simp only [ScopeStep.apply] at he
    split at he
    · next ok => cases he; exact .start ok
    · exact scopeCall_of_faulted he
  | setStateAndStartup state startup =>
    simp only [ScopeStep.apply] at he
    split at he
    · next ok => cases he; exact .setState ok
    · exact scopeCall_of_faulted he
  | publishDrain startup =>
    simp only [ScopeStep.apply] at he
    split at he
    · next ok => cases he; exact .drain ok
    · exact scopeCall_of_faulted he
  | terminalizeChild resident exit startup =>
    simp only [ScopeStep.apply] at he
    split at he
    · next ok => cases he; exact .terminalize ok
    · exact scopeCall_of_faulted he

/-! ### What a step says about epochs -/

/-- The epochs one step begins, vacates, requests and takes a request for. -/
structure EpochEvents where
  begun : Option Epoch
  vacated : Option Epoch
  requested : Option Epoch
  taken : Option Epoch
  deriving DecidableEq, Repr

def EpochEvents.none : EpochEvents := ⟨.none, .none, .none, .none⟩

/-- The epoch events of a step, read off its call and its answer.  A start
vacates the request that was pending when restart policy overrides it. -/
def epochEvents (e : ScopeEdge) : EpochEvents :=
  match e.input, e.output with
  | .beginIncarnation, .begun owned => { EpochEvents.none with begun := owned }
  | .vacatePendingShutdown target, .flag true => { EpochEvents.none with vacated := some target }
  | .startScopeChild _ true, .flag _ =>
    { EpochEvents.none with vacated := e.before.pendingIncarnationShutdown }
  | .requestShutdown, .requested target _ => { EpochEvents.none with requested := some target }
  | .takeShutdownRequest epoch, .flag true => { EpochEvents.none with taken := some epoch }
  | _, _ => EpochEvents.none

def begunEpochs (tr : List ScopeEdge) : List Epoch := tr.filterMap fun e => (epochEvents e).begun

def vacatedEpochs (tr : List ScopeEdge) : List Epoch :=
  tr.filterMap fun e => (epochEvents e).vacated

def requestedEpochs (tr : List ScopeEdge) : List Epoch :=
  tr.filterMap fun e => (epochEvents e).requested

def takenEpochs (tr : List ScopeEdge) : List Epoch := tr.filterMap fun e => (epochEvents e).taken

/-- What a gated section can do to the control plane. -/
inductive ControlMove (c : ScopeControl) : EpochEvents → ScopeControl → Prop
  | kept (events : List ScopeControlEvent) : ControlMove c .none { c with events }
  | begun {epoch : Epoch} {epochs : ScopeEpochs} (idle : c.epochs.liveEpoch = none)
      (next : epoch.value = c.epochs.ended + 1) (live : epochs.liveEpoch = some epoch)
      (ended : epochs.ended = c.epochs.ended) :
      ControlMove c { EpochEvents.none with begun := some epoch } { c with epochs }
  | finished {epoch : Epoch} (live : c.epochs.liveEpoch = some epoch) :
      ControlMove c .none
        { c with
          epochs := .idle (some epoch)
          shutdown := ScopeCell.clearThrough epoch c.shutdown
          force := ScopeCell.clearThrough epoch c.force }
  | requested {target : RequestTarget} {latch : Option ScopeRequest}
      (addressed : c.epochs.requestTarget = .ok target)
      (latched : latch = some ⟨target.epoch, false⟩ ∧
          (∀ request, c.shutdown = some request → request.epoch < target.epoch) ∨
        latch = c.shutdown ∧ ∃ request, c.shutdown = some request ∧ target.epoch ≤ request.epoch) :
      ControlMove c { EpochEvents.none with requested := some target.epoch }
        { c with shutdown := latch }
  | tookShutdown {epoch : Epoch} (latched : c.shutdown = some ⟨epoch, false⟩) :
      ControlMove c { EpochEvents.none with taken := some epoch }
        { c with shutdown := some ⟨epoch, true⟩ }
  | tookForce {epoch : Epoch} (latched : c.force = some ⟨epoch, false⟩) :
      ControlMove c .none { c with force := some ⟨epoch, true⟩ }
  | forced {epoch : Epoch} (live : c.epochs.liveEpoch = some epoch) :
      ControlMove c .none { c with force := some ⟨epoch, false⟩ }
  | vacated {target : Epoch} (idle : c.epochs.liveEpoch = none)
      (next : target.value = c.epochs.ended + 1) (latched : c.shutdown = some ⟨target, false⟩) :
      ControlMove c { EpochEvents.none with vacated := some target }
        { c with epochs := .idle (some target), shutdown := none }

namespace ScopeCell

variable {s s' : ScopeCell}

theorem awaits_iff {latch : Option ScopeRequest} {epoch : Epoch} :
    awaits latch epoch = true ↔ latch = some ⟨epoch, false⟩ := by
  cases latch with
  | none => simp [awaits]
  | some request =>
    obtain ⟨target, consumed⟩ := request
    simp [awaits]

theorem pendingIncarnationShutdown_eq_some_iff {target : Epoch} :
    s.pendingIncarnationShutdown = some target ↔
      s.control.shutdown = some ⟨target, false⟩ ∧ s.control.epochs.liveEpoch = none ∧
        s.control.epochs.ended < target.value := by
  unfold pendingIncarnationShutdown
  simp only [Option.map_eq_some_iff, Option.filter_eq_some_iff, Bool.and_eq_true,
    Bool.not_eq_true', ScopeEpochs.requestIsPending_iff]
  constructor
  · rintro ⟨⟨epoch, consumed⟩, ⟨hlatch, hconsumed, hpending⟩, rfl⟩
    cases hconsumed
    exact ⟨hlatch, hpending⟩
  · rintro ⟨hlatch, hpending⟩
    exact ⟨⟨target, false⟩, ⟨hlatch, rfl, hpending⟩, rfl⟩

/-- A begin that returns either found a live epoch or minted one. -/
theorem beginIncarnationInto_cases {owned : Option Epoch}
    (h : s.beginIncarnationInto .starting none = .ok (owned, s')) :
    s.record.state.isIdle = true ∧
      ((s.control.epochs.liveEpoch ≠ none ∧ owned = none ∧ s' = s) ∨
        ∃ epoch epochs, s.control.epochs.liveEpoch = none ∧ owned = some epoch ∧
          epoch.value = s.control.epochs.ended + 1 ∧ epochs.liveEpoch = some epoch ∧
          epochs.ended = s.control.epochs.ended ∧
          s' = { s with
            control := { s.control with epochs }
            record := ⟨.starting, none, ⟨0⟩⟩ }) := by
  unfold beginIncarnationInto at h
  simp only [Option.isSome_none, Bool.false_eq_true, if_false, ne_eq, not_true_eq_false] at h
  split_ifs at h with hidle
  cases hbegin : s.control.epochs.begin with
  | error fault => simp [hbegin] at h
  | ok result =>
    obtain ⟨minted, epochs⟩ := result
    refine ⟨hidle, ?_⟩
    rcases ScopeEpochs.begin_cases hbegin with
      ⟨hlive, rfl, -⟩ | ⟨epoch, hlive, rfl, hnext, hcurrent, hended⟩
    · simp only [hbegin, Except.ok.injEq, Prod.mk.injEq] at h
      exact .inl ⟨hlive, h.1.symm, h.2.symm⟩
    · simp only [hbegin, Except.ok.injEq, Prod.mk.injEq] at h
      exact .inr ⟨epoch, epochs, hlive, h.1.symm, hnext, hcurrent, hended, h.2.symm⟩

/-- The projection assertion fires exactly on a record that is not idle. -/
theorem beginIncarnationInto_eq_panicked_iff {message : String} :
    s.beginIncarnationInto .starting none = .error (.panicked message) ↔
      s.record.state.isIdle = false ∧ message =
        "an idle scope projection is Unstarted or Stopped before a fresh incarnation mints" := by
  unfold beginIncarnationInto
  simp only [Option.isSome_none, Bool.false_eq_true, if_false, ne_eq, not_true_eq_false]
  split_ifs with hidle
  · cases hbegin : s.control.epochs.begin with
    | error fault => simp [ScopeEpochs.begin_eq_error hbegin, hidle]
    | ok result =>
      obtain ⟨minted, epochs⟩ := result
      cases minted <;> simp [hidle]
  · simp [hidle, eq_comm]

theorem takeRequest_cases (slot : ScopeRequestSlot) (epoch : Epoch) :
    (slot.get s.control = some ⟨epoch, false⟩ ∧ s.takeRequest slot epoch =
        (true, { s with control := slot.set ⟨epoch, true⟩ s.control })) ∨
      s.takeRequest slot epoch = (false, s) := by
  rw [takeRequest_eq, takeRequestLocked]
  split_ifs with h
  · exact .inl ⟨awaits_iff.mp h, rfl⟩
  · exact .inr rfl

theorem vacatePendingShutdown_cases {target : Epoch} {vacated : Bool}
    (h : s.vacatePendingShutdown target = .ok (vacated, s')) :
    (vacated = true ∧ s.control.shutdown = some ⟨target, false⟩ ∧
        s.control.epochs.liveEpoch = none ∧ target.value = s.control.epochs.ended + 1 ∧
        s' = { s with control :=
          { s.control with epochs := .idle (some target), shutdown := none } }) ∨
      (vacated = false ∧ s' = s) := by
  unfold vacatePendingShutdown at h
  split_ifs at h with hawaits
  · cases hvacate : s.control.epochs.vacate target with
    | error fault => simp [hvacate] at h
    | ok result =>
      obtain ⟨flag, epochs⟩ := result
      rcases ScopeEpochs.vacate_cases hvacate with ⟨hidle, hnext, rfl, rfl⟩ | ⟨rfl, rfl⟩
      · simp only [hvacate, Except.ok.injEq, Prod.mk.injEq] at h
        exact .inl ⟨h.1.symm, awaits_iff.mp hawaits, hidle, hnext, h.2.symm⟩
      · simp only [hvacate, Except.ok.injEq, Prod.mk.injEq] at h
        exact .inr ⟨h.1.symm, h.2.symm⟩
  · cases h
    exact .inr ⟨rfl, rfl⟩

theorem requestShutdown_cases {target : Epoch} {event : Option ScopeControlEvent}
    (h : s.requestShutdown = .ok ((target, event), s')) :
    ∃ pending, s.control.epochs.requestTarget = .ok ⟨target, pending⟩ ∧
      (((∀ request, s.control.shutdown = some request → request.epoch < target) ∧
          s' = { s with control := { s.control with shutdown := some ⟨target, false⟩ } }) ∨
        ((∃ request, s.control.shutdown = some request ∧ target ≤ request.epoch) ∧ s' = s)) := by
  unfold requestShutdown at h
  cases htarget : s.control.epochs.requestTarget with
  | error fault => simp [htarget] at h
  | ok addressed =>
    obtain ⟨epoch, pending⟩ := addressed
    simp only [htarget] at h
    split_ifs at h with hpublished
    -- latched and reported to the parent, latched only, or held already
    all_goals
      simp only [Except.ok.injEq, Prod.mk.injEq] at h
      obtain ⟨⟨rfl, -⟩, rfl⟩ := h
      refine ⟨pending, rfl, ?_⟩
    · refine .inl ⟨fun request hlatch => ?_, rfl⟩
      simpa [hlatch] using hpublished
    · refine .inl ⟨fun request hlatch => ?_, rfl⟩
      simpa [hlatch] using hpublished
    · refine .inr ⟨?_, rfl⟩
      cases hlatch : s.control.shutdown with
      | none => simp [hlatch] at hpublished
      | some request => exact ⟨request, rfl, by simpa [hlatch] using hpublished⟩

end ScopeCell

/-! ### The control plane along a run -/

/-- The latches address the plane's target: the shutdown latch the epoch after
those that ended, the force latch the live one. -/
structure ScopeControl.Inv (c : ScopeControl) : Prop where
  plane : c.epochs.Wf
  shutdown : ∀ request, c.shutdown = some request → request.epoch.value = c.epochs.ended + 1
  force : ∀ request, c.force = some request → c.epochs.liveEpoch = some request.epoch

theorem ScopeControl.Inv.new : ScopeControl.new.Inv where
  plane := by
    intro current hlive
    cases hlive
  shutdown := by
    intro request hlatch
    cases hlatch
  force := by
    intro request hlatch
    cases hlatch

theorem ControlMove.stay (c : ScopeControl) : ControlMove c .none c := .kept c.events

theorem ControlMove.of_eq {c c' : ScopeControl} (h : c' = c) : ControlMove c .none c' := by
  rw [h]
  exact .stay c

/-- A pending request is the plane's next epoch, so spending it vacates it. -/
theorem ScopeControl.Inv.pending {s : ScopeCell} {target : Epoch} (hinv : s.control.Inv)
    (hpending : s.pendingIncarnationShutdown = some target) :
    s.control.shutdown = some ⟨target, false⟩ ∧ s.control.epochs.liveEpoch = none ∧
      target.value = s.control.epochs.ended + 1 ∧
      s.control.epochs.vacate target = .ok (true, .idle (some target)) := by
  obtain ⟨hlatch, hidle, -⟩ := ScopeCell.pendingIncarnationShutdown_eq_some_iff.mp hpending
  have hnext := hinv.shutdown _ hlatch
  exact ⟨hlatch, hidle, hnext, ScopeEpochs.vacate_of_value hidle hnext⟩

theorem controlMove_finish {s : ScopeCell} (epoch : Epoch) (reason : StopReason)
    (exit : Option Exit) :
    ControlMove s.control .none (s.finishIncarnationWithTerminal epoch reason exit).control := by
  unfold ScopeCell.finishIncarnationWithTerminal
  -- the live epoch finishes and clears its latches; a stale one moves nothing
  rcases s.control.epochs.finish_cases epoch with ⟨hlive, heq⟩ | ⟨-, heq⟩
  · rw [heq]
    simp only [ScopeCell.closeObservationLocked]
    split_ifs <;>
      (simp only [ScopeCell.publishStoppedLocked_control]
       exact .finished hlive)
  · rw [heq]
    cases exit <;> exact .stay _

/-- What a start can do: a pending request refuses it or is spent.  A start
that is not refused asks the member, and writes no record. -/
theorem ScopeControl.Inv.start {s : ScopeCell} (hinv : s.control.Inv) (incarnation : Incarnation)
    (restartStopped : Bool) :
    ∃ started s', s.startScopeChild incarnation restartStopped = .ok (started, s') ∧
      s'.record = s.record ∧
      (s'.member = s.member ∨
        s'.member = (s.member.transitionLocked (.starting incarnation)).2) ∧
      ((s.pendingIncarnationShutdown = none ∧ s'.control = s.control) ∨
        ∃ target, s.pendingIncarnationShutdown = some target ∧
          (restartStopped = false ∧ started = false ∧ s' = s ∨
            restartStopped = true ∧ s'.control =
              { s.control with epochs := .idle (some target), shutdown := none })) := by
  unfold ScopeCell.startScopeChild ScopeCell.startScopeChildLocked
  cases hpending : s.pendingIncarnationShutdown with
  | none => exact ⟨_, _, rfl, rfl, .inr rfl, .inl ⟨rfl, rfl⟩⟩
  | some target =>
    -- the invariant makes the request's epoch the next one, so vacating succeeds
    obtain ⟨-, -, -, hvacate⟩ := hinv.pending hpending
    cases restartStopped with
    | false => exact ⟨_, _, rfl, rfl, .inl rfl, .inr ⟨target, rfl, .inl ⟨rfl, rfl, rfl⟩⟩⟩
    | true =>
      simp only [hvacate, if_true]
      exact ⟨_, _, rfl, rfl, .inr rfl, .inr ⟨target, rfl, .inr ⟨trivial, rfl⟩⟩⟩

theorem controlMove_start {s s' : ScopeCell} {incarnation : Incarnation}
    {restartStopped started : Bool} (hinv : s.control.Inv)
    (h : s.startScopeChild incarnation restartStopped = .ok (started, s')) :
    ControlMove s.control
      (epochEvents ⟨s, .startScopeChild incarnation restartStopped, .flag started, s'⟩)
      s'.control := by
  obtain ⟨started', s'', hok, -, -, hcases⟩ := hinv.start incarnation restartStopped
  rw [hok] at h
  cases h
  rcases hcases with ⟨hpending, hcontrol⟩ | ⟨target, hpending, ⟨rfl, rfl, rfl⟩ | ⟨rfl, hcontrol⟩⟩
  · have hevents :
        epochEvents ⟨s, .startScopeChild incarnation restartStopped, .flag started, s'⟩ =
          .none := by
      cases restartStopped <;> simp [epochEvents, hpending, EpochEvents.none]
    rw [hevents]
    exact .of_eq hcontrol
  · exact .stay _
  · obtain ⟨hlatch, hidle, hnext, -⟩ := hinv.pending hpending
    have hevents :
        epochEvents ⟨s, .startScopeChild incarnation true, .flag started, s'⟩ =
          { EpochEvents.none with vacated := some target } := by
      simp [epochEvents, hpending]
    rw [hevents, hcontrol]
    exact .vacated hidle hnext hlatch

theorem epochEvents_unwound (s : ScopeCell) (step : ScopeStep) (message : String) :
    epochEvents ⟨s, step, .panicked message, s⟩ = .none := by
  cases step with
  | startScopeChild _ restartStopped => cases restartStopped <;> rfl
  | _ => rfl

/-- **Every gated section is a control move**, with the epoch events its answer
shows. -/
theorem controlMove_of_edge {e : ScopeEdge}
    (he : stepEdge ScopeStep.apply e) (hinv : e.before.control.Inv) :
    ControlMove e.before.control (epochEvents e) e.after.control := by
  cases scopeCall_of_edge he with
  | unwound s step message =>
    rw [epochEvents_unwound]
    exact .stay _
  | begin ok =>
    rcases (ScopeCell.beginIncarnationInto_cases ok).2 with
      ⟨-, rfl, rfl⟩ | ⟨epoch, epochs, hidle, rfl, hnext, hlive, hended, rfl⟩
    · exact .stay _
    · exact .begun hidle hnext hlive hended
  | finish s epoch reason exit => exact controlMove_finish epoch reason exit
  | @request s _ target event ok =>
    obtain ⟨pending, haddressed, ⟨hnewer, rfl⟩ | ⟨hheld, rfl⟩⟩ :=
      ScopeCell.requestShutdown_cases ok
    · exact @ControlMove.requested _ ⟨target, pending⟩ _ haddressed (.inl ⟨rfl, hnewer⟩)
    · exact @ControlMove.requested _ ⟨target, pending⟩ _ haddressed (.inr ⟨rfl, hheld⟩)
  | takeShutdown s epoch =>
    rcases s.takeRequest_cases .shutdown epoch with ⟨hlatch, heq⟩ | heq
    · rw [heq]
      exact .tookShutdown hlatch
    · rw [heq]
      exact .stay _
  | takeForce s epoch =>
    rcases s.takeRequest_cases .force epoch with ⟨hlatch, heq⟩ | heq
    · rw [heq]
      exact .tookForce hlatch
    · rw [heq]
      exact .stay _
  | force s epoch =>
    by_cases hcurrent : s.control.epochs.isCurrent epoch = true
    · rw [ScopeCell.forceShutdown, if_pos hcurrent]
      exact .forced (by simpa [ScopeEpochs.isCurrent] using hcurrent)
    · rw [ScopeCell.forceShutdown, if_neg hcurrent]
      exact .stay _
  | vacate ok =>
    rcases ScopeCell.vacatePendingShutdown_cases ok with
      ⟨rfl, hlatch, hidle, hnext, rfl⟩ | ⟨rfl, rfl⟩
    · exact .vacated hidle hnext hlatch
    · exact .stay _
  | start ok => exact controlMove_start hinv ok
  | setStartup s startup => exact .of_eq (s.setStartupLocked_fields startup).1
  | setState ok => exact .of_eq (ScopeCell.setStateAndStartup_eq_ok ok).1
  | drain ok => exact .of_eq (ScopeCell.publishDrain_eq_ok ok).1
  | rootStopped s reason exit => exact .of_eq (s.publishStoppedLocked_control reason (some exit))
  | neverStarted s => exact .of_eq s.terminalizeNeverStarted_control
  | closeBody s => exact .of_eq s.closeNeverStartedBody_control
  | terminalize ok => exact .of_eq (ScopeCell.terminalizeChild_control ok)
  | controlEvent | takeEvents => exact .kept _

end Shelterwood
