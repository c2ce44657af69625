/-
Shelterwood/StopVerdict.lean

Competing stop verdicts, and the startup result of an incarnation.

Two owners merge stop verdicts independently: a lifecycle upgrades the reason of
its drain, and the stopped publisher upgrades the reason of its record.  Each
keeps a held reason unless the incoming one strictly outranks it, so each is the
same fold over the verdicts in their order of arrival, and the fold is the
earliest verdict of maximal precedence.

The startup result is shared in the same way.  Four publishers write it, each
only when none is recorded, and the stopped publisher fills it as a fallback;
only a fresh incarnation clears it (`StartupMove`).
-/
import Shelterwood.ScopeRun
import Mathlib.Data.List.MinMax

namespace Shelterwood

/-! ### The two merges -/

/-- The reason a stopped projection carries. -/
def ScopeState.stoppedReason : ScopeState → Option StopReason
  | .stopped reason => some reason
  | _ => none

/-- Keeps the held reason unless the incoming one strictly outranks it. -/
def outrank : Option StopReason → StopReason → Option StopReason :=
  List.argAux fun incoming held => stopReasonPrecedence held < stopReasonPrecedence incoming

/-- Calls `beginDrain` with the reasons in order. -/
def ScopeLifecycle.beginDrains (lifecycle : ScopeLifecycle) :
    List StopReason → Except Fault ScopeLifecycle
  | [] => .ok lifecycle
  | reason :: rest =>
    match lifecycle.beginDrain reason with
    | .ok (lifecycle', _) => lifecycle'.beginDrains rest
    | .error fault => .error fault

/-- Publishes the stop verdicts in order, each with its optional terminal
exit. -/
def ScopeCell.publishStops (s : ScopeCell) (verdicts : List (StopReason × Option Exit)) :
    ScopeCell :=
  verdicts.foldl (fun s verdict => s.publishStoppedLocked verdict.1 verdict.2) s

theorem ScopeState.stoppedReason_eq_none {state : ScopeState} (h : state.isStopped = false) :
    state.stoppedReason = none := by
  cases state with
  | stopped reason => cases h
  | _ => rfl

variable {reason : StopReason}

theorem ScopeState.stoppedReason_eq_some {state : ScopeState}
    (h : state.stoppedReason = some reason) : state = .stopped reason := by
  cases state with
  | stopped recorded =>
    cases h
    rfl
  | _ => cases h

/-- A drain merges its reasons by rank. -/
theorem ScopeLifecycle.beginDrain_outrank (lifecycle : ScopeLifecycle)
    (h : reason ≠ .neverStarted) :
    ∃ lifecycle' effect, lifecycle.beginDrain reason = .ok (lifecycle', effect) ∧
      lifecycle'.drainingReason = outrank lifecycle.drainingReason reason := by
  unfold beginDrain
  rw [if_neg h]
  cases lifecycle with
  | starting | running | startupFailed => exact ⟨_, _, rfl, rfl⟩
  | draining drain =>
    show ∃ (lifecycle' : ScopeLifecycle) (effect : _), _ ∧
      lifecycle'.drainingReason = outrank (some drain.reason) reason
    simp only [outrank, List.argAux]
    by_cases hless : stopReasonPrecedence drain.reason < stopReasonPrecedence reason
    · rw [if_pos hless, if_pos hless]
      exact ⟨_, _, rfl, rfl⟩
    · rw [if_neg hless, if_neg hless]
      exact ⟨_, _, rfl, rfl⟩

variable {reasons : List StopReason}

theorem ScopeLifecycle.beginDrains_outrank (lifecycle : ScopeLifecycle)
    (h : .neverStarted ∉ reasons) :
    ∃ lifecycle', lifecycle.beginDrains reasons = .ok lifecycle' ∧
      lifecycle'.drainingReason = reasons.foldl outrank lifecycle.drainingReason := by
  induction reasons generalizing lifecycle with
  | nil => exact ⟨lifecycle, rfl, rfl⟩
  | cons reason rest ih =>
    obtain ⟨hreason, hrest⟩ := not_or.mp (mt List.mem_cons.mpr h)
    obtain ⟨lifecycle', effect, hbegin, hheld⟩ :=
      lifecycle.beginDrain_outrank (Ne.symm hreason)
    obtain ⟨final, hfinal, hmerged⟩ := ih lifecycle' hrest
    refine ⟨final, ?_, ?_⟩
    · rw [beginDrains, hbegin]
      exact hfinal
    · rw [hmerged, hheld, List.foldl_cons]

/-- The stopped publisher merges its reasons by rank. -/
theorem ScopeCell.publishStoppedLocked_outrank (s : ScopeCell) (reason : StopReason)
    (exit : Option Exit) :
    (s.publishStoppedLocked reason exit).record.state.stoppedReason =
      outrank s.record.state.stoppedReason reason := by
  have hpublished : (s.publishStoppedLocked reason exit).record.state =
      if s.stopSuppressed reason then s.record.state else .stopped reason := by
    cases exit <;>
      (simp only [publishStoppedLocked, terminalizeMember]
       split_ifs <;> rfl)
  rw [hpublished]
  cases hstate : s.record.state with
  | stopped recorded =>
    have hsuppressed : s.stopSuppressed reason =
        decide (stopReasonPrecedence reason ≤ stopReasonPrecedence recorded) := by
      rw [stopSuppressed, hstate]
    rw [hsuppressed]
    show _ = outrank (some recorded) reason
    simp only [outrank, List.argAux]
    by_cases hle : stopReasonPrecedence reason ≤ stopReasonPrecedence recorded
    · rw [decide_eq_true hle, if_pos rfl, if_neg (not_lt.mpr hle)]
      rfl
    · rw [decide_eq_false hle, if_neg Bool.false_ne_true, if_pos (not_le.mp hle)]
      rfl
  | _ =>
    simp only [stopSuppressed, hstate, Bool.false_eq_true, if_false]
    rfl

theorem ScopeCell.publishStops_outrank (s : ScopeCell)
    (verdicts : List (StopReason × Option Exit)) :
    (s.publishStops verdicts).record.state.stoppedReason =
      (verdicts.map Prod.fst).foldl outrank s.record.state.stoppedReason := by
  induction verdicts generalizing s with
  | nil => rfl
  | cons verdict rest ih =>
    show ((s.publishStoppedLocked verdict.1 verdict.2).publishStops rest).record.state.stoppedReason
      = _
    rw [ih, publishStoppedLocked_outrank, List.map_cons, List.foldl_cons]

/-! ### The verdict -/

/-- The earliest reason of maximal precedence. -/
structure EarliestMax (reasons : List StopReason) (reason : StopReason) : Prop where
  mem : reason ∈ reasons
  max : ∀ r ∈ reasons, stopReasonPrecedence r ≤ stopReasonPrecedence reason
  earliest : ∀ r ∈ reasons, stopReasonPrecedence r = stopReasonPrecedence reason →
    reasons.idxOf reason ≤ reasons.idxOf r

theorem earliestMax_of_argmax (h : reason ∈ reasons.argmax stopReasonPrecedence) :
    EarliestMax reasons reason where
  mem := List.argmax_mem h
  max _ hr := List.le_of_mem_argmax hr h
  earliest _ hr heq := List.index_of_argmax h hr heq.ge

/-- Reasons in another order have the same maximal precedence. -/
theorem EarliestMax.precedence_eq {reasons' : List StopReason} {reason' : StopReason}
    (h : EarliestMax reasons reason) (h' : EarliestMax reasons' reason')
    (hperm : reasons'.Perm reasons) : stopReasonPrecedence reason' = stopReasonPrecedence reason :=
  le_antisymm (h.max reason' (hperm.mem_iff.mp h'.mem)) (h'.max reason (hperm.mem_iff.mpr h.mem))

/-- Both planes come to hold the earliest reason of maximal precedence. -/
theorem verdict_of_fresh {verdicts : List (StopReason × Option Exit)} (hne : verdicts ≠ [])
    (hnever : .neverStarted ∉ verdicts.map Prod.fst) {lifecycle : ScopeLifecycle}
    (hlifecycle : lifecycle.isDraining = false) {s : ScopeCell}
    (hstate : s.record.state.isStopped = false) :
    ∃ reason, EarliestMax (verdicts.map Prod.fst) reason ∧
      (∃ lifecycle', lifecycle.beginDrains (verdicts.map Prod.fst) = .ok lifecycle' ∧
        lifecycle'.drainingReason = some reason) ∧
      (s.publishStops verdicts).record.state = .stopped reason := by
  -- both folds are the one that computes `List.argmax`
  obtain ⟨lifecycle', hdrains, hheld⟩ := lifecycle.beginDrains_outrank hnever
  have hrecorded := s.publishStops_outrank verdicts
  have hidle : lifecycle.drainingReason = none := by
    cases lifecycle with
    | draining drain => cases hlifecycle
    | _ => rfl
  rw [hidle] at hheld
  rw [ScopeState.stoppedReason_eq_none hstate] at hrecorded
  change lifecycle'.drainingReason =
    (verdicts.map Prod.fst).argmax stopReasonPrecedence at hheld
  change _ = (verdicts.map Prod.fst).argmax stopReasonPrecedence at hrecorded
  cases hmax : (verdicts.map Prod.fst).argmax stopReasonPrecedence with
  | none => exact absurd (List.map_eq_nil_iff.mp (List.argmax_eq_none.mp hmax)) hne
  | some reason =>
    rw [hmax] at hheld hrecorded
    exact ⟨reason, earliestMax_of_argmax (Option.mem_def.mpr hmax),
      ⟨lifecycle', hdrains, hheld⟩, ScopeState.stoppedReason_eq_some hrecorded⟩

/-! ### The startup result -/

/-- One publication of a scope record, with any arguments, or another gated
section of its cell. -/
inductive VerdictStep
  | setStartup (startup : Except StartupError Unit)
  | setStateAndStartup (state : ScopeState) (startup : Except StartupError Unit)
  | publishDrain (state : ScopeState) (startup : Option (Except StartupError Unit))
  | publishStopped (reason : StopReason) (terminalExit : Option Exit)
  | beginIncarnationInto (state : ScopeState) (owned : Option Epoch)
  | gated (step : ScopeStep)
  deriving DecidableEq, Repr

def VerdictStep.apply (s : ScopeCell) : VerdictStep → Option (ScopeCell × ScopeOutput)
  | .setStartup startup => some (s.setStartupLocked startup, .done)
  | .setStateAndStartup state startup =>
    match s.setStateAndStartup state startup with
    | .ok s' => some (s', .done)
    | .error fault => ScopeStep.faulted s fault
  | .publishDrain state startup =>
    match s.publishDrain state startup with
    | .ok s' => some (s', .done)
    | .error fault => ScopeStep.faulted s fault
  | .publishStopped reason terminalExit =>
    some (s.publishStoppedLocked reason terminalExit, .done)
  | .beginIncarnationInto state owned =>
    match s.beginIncarnationInto state owned with
    | .ok (owned', s') => some (s', .begun owned')
    | .error fault => ScopeStep.faulted s fault
  | .gated step => ScopeStep.apply s step

abbrev VerdictEdge := Edge ScopeCell VerdictStep ScopeOutput

/-- A run of publications on a fresh scope cell. -/
abbrev VerdictRun (member : MemberCell) (parent : Bool) (tr : List VerdictEdge) (s : ScopeCell) :
    Prop :=
  Run (stepEdge fun s step => VerdictStep.apply s step) (.new member parent) tr s

/-- The step began an incarnation. -/
def VerdictEdge.begins (e : VerdictEdge) : Bool :=
  match e.output with
  | .begun (some _) => true
  | _ => false

/-- The step recorded a startup result. -/
def VerdictEdge.writes (e : VerdictEdge) : Bool :=
  e.before.record.startup.isNone && e.after.record.startup.isSome

/-- What a step can do to the startup result. -/
inductive StartupMove (r : ScopeRecord) : ScopeRecord → Prop
  | kept (state : ScopeState) (totalRestarts : TotalRestarts)
      (stopped : state.isStopped = true → r.state.isStopped = true ∨ r.startup.isSome = true) :
      StartupMove r ⟨state, r.startup, totalRestarts⟩
  | written (state : ScopeState) (startup : Except StartupError Unit)
      (totalRestarts : TotalRestarts) (unset : r.startup = none) :
      StartupMove r ⟨state, some startup, totalRestarts⟩

namespace StartupMove

variable {r r' : ScopeRecord}

theorem refl (r : ScopeRecord) : StartupMove r r := .kept r.state r.totalRestarts .inl

/-- A lifecycle state may be stored afterwards. -/
theorem setState (h : StartupMove r r') {state : ScopeState} (hstate : state.isStopped = false) :
    StartupMove r { r' with state } := by
  have hvacuous : state.isStopped = true → r.state.isStopped = true ∨ r.startup.isSome = true := by
    rw [hstate]
    exact fun habs => absurd habs Bool.false_ne_true
  cases h with
  | kept _ totalRestarts _ => exact .kept state totalRestarts hvacuous
  | written _ startup totalRestarts unset => exact .written state startup totalRestarts unset

/-- A recorded result is kept. -/
theorem startup_eq (h : StartupMove r r') {startup : Except StartupError Unit}
    (hr : r.startup = some startup) : r'.startup = some startup := by
  cases h with
  | kept _ _ _ => exact hr
  | written _ _ _ unset =>
    rw [unset] at hr
    cases hr

/-- A stopped record keeps having a result. -/
theorem stopped (h : StartupMove r r')
    (hr : r.state.isStopped = true → r.startup.isSome = true) :
    r'.state.isStopped = true → r'.startup.isSome = true := by
  intro hstopped
  cases h with
  | kept _ _ stopped => exact (stopped hstopped).elim hr id
  | written _ _ _ _ => rfl

end StartupMove

namespace ScopeCell

variable (s : ScopeCell)

theorem startupMove_setStartupLocked (startup : Except StartupError Unit) :
    StartupMove s.record (s.setStartupLocked startup).record := by
  unfold setStartupLocked
  by_cases hset : s.record.startup.isSome = true
  · rw [if_pos hset]
    exact .refl _
  · rw [if_neg hset]
    have hunset : s.record.startup = none := by simpa using hset
    exact .written s.record.state startup s.record.totalRestarts hunset

variable {state : ScopeState}

theorem startupMove_setStateAndStartup {s s' : ScopeCell} {startup : Except StartupError Unit}
    (h : s.setStateAndStartup state startup = .ok s') : StartupMove s.record s'.record := by
  unfold setStateAndStartup at h
  split_ifs at h with hstate
  cases h
  exact (s.startupMove_setStartupLocked startup).setState (by simpa using hstate)

theorem startupMove_publishDrain {s s' : ScopeCell} {startup : Option (Except StartupError Unit)}
    (h : s.publishDrain state startup = .ok s') : StartupMove s.record s'.record := by
  unfold publishDrain at h
  split_ifs at h with hstate
  subst hstate
  cases startup with
  | none =>
    cases h
    exact (StartupMove.refl _).setState rfl
  | some startup =>
    cases h
    exact (s.startupMove_setStartupLocked startup).setState rfl

/-- The stopped publisher fills a missing result and keeps a recorded one. -/
theorem startupMove_publishStoppedLocked (reason : StopReason) (exit : Option Exit) :
    StartupMove s.record (s.publishStoppedLocked reason exit).record := by
  have hrecord : (s.publishStoppedLocked reason exit).record =
      if s.stopSuppressed reason then s.record
      else ⟨.stopped reason, some (s.record.startup.getD (.error .shutdownRequested)),
        s.record.totalRestarts⟩ := by
    cases exit <;>
      (simp only [publishStoppedLocked, terminalizeMember]
       split_ifs <;> rfl)
  rw [hrecord]
  by_cases hsuppressed : s.stopSuppressed reason = true
  · rw [if_pos hsuppressed]
    exact .refl _
  · rw [if_neg hsuppressed]
    cases hstartup : s.record.startup with
    | none => exact .written _ _ _ hstartup
    | some startup =>
      have hkept := StartupMove.kept (r := s.record) (.stopped reason) s.record.totalRestarts
        fun _ => .inr (by rw [hstartup]; rfl)
      rw [hstartup] at hkept
      exact hkept

/-- Closing the streams keeps the record. -/
theorem record_of_close (closes : Bool) :
    (if closes then s.closeObservationLocked else s).record = s.record := by
  split_ifs <;> rfl

theorem startupMove_finish (epoch : Epoch) (reason : StopReason) (exit : Option Exit) :
    StartupMove s.record (s.finishIncarnationWithTerminal epoch reason exit).record := by
  unfold finishIncarnationWithTerminal
  rcases s.control.epochs.finish epoch with ⟨_ | _, epochs⟩
  · cases exit <;> exact .refl _
  · simp only [record_of_close]
    exact startupMove_publishStoppedLocked { s with
      control := { s.control with
        epochs
        shutdown := clearThrough epoch s.control.shutdown
        force := clearThrough epoch s.control.force } } reason exit

theorem startupMove_terminalizeNeverStarted :
    StartupMove s.record s.terminalizeNeverStarted.record := by
  unfold terminalizeNeverStarted
  split_ifs
  · exact .refl _
  · exact startupMove_publishStoppedLocked (s.terminalizeMember .neverStarted .unchanged) _ _

theorem startupMove_closeNeverStartedBody :
    StartupMove s.record s.closeNeverStartedBody.record := by
  unfold closeNeverStartedBody
  split
  · exact .refl _
  · simp only [record_of_close]
    split_ifs
    · exact s.startupMove_publishStoppedLocked _ _
    · exact .refl _

theorem startupMove_terminalizeChild {s s' : ScopeCell} {resident terminalized : Bool} {exit : Exit}
    {startup : StartupDisposition}
    (h : s.terminalizeChild resident exit startup = .ok (terminalized, s')) :
    StartupMove s.record s'.record := by
  unfold terminalizeChild at h
  split at h
  · cases h
    exact .refl _
  · split at h
    · cases h
      rw [record_of_close]
      split_ifs
      · exact startupMove_publishStoppedLocked (s.terminalizeMember exit startup) _ _
      · exact .refl _
    · cases h

/-- A start writes only the control plane and the member. -/
theorem startScopeChild_record {s s' : ScopeCell} {incarnation : Incarnation}
    {restartStopped started : Bool}
    (h : s.startScopeChild incarnation restartStopped = .ok (started, s')) :
    s'.record = s.record := by
  unfold startScopeChild at h
  split at h
  · next hlocked =>
      cases h
      unfold startScopeChildLocked at hlocked
      split at hlocked
      · split_ifs at hlocked
        · split at hlocked
          · cases hlocked
          · cases hlocked
            rfl
        · cases hlocked
          rfl
      · cases hlocked
        rfl
  · cases h

theorem requestShutdown_record {s s' : ScopeCell} {result : Epoch × Option ScopeControlEvent}
    (h : s.requestShutdown = .ok (result, s')) : s'.record = s.record := by
  unfold requestShutdown at h
  split at h
  · cases h
  · simp only at h
    split_ifs at h <;> (cases h; rfl)

theorem vacatePendingShutdown_record {s s' : ScopeCell} {target : Epoch} {vacated : Bool}
    (h : s.vacatePendingShutdown target = .ok (vacated, s')) : s'.record = s.record := by
  unfold vacatePendingShutdown at h
  split_ifs at h
  · split at h
    · cases h
    · cases h
      rfl
    · cases h
      rfl
  · cases h
    rfl

theorem takeRequest_record (slot : ScopeRequestSlot) (epoch : Epoch) :
    (s.takeRequest slot epoch).2.record = s.record := by
  rw [takeRequest_eq, takeRequestLocked]
  split_ifs <;> rfl

theorem forceShutdown_record (epoch : Epoch) : (s.forceShutdown epoch).record = s.record := by
  unfold forceShutdown
  split_ifs <;> rfl

/-- A begin that returns mints and clears the record, or leaves the cell. -/
theorem beginIncarnationInto_record {s s' : ScopeCell} {owned owned' : Option Epoch}
    (h : s.beginIncarnationInto state owned = .ok (owned', s')) :
    (∃ epoch, owned' = some epoch) ∧ s'.record = ⟨.starting, none, ⟨0⟩⟩ ∨ s' = s := by
  unfold beginIncarnationInto at h
  split_ifs at h with howned hstate hidle
  split at h
  · cases h
  · cases h
    exact .inr rfl
  · cases h
    exact .inl ⟨⟨_, rfl⟩, by rw [not_not.mp hstate]⟩

end ScopeCell

/-- What a gated section does to the record. -/
theorem startupMove_of_scopeCall {e : ScopeEdge} (h : ScopeCall e) :
    (∃ epoch, e.output = .begun (some epoch)) ∧ e.after.record = ⟨.starting, none, ⟨0⟩⟩ ∨
      StartupMove e.before.record e.after.record := by
  cases h with
  | «begin» ok =>
    rcases ScopeCell.beginIncarnationInto_record ok with ⟨⟨epoch, rfl⟩, hrecord⟩ | rfl
    · exact .inl ⟨⟨epoch, rfl⟩, hrecord⟩
    · exact .inr (.refl _)
  | unwound s step message => exact .inr (.refl _)
  | finish s epoch reason exit => exact .inr (s.startupMove_finish epoch reason exit)
  | setStartup s startup => exact .inr (s.startupMove_setStartupLocked startup)
  | setState ok => exact .inr (ScopeCell.startupMove_setStateAndStartup ok)
  | drain ok => exact .inr (ScopeCell.startupMove_publishDrain ok)
  | rootStopped s reason exit =>
    exact .inr (s.startupMove_publishStoppedLocked reason (some exit))
  | neverStarted s => exact .inr s.startupMove_terminalizeNeverStarted
  | closeBody s => exact .inr s.startupMove_closeNeverStartedBody
  | terminalize ok => exact .inr (ScopeCell.startupMove_terminalizeChild ok)
  -- the control plane has no part in the record
  | request ok => exact .inr (ScopeCell.requestShutdown_record ok ▸ .refl _)
  | takeShutdown s epoch => exact .inr (s.takeRequest_record .shutdown epoch ▸ .refl _)
  | takeForce s epoch => exact .inr (s.takeRequest_record .force epoch ▸ .refl _)
  | force s epoch => exact .inr (s.forceShutdown_record epoch ▸ .refl _)
  | vacate ok => exact .inr (ScopeCell.vacatePendingShutdown_record ok ▸ .refl _)
  | start ok => exact .inr (ScopeCell.startScopeChild_record ok ▸ .refl _)
  | controlEvent s event => exact .inr (.refl _)
  | takeEvents s => exact .inr (.refl _)

theorem faulted_eq_some {s s' : ScopeCell} {fault : Fault} {output : ScopeOutput}
    (h : ScopeStep.faulted s fault = some (s', output)) : s' = s := by
  cases fault with
  | exhausted => cases h
  | panicked message =>
    cases h
    rfl

/-- **One step of a record**: it begins an incarnation and clears the startup
result, or moves it. -/
theorem startupMove_of_edge {e : VerdictEdge}
    (he : stepEdge VerdictStep.apply e) :
    VerdictEdge.begins e = true ∧ e.after.record = ⟨.starting, none, ⟨0⟩⟩ ∨
      StartupMove e.before.record e.after.record := by
  obtain ⟨s, step, output, s'⟩ := e
  replace he : VerdictStep.apply s step = some (s', output) := he
  cases step with
  | setStartup startup =>
    cases he
    exact .inr (s.startupMove_setStartupLocked startup)
  | setStateAndStartup state startup =>
    simp only [VerdictStep.apply] at he
    split at he
    · next ok =>
        cases he
        exact .inr (ScopeCell.startupMove_setStateAndStartup ok)
    · exact .inr (faulted_eq_some he ▸ .refl _)
  | publishDrain state startup =>
    simp only [VerdictStep.apply] at he
    split at he
    · next ok =>
        cases he
        exact .inr (ScopeCell.startupMove_publishDrain ok)
    · exact .inr (faulted_eq_some he ▸ .refl _)
  | publishStopped reason exit =>
    cases he
    exact .inr (s.startupMove_publishStoppedLocked reason exit)
  | beginIncarnationInto state owned =>
    simp only [VerdictStep.apply] at he
    split at he
    · next ok =>
        cases he
        rcases ScopeCell.beginIncarnationInto_record ok with ⟨⟨epoch, rfl⟩, hrecord⟩ | rfl
        · exact .inl ⟨rfl, hrecord⟩
        · exact .inr (.refl _)
    · exact .inr (faulted_eq_some he ▸ .refl _)
  | gated step =>
    have hcall : ScopeCall ⟨s, step, output, s'⟩ := scopeCall_of_edge he
    rcases startupMove_of_scopeCall hcall with ⟨⟨epoch, houtput⟩, hrecord⟩ | hmove
    · refine .inl ⟨?_, hrecord⟩
      replace houtput : output = .begun (some epoch) := houtput
      rw [houtput]
      rfl
    · exact .inr hmove

/-! ### Runs -/

section Runs

variable {tr : List VerdictEdge} {s t : ScopeCell}

/-- Without a begin, a recorded startup result stays. -/
theorem startup_kept (h : Run (stepEdge VerdictStep.apply) s tr t)
    (hbegins : ∀ e ∈ tr, VerdictEdge.begins e = false) {startup : Except StartupError Unit}
    (hs : s.record.startup = some startup) : t.record.startup = some startup := by
  refine h.invariant hs ?_
  intro e he hmem hbefore
  rcases startupMove_of_edge he with ⟨hbegin, -⟩ | hmove
  · rw [hbegins e hmem] at hbegin
    cases hbegin
  · exact hmove.startup_eq hbefore

/-- Without a begin, the startup result is written at most once. -/
theorem startup_writes_le (h : Run (stepEdge VerdictStep.apply) s tr t)
    (hbegins : ∀ e ∈ tr, VerdictEdge.begins e = false) : tr.countP VerdictEdge.writes ≤ 1 := by
  -- a write uses up the missing result
  have hbound := h.weight_le (w := fun e => (VerdictEdge.writes e).toNat)
    (f := fun s => s.record.startup.isNone.toNat) ?_
  · rw [sum_map_toNat] at hbound
    have hle : s.record.startup.isNone.toNat ≤ 1 := Bool.toNat_le _
    omega
  · intro e he hmem
    rcases startupMove_of_edge he with ⟨hbegin, -⟩ | hmove
    · rw [hbegins e hmem] at hbegin
      cases hbegin
    · unfold VerdictEdge.writes
      cases hbefore : e.before.record.startup with
      | none => cases e.after.record.startup <;> simp
      | some startup => simp [hmove.startup_eq hbefore]

/-- A stopped record has a startup result. -/
theorem startup_of_stopped {member : MemberCell} {parent : Bool}
    (h : VerdictRun member parent tr s) (hs : s.record.state.isStopped = true) :
    s.record.startup.isSome = true := by
  refine h.invariant (fun habs => absurd habs Bool.false_ne_true) ?_ hs
  intro e he _ hbefore
  rcases startupMove_of_edge he with ⟨-, hrecord⟩ | hmove
  · rw [hrecord]
    exact fun habs => absurd habs Bool.false_ne_true
  · exact hmove.stopped hbefore

end Runs

/-- **Stop verdicts form one lattice on both planes.**  A drain and a stopped
record that receive the same verdicts hold the same reason, the earliest of
maximal precedence, and its class does not depend on the order; the startup
result of an incarnation is written at most once, stays until the next begin and
is there in every stopped record. -/
theorem stop_verdicts_agree {verdicts : List (StopReason × Option Exit)} (hne : verdicts ≠ [])
    (hnever : .neverStarted ∉ verdicts.map Prod.fst) {lifecycle : ScopeLifecycle}
    (hlifecycle : lifecycle.isDraining = false) {cell : ScopeCell}
    (hcell : cell.record.state.isStopped = false) {member : MemberCell} {parent : Bool}
    {before during : List VerdictEdge} {s t : ScopeCell}
    (hbefore : VerdictRun member parent before s)
    (hduring : Run (stepEdge fun s step => VerdictStep.apply s step) s during t)
    (hbegins : ∀ e ∈ during, VerdictEdge.begins e = false) :
    (∃ reason, EarliestMax (verdicts.map Prod.fst) reason ∧
      (∃ lifecycle', lifecycle.beginDrains (verdicts.map Prod.fst) = .ok lifecycle' ∧
        lifecycle'.drainingReason = some reason) ∧
      (cell.publishStops verdicts).record.state = .stopped reason ∧
      ∀ verdicts' : List (StopReason × Option Exit), verdicts'.Perm verdicts →
        ∃ reason', (∃ lifecycle', lifecycle.beginDrains (verdicts'.map Prod.fst) = .ok lifecycle' ∧
            lifecycle'.drainingReason = some reason') ∧
          (cell.publishStops verdicts').record.state = .stopped reason' ∧
          stopReasonPrecedence reason' = stopReasonPrecedence reason) ∧
    during.countP VerdictEdge.writes ≤ 1 ∧
    (∀ startup, s.record.startup = some startup → t.record.startup = some startup) ∧
    (t.record.state.isStopped = true → t.record.startup.isSome = true) := by
  refine ⟨?_, startup_writes_le hduring hbegins, fun startup => startup_kept hduring hbegins,
    startup_of_stopped (hbefore.append hduring)⟩
  obtain ⟨reason, hmax, hdrained, hstopped⟩ := verdict_of_fresh hne hnever hlifecycle hcell
  refine ⟨reason, hmax, hdrained, hstopped, ?_⟩
  intro verdicts' hperm
  have hperm' := hperm.map Prod.fst
  have hne' : verdicts' ≠ [] := fun hnil => hne (List.nil_perm.mp (hnil ▸ hperm))
  have hnever' : .neverStarted ∉ verdicts'.map Prod.fst :=
    fun hmem => hnever (hperm'.mem_iff.mp hmem)
  obtain ⟨reason', hmax', hdrained', hstopped'⟩ := verdict_of_fresh hne' hnever' hlifecycle hcell
  exact ⟨reason', hdrained', hstopped', hmax.precedence_eq hmax' hperm'⟩

/-- A finish, two requested stops and an intensity trip compete for one
incarnation. -/
def racedVerdicts : List (StopReason × Option Exit) :=
  [(.finished, none), (.intensityTripped ⟨1, 2, 3⟩, none), (.shutdownRequested, some .neverStarted),
    (.startupFailed ⟨.lowering []⟩, none), (.shutdownRequested, none)]

def racedCell : ScopeCell := .new (.new ⟨"root"⟩ ⟨1, 1⟩) false

theorem stop_verdicts_agree_raced :
    ∃ reason lifecycle', EarliestMax (racedVerdicts.map Prod.fst) reason ∧
      ScopeLifecycle.running.beginDrains (racedVerdicts.map Prod.fst) = .ok lifecycle' ∧
      lifecycle'.drainingReason = some reason ∧
      (racedCell.publishStops racedVerdicts).record.state = .stopped reason ∧
      ∃ (before during : List VerdictEdge) (s t : ScopeCell),
        VerdictRun (.new ⟨"root"⟩ ⟨1, 1⟩) false (before ++ during) t ∧
        during.countP VerdictEdge.writes = 1 ∧
        s.record.startup = none ∧ t.record.startup = some (.ok ()) := by
  have hbefore : ∃ before s, exec (fun s step => VerdictStep.apply s step) racedCell
      [.beginIncarnationInto .starting none] = some (before, s) ∧ s.record.startup = none :=
    ⟨_, _, rfl, rfl⟩
  obtain ⟨before, s, hrun, hs⟩ := hbefore
  have hrun' := run_of_exec _ hrun
  have hduring : ∃ during t, Run (stepEdge fun s step => VerdictStep.apply s step) s during t ∧
      (∀ e ∈ during, VerdictEdge.begins e = false) ∧ during.countP VerdictEdge.writes = 1 ∧
      t.record.startup = some (.ok ()) := by
    cases hrun
    have hexec : ∃ during t, exec (fun s step => VerdictStep.apply s step)
        { racedCell with
          control := { racedCell.control with epochs := .live .first none }
          record := ⟨.starting, none, ⟨0⟩⟩ }
        [.setStateAndStartup .running (.ok ()), .publishDrain .draining none,
          .publishStopped .shutdownRequested none] = some (during, t) ∧
        (∀ e ∈ during, VerdictEdge.begins e = false) ∧ during.countP VerdictEdge.writes = 1 ∧
        t.record.startup = some (.ok ()) := ⟨_, _, rfl, by decide, by decide, rfl⟩
    obtain ⟨during, t, hexec, hrest⟩ := hexec
    exact ⟨during, t, run_of_exec _ hexec, hrest⟩
  obtain ⟨during, t, hrun'', hbegins, hwrites, ht⟩ := hduring
  have hne : racedVerdicts ≠ [] := by decide
  have hnever : .neverStarted ∉ racedVerdicts.map Prod.fst := by decide
  have hlifecycle : ScopeLifecycle.running.isDraining = false := rfl
  have hcell : racedCell.record.state.isStopped = false := rfl
  have hagree := stop_verdicts_agree hne hnever hlifecycle hcell hrun' hrun'' hbegins
  obtain ⟨⟨reason, hmax, ⟨lifecycle', hdrains, hheld⟩, hstopped, -⟩, -⟩ := hagree
  exact ⟨reason, lifecycle', hmax, hdrains, hheld, hstopped, before, during, s, t,
    hrun'.append hrun'', hwrites, hs, ht⟩

end Shelterwood
