/-
Shelterwood/DispatchRuns.lean

The driver refines the reducer.

Whatever the driver dispatches, with whatever stale keys, and whatever other
threads do meanwhile, the calls of the reducer that its log has are a run of the
reducer from its old state to its new one, and none of them admits a child into a
drain.  What is known of such runs holds of the driver then.
-/
import Shelterwood.Dispatch
import Shelterwood.Drain
import Shelterwood.SpawnChild

namespace Shelterwood

/-- The reducer made calls that admit nothing into a drain. -/
def ScopeRuntime.Reduced (rt rt' : ScopeRuntime) : Prop :=
  ∃ tr, rt.Calls tr rt' ∧ NoLateAdmission tr

instance : IsPreorder ScopeRuntime ScopeRuntime.Reduced where
  refl _ := ⟨[], .of_same rfl, fun _ he => nomatch he⟩
  trans := by
    rintro rt rt' rt'' ⟨tr, hcalls, h⟩ ⟨tr', hcalls', h'⟩
    exact ⟨tr ++ tr', hcalls.trans hcalls', fun e he => (List.mem_append.mp he).elim (h e) (h' e)⟩

namespace Driver

open Program ScopeRuntime

-- what a handler is made of; `grind` walks through its text
attribute [local grind ←] Keeps.bind Keeps.when Keeps.get Keeps.pure Keeps.ensure Keeps.expect
  Keeps.forEach keeps_modify keeps_updateChild keeps_updateActive keeps_record keeps_cancelDeadline
  keeps_now keeps_setRoot keeps_interleave keeps_reduce keeps_liftFault keeps_removalLatched
  keeps_pushDeadline keeps_advanceLadder keeps_beginDrainTransition keeps_beginTerminalDisposal
  keeps_terminateInactive keeps_beginStopChild keeps_spawnChild keeps_applyReadinessEffect
  keeps_handleConstructionDisposed Reentry.KeepsAnswers.settle Reentry.KeepsAnswers.flush

variable {world : World} {re : Reentry} {key : ChildKey} {incarnation : Incarnation} {exit : Exit}

@[local grind ←]
theorem keeps_constructionIsSuppressed : KeepsAnswers (constructionIsSuppressed world key) := by
  unfold constructionIsSuppressed
  grind

theorem keeps_publishRestart : KeepsAnswers (publishRestart world key incarnation exit) := by
  refine .bind keeps_now fun _ => .bind .get fun _ => .bind (.expect _ _) fun _ => ?_
  refine .bind (keeps_modify fun _ => rfl) fun _ => .bind (keeps_updateChild _) fun _ => ?_
  refine .bind (keeps_record rfl) fun _ => .bind (keeps_transitionChildStage _) fun _ => ?_
  exact .bind (.ensure _ _) fun _ => .bind (keeps_modify fun _ => rfl) fun _ =>
    .bind (keeps_record rfl) fun _ => .pure _

@[local grind ←]
theorem keeps_publishStartupRemovals : KeepsAnswers publishStartupRemovals :=
  keeps_modify fun rt => by simp [reducer, calls, Function.comp_def, DriverAction.reduced?]

theorem keeps_retireActive (active : ActiveChild) : KeepsAnswers (retireActive key active) :=
  .bind (keeps_updateChild _) fun _ => .bind (keeps_record rfl) fun _ =>
    .bind (keeps_cancelDeadline _) fun _ => .bind (keeps_cancelDeadline _) fun _ =>
    .bind .get fun _ => .when (.bind (keeps_updateChild _) fun _ => keeps_record rfl)

theorem reduced_of_answers {α : Type} {m : Driver α} (hm : KeepsAnswers m) : Keeps Reduced m := by
  refine hm.mono fun _ _ ⟨tr, hcalls, ha⟩ => ⟨tr, hcalls, fun e he _ => ?_⟩
  cases hinput : e.input with
  | admitChild => exact absurd (ha e he) (by simp [hinput, Input.isAnswer])
  | _ => rfl

theorem reduced_of_call {rt rt' : ScopeRuntime} {input : Input} {output : Output}
    (h : Input.apply rt.supervisor input = some (rt'.supervisor, output))
    (hlog : rt'.log = rt.log ++ [.reduced ⟨rt.supervisor, input, output, rt'.supervisor⟩])
    (hlate : rt.supervisor.lifecycle.isDraining = true → input.isAdmission = false) :
    Reduced rt rt' := by
  refine ⟨_, .of_call h hlog, fun e he => ?_⟩
  rw [List.mem_singleton.mp he]
  exact hlate

variable (hre : re.KeepsAnswers)

include hre

theorem keeps_dispatchChildExit :
    KeepsAnswers (dispatchChildExit world re key incarnation exit) := by
  have hrestart : KeepsAnswers (scheduleChildRestart world re key incarnation exit) := by
    refine .bind keeps_publishRestart fun _ => ?_
    unfold armRestart beginDrain beginDrainWithStartup
    grind
  unfold dispatchChildExit dispatchMembershipStatus
  grind

@[local grind ←]
theorem keeps_resolveWindowStop (target : Epoch) :
    KeepsAnswers (resolveWindowStop world re key target) := by
  refine .bind .get fun _ => .ite (.pure ()) (.bind keeps_constructionIsSuppressed fun _ => ?_)
  refine .ite (.pure ()) (.bind .get fun _ => .ite (.pure ()) (.bind keeps_interleave fun _ => ?_))
  have hrestarts : KeepsAnswers (restartsAStoppedIncarnation key) :=
    keeps_of_quiet quiet_restartsAStoppedIncarnation
  unfold vacatePendingShutdown
  grind

@[local grind ←]
theorem keeps_passReadiness (event : ReadinessEvent) :
    KeepsAnswers (passReadiness world re key incarnation event) := by
  unfold passReadiness stepReadiness
  grind

@[local grind ←]
theorem keeps_handleExit (recorded : Option RecordedOutcome) (join : JoinOutcome)
    (cancellation : Cancellation) (signalSeen : Bool) :
    KeepsAnswers (handleExit world re key incarnation recorded join cancellation signalSeen) := by
  refine .bind (keeps_passReadiness hre _) fun _ => .bind (.when hre.settle) fun _ => .bind .get
    fun _ => ?_
  split
  · refine .bind (keeps_retireActive _) fun _ => .bind keeps_now fun _ => .bind .get
      fun _ => .bind (keeps_updateChild _) fun _ => .bind (keeps_dispatchChildExit hre) fun _ => ?_
    grind
  · exact .pure ()

theorem reduced_forceAll : Keeps Reduced (forceAll world re) := by
  refine .bind .get fun _ => .bind ?_ fun drain => ?_
  · intro rt
    unfold reduceForce
    rw [runFrom_bind_of_ok (runFrom_get rt)]
    cases h : rt.supervisor.force with
    | error fault => exact refl_of Reduced rt
    | ok result =>
      refine reduced_of_call ?_ rfl fun _ => rfl
      rw [Input.apply, h]
      rfl
  · refine reduced_of_answers (.bind ?_ fun _ => .bind hre.flush fun _ => hre.settle)
    unfold publishForcedDrain
    grind

omit hre in
theorem reduced_insertChild {rt : ScopeRuntime} (hopen : rt.supervisor.lifecycle.isDraining = false)
    (child : ChildRuntime) : Reduced rt ((insertChild child false).runFrom rt).2 := by
  unfold insertChild
  rw [runFrom_bind_of_ok (runFrom_get rt)]
  cases h : rt.supervisor.admitChild child.slot.member.membership false with
  | error fault => exact refl_of Reduced rt
  | ok result =>
    refine reduced_of_call ?_ rfl fun hd => Bool.noConfusion (hopen.symm.trans hd)
    rw [Input.apply, h]
    rfl

omit hre in
theorem keeps_admitChildLocked : KeepsAnswers (admitChildLocked key) := by
  refine .bind .get fun rt => ?_
  split
  · exact .ite (.bind (keeps_modify fun _ => reducer_of_log rfl rfl rfl) fun _ =>
      .bind (keeps_updateChild _) fun _ => .pure _) (.pure _)
  · exact .pure _

/-- An admission that is not refused finds the scope open, and it stays so until the
child is registered: the other threads do not touch the reducer. -/
theorem reduced_handleAdmission (request : AdmissionRequest) :
    Keeps Reduced (handleAdmission world re request) := by
  have hcancel : KeepsAnswers (modify (cancelReservation · request) : Driver Unit) :=
    keeps_modify fun rt => by
      unfold cancelReservation
      split
      · exact reducer_of_log rfl rfl rfl
      · rfl
  refine .bind .get fun _ => .bind (.ensure _ _) fun _ =>
    .bind (reduced_of_answers keeps_interleave) fun _ => ?_
  intro rt
  rw [runFrom_bind_of_ok (runFrom_get rt)]
  split
  · next hrefuses _ =>
    have hopen : (rt.interfere world).supervisor.lifecycle.isDraining = false := by
      unfold refusesAdmission at hrefuses
      exact (Bool.or_eq_false_iff.mp (Bool.or_eq_false_iff.mp hrefuses).1).1
    have hother : (interleave world).runFrom rt = (.ok (), rt.interfere world) := rfl
    refine Keeps.bind_at ?_ fun _ => reduced_of_answers (by grind)
    unfold installAdmission
    rw [runFrom_bind_of_ok hother, runFrom_bind_of_ok (runFrom_get _)]
    show Reduced (rt.interfere world) _
    split
    · exact Keeps.bind_at (reduced_insertChild hopen _) fun _ => reduced_of_answers <|
        .bind (keeps_modify fun _ => rfl) fun _ => .bind keeps_admitChildLocked fun _ =>
          .bind (.ensure _ _) fun _ => .pure _
    · exact reduced_of_answers (.bind hcancel fun _ => .pure none) _
  · exact reduced_of_answers (.bind keeps_interleave fun _ => hcancel) rt

theorem reduced_perform (d : Dispatch) : Keeps Reduced (d.perform world re) := by
  cases d with
  | admission request => exact reduced_handleAdmission hre request
  | force => exact reduced_forceAll hre
  | deadline kind =>
    refine reduced_of_answers ?_
    cases kind <;> unfold Dispatch.perform handleDeadline <;> grind
  | selfStop =>
    refine reduced_of_answers (.bind keeps_interleave fun _ => ?_)
    grind [handleReady]
  | _ =>
    refine reduced_of_answers ?_
    unfold Dispatch.perform
    grind [handleReady, handleRemoval, Driver.beginDrain, takeCompletion, reducer, calls]

/-- The scope after a sequence of dispatches, however it ended. -/
def dispatched (world : World) (fuel : ℕ) (dispatches : List Dispatch) (rt : ScopeRuntime) :
    ScopeRuntime :=
  ((forEach (Dispatch.perform world (reentry world fuel)) dispatches).runFrom rt).2

omit hre in
theorem reduced_dispatched (fuel : ℕ) (dispatches : List Dispatch) (rt : ScopeRuntime) :
    Reduced rt (dispatched world fuel dispatches rt) :=
  Keeps.forEach (reduced_perform (reentry_keeps world fuel)) dispatches rt

omit hre in
/-- **The driver refines the reducer.**  The calls that a sequence of dispatches logs are
a run of the reducer that admits nothing into a drain. -/
theorem dispatches_refine_reducer (world : World) (fuel : ℕ) (dispatches : List Dispatch)
    (rt : ScopeRuntime) :
    ∃ tr, (dispatched world fuel dispatches rt).calls = rt.calls ++ tr ∧
      Run (stepEdge Input.apply) rt.supervisor tr
        (dispatched world fuel dispatches rt).supervisor ∧
      NoLateAdmission tr := by
  obtain ⟨tr, ⟨hrun, hcalls⟩, hlate⟩ := reduced_dispatched fuel dispatches rt
  exact ⟨tr, hcalls, hrun, hlate⟩

end Driver

end Shelterwood
