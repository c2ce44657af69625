/-
Shelterwood/DriverAnswers.lean

What the driver does to its reducer.

Whatever path a driver function takes, and whether it returns or unwinds, it
moves the reducer only by calls that neither admit a child nor force the scope,
and its log has them (`Answered`); its quiet steps do not move it (`Quiet`).
The proofs follow the text of the functions; the circles among them are closed
by induction on the fuel (`reentry_keeps`).
-/
import Shelterwood.Driver
import Shelterwood.Descent

namespace Shelterwood

def DriverAction.reduced? : DriverAction → Option SupervisorEdge
  | .reduced edge => some edge
  | _ => none

/-- The calls of the reducer that the log has. -/
def ScopeRuntime.calls (rt : ScopeRuntime) : List SupervisorEdge :=
  rt.log.filterMap DriverAction.reduced?

/-- The reducer and its calls. -/
def ScopeRuntime.reducer (rt : ScopeRuntime) : SupervisorState × List SupervisorEdge :=
  (rt.supervisor, rt.calls)

/-- The reducer was moved by the calls that were logged. -/
def ScopeRuntime.Calls (rt : ScopeRuntime) (tr : List SupervisorEdge) (rt' : ScopeRuntime) : Prop :=
  Run (stepEdge Input.apply) rt.supervisor tr rt'.supervisor ∧ rt'.calls = rt.calls ++ tr

/-- The reducer was moved only by calls without admission and force. -/
def ScopeRuntime.Answered (rt rt' : ScopeRuntime) : Prop :=
  ∃ tr, rt.Calls tr rt' ∧ Answers tr

namespace ScopeRuntime.Calls

variable {rt rt' rt'' : ScopeRuntime} {tr tr' : List SupervisorEdge}

theorem of_same (h : rt'.reducer = rt.reducer) : rt.Calls [] rt' := by
  obtain ⟨hsupervisor, hcalls⟩ := Prod.mk.inj h
  rw [Calls, hsupervisor, hcalls, List.append_nil]
  exact ⟨.nil _, rfl⟩

theorem of_call {input : Input} {output : Output}
    (h : Input.apply rt.supervisor input = some (rt'.supervisor, output))
    (hlog : rt'.log = rt.log ++ [.reduced ⟨rt.supervisor, input, output, rt'.supervisor⟩]) :
    rt.Calls [⟨rt.supervisor, input, output, rt'.supervisor⟩] rt' := by
  have hedge : stepEdge Input.apply ⟨rt.supervisor, input, output, rt'.supervisor⟩ := h
  refine ⟨Run.single hedge, ?_⟩
  rw [calls, hlog, List.filterMap_append]
  rfl

theorem trans (h : rt.Calls tr rt') (h' : rt'.Calls tr' rt'') : rt.Calls (tr ++ tr') rt'' :=
  ⟨h.1.append h'.1, by rw [h'.2, h.2, List.append_assoc]⟩

end ScopeRuntime.Calls

namespace ScopeRuntime.Answered

variable {rt rt' : ScopeRuntime}

theorem of_same (h : rt'.reducer = rt.reducer) : Answered rt rt' :=
  ⟨[], .of_same h, fun _ he => nomatch he⟩

theorem of_call {input : Input} {output : Output} (ha : input.isAnswer = true)
    (h : Input.apply rt.supervisor input = some (rt'.supervisor, output))
    (hlog : rt'.log = rt.log ++ [.reduced ⟨rt.supervisor, input, output, rt'.supervisor⟩]) :
    Answered rt rt' := by
  refine ⟨_, .of_call h hlog, ?_⟩
  intro e he
  rw [List.mem_singleton.mp he]
  exact ha

theorem descends (h : Answered rt rt') : rt.supervisor.Descends rt'.supervisor := by
  obtain ⟨tr, hcalls, ha⟩ := h
  exact descends_of_run hcalls.1 ha

end ScopeRuntime.Answered

instance : IsPreorder ScopeRuntime ScopeRuntime.Answered where
  refl _ := .of_same rfl
  trans := by
    rintro rt rt' rt'' ⟨tr, hcalls, ha⟩ ⟨tr', hcalls', ha'⟩
    refine ⟨tr ++ tr', hcalls.trans hcalls', ?_⟩
    intro e he
    rcases List.mem_append.mp he with he | he
    · exact ha e he
    · exact ha' e he

namespace ScopeRuntime

/-- The reducer, its calls, the keys of the arena and the live children are the same. -/
structure Quiet (rt rt' : ScopeRuntime) : Prop where
  reducer : rt'.reducer = rt.reducer
  keys : ∀ k, (rt'.children.get? k).isSome = (rt.children.get? k).isSome
  live : ∀ k, (rt'.active? k).isSome = (rt.active? k).isSome

instance : IsPreorder ScopeRuntime Quiet where
  refl _ := ⟨rfl, fun _ => rfl, fun _ => rfl⟩
  trans _ _ _ h h' :=
    ⟨h'.reducer.trans h.reducer, fun k => (h'.keys k).trans (h.keys k),
      fun k => (h'.live k).trans (h.live k)⟩

theorem Quiet.supervisor {rt rt' : ScopeRuntime} (h : Quiet rt rt') :
    rt'.supervisor = rt.supervisor :=
  congrArg Prod.fst h.reducer

theorem Quiet.answered {rt rt' : ScopeRuntime} (h : Quiet rt rt') : Answered rt rt' :=
  .of_same h.reducer

end ScopeRuntime

namespace Driver

open Program ScopeRuntime

/-- The program moves the reducer only by calls without admission and
force. -/
abbrev KeepsAnswers {α : Type} (m : Driver α) : Prop := Keeps Answered m

variable {world : World} {re : Reentry} {key : ChildKey}

/-! ### Quiet steps -/

theorem quiet_updateChild {f : ChildRuntime → ChildRuntime}
    (hf : ∀ child, (f child).active.isSome = child.active.isSome) :
    Keeps Quiet (updateChild key f) := by
  refine .modify fun rt => ⟨rfl, ?_, ?_⟩
  · intro k
    rw [OrdMap.get?_update]
    split_ifs with hk
    · rw [Option.isSome_map, hk]
    · rfl
  · intro k
    show (((rt.children.update key f).get? k).bind _).isSome = ((rt.children.get? k).bind _).isSome
    rw [OrdMap.get?_update]
    split_ifs with hk
    · rw [hk]
      cases rt.children.get? key with
      | none => rfl
      | some child => exact hf child
    · rfl

theorem quiet_interleave : Keeps Quiet (interleave world) := by
  refine .modify fun rt => ⟨rfl, ?_, ?_⟩
  · intro k
    show ((rt.children.mapValues (world.child rt.tick)).get? k).isSome = _
    rw [OrdMap.get?_mapValues, Option.isSome_map]
  · intro k
    show (((rt.children.mapValues (world.child rt.tick)).get? k).bind _).isSome =
      ((rt.children.get? k).bind _).isSome
    rw [OrdMap.get?_mapValues]
    -- others change the latches of a live child, never whether it is live
    cases rt.children.get? k with
    | none => rfl
    | some child => simp [World.child]

theorem quiet_cancelDeadline (handle : Option DeadlineHandle) :
    Keeps Quiet (cancelDeadline handle) :=
  .modify fun _ => ⟨rfl, fun _ => rfl, fun _ => rfl⟩

theorem quiet_removalLatched : Keeps Quiet (removalLatched world key) := by
  refine .bind .get fun rt => .ite (.pure true) ?_
  cases rt.children.get? key with
  | none => exact .pure false
  | some child =>
    refine .ite (.pure false) (.bind quiet_interleave fun _ => ?_)
    exact .bind .get fun _ => .pure _

theorem quiet_restartsAStoppedIncarnation : Keeps Quiet (restartsAStoppedIncarnation key) := by
  refine .bind .get fun rt => ?_
  cases rt.children.get? key with
  | none => exact .pure false
  | some child => exact .bind (.ofExcept _) fun _ => .pure _

theorem quiet_mintIncarnation : Keeps Quiet (mintIncarnation key) :=
  .bind .get fun _ => .bind (.expect _ _) fun _ => .bind (.ofExcept _) fun _ =>
    .bind (quiet_updateChild fun _ => rfl) fun _ => .pure _

theorem quiet_startScopeChild (incarnation : Incarnation) (restartStopped : Bool) :
    Keeps Quiet (startScopeChild world key incarnation restartStopped) := by
  refine .bind quiet_interleave fun _ => .bind .get fun rt => ?_
  split
  · exact .bind (.ofExcept _) fun _ => .bind (quiet_updateChild fun _ => rfl) fun _ => .pure _
  · exact .pure false

/-! ### The operations -/

theorem keeps_of_quiet {α : Type} {m : Driver α} (hm : Keeps Quiet m) : KeepsAnswers m :=
  hm.mono fun _ _ => Quiet.answered

theorem keeps_modify {g : ScopeRuntime → ScopeRuntime}
    (h : ∀ rt, (g rt).reducer = rt.reducer) :
    KeepsAnswers (modify g) := .modify fun rt => .of_same (h rt)

/-- Another entry of the log is no call. -/
theorem reducer_of_log {rt rt' : ScopeRuntime} {action : DriverAction}
    (hsupervisor : rt'.supervisor = rt.supervisor) (hlog : rt'.log = rt.log ++ [action])
    (h : action.reduced? = none) : rt'.reducer = rt.reducer := by
  simp [reducer, calls, hsupervisor, hlog, h]

theorem keeps_record {action : DriverAction} (h : action.reduced? = none) :
    KeepsAnswers (record action) :=
  keeps_modify fun _ => reducer_of_log rfl rfl h

theorem keeps_reduce (event : Event) : KeepsAnswers (reduce event) :=
  .modify fun _ => .of_call rfl rfl rfl

theorem keeps_interleave : KeepsAnswers (interleave world) := keeps_of_quiet quiet_interleave

theorem keeps_now : KeepsAnswers (now world) :=
  .bind keeps_interleave fun _ => .bind .get fun _ => .pure _

theorem keeps_liftFault {α : Type} (x : Except Fault α) : KeepsAnswers (liftFault x) :=
  .ofExcept _

/-- Beginning a drain is one call of the reducer. -/
theorem keeps_reduceDrain (reason : StopReason) : KeepsAnswers (reduceDrain reason) := by
  intro rt
  unfold reduceDrain
  rw [runFrom_bind_of_ok (runFrom_get rt)]
  cases hdrain : rt.supervisor.beginDrain reason with
  | error fault => exact .of_same rfl
  | ok result =>
    refine .of_call rfl ?_ rfl
    rw [Input.apply, hdrain]
    rfl

theorem keeps_updateChild (f : ChildRuntime → ChildRuntime) :
    KeepsAnswers (updateChild key f) := keeps_modify fun _ => rfl

theorem keeps_updateActive (f : ActiveChild → ActiveChild) :
    KeepsAnswers (updateActive key f) := keeps_updateChild _

theorem keeps_cancelDeadline (handle : Option DeadlineHandle) :
    KeepsAnswers (cancelDeadline handle) := keeps_of_quiet (quiet_cancelDeadline handle)

theorem keeps_pushDeadline (deadline : Instant) (kind : DeadlineKind) :
    KeepsAnswers (pushDeadline deadline kind) :=
  .bind .get fun _ => .bind (keeps_liftFault _) fun _ =>
    .bind (keeps_modify fun _ => rfl) fun _ => .pure _

theorem keeps_setRoot (state : ScopeState) (publish : ScopeCell → Except Fault ScopeCell) :
    KeepsAnswers (setRoot world state publish) :=
  .bind keeps_interleave fun _ => .bind .get fun _ => .bind (keeps_liftFault _) fun _ =>
    keeps_modify fun _ => reducer_of_log rfl rfl rfl

theorem keeps_transitionChildStage (transition : MemberTransition) :
    KeepsAnswers (transitionChildStage world key transition) :=
  .bind keeps_interleave fun _ => .bind .get fun _ => .bind (.expect _ _) fun _ =>
    .bind (keeps_updateChild _) fun _ => .pure _

/-! ### Removal and release -/

theorem keeps_removalLatched : KeepsAnswers (removalLatched world key) :=
  keeps_of_quiet quiet_removalLatched

theorem keeps_releaseRemovedEntry (entry : DynamicEntry) :
    KeepsAnswers (releaseRemovedEntry entry) := by
  refine keeps_modify fun rt => ?_
  split
  · rfl
  · exact reducer_of_log rfl rfl rfl

theorem keeps_reclaimChild : KeepsAnswers (reclaimChild key) := by
  refine .bind .get fun rt => ?_
  cases rt.children.get? key with
  | none => exact .pure ()
  | some child =>
    refine .bind (.ensure _ _) fun _ => .bind (keeps_modify fun _ => rfl) fun _ => ?_
    refine .bind (keeps_cancelDeadline _) fun _ => .bind (keeps_cancelDeadline _) fun _ => ?_
    exact .bind (keeps_cancelDeadline _) fun _ => keeps_reduce _

theorem pruneChildLocked_reducer (rt : ScopeRuntime) (key : ChildKey)
    (membership : Membership) : (rt.pruneChildLocked key membership).reducer = rt.reducer := by
  unfold pruneChildLocked
  split
  · exact reducer_of_log rfl rfl rfl
  · rfl

theorem keeps_finalizeRemoval : KeepsAnswers (finalizeRemoval world key) := by
  refine .bind .get fun rt => .ite (.pure ()) (.bind (.expect _ _) fun child => ?_)
  refine .bind keeps_interleave fun _ => .bind .get fun rt => ?_
  cases (rt.matchingEntry child.slot.member key).filter DynamicEntry.isRemoving with
  | none => exact .pure ()
  | some entry =>
    refine .bind (keeps_modify fun rt => pruneChildLocked_reducer rt _ _) fun _ => ?_
    exact .bind keeps_reclaimChild fun _ => keeps_releaseRemovedEntry entry

theorem keeps_pruneTerminal : KeepsAnswers (pruneTerminal world key) := by
  refine .bind .get fun rt => .bind (.expect _ _) fun child => ?_
  refine .bind keeps_interleave fun _ => .bind .get fun rt => ?_
  refine .bind (keeps_modify fun rt => pruneChildLocked_reducer rt _ _) fun _ => ?_
  refine .bind (.when (keeps_modify fun _ => rfl)) fun _ => ?_
  refine .bind (.when keeps_reclaimChild) fun _ => ?_
  cases rt.matchingEntry child.slot.member key with
  | none => exact .pure ()
  | some entry => exact keeps_releaseRemovedEntry entry

theorem keeps_joinTerminal : KeepsAnswers (joinTerminal key) :=
  .bind (keeps_reduce _) fun _ => .bind .get fun _ => .ensure _ _

/-! ### The functions over their re-entrant calls -/

/-- The re-entrant calls move the reducer only by calls without admission and
force. -/
structure Reentry.KeepsAnswers (re : Reentry) : Prop where
  flush : Driver.KeepsAnswers re.flushSupervisorEffects
  settle : Driver.KeepsAnswers re.settleSupervisor
  dispose : ∀ key exit incarnation startup,
    Driver.KeepsAnswers (re.beginTerminalDisposal key exit incarnation startup)

variable (hre : re.KeepsAnswers)

include hre

theorem keeps_handleConstructionDisposed :
    KeepsAnswers (handleConstructionDisposed world re key) := by
  refine .bind .get fun rt => .ite (.pure ()) ?_
  cases rt.children.get? key with
  | none => exact .pure ()
  | some child =>
    refine .bind keeps_joinTerminal fun _ => .bind .get fun _ => ?_
    exact .ite hre.flush (.ite keeps_pruneTerminal (.pure ()))

theorem keeps_beginDrainTransition (reason : StopReason)
    (startup : Option (Except StartupError Unit)) :
    KeepsAnswers (beginDrainTransition world re reason startup) := by
  refine .bind .get fun rt => .bind (keeps_reduceDrain reason) fun drain => ?_
  cases drain with
  | none => exact .pure ()
  | some entered =>
    refine .bind (.ensure _ _) fun _ => .bind (keeps_reduce _) fun _ => .bind .get fun _ => ?_
    refine .bind (keeps_setRoot _ _) fun _ => ?_
    refine .bind (.forEach (fun key => keeps_updateChild _) _) fun _ => ?_
    exact .bind hre.flush fun _ => hre.settle

theorem keeps_disposeUnspawned : KeepsAnswers (disposeUnspawned re key) :=
  .bind .get fun _ => .ite (.pure ()) (hre.dispose _ _ _ _)

theorem keeps_routeStartupFailure (role : ScopeRole) (state : ScopeState)
    (failure : StartupFailure) :
    KeepsAnswers (routeStartupFailure world re role state failure) :=
  .ite (keeps_setRoot _ _) (keeps_beginDrainTransition hre _ _)

theorem keeps_failStartup (exit : Exit) : KeepsAnswers (failStartup world re key exit) := by
  refine .bind .get fun rt => .bind (.expect _ _) fun child => ?_
  -- recording the failure is a call of the reducer, published or not
  refine .bind (.modify fun _ => .of_call rfl rfl rfl) fun _ => ?_
  cases rt.supervisor.failStartup.2 with
  | none => exact .pure ()
  | some state =>
    refine .bind (keeps_record rfl) fun _ => ?_
    refine .bind (.when (.forEach (fun later => keeps_disposeUnspawned hre) _)) fun _ => ?_
    refine .bind (keeps_routeStartupFailure hre _ _ _) fun _ => ?_
    exact .bind .get fun _ => keeps_record rfl

omit hre in
theorem keeps_publishTerminal (exit : Exit) (startup : StartupDisposition) :
    KeepsAnswers (publishTerminal world key exit startup) :=
  .bind keeps_interleave fun _ => .bind .get fun _ => .bind (.expect _ _) fun _ =>
    .bind (keeps_liftFault _) fun _ => .bind (keeps_updateChild _) fun _ => .when (keeps_record rfl)

theorem keeps_releaseConstruction : KeepsAnswers (releaseConstruction world re key) := by
  refine .bind .get fun rt => ?_
  cases rt.children.get? key with
  | none => exact .pure ()
  | some child =>
    refine .bind (keeps_updateChild _) fun _ => .ite (.pure ()) ?_
    exact .ite (keeps_handleConstructionDisposed hre) (keeps_modify fun _ => rfl)

theorem keeps_beginTerminalDisposal (exit : Exit) (exitedIncarnation : Option Incarnation)
    (startup : StartupDisposition) :
    KeepsAnswers (beginTerminalDisposal world re key exit exitedIncarnation startup) := by
  refine .bind .get fun rt => .ite (.pure ()) ?_
  refine .bind (keeps_reduce _) fun _ => .bind .get fun _ => .bind (.ensure _ _) fun _ => ?_
  refine .bind (keeps_publishTerminal exit _) fun _ => .bind .get fun _ => ?_
  exact .bind (.when (keeps_failStartup hre exit)) fun _ => keeps_releaseConstruction hre

theorem keeps_terminateInactive (startup : StartupDisposition) :
    KeepsAnswers (terminateInactive world re key startup) := by
  refine .bind .get fun rt => ?_
  cases rt.children.get? key with
  | none => exact .pure ()
  | some child =>
    refine .bind (keeps_cancelDeadline _) fun _ => .bind (keeps_updateChild _) fun _ => ?_
    refine .bind keeps_interleave fun _ => .bind .get fun _ => ?_
    exact keeps_beginTerminalDisposal hre _ none startup

omit hre in
theorem keeps_runStopAction (action : StopAction) : KeepsAnswers (runStopAction key action) := by
  refine .bind .get fun rt => ?_
  cases action with
  | cancel | escalate | hardAbort => exact keeps_updateActive _
  | abortFramework phase => exact .bind (.ensure _ _) fun _ => keeps_updateActive _

omit hre in
theorem keeps_advanceLadder (now : Instant) : KeepsAnswers (advanceLadder world key now) := by
  refine .bind .get fun rt => ?_
  cases rt.active? key with
  | none => exact .pure ()
  | some active =>
    refine .bind (keeps_cancelDeadline _) fun _ => .bind (keeps_updateActive _) fun _ => ?_
    cases active.ladder with
    | none => exact .pure ()
    | some ladder =>
      refine .bind keeps_interleave fun _ => .bind .get fun rt => ?_
      refine .bind (keeps_updateActive _) fun _ => ?_
      refine .bind (.forEach (fun action => keeps_runStopAction action) _) fun _ => ?_
      split
      · exact .bind (keeps_pushDeadline _ _) fun _ => keeps_updateActive _
      · exact .pure ()

omit hre in
theorem keeps_armLadder (forced : Option RecordedOutcome) :
    KeepsAnswers (armLadder world key forced) := by
  refine .bind (keeps_reduce _) fun _ => .bind .get fun _ => .bind (.expect _ _) fun _ => ?_
  refine .bind (.expect _ _) fun _ => .bind (keeps_transitionChildStage _) fun _ => ?_
  refine .bind (.ensure _ _) fun _ => .bind (keeps_cancelDeadline _) fun _ => ?_
  exact .bind (keeps_updateActive _) fun _ => .bind keeps_now fun _ => keeps_advanceLadder _

theorem keeps_beginStopChild (forced : Option RecordedOutcome) :
    KeepsAnswers (beginStopChild world re key forced) := by
  refine .bind .get fun rt => ?_
  cases rt.children.get? key with
  | none => exact .pure ()
  | some child =>
    refine .ite (.pure ()) ?_
    cases child.active with
    | none => exact keeps_terminateInactive hre _
    | some active => exact .ite (.pure ()) (keeps_armLadder forced)

theorem keeps_forceChild : KeepsAnswers (forceChild world re key) := by
  refine .bind keeps_now fun _ => .bind (keeps_beginStopChild hre none) fun _ => ?_
  refine .bind (keeps_updateActive _) fun _ => .bind (keeps_advanceLadder _) fun _ => ?_
  exact .bind .get fun _ => .ite (keeps_handleConstructionDisposed hre) (.pure ())

/-! ### Startup and spawning -/

omit hre in
theorem keeps_becomeReady (incarnation : Incarnation) :
    KeepsAnswers (becomeReady world key incarnation) := by
  refine .bind .get fun rt => .ite (.pure false) (.bind keeps_removalLatched fun _ => ?_)
  refine .bind (.when (keeps_reduce _)) fun _ => .bind (keeps_reduce _) fun _ => ?_
  refine .bind .get fun rt => ?_
  cases rt.active? key with
  | none => exact .pure false
  | some active =>
    refine .bind (keeps_cancelDeadline _) fun _ => .bind (keeps_updateActive _) fun _ => ?_
    refine .ite (.pure false) (.bind (keeps_transitionChildStage _) fun _ => ?_)
    exact .bind (.ensure _ _) fun _ => .pure true

theorem keeps_applyReadinessEffect (incarnation : Incarnation) (effect : ReadinessEffect) :
    KeepsAnswers (applyReadinessEffect world re key incarnation effect) := by
  cases effect with
  | armDeadline deadline =>
    refine .bind (keeps_pushDeadline _ _) fun _ => .bind .get fun _ => ?_
    refine .bind (.when (keeps_updateActive _)) fun _ => ?_
    exact .bind (.when (keeps_cancelDeadline _)) fun _ => .pure false
  | becameReady => exact keeps_becomeReady incarnation
  | timedOut deadline => exact .bind (keeps_beginStopChild hre _) fun _ => .pure false
  | disarmed => exact .pure false

omit hre in
theorem keeps_publishStartupComplete (state : ScopeState) :
    KeepsAnswers (publishStartupComplete world state) :=
  .bind (keeps_setRoot _ _) fun _ => keeps_modify fun _ => rfl

theorem keeps_launchChild (nested : Bool) (incarnation : Incarnation) :
    KeepsAnswers (launchChild world re key nested incarnation) := by
  refine .bind .get fun rt => .bind (.expect _ _) fun child => ?_
  refine .bind (keeps_cancelDeadline _) fun _ => .bind (keeps_liftFault _) fun result => ?_
  refine .bind (keeps_updateChild _) fun _ => .bind (keeps_record rfl) fun _ => ?_
  refine .bind keeps_now fun now => .bind (.ensure _ _) fun _ => .bind (.ensure _ _) fun _ => ?_
  refine .bind (keeps_updateChild _) fun _ => ?_
  refine .bind (.when (.bind (keeps_transitionChildStage _) fun _ => .ensure _ _)) fun _ => ?_
  refine .bind (keeps_updateChild _) fun _ => .bind (keeps_reduce _) fun _ => ?_
  split
  · exact .bind (keeps_applyReadinessEffect hre _ _) fun _ => .pure ()
  · exact .pure ()

theorem keeps_spawnChild : KeepsAnswers (spawnChild world re key) := by
  refine .bind keeps_removalLatched fun latched => .ite (keeps_reduce _) ?_
  refine .bind .get fun rt => ?_
  cases rt.children.get? key with
  | none => exact .pure ()
  | some child =>
    refine .ite (.pure ()) ?_
    refine .bind (keeps_of_quiet quiet_restartsAStoppedIncarnation) fun restartStopped => ?_
    refine .bind (keeps_of_quiet quiet_mintIncarnation) fun incarnation => ?_
    refine .ite ?_ (keeps_launchChild hre _ _)
    refine .bind (keeps_of_quiet (quiet_startScopeChild _ _)) fun started => ?_
    exact .ite (keeps_launchChild hre _ _) (.bind .get fun _ => keeps_terminateInactive hre _)

/-! ### The loops -/

theorem keeps_executeEffect (effect : Effect) : KeepsAnswers (executeEffect world re effect) := by
  cases effect with
  | startChild child => exact keeps_spawnChild hre
  | stopChild child => exact keeps_beginStopChild hre none
  | forceChild child => exact keeps_forceChild hre
  | finalizeRemoval child => exact keeps_finalizeRemoval
  | startupCompleted state => exact keeps_publishStartupComplete state
  | finished reason => exact keeps_modify fun _ => rfl

theorem keeps_flushLoop (fuel : ℕ) : KeepsAnswers (flushLoop world re fuel) := by
  induction fuel with
  | zero => exact .throw _
  | succ fuel ih =>
    refine .bind .get fun rt => .ite (.pure ()) (.bind (keeps_modify fun _ => rfl) fun _ => ?_)
    exact .bind (.forEach (keeps_executeEffect hre) _) fun _ => ih

omit hre in
theorem keeps_settleLoop {flush : Driver Unit} (hflush : KeepsAnswers flush) (fuel : ℕ) :
    KeepsAnswers (settleLoop flush fuel) := by
  induction fuel with
  | zero => exact .throw _
  | succ fuel ih =>
    refine .bind (keeps_reduce _) fun _ => .bind .get fun _ => .ite (.pure ()) ?_
    exact .bind hflush fun _ => .bind .get fun _ => .ite (.pure ()) ih

omit hre in
/-- **The driver moves its reducer only by calls without admission and force**,
at every level of re-entry. -/
theorem reentry_keeps (world : World) (fuel : ℕ) : (reentry world fuel).KeepsAnswers := by
  induction fuel with
  | zero => exact ⟨.throw _, .throw _, fun _ _ _ _ => .throw _⟩
  | succ fuel ih =>
    -- each level is built from the calls of the level below
    refine ⟨keeps_flushLoop ih fuel, keeps_settleLoop (keeps_flushLoop ih fuel) fuel, ?_⟩
    intro key exit incarnation startup
    exact keeps_beginTerminalDisposal ih exit incarnation startup

end Driver

end Shelterwood
