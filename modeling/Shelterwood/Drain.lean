/-
Shelterwood/Drain.lean

Lifecycle verdicts and the order of an ordered drain.

A scope resolves its startup once, enters its drain once and finishes once.
Each of these spends a bit of the state that nothing restores: `starting`, not
draining, not finished.  The bounds on a whole run are then instances of
`Run.weight_le`, with that bit as the potential.

While an ordered scope drains, its cursor and its waiting slot together cover
every child that has not joined (`DrainOrder`); this is why a settlement
neither skips a child nor stalls.
-/
import Shelterwood.Startup

namespace Shelterwood

variable {flavor : ScopeFlavor} {tr pre post : List SupervisorEdge}
variable {s : SupervisorState} {e : SupervisorEdge} {k : ChildKey}

/-! ### Verdicts -/

def Effect.isStartupCompleted : Effect → Bool
  | .startupCompleted _ => true
  | _ => false

def Effect.isFinished : Effect → Bool
  | .finished _ => true
  | _ => false

/-- The call reports that startup completed. -/
def completesStartup (e : SupervisorEdge) : Bool :=
  e.output.effects.any Effect.isStartupCompleted

/-- The call reports that startup failed. -/
def failsStartup (e : SupervisorEdge) : Bool :=
  match e.output with
  | .startupFailed (some _) => true
  | _ => false

/-- The call reports that it entered the drain. -/
def entersDrain (e : SupervisorEdge) : Bool :=
  match e.output with
  | .drained _ (some _) => true
  | _ => false

/-- The call reports that it entered the drain while startup was pending. -/
def abandonsStartup (e : SupervisorEdge) : Bool :=
  match e.output with
  | .drained _ (some (pending, _)) => pending
  | _ => false

/-- Only the settlement of a starting scope completes startup, and it leaves
`starting`. -/
theorem completesStartup_spec (h : SupervisorCall e) (hc : completesStartup e = true) :
    e.before.lifecycle = .starting ∧ e.after.lifecycle = .running ∧
      e.input = .step .settle := by
  obtain ⟨effect, hmem, heffect⟩ := List.any_eq_true.mp hc
  rcases effects_cases h hmem with ⟨hinput, hafter, hsettle⟩ | ⟨c, rfl | rfl | rfl⟩
  · cases effect with
    | startupCompleted state =>
      obtain ⟨-, hst, hd⟩ := SupervisorState.startupCompleted_mem_settle_iff.mp hsettle
      refine ⟨hst, ?_, hinput⟩
      rw [hafter, SupervisorState.settle_lifecycle, if_pos ⟨hst, hd⟩]
    | startChild c | stopChild c | forceChild c | finalizeRemoval c | finished c => cases heffect
  · cases heffect
  · cases heffect
  · cases heffect

/-- A startup verdict spends `starting`. -/
theorem startup_verdict_step (h : SupervisorCall e) :
    (completesStartup e).toNat + (failsStartup e).toNat + (abandonsStartup e).toNat
      + e.after.lifecycle.isStarting.toNat ≤ e.before.lifecycle.isStarting.toNat := by
  -- nothing re-enters `starting`, so only a call with a verdict has to pay
  have hkeep : e.after.lifecycle.isStarting.toNat ≤ e.before.lifecycle.isStarting.toNat := by
    cases hst : e.after.lifecycle.isStarting with
    | false => simp
    | true =>
      rw [ScopeLifecycle.isStarting_iff] at hst
      rw [ScopeLifecycle.isStarting_iff.mpr (starting_before h hst)]
  cases hc : completesStartup e with
  | true =>
    obtain ⟨hbefore, hafter, hinput⟩ := completesStartup_spec h hc
    have hother : failsStartup e = false ∧ abandonsStartup e = false := by
      simp [failsStartup, abandonsStartup, (apply_of_input h hinput).2]
    simp [hother.1, hother.2, hbefore, hafter, ScopeLifecycle.isStarting]
  | false =>
    cases h with
    | admitChild | step => simpa [failsStartup, abandonsStartup] using hkeep
    | failStartup s =>
      cases hl : s.lifecycle <;>
        simp [failsStartup, abandonsStartup, ScopeLifecycle.failStartup,
          ScopeLifecycle.isStarting]
    | drain s reason forced lifecycle result reached =>
      rcases ScopeLifecycle.beginDrain_cases reached with ⟨-, hd, rfl⟩ | ⟨-, hd, rfl⟩
      · have hnot := ScopeLifecycle.not_isStarting_of_isDraining hd
        simp [failsStartup, abandonsStartup, SupervisorState.drained, hnot]
      · have hnot := ScopeLifecycle.not_isStarting_of_isDraining hd
        simp [failsStartup, abandonsStartup, SupervisorState.drained, hnot]

/-- A drain, once entered, is never left. -/
theorem isDraining_after (h : SupervisorCall e) (hd : e.before.lifecycle.isDraining = true) :
    e.after.lifecycle.isDraining = true := by
  cases h with
  | admitChild s membership initial => exact hd
  | step s event =>
    by_cases hs : event = .settle
    · subst hs
      exact (s.settle_isDraining).trans hd
    · rw [s.apply_eq_of_ne_settle hs]
      exact hd
  | failStartup s =>
    cases hl : s.lifecycle <;> simp_all [ScopeLifecycle.failStartup, ScopeLifecycle.isDraining]
  | drain s reason forced lifecycle result reached =>
    rcases ScopeLifecycle.beginDrain_cases reached with ⟨-, h, -⟩ | ⟨-, h, -⟩ <;> exact h

/-- Entering the drain spends not being in it. -/
theorem drain_entry_step (h : SupervisorCall e) :
    (entersDrain e).toNat + (!e.after.lifecycle.isDraining).toNat
      ≤ (!e.before.lifecycle.isDraining).toNat := by
  have hkeep : (!e.after.lifecycle.isDraining).toNat
      ≤ (!e.before.lifecycle.isDraining).toNat := by
    cases hd : e.before.lifecycle.isDraining with
    | false => exact Bool.toNat_le _
    | true => rw [isDraining_after h hd]
  cases h with
  | admitChild | step | failStartup => simpa [entersDrain] using hkeep
  | drain s reason forced lifecycle result reached =>
    rcases ScopeLifecycle.beginDrain_cases reached with ⟨hb, ha, rfl⟩ | ⟨-, ha, rfl⟩
    · simp [entersDrain, SupervisorState.drained, ha, hb]
    · simp [entersDrain, SupervisorState.drained, ha]

/-! ### Finishing -/

theorem finished_of_isFinished {effect : Effect} (h : effect.isFinished = true) :
    ∃ reason, effect = .finished reason := by
  cases effect with
  | finished reason => exact ⟨reason, rfl⟩
  | startChild c | stopChild c | forceChild c | finalizeRemoval c | startupCompleted c => cases h

/-- Only a settlement finishes. -/
theorem finished_settle (h : SupervisorCall e) {reason : StopReason}
    (hmem : .finished reason ∈ e.output.effects) :
    e.input = .step .settle ∧ e.after = e.before.settle.1 ∧
      .finished reason ∈ e.before.settle.2 := by
  rcases effects_cases h hmem with hsettle | ⟨c, h | h | h⟩
  · exact hsettle
  · cases h
  · cases h
  · cases h

theorem finishEmitted_after (h : SupervisorCall e) (hinput : e.input ≠ .step .settle) :
    e.after.finishEmitted = e.before.finishEmitted := by
  cases h with
  | admitChild | failStartup | drain => rfl
  | step s event =>
    have hs : event ≠ .settle := fun heq => hinput (by rw [heq])
    rw [s.apply_eq_of_ne_settle hs]

theorem countP_isFinished_settle (s : SupervisorState) :
    s.settle.2.countP Effect.isFinished =
      (!s.finishEmitted && s.finishReason.isSome).toNat := by
  have hnone : ∀ l : List Effect, (∀ x ∈ l, x.isFinished = false) →
      l.countP Effect.isFinished = 0 := by
    intro l hl
    rw [List.countP_eq_zero]
    intro x hx
    simp [hl x hx]
  have hstart : s.settleStartup.2.countP Effect.isFinished = 0 := by
    apply hnone
    intro x hx
    obtain ⟨-, hx | ⟨rfl, -⟩⟩ := SupervisorState.settleStartup_effects hx
    · obtain ⟨c, _, rfl, -⟩ := SupervisorState.mem_startCommands_iff.mp hx
      rfl
    · rfl
  have hstop : s.settleStartup.1.settleOrderedStop.2.countP Effect.isFinished = 0 := by
    apply hnone
    intro x hx
    obtain ⟨c, _, rfl, -⟩ := SupervisorState.stopChild_of_mem_settleOrderedStop hx
    rfl
  rw [SupervisorState.settle_snd, List.countP_append, List.countP_append, hstart, hstop,
    SupervisorState.settle_settleFinish]
  cases s.finishEmitted <;> cases s.finishReason <;> simp [Effect.isFinished]

/-- Finishing spends the finish flag. -/
theorem finish_step (h : SupervisorCall e) :
    e.output.effects.countP Effect.isFinished + (!e.after.finishEmitted).toNat
      ≤ (!e.before.finishEmitted).toNat := by
  by_cases hinput : e.input = .step .settle
  · obtain ⟨hafter, houtput⟩ := apply_of_input h hinput
    rw [hafter, houtput]
    simp only [Output.effects, SupervisorState.apply, countP_isFinished_settle,
      SupervisorState.settle_finishEmitted]
    cases e.before.finishEmitted <;> cases e.before.finishReason <;> simp
  · have hzero : e.output.effects.countP Effect.isFinished = 0 := by
      rw [List.countP_eq_zero]
      intro x hx hfin
      obtain ⟨reason, rfl⟩ := finished_of_isFinished hfin
      exact hinput (finished_settle h hx).1
    rw [hzero, finishEmitted_after h hinput, Nat.zero_add]

/-- **The finish flag is set iff `Finished` was emitted.** -/
theorem finishEmitted_iff (h : SupervisorRun flavor tr s) :
    s.finishEmitted = true ↔ ∃ e ∈ tr, ∃ reason, .finished reason ∈ e.output.effects := by
  refine h.history ?_ ?_
  · simp [SupervisorState.new]
  · intro pre e _ he _ ih
    have hcall := call_of_edge he
    have hsnoc : (∃ e' ∈ pre ++ [e], ∃ reason, .finished reason ∈ e'.output.effects) ↔
        e.before.finishEmitted = true ∨ ∃ reason, .finished reason ∈ e.output.effects := by
      rw [ih]
      simp [or_and_right, exists_or]
    rw [hsnoc]
    by_cases hinput : e.input = .step .settle
    · obtain ⟨hafter, houtput⟩ := apply_of_input hcall hinput
      rw [hafter, houtput]
      simp only [Output.effects, SupervisorState.apply, SupervisorState.settle_finishEmitted,
        SupervisorState.finished_mem_settle_iff]
      cases e.before.finishEmitted <;> cases e.before.finishReason <;> simp
    · have hnot : ¬ ∃ reason, .finished reason ∈ e.output.effects := by
        rintro ⟨reason, hmem⟩
        exact hinput (finished_settle hcall hmem).1
      rw [finishEmitted_after hcall hinput]
      simp [hnot]

/-- When a scope may finish, and with which reason. -/
theorem finishIfReady_cases {lifecycle : ScopeLifecycle} {children : ChildCompletionState}
    {reason : StopReason} (h : lifecycle.finishIfReady flavor children = some reason) :
    children.allTerminal = true ∧
      match lifecycle.drainingReason with
      | some held => reason = held
      | none => reason = .finished ∧ flavor = .ordered ∧ children.hasChildren = true ∧
          lifecycle.startupComplete = true := by
  unfold ScopeLifecycle.finishIfReady at h
  cases hd : lifecycle.drainingReason with
  | some held =>
    simp only [hd] at h
    split_ifs at h with hall
    exact ⟨hall, (Option.some.inj h).symm⟩
  | none =>
    simp only [hd] at h
    split_ifs at h with hcond
    obtain ⟨hcomplete, hflavor, hhas, hall⟩ := hcond
    exact ⟨hall, (Option.some.inj h).symm, hflavor, hhas, hcomplete⟩

/-- A draining scope whose children have all joined has a finish verdict. -/
theorem finishReason_of_drained (hd : s.lifecycle.isDraining = true)
    (hj : s.allChildrenJoined = true) : s.finishReason.isSome = true := by
  obtain ⟨drain, hl⟩ := ScopeLifecycle.isDraining_iff.mp hd
  have hafter : s.settle.1.lifecycle = s.lifecycle := by
    rw [SupervisorState.settle_lifecycle, hl]
    simp
  simp [SupervisorState.finishReason, hafter, hl, ScopeLifecycle.finishIfReady,
    ScopeLifecycle.drainingReason, hj]

/-- **Lifecycle verdicts are issued once.** -/
theorem lifecycle_verdicts_once (h : SupervisorRun flavor tr s) :
    tr.countP completesStartup + tr.countP failsStartup + tr.countP abandonsStartup ≤ 1 ∧
      tr.countP entersDrain ≤ 1 ∧
      (∀ e ∈ tr, e.before.lifecycle.isDraining = true → e.after.lifecycle.isDraining = true) ∧
      (runEffects tr).countP Effect.isFinished ≤ 1 ∧
      (∀ e ∈ tr, ∀ reason, .finished reason ∈ e.output.effects →
        e.after.allChildrenJoined = true ∧
        match e.after.lifecycle.drainingReason with
        | some held => reason = held
        | none => reason = .finished ∧ flavor = .ordered ∧ e.after.children.isEmpty = false ∧
            e.after.lifecycle.startupComplete = true) ∧
      ∀ pre e post, tr = pre ++ e :: post → e.input = .step .settle →
        e.before.lifecycle.isDraining = true → e.before.allChildrenJoined = true →
        (∃ reason, .finished reason ∈ e.output.effects) ∨
          ∃ e' ∈ pre, ∃ reason, .finished reason ∈ e'.output.effects := by
  refine ⟨?_, ?_, ?_, ?_, ?_, ?_⟩
  · -- each count is paid for by a bit of the state that is never set again
    have hle := h.weight_le (w := fun e => (completesStartup e).toNat + (failsStartup e).toNat
        + (abandonsStartup e).toNat) (f := fun s => s.lifecycle.isStarting.toNat)
      fun e he _ => startup_verdict_step (call_of_edge he)
    simp only [List.sum_map_add, sum_map_toNat] at hle
    exact (Nat.le_add_right _ _).trans (hle.trans (Bool.toNat_le _))
  · have hle := h.weight_le (w := fun e => (entersDrain e).toNat)
      (f := fun s => (!s.lifecycle.isDraining).toNat)
      fun e he _ => drain_entry_step (call_of_edge he)
    rw [sum_map_toNat] at hle
    exact (Nat.le_add_right _ _).trans (hle.trans (Bool.toNat_le _))
  · intro e he hd
    exact isDraining_after (call_of_edge (h.edge_of_mem he)) hd
  · have hle := h.weight_le (w := fun e => e.output.effects.countP Effect.isFinished)
      (f := fun s => (!s.finishEmitted).toNat)
      fun e he _ => finish_step (call_of_edge he)
    have hsum : (runEffects tr).countP Effect.isFinished =
        (tr.map fun e => e.output.effects.countP Effect.isFinished).sum := List.countP_flatMap
    rw [hsum]
    exact (Nat.le_add_right _ _).trans (hle.trans (Bool.toNat_le _))
  · intro e he reason hmem
    obtain ⟨pre, post, rfl, hpre, hE, -⟩ := h.mem_split he
    obtain ⟨-, hafter, hsettle⟩ := finished_settle (call_of_edge hE) hmem
    obtain ⟨-, hreason⟩ := SupervisorState.finished_mem_settle_iff.mp hsettle
    obtain ⟨hall, hcase⟩ := finishIfReady_cases hreason
    rw [flavor_eq hpre] at hcase
    rw [hafter]
    refine ⟨by simpa [SupervisorState.allChildrenJoined] using hall, ?_⟩
    simpa using hcase
  · rintro pre e post rfl hinput hd hj
    obtain ⟨hpre, he, -⟩ := h.split_at
    cases hf : e.before.finishEmitted with
    | true => exact .inr ((finishEmitted_iff hpre).mp hf)
    | false =>
      obtain ⟨reason, hreason⟩ := Option.isSome_iff_exists.mp (finishReason_of_drained hd hj)
      have hmem := SupervisorState.finished_mem_settle_iff.mpr ⟨hf, hreason⟩
      left
      rw [(apply_of_input (call_of_edge he) hinput).2]
      exact ⟨reason, hmem⟩

/-- Two children of an ordered scope, started and then drained in reverse. -/
def drainedPair : List Input :=
  [.admitChild ⟨1, 1⟩ true, .admitChild ⟨2, 1⟩ true, .step .settle, .step (.spawned 1),
    .step (.ready 1), .step .settle, .step (.spawned 2), .step (.ready 2), .step .settle,
    .beginDrain .shutdownRequested, .step .settle, .step (.incarnationComplete 2),
    .step (.disposalStarted 2), .step (.terminalized 2), .step .settle,
    .step (.incarnationComplete 1), .step (.disposalStarted 1), .step (.terminalized 1),
    .step .settle, .force, .step .settle]

theorem lifecycle_verdicts_once_drainedPair :
    ∃ tr s, SupervisorRun .ordered tr s ∧ tr.countP completesStartup = 1 ∧
      tr.countP entersDrain = 1 ∧ (runEffects tr).countP Effect.isFinished = 1 ∧
      (runEffects tr).countP Effect.isFinished ≤ 1 := by
  have hexec : ∃ tr s, exec Input.apply (.new .ordered .starting) drainedPair = some (tr, s) ∧
      tr.countP completesStartup = 1 ∧ tr.countP entersDrain = 1 ∧
      (runEffects tr).countP Effect.isFinished = 1 :=
    ⟨_, _, rfl, by decide, by decide, by decide⟩
  obtain ⟨tr, s, hrun, hstart, hdrain, hfinish⟩ := hexec
  have honce := lifecycle_verdicts_once (run_of_exec _ hrun)
  exact ⟨tr, s, run_of_exec _ hrun, hstart, hdrain, hfinish, honce.2.2.2.1⟩

/-! ### The order of an ordered drain -/

def Input.isAdmission : Input → Bool
  | .admitChild _ _ => true
  | _ => false

/-- Nothing is admitted once the drain was entered. -/
def NoLateAdmission (tr : List SupervisorEdge) : Prop :=
  ∀ e ∈ tr, e.before.lifecycle.isDraining = true → e.input.isAdmission = false

instance (tr : List SupervisorEdge) : Decidable (NoLateAdmission tr) :=
  inferInstanceAs (Decidable (∀ e ∈ tr, _ → _))

/-- The slot holds the largest incomplete key, or nothing when there is none. -/
def SupervisorState.LastIncomplete (s : SupervisorState) : Option ChildKey → Prop
  | some w => s.isIncomplete w = true ∧ ∀ k, s.isIncomplete k = true → k ≤ w
  | none => ∀ k, s.isIncomplete k = false

/-- Only an admission registers an incomplete child. -/
theorem isIncomplete_before (h : SupervisorCall e) (hold : e.input.isAdmission = false)
    (hk : e.after.isIncomplete k = true) : e.before.isIncomplete k = true := by
  obtain ⟨r', hr', hj'⟩ := SupervisorState.isIncomplete_iff.mp hk
  apply SupervisorState.isIncomplete_iff.mpr
  cases recordStep_of_call h k with
  | untouched same missed unminted => exact ⟨r', same ▸ hr', hj'⟩
  | minted membership initial input key output after =>
    rw [input] at hold
    cases hold
  | stepped event r₀ input target before after output =>
    refine ⟨r₀, before, ?_⟩
    by_contra hne
    have hj : r₀.state.joined = true := by simpa using hne
    rw [ChildRecord.joined_of_move (ChildRecord.move_of_step (after.symm.trans hr')) hj] at hj'
    cases hj'

/-- The cursor and the waiting slot of a draining scope cover its incomplete
children. -/
structure DrainOrder (s : SupervisorState) : Prop where
  covered : ∀ k, s.isIncomplete k = true →
    (∃ c, s.orderedStopCursor = some c ∧ k ≤ c) ∨ s.orderedStopWaiting = some k
  waiting_max : ∀ w, s.orderedStopWaiting = some w → ∀ k, s.isIncomplete k = true → k ≤ w

namespace DrainOrder

/-- A call that keeps both slots and registers nothing keeps the order. -/
theorem of_same (h : DrainOrder e.before) (hcall : SupervisorCall e)
    (hold : e.input.isAdmission = false)
    (hcursor : e.after.orderedStopCursor = e.before.orderedStopCursor)
    (hwaiting : e.after.orderedStopWaiting = e.before.orderedStopWaiting) :
    DrainOrder e.after := by
  refine ⟨?_, ?_⟩
  · intro k hk
    rw [hcursor, hwaiting]
    exact h.covered k (isIncomplete_before hcall hold hk)
  · intro w hw k hk
    rw [hwaiting] at hw
    exact h.waiting_max w hw k (isIncomplete_before hcall hold hk)

end DrainOrder

namespace SupervisorState

@[simp] theorem settle_isIncomplete (s : SupervisorState) (k : ChildKey) :
    s.settle.1.isIncomplete k = s.isIncomplete k := by
  simp [isIncomplete, contains, joined, childState]

/-- The candidate bounds every incomplete child the cursor covers. -/
theorem le_of_stopCandidate {c j : ChildKey} {r : ChildRecord}
    (hcand : s.stopCandidate = some (j, r)) (hc : s.orderedStopCursor = some c) (hkc : k ≤ c)
    (hk : s.isIncomplete k = true) : k ≤ j := by
  unfold stopCandidate at hcand
  rw [hc, Option.bind_some] at hcand
  obtain ⟨-, -, -, hmax⟩ := OrdMap.findDownFrom_eq_some_iff.mp hcand
  obtain ⟨rk, hrk, hj⟩ := isIncomplete_iff.mp hk
  by_contra hlt
  have := hmax k rk hrk hkc (not_le.mp hlt)
  simp [hj] at this

/-- Without a candidate the cursor covers no incomplete child. -/
theorem not_incomplete_of_no_candidate {c : ChildKey} (hcand : s.stopCandidate = none)
    (hc : s.orderedStopCursor = some c) (hkc : k ≤ c) : s.isIncomplete k = false := by
  unfold stopCandidate at hcand
  rw [hc, Option.bind_some] at hcand
  by_contra hne
  obtain ⟨rk, hrk, hj⟩ := isIncomplete_iff.mp (by simpa using hne)
  have := OrdMap.findDownFrom_eq_none_iff.mp hcand k rk hrk hkc
  simp [hj] at this

theorem stopCandidate_spec {j : ChildKey} {r : ChildRecord}
    (hcand : s.stopCandidate = some (j, r)) :
    ∃ c, s.orderedStopCursor = some c ∧ j ≤ c ∧ s.isIncomplete j = true := by
  obtain ⟨c, hc, hfind⟩ := Option.bind_eq_some_iff.mp hcand
  obtain ⟨hget, hle, hj, -⟩ := OrdMap.findDownFrom_eq_some_iff.mp hfind
  exact ⟨c, hc, hle, isIncomplete_iff.mpr ⟨r, hget, by simpa using hj⟩⟩

end SupervisorState

/-- **A draining settlement waits for the last incomplete child**, and its
cursor keeps covering the others. -/
theorem DrainOrder.settle (h : DrainOrder s) (hf : s.flavor = .ordered)
    (hd : s.lifecycle.isDraining = true) :
    DrainOrder s.settle.1 ∧ s.LastIncomplete s.settle.1.orderedStopWaiting := by
  rcases s.waiting_or_idle with ⟨w, hw, hi⟩ | hidle
  · -- still waiting: nothing moves
    obtain ⟨hcursor, hwaiting⟩ := SupervisorState.settle_stop_waiting hw hi
    refine ⟨⟨?_, ?_⟩, ?_⟩
    · intro k hk
      rw [hcursor, hwaiting]
      exact h.covered k (by simpa using hk)
    · intro w' hw' k hk
      rw [hwaiting] at hw'
      exact h.waiting_max w' hw' k (by simpa using hk)
    · rw [hwaiting, hw]
      exact ⟨hi, h.waiting_max w hw⟩
  · -- the cursor alone covers every incomplete child
    have hcover : ∀ k, s.isIncomplete k = true →
        ∃ c, s.orderedStopCursor = some c ∧ k ≤ c := by
      intro k hk
      rcases h.covered k hk with hc | hwk
      · exact hc
      · rw [hidle k hwk] at hk
        cases hk
    obtain ⟨hwaiting, hcursor⟩ := SupervisorState.settle_stop_next hf hd hidle
    cases hcand : s.stopCandidate with
    | none =>
      have hnone : ∀ k, s.isIncomplete k = false := by
        intro k
        by_contra hne
        obtain ⟨c, hc, hkc⟩ := hcover k (by simpa using hne)
        exact hne (SupervisorState.not_incomplete_of_no_candidate hcand hc hkc)
      rw [hcand] at hwaiting
      refine ⟨⟨?_, ?_⟩, ?_⟩
      · intro k hk
        rw [SupervisorState.settle_isIncomplete, hnone k] at hk
        cases hk
      · intro w hw'
        rw [hwaiting] at hw'
        cases hw'
      · rw [hwaiting]
        exact hnone
    | some b =>
      obtain ⟨j, r⟩ := b
      rw [hcand] at hwaiting hcursor
      obtain ⟨c, hc, -, hj⟩ := SupervisorState.stopCandidate_spec hcand
      have hmax : ∀ k, s.isIncomplete k = true → k ≤ j := by
        intro k hk
        obtain ⟨c', hc', hkc⟩ := hcover k hk
        exact SupervisorState.le_of_stopCandidate hcand hc' hkc hk
      refine ⟨⟨?_, ?_⟩, ?_⟩
      · -- an incomplete child below the candidate is at or below its predecessor
        intro k hk
        rw [SupervisorState.settle_isIncomplete] at hk
        rcases (hmax k hk).lt_or_eq with hlt | rfl
        · left
          rw [hcursor, Option.bind_some]
          obtain ⟨rk, hrk, -⟩ := SupervisorState.isIncomplete_iff.mp hk
          cases hp : s.children.previousKey j with
          | none => exact absurd (OrdMap.previousKey_eq_none_iff.mp hp k rk hrk) hlt.not_ge
          | some p =>
            exact ⟨p, rfl, (OrdMap.previousKey_eq_some_iff.mp hp).2.2 k rk hrk hlt⟩
        · exact .inr hwaiting
      · intro w hw' k hk
        obtain rfl := Option.some.inj (hwaiting.symm.trans hw')
        exact hmax k (by simpa using hk)
      · rw [hwaiting]
        exact ⟨hj, hmax⟩

/-- The children a list of effects stops. -/
def stoppedChildren (effects : List Effect) : List ChildKey :=
  effects.filterMap fun effect =>
    match effect with
    | .stopChild child => some child
    | _ => none

/-- The children the settlements of a run stop, in order. -/
def settleStops (tr : List SupervisorEdge) : List ChildKey :=
  (tr.filter fun e => e.input = .step .settle).flatMap fun e => stoppedChildren e.output.effects

theorem mem_stoppedChildren {effects : List Effect} :
    k ∈ stoppedChildren effects ↔ .stopChild k ∈ effects := by
  simp only [stoppedChildren, List.mem_filterMap]
  refine ⟨?_, fun h => ⟨_, h, rfl⟩⟩
  rintro ⟨effect, hmem, heffect⟩
  cases effect with
  | stopChild c =>
    cases heffect
    exact hmem
  | startChild c | forceChild c | finalizeRemoval c | startupCompleted c | finished c =>
    cases heffect

theorem stoppedChildren_eq_nil (h : s.flavor ≠ .ordered ∨ s.lifecycle.isDraining = false ∨
    ∃ w, s.orderedStopWaiting = some w ∧ s.isIncomplete w = true) :
    stoppedChildren s.settle.2 = [] := by
  apply List.eq_nil_iff_forall_not_mem.mpr
  intro c hc
  obtain ⟨hf, hd, hw, -⟩ :=
    SupervisorState.stopChild_mem_settle_iff.mp (mem_stoppedChildren.mp hc)
  rcases h with h | h | ⟨w, hw', hi⟩
  · exact h hf
  · rw [hd] at h
    cases h
  · rw [hw w hw'] at hi
    cases hi

/-- A settlement stops the candidate, once. -/
theorem stoppedChildren_next (hf : s.flavor = .ordered) (hd : s.lifecycle.isDraining = true)
    (hw : ∀ w, s.orderedStopWaiting = some w → s.isIncomplete w = false) :
    stoppedChildren s.settle.2 = (s.stopCandidate.map Prod.fst).toList := by
  have hfinish : ∀ t : SupervisorState, stoppedChildren t.settleFinish.2 = [] := by
    intro t
    apply List.eq_nil_iff_forall_not_mem.mpr
    intro c hc
    obtain ⟨reason, h⟩ := SupervisorState.finished_of_mem_settleFinish (mem_stoppedChildren.mp hc)
    cases h
  have happend : ∀ l₁ l₂, stoppedChildren (l₁ ++ l₂) = stoppedChildren l₁ ++ stoppedChildren l₂ :=
    fun _ _ => List.filterMap_append
  rw [SupervisorState.settle_of_draining hd, happend, hfinish, List.append_nil,
    SupervisorState.settleOrderedStop_eq hf hd hw]
  cases s.stopCandidate <;> rfl

/-- What an ordered scope keeps about its drain. -/
structure DrainHistory (tr : List SupervisorEdge) (s : SupervisorState) : Prop where
  idle : s.lifecycle.isDraining = false → s.orderedStopWaiting = none ∧ settleStops tr = []
  order : s.lifecycle.isDraining = true → DrainOrder s
  ahead : s.lifecycle.isDraining = true → ∀ past ∈ settleStops tr,
    ∀ c, s.orderedStopCursor = some c → c < past
  decreasing : (settleStops tr).Pairwise (· > ·)

theorem settleStops_snoc_of_ne (pre : List SupervisorEdge) (h : e.input ≠ .step .settle) :
    settleStops (pre ++ [e]) = settleStops pre := by
  simp [settleStops, h]

theorem settleStops_snoc (pre : List SupervisorEdge) (h : e.input = .step .settle) :
    settleStops (pre ++ [e]) = settleStops pre ++ stoppedChildren e.output.effects := by
  simp [settleStops, h]

/-- A call that is no settlement, no admission into a drain and keeps the
lifecycle's drain and both slots. -/
theorem DrainHistory.snoc_of_same (h : DrainHistory pre e.before) (hcall : SupervisorCall e)
    (hinput : e.input ≠ .step .settle)
    (hold : e.before.lifecycle.isDraining = true → e.input.isAdmission = false)
    (hdrain : e.after.lifecycle.isDraining = e.before.lifecycle.isDraining)
    (hcursor : e.after.orderedStopCursor = e.before.orderedStopCursor)
    (hwaiting : e.after.orderedStopWaiting = e.before.orderedStopWaiting) :
    DrainHistory (pre ++ [e]) e.after := by
  have hstops := settleStops_snoc_of_ne pre hinput
  refine ⟨?_, ?_, ?_, ?_⟩
  · intro hd
    rw [hwaiting, hstops]
    exact h.idle (hdrain ▸ hd)
  · intro hd
    rw [hdrain] at hd
    exact (h.order hd).of_same hcall (hold hd) hcursor hwaiting
  · intro hd
    rw [hstops, hcursor]
    exact h.ahead (hdrain ▸ hd)
  · rw [hstops]
    exact h.decreasing

theorem DrainHistory.settle (h : DrainHistory pre e.before) (hf : e.before.flavor = .ordered)
    (hinput : e.input = .step .settle) (hafter : e.after = e.before.settle.1)
    (heffects : e.output.effects = e.before.settle.2) : DrainHistory (pre ++ [e]) e.after := by
  have hdrain : e.after.lifecycle.isDraining = e.before.lifecycle.isDraining := by
    rw [hafter, SupervisorState.settle_isDraining]
  have hsnoc := settleStops_snoc pre hinput
  rw [heffects] at hsnoc
  cases hd : e.before.lifecycle.isDraining with
  | false =>
    have hstops := stoppedChildren_eq_nil (.inr (.inl hd))
    rw [hstops, List.append_nil] at hsnoc
    have hslots := SupervisorState.settle_stop_idle (.inr hd)
    rw [hd] at hdrain
    refine ⟨?_, ?_, ?_, ?_⟩
    · intro _
      rw [hafter, hslots.2, hsnoc]
      exact h.idle hd
    · intro hd'
      rw [hdrain] at hd'
      cases hd'
    · intro hd'
      rw [hdrain] at hd'
      cases hd'
    · rw [hsnoc]
      exact h.decreasing
  | true =>
    have hahead := h.ahead hd
    have hnext := (h.order hd).settle hf hd
    rw [hd] at hdrain
    -- left to show: the cursor is below what was stopped so far
    suffices hstops : (∀ past ∈ settleStops (pre ++ [e]),
        ∀ c, e.after.orderedStopCursor = some c → c < past) ∧
        (settleStops (pre ++ [e])).Pairwise (· > ·) by
      refine ⟨?_, fun _ => hafter ▸ hnext.1, fun _ => hstops.1, hstops.2⟩
      intro hd'
      rw [hdrain] at hd'
      cases hd'
    rw [hsnoc, hafter]
    rcases e.before.waiting_or_idle with ⟨w, hw, hi⟩ | hidle
    · -- still waiting: no stop and no move
      rw [stoppedChildren_eq_nil (.inr (.inr ⟨w, hw, hi⟩)), List.append_nil,
        (SupervisorState.settle_stop_waiting hw hi).1]
      exact ⟨hahead, h.decreasing⟩
    · rw [stoppedChildren_next hf hd hidle, (SupervisorState.settle_stop_next hf hd hidle).2]
      cases hcand : e.before.stopCandidate with
      | none => simpa using h.decreasing
      | some b =>
        obtain ⟨j, r⟩ := b
        obtain ⟨c₀, hc₀, hjc₀, -⟩ := SupervisorState.stopCandidate_spec hcand
        have hbelow : ∀ past ∈ settleStops pre, j < past :=
          fun past hpast => lt_of_le_of_lt hjc₀ (hahead past hpast c₀ hc₀)
        refine ⟨?_, ?_⟩
        · intro past hpast c hc
          have hcj : c < j := (OrdMap.previousKey_eq_some_iff.mp hc).2.1
          rcases List.mem_append.mp hpast with hpast | hpast
          · exact hcj.trans (hbelow past hpast)
          · rw [List.mem_singleton.mp hpast]
            exact hcj
        · refine List.pairwise_append.mpr ⟨h.decreasing, List.pairwise_singleton _ _, ?_⟩
          intro past hpast j' hj'
          rw [List.mem_singleton.mp hj']
          exact hbelow past hpast

/-- The call that enters the drain puts the cursor on the last key, above
everything. -/
theorem DrainHistory.enter (h : DrainHistory pre e.before) (hinput : e.input ≠ .step .settle)
    (hbefore : e.before.lifecycle.isDraining = false)
    (hafter : e.after.lifecycle.isDraining = true)
    (hchildren : e.after.children = e.before.children)
    (hcursor : e.after.orderedStopCursor = e.before.children.lastKey)
    (hwaiting : e.after.orderedStopWaiting = e.before.orderedStopWaiting) :
    DrainHistory (pre ++ [e]) e.after := by
  obtain ⟨hidle, hnone⟩ := h.idle hbefore
  have hstops := settleStops_snoc_of_ne pre hinput
  rw [hnone] at hstops
  refine ⟨?_, fun _ => ⟨?_, ?_⟩, ?_, ?_⟩
  · intro hd
    rw [hafter] at hd
    cases hd
  · intro k hk
    obtain ⟨r, hr, -⟩ := SupervisorState.isIncomplete_iff.mp hk
    rw [hchildren] at hr
    left
    cases hlast : e.before.children.lastKey with
    | none =>
      rw [OrdMap.lastKey_eq_none_iff.mp hlast k] at hr
      cases hr
    | some c => exact ⟨c, hcursor.trans hlast, (OrdMap.lastKey_eq_some_iff.mp hlast).2 k r hr⟩
  · intro w hw
    rw [hwaiting, hidle] at hw
    cases hw
  · intro _ past hpast
    rw [hstops] at hpast
    cases hpast
  · rw [hstops]
    exact List.Pairwise.nil

theorem drainHistory (h : SupervisorRun .ordered tr s) (hlate : NoLateAdmission tr) :
    DrainHistory tr s := by
  refine h.history ?_ ?_
  · refine ⟨fun _ => ⟨rfl, rfl⟩, ?_, ?_, List.Pairwise.nil⟩
    · intro hd
      cases hd
    · intro hd
      cases hd
  · intro pre e hrun he hmem hP
    have hflavor := flavor_eq hrun
    have hold := hlate e hmem
    have hcall := call_of_edge he
    cases hcall with
    | admitChild s membership initial =>
      exact hP.snoc_of_same (.admitChild s membership initial) (by simp) hold rfl rfl rfl
    | step s event =>
      by_cases hs : event = .settle
      · subst hs
        exact hP.settle hflavor rfl rfl rfl
      · have hframe := s.apply_eq_of_ne_settle hs
        refine hP.snoc_of_same (.step s event) (by simpa using hs) hold ?_ ?_ ?_
        · rw [hframe]
        · rw [hframe]
        · rw [hframe]
    | failStartup s =>
      refine hP.snoc_of_same (.failStartup s) (by simp) hold ?_ rfl rfl
      cases s.lifecycle <;> rfl
    | drain s reason forced lifecycle result reached =>
      have hne : (if forced then Input.force else .beginDrain reason) ≠ .step .settle := by
        cases forced <;> simp
      rcases ScopeLifecycle.beginDrain_cases reached with ⟨hb, ha, rfl⟩ | ⟨hb, ha, rfl⟩
      · -- the first drain call sets the cursor; a later one changes nothing
        have hord : s.flavor = .ordered := hflavor
        refine hP.enter hne hb ha rfl ?_ rfl
        simp [SupervisorState.drained, hord]
      · refine hP.snoc_of_same (.drain s reason forced lifecycle none reached) hne hold ?_ ?_ rfl
        · exact ha.trans hb.symm
        · simp [SupervisorState.drained]

/-- **Ordered drain order and no stall.**  Every settlement of a draining
ordered scope waits for the last child that has not joined; the stops of
settlements go down strictly, each after every later child has joined or been
reclaimed; and with nothing left to wait for, the scope has finished. -/
theorem ordered_drain_order (h : SupervisorRun .ordered tr s) (hlate : NoLateAdmission tr) :
    (settleStops tr).Pairwise (· > ·) ∧
      ∀ pre e post, tr = pre ++ e :: post → e.input = .step .settle →
        e.before.lifecycle.isDraining = true →
        e.after.LastIncomplete e.after.orderedStopWaiting ∧
        (∀ c, .stopChild c ∈ e.output.effects → ∀ k > c, Admitted k pre →
          e.before.joined k = true ∨ ∃ e' ∈ pre, Reclaimed k e') ∧
        ((∀ k, e.after.isIncomplete k = false) →
          ∃ e' ∈ pre ++ [e], ∃ reason, .finished reason ∈ e'.output.effects) := by
  refine ⟨(drainHistory h hlate).decreasing, ?_⟩
  rintro pre e post rfl hinput hd
  obtain ⟨hpre, he, -⟩ := h.split_at
  have hlate' : NoLateAdmission pre := fun a ha => hlate a (List.mem_append_left _ ha)
  have horder := (drainHistory hpre hlate').order hd
  have hflavor := flavor_eq hpre
  obtain ⟨hafter, houtput⟩ := apply_of_input (call_of_edge he) hinput
  replace hafter : e.after = e.before.settle.1 := hafter
  refine ⟨?_, ?_, ?_⟩
  · have hlast := (horder.settle hflavor hd).2
    rw [hafter]
    cases hw : e.before.settle.1.orderedStopWaiting with
    | none =>
      rw [hw] at hlast
      intro k
      rw [SupervisorState.settle_isIncomplete]
      exact hlast k
    | some w =>
      rw [hw] at hlast
      refine ⟨?_, fun k hk => hlast.2 k (by simpa using hk)⟩
      rw [SupervisorState.settle_isIncomplete]
      exact hlast.1
  · intro c hmem k hkc hk
    rw [houtput] at hmem
    obtain ⟨-, -, hidle, r, hcand⟩ := SupervisorState.stopChild_mem_settle_iff.mp hmem
    cases hr : e.before.children.get? k with
    | none => exact .inr ((accounted hpre).reclaimed_of_missing k hk hr)
    | some rk =>
      left
      rw [joined_of_get? hr]
      by_contra hne
      have hinc := SupervisorState.isIncomplete_iff.mpr ⟨rk, hr, by simpa using hne⟩
      rcases horder.covered k hinc with ⟨c₀, hc₀, hkc₀⟩ | hw
      · exact absurd (SupervisorState.le_of_stopCandidate hcand hc₀ hkc₀ hinc) (not_le.mpr hkc)
      · rw [hidle k hw] at hinc
        cases hinc
  · intro hnone
    apply (finishEmitted_iff (hpre.snoc he)).mp
    have hjoined : e.before.allChildrenJoined = true := by
      apply OrdMap.all_eq_true_iff.mpr
      intro k r hr
      by_contra hne
      have hinc := SupervisorState.isIncomplete_iff.mpr ⟨r, hr, by simpa using hne⟩
      have hk := hnone k
      rw [hafter, SupervisorState.settle_isIncomplete, hinc] at hk
      cases hk
    rw [hafter, SupervisorState.settle_finishEmitted, finishReason_of_drained hd hjoined,
      Bool.or_true]

theorem ordered_drain_order_drainedPair :
    ∃ tr s, SupervisorRun .ordered tr s ∧ NoLateAdmission tr ∧ settleStops tr = [2, 1] ∧
      (settleStops tr).Pairwise (· > ·) := by
  have hexec : ∃ tr s, exec Input.apply (.new .ordered .starting) drainedPair = some (tr, s) ∧
      NoLateAdmission tr ∧ settleStops tr = [2, 1] :=
    ⟨_, _, rfl, by decide, by decide⟩
  obtain ⟨tr, s, hrun, hlate, hstops⟩ := hexec
  have horder := ordered_drain_order (run_of_exec _ hrun) hlate
  exact ⟨tr, s, run_of_exec _ hrun, hlate, hstops, horder.1⟩

end Shelterwood
