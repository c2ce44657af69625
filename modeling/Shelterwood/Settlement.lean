/-
Shelterwood/Settlement.lean

Settlement is a fixed point, and its effects can be acknowledged.

A settlement that is repeated at once finds nothing left to do: the cursor
already stands on the blocker, the waiting slot already holds the last
incomplete child, and the finish flag is spent.  The only effects it repeats
are the start commands, which stand until the shell acknowledges them by
`spawned`.
-/
import Shelterwood.Drain

namespace Shelterwood

variable {flavor : ScopeFlavor} {tr : List SupervisorEdge}
variable {s : SupervisorState} {e : SupervisorEdge} {k : ChildKey}

def Effect.isStartChild : Effect → Bool
  | .startChild _ => true
  | _ => false

namespace SupervisorState

/-! ### Repeating a pending startup pass -/

/-- The blocker blocks from the cursor position it left. -/
theorem startBlocker_again :
    ({ s with nextOrderedStart := s.startBlocker.map Prod.fst } :
      SupervisorState).startBlocker = s.startBlocker := by
  cases hb : s.startBlocker with
  | none => rfl
  | some b =>
    obtain ⟨j, r⟩ := b
    unfold startBlocker at hb
    obtain ⟨c, -, hfind⟩ := Option.bind_eq_some_iff.mp hb
    obtain ⟨hget, -, hblocks, -⟩ := OrdMap.findFrom_eq_some_iff.mp hfind
    simp only [startBlocker, Option.map_some, Option.bind_some]
    exact OrdMap.findFrom_self hget hblocks

/-- A start cursor that was just recomputed changes no startup decision. -/
theorem startup_again :
    ({ s with nextOrderedStart := s.startCursor } : SupervisorState).startCursor = s.startCursor ∧
      ({ s with nextOrderedStart := s.startCursor } : SupervisorState).startCommands
        = s.startCommands ∧
      ({ s with nextOrderedStart := s.startCursor } : SupervisorState).startupDone
        = s.startupDone := by
  have hflavor : s.flavor = .dynamic ∨ s.flavor = .ordered := by cases s.flavor <;> simp
  rcases hflavor with hf | hf
  · have hcursor : s.startCursor = s.nextOrderedStart := by simp only [startCursor, hf]
    rw [hcursor]
    exact ⟨hcursor, rfl, rfl⟩
  · have hcursor : s.startCursor = s.startBlocker.map Prod.fst := by simp only [startCursor, hf]
    -- ordered: the cursor has moved to the blocker, which blocks again at once
    have hready : ({ s with nextOrderedStart := s.startBlocker.map Prod.fst } :
        SupervisorState).initialsReady = s.initialsReady := rfl
    rw [hcursor]
    refine ⟨?_, ?_, ?_⟩
    · simp only [startCursor, hf]
      rw [← hf, startBlocker_again]
    · simp only [startCommands, hf]
      rw [← hf, startBlocker_again]
    · simp only [startupDone, hf]
      rw [← hf, startBlocker_again, hready]

/-! ### Repeating the later passes -/

theorem clear_stop_self (hw : s.orderedStopWaiting = none) (hc : s.orderedStopCursor = none) :
    { s with orderedStopWaiting := none, orderedStopCursor := none } = s := by
  cases s
  simp_all

/-- After a settlement the stop pass is idle. -/
theorem settleOrderedStop_settled (s : SupervisorState) :
    s.settle.1.settleOrderedStop = (s.settle.1, []) := by
  by_cases hact : s.flavor = .ordered ∧ s.lifecycle.isDraining = true
  · obtain ⟨hf, hd⟩ := hact
    rcases s.waiting_or_idle with ⟨w, hw, hi⟩ | hidle
    · apply settleOrderedStop_of_waiting (w := w)
      · rw [(settle_stop_waiting hw hi).2, hw]
      · rw [settle_isIncomplete, hi]
    · obtain ⟨hwaiting, hcursor⟩ := settle_stop_next hf hd hidle
      cases hcand : s.stopCandidate with
      | some b =>
        -- the slot now holds a child that has not joined
        obtain ⟨j, r⟩ := b
        rw [hcand] at hwaiting
        obtain ⟨c, -, -, hj⟩ := stopCandidate_spec hcand
        apply settleOrderedStop_of_waiting hwaiting
        rw [settle_isIncomplete, hj]
      | none =>
        rw [hcand] at hwaiting hcursor
        have hnone : s.settle.1.stopCandidate = none := by
          simp [stopCandidate, hcursor]
        rw [settleOrderedStop_eq (by simp [hf]) (by rw [settle_isDraining, hd])
          (by simp [hwaiting]), hnone]
        simp only [clear_stop_self hwaiting hcursor]
  · apply settleOrderedStop_of_not
    rw [settle_isDraining, (settle_fields s).2.2.2.1]
    by_contra hne
    exact hact (by simpa using hne)

/-- After a settlement the finish pass is idle. -/
theorem settleFinish_settled (s : SupervisorState) :
    s.settle.1.settleFinish = (s.settle.1, []) := by
  have hverdict : s.settle.1.lifecycle.finishIfReady s.settle.1.flavor
      ⟨!s.settle.1.children.isEmpty, s.settle.1.allChildrenJoined⟩ = s.finishReason := by
    simp [finishReason, allChildrenJoined]
  rw [settleFinish_eq, hverdict, settle_finishEmitted]
  cases s.finishEmitted <;> cases s.finishReason <;> rfl

/-- **A settlement that is not starting any more is settled.** -/
theorem settle_settled (h : s.settle.1.lifecycle ≠ .starting) :
    s.settle.1.settle = (s.settle.1, []) := by
  have hstart : s.settle.1.settleStartup = (s.settle.1, []) :=
    settleStartup_of_not_starting h
  have hfst : s.settle.1.settle.1 = s.settle.1 := by
    rw [settle_fst, hstart, settleOrderedStop_settled, settleFinish_settled]
  have hsnd : s.settle.1.settle.2 = [] := by
    rw [settle_snd, hstart, settleOrderedStop_settled, settleFinish_settled]
    rfl
  exact Prod.ext hfst hsnd

/-- A start command keeps startup pending, in well-formed states. -/
theorem pending_of_startChild (hwf : s.RecordsWf)
    (hmem : .startChild k ∈ s.settle.2) : s.startupDone = false := by
  obtain ⟨-, r, hr, hspawn, -, hordered, hdynamic⟩ := startChild_mem_settle_iff.mp hmem
  cases hf : s.flavor with
  | ordered => simp [startupDone, hf, hordered hf]
  | dynamic =>
    -- a child that was never spawned cannot be ready
    have hunready : r.startup = .initial false := by
      cases hs : r.startup with
      | runtime => exact absurd hs (hdynamic hf)
      | initial ready =>
        cases ready with
        | false => rfl
        | true =>
          have hspawned := (hwf k r hr).spawned_of_ready hs
          rw [hspawn] at hspawned
          cases hspawned
    have hnot : s.initialsReady = false := by
      by_contra hne
      have hall := OrdMap.all_eq_true_iff.mp (by simpa [initialsReady] using hne) k r hr
      simp [hunready] at hall
    simp [startupDone, hnot]

end SupervisorState

/-! ### Acknowledging effects -/

theorem mem_incompleteKeys : k ∈ s.incompleteKeys ↔ s.isIncomplete k = true := by
  simp only [SupervisorState.incompleteKeys, List.mem_filter, OrdMap.mem_keys,
    Bool.not_eq_true', SupervisorState.isIncomplete, SupervisorState.contains,
    Bool.and_eq_true, Option.isSome_iff_exists]

/-- A stop or force command names a registered child that has not joined. -/
theorem command_isIncomplete (h : SupervisorCall e)
    (hmem : .stopChild k ∈ e.output.effects ∨ .forceChild k ∈ e.output.effects) :
    e.before.isIncomplete k = true ∧ e.after.isIncomplete k = true := by
  cases h with
  | admitChild | failStartup => simp [Output.effects] at hmem
  | step s event =>
    by_cases hs : event = .settle
    · subst hs
      have hinc : s.isIncomplete k = true := by
        rcases hmem with hmem | hmem
        · obtain ⟨-, -, -, r, hcand⟩ := SupervisorState.stopChild_mem_settle_iff.mp hmem
          obtain ⟨c, -, -, hk⟩ := SupervisorState.stopCandidate_spec hcand
          exact hk
        · rcases SupervisorState.mem_settle_cases (s := s) hmem with
            ⟨⟨_, h⟩, -⟩ | ⟨h, -⟩ | ⟨_, _, h, -⟩ | ⟨⟨_, h⟩, -⟩ <;> cases h
      exact ⟨hinc, by simpa [SupervisorState.apply] using hinc⟩
    · -- among these events only a latch stops, and only an unjoined child
      have hlatch : ∃ r, event = .removalLatched k ∧ s.children.get? k = some r ∧
          r.state.joined = false := by
        rcases hmem with hmem | hmem <;>
          obtain ⟨c, r, hc, hr, heffect⟩ := (SupervisorState.mem_apply_iff hs).mp hmem <;>
          obtain ⟨c', ⟨-, -, -, heq⟩ | ⟨rfl, -, heq⟩⟩ := ChildRecord.mem_effects_iff.mp heffect
        · cases heq
        · split_ifs at heq with hj
          obtain rfl := Effect.stopChild.inj heq
          cases hc
          exact ⟨r, rfl, hr, by simpa using hj⟩
        · cases heq
        · split_ifs at heq
      obtain ⟨r, rfl, hr, hj⟩ := hlatch
      refine ⟨SupervisorState.isIncomplete_iff.mpr ⟨r, hr, hj⟩, ?_⟩
      apply SupervisorState.isIncomplete_iff.mpr
      exact ⟨_, SupervisorState.get?_apply_target (e := .removalLatched k) rfl hr, hj⟩
  | drain s reason forced lifecycle result reached =>
    have hk : k ∈ s.incompleteKeys := by
      simp only [Output.effects, SupervisorState.drainEffects, List.mem_append] at hmem
      rcases hmem with (hmem | hmem) | (hmem | hmem) <;> split_ifs at hmem <;> simp_all
    have hinc := mem_incompleteKeys.mp hk
    exact ⟨hinc, hinc⟩

/-- A `FinalizeRemoval` names a child in `Removing(Joined)`. -/
theorem finalizeRemoval_childState (h : SupervisorCall e)
    (hmem : .finalizeRemoval k ∈ e.output.effects) :
    e.after.childState k = some (.removing .joined) := by
  obtain ⟨r, hr, hcase⟩ := (finalizeRemoval_mem_iff h).mp hmem
  apply childState_eq_some_iff.mpr
  rcases hcase with ⟨hinput, hm, hc⟩ | ⟨hinput, hc, hj⟩
  · have hafter := get?_after_of_input h hinput rfl hr
    simp only [ChildRecord.step, hm, if_true] at hafter
    refine ⟨_, hafter, ?_⟩
    obtain ⟨membership, state, startup, spawnedOnce⟩ := r
    cases state with
    | removing i => rfl
    | resident i | removalSampled i => cases hc
  · refine ⟨_, get?_after_of_input h hinput rfl hr, ?_⟩
    have hinc : r.state.incarnation = .joined := by simpa [ChildState.joined] using hj
    simp [hinc]

/-- **Settlement is a fixed point and its effects can be acknowledged.** -/
theorem settlement_fixed_point (h : SupervisorRun flavor tr s) :
    s.settle.1.settle = (s.settle.1, s.settle.2.filter Effect.isStartChild) ∧
      ((∃ c, .startChild c ∈ s.settle.2) → ∀ effect ∈ s.settle.2,
        effect.isStartupCompleted = false ∧ effect.isFinished = false) ∧
      (∀ c, .startChild c ∈ s.settle.2 →
        (∃ r, s.settle.1.children.get? c = some r ∧ r.startable = true) ∧
        (s.settle.1.apply (.spawned c)).1.childState c = some (.resident .active)) ∧
      ∀ e, stepEdge Input.apply e → e.before = s →
        (∀ c, .stopChild c ∈ e.output.effects ∨ .forceChild c ∈ e.output.effects →
          e.before.isIncomplete c = true ∧ e.after.isIncomplete c = true) ∧
        ∀ c, .finalizeRemoval c ∈ e.output.effects →
          e.after.childState c = some (.removing .joined) := by
  have hwf : s.RecordsWf := wf_of_run h
  have hstarts : ∀ effect ∈ s.startCommands, effect.isStartChild = true := by
    intro effect hmem
    obtain ⟨c, _, rfl, -⟩ := SupervisorState.mem_startCommands_iff.mp hmem
    rfl
  refine ⟨?_, ?_, ?_, ?_⟩
  · by_cases hpending : s.lifecycle = .starting ∧ s.startupDone = false
    · -- still pending: the same pass again
      obtain ⟨hst, hd⟩ := hpending
      obtain ⟨hcursor, hcommands, hdone⟩ := s.startup_again
      rw [SupervisorState.settle_of_pending hst hd]
      simp only
      rw [SupervisorState.settle_of_pending (by exact hst) (hdone.trans hd), hcursor, hcommands,
        List.filter_eq_self.mpr hstarts]
    · -- not pending: nothing is started, and the settled state stays
      have hnot : ∀ c, .startChild c ∉ s.settle.2 := by
        intro c hmem
        exact hpending ⟨(SupervisorState.startChild_mem_settle_iff.mp hmem).1,
          SupervisorState.pending_of_startChild hwf hmem⟩
      have hleft : s.settle.1.lifecycle ≠ .starting := by
        rw [SupervisorState.settle_lifecycle]
        split_ifs with hdone
        · simp
        · intro hst
          exact hpending ⟨hst, by simpa [hst] using hdone⟩
      have hnone : s.settle.2.filter Effect.isStartChild = [] := by
        apply List.filter_eq_nil_iff.mpr
        intro effect hmem
        cases effect with
        | startChild c => exact absurd hmem (hnot c)
        | stopChild c | forceChild c | finalizeRemoval c | startupCompleted c | finished c =>
          simp [Effect.isStartChild]
      rw [SupervisorState.settle_settled hleft, hnone]
  · rintro ⟨c, hmem⟩ effect heffect
    have hst := (SupervisorState.startChild_mem_settle_iff.mp hmem).1
    have hd := SupervisorState.pending_of_startChild hwf hmem
    rw [SupervisorState.settle_of_pending hst hd] at heffect
    obtain ⟨c', _, rfl, -⟩ := SupervisorState.mem_startCommands_iff.mp heffect
    exact ⟨rfl, rfl⟩
  · intro c hmem
    obtain ⟨-, r, hr, -, hstartable, -⟩ := SupervisorState.startChild_mem_settle_iff.mp hmem
    have hr' : s.settle.1.children.get? c = some r := by rw [(s.settle_fields).1, hr]
    refine ⟨⟨r, hr', hstartable⟩, ?_⟩
    apply childState_eq_some_iff.mpr
    have hafter := SupervisorState.get?_apply_target (e := .spawned c) rfl hr'
    simp only [ChildRecord.step, hstartable, if_true] at hafter
    refine ⟨_, hafter, ?_⟩
    rcases ChildRecord.startable_iff.mp hstartable with hs | hs <;>
      simp [hs, ChildState.withIncarnation]
  · rintro e he rfl
    exact ⟨fun c hmem => command_isIncomplete (call_of_edge he) hmem,
      fun c hmem => finalizeRemoval_childState (call_of_edge he) hmem⟩

/-- After the first admissions of `twoStarts` the settlement starts child 1 and
says so again when it is repeated. -/
theorem settlement_fixed_point_two :
    ∃ tr s, SupervisorRun .ordered tr s ∧ s.settle.2 = [.startChild 1] ∧
      s.settle.1.settle.2 = s.settle.2.filter Effect.isStartChild := by
  have hexec : ∃ tr s, exec Input.apply (.new .ordered .starting) (twoStarts.take 2) =
      some (tr, s) ∧ s.settle.2 = [.startChild 1] :=
    ⟨_, _, rfl, by decide⟩
  obtain ⟨tr, s, hrun, hstart⟩ := hexec
  have hfixed := settlement_fixed_point (run_of_exec _ hrun)
  exact ⟨tr, s, run_of_exec _ hrun, hstart, by rw [hfixed.1]⟩

end Shelterwood
