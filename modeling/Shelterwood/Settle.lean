/-
Shelterwood/Settle.lean

Settlement: the level-triggered recomputation of startup, stop and finish.

`settle` composes three passes that each move a cursor, the lifecycle or the
finish flag.  Which of them can act is decided by the lifecycle alone, so the
first part of this file gives one equation per lifecycle; the second reads off
when each kind of effect is emitted.
-/
import Shelterwood.SupervisorStep

namespace Shelterwood

namespace SupervisorState

variable {s : SupervisorState}

/-! ### Frames -/

/-- The startup pass moves only the lifecycle and the start cursor. -/
theorem settleStartup_frame (s : SupervisorState) :
    s.settleStartup.1 = { s with
      lifecycle := s.settleStartup.1.lifecycle
      nextOrderedStart := s.settleStartup.1.nextOrderedStart } := by
  by_cases hst : s.lifecycle = .starting
  · cases hf : s.flavor with
    | ordered =>
      rw [settleStartup_ordered hst hf]
      cases s.startBlocker with
      | none =>
        simp only
        -- the loop ran off the end and asks for the aggregate
        rw [completeIfReady_eq (by exact hst)]
        split_ifs <;> simp [hf]
      | some b => simp [hf]
    | dynamic =>
      rw [settleStartup_dynamic hst hf, completeIfReady_eq hst]
      split_ifs <;> simp [← hf]
  · rw [settleStartup_of_not_starting hst]

/-- The stop pass moves only the stop cursor and the waiting slot. -/
theorem settleOrderedStop_frame (s : SupervisorState) :
    s.settleOrderedStop.1 = { s with
      orderedStopCursor := s.settleOrderedStop.1.orderedStopCursor
      orderedStopWaiting := s.settleOrderedStop.1.orderedStopWaiting } := by
  by_cases hact : s.flavor = .ordered ∧ s.lifecycle.isDraining = true
  · rcases s.waiting_or_idle with ⟨w, hw, hi⟩ | hidle
    · rw [settleOrderedStop_of_waiting hw hi]
    · rw [settleOrderedStop_eq hact.1 hact.2 hidle]
      cases s.stopCandidate <;> rfl
  · have hnot : s.flavor ≠ .ordered ∨ s.lifecycle.isDraining = false := by
      by_cases hf : s.flavor = .ordered
      · exact .inr (by simpa using fun hd => hact ⟨hf, hd⟩)
      · exact .inl hf
    rw [settleOrderedStop_of_not hnot]

/-- The finish pass moves only the finish flag. -/
theorem settleFinish_frame (s : SupervisorState) :
    s.settleFinish.1 = { s with finishEmitted := s.settleFinish.1.finishEmitted } := by
  rw [settleFinish_eq]
  split <;> rfl

@[simp] theorem settleStartup_fields (s : SupervisorState) :
    s.settleStartup.1.children = s.children ∧ s.settleStartup.1.childKeys = s.childKeys ∧
      s.settleStartup.1.keys = s.keys ∧ s.settleStartup.1.flavor = s.flavor ∧
      s.settleStartup.1.orderedStopCursor = s.orderedStopCursor ∧
      s.settleStartup.1.orderedStopWaiting = s.orderedStopWaiting ∧
      s.settleStartup.1.hardForced = s.hardForced ∧
      s.settleStartup.1.finishEmitted = s.finishEmitted := by
  rw [settleStartup_frame]
  simp

@[simp] theorem settleOrderedStop_fields (s : SupervisorState) :
    s.settleOrderedStop.1.children = s.children ∧
      s.settleOrderedStop.1.childKeys = s.childKeys ∧ s.settleOrderedStop.1.keys = s.keys ∧
      s.settleOrderedStop.1.flavor = s.flavor ∧
      s.settleOrderedStop.1.lifecycle = s.lifecycle ∧
      s.settleOrderedStop.1.nextOrderedStart = s.nextOrderedStart ∧
      s.settleOrderedStop.1.hardForced = s.hardForced ∧
      s.settleOrderedStop.1.finishEmitted = s.finishEmitted := by
  rw [settleOrderedStop_frame]
  simp

@[simp] theorem settleFinish_fields (s : SupervisorState) :
    s.settleFinish.1.children = s.children ∧ s.settleFinish.1.childKeys = s.childKeys ∧
      s.settleFinish.1.keys = s.keys ∧ s.settleFinish.1.flavor = s.flavor ∧
      s.settleFinish.1.lifecycle = s.lifecycle ∧
      s.settleFinish.1.nextOrderedStart = s.nextOrderedStart ∧
      s.settleFinish.1.orderedStopCursor = s.orderedStopCursor ∧
      s.settleFinish.1.orderedStopWaiting = s.orderedStopWaiting ∧
      s.settleFinish.1.hardForced = s.hardForced := by
  rw [settleFinish_frame]
  simp

theorem settle_fst (s : SupervisorState) :
    s.settle.1 = s.settleStartup.1.settleOrderedStop.1.settleFinish.1 := rfl

theorem settle_snd (s : SupervisorState) :
    s.settle.2 = s.settleStartup.2 ++ s.settleStartup.1.settleOrderedStop.2
      ++ s.settleStartup.1.settleOrderedStop.1.settleFinish.2 := rfl

/-- **Settlement changes no record**, no index, no counter and no flavor. -/
@[simp] theorem settle_fields (s : SupervisorState) :
    s.settle.1.children = s.children ∧ s.settle.1.childKeys = s.childKeys ∧
      s.settle.1.keys = s.keys ∧ s.settle.1.flavor = s.flavor ∧
      s.settle.1.hardForced = s.hardForced := by
  simp [settle_fst]

/-! ### One equation per pass -/

/-- The start commands of a startup pass. -/
def startCommands (s : SupervisorState) : List Effect :=
  match s.flavor with
  | .ordered => (s.startBlocker.map fun b => b.2.startCommand b.1).getD []
  | .dynamic => s.dynamicStarts

/-- Where a startup pass leaves the start cursor. -/
def startCursor (s : SupervisorState) : Option ChildKey :=
  match s.flavor with
  | .ordered => s.startBlocker.map Prod.fst
  | .dynamic => s.nextOrderedStart

/-- Whether a startup pass completes startup. -/
def startupDone (s : SupervisorState) : Bool :=
  s.initialsReady && (s.flavor = .dynamic || s.startBlocker.isNone)

/-- The startup pass of a starting scope, for both flavors at once. -/
theorem settleStartup_eq (h : s.lifecycle = .starting) :
    s.settleStartup =
      ({ s with
          lifecycle := if s.startupDone then .running else .starting
          nextOrderedStart := s.startCursor },
        s.startCommands ++ if s.startupDone then [.startupCompleted .running] else []) := by
  cases hf : s.flavor with
  | ordered =>
    rw [settleStartup_ordered h hf]
    cases hb : s.startBlocker with
    | none =>
      simp only
      rw [completeIfReady_eq (by exact h)]
      -- the aggregate reads no cursor
      have hready : ({ s with nextOrderedStart := none } : SupervisorState).initialsReady
          = s.initialsReady := rfl
      rw [hready]
      by_cases hr : s.initialsReady = true <;>
        simp [startupDone, startCursor, startCommands, hf, hb, hr, h]
    | some b => simp [startupDone, startCursor, startCommands, hf, hb, h]
  | dynamic =>
    have hdone : s.startupDone = s.initialsReady := by simp [startupDone, hf]
    have hcursor : s.startCursor = s.nextOrderedStart := by simp only [startCursor, hf]
    have hstarts : s.startCommands = s.dynamicStarts := by simp only [startCommands, hf]
    have hself : { s with lifecycle := .starting } = s := by rw [← h]
    rw [settleStartup_dynamic h hf, completeIfReady_eq h, hdone, hcursor, hstarts]
    by_cases hr : s.initialsReady = true
    · simp [hr, ← hf]
    · simp [hr, ← hf, hself]

theorem settleStartup_isDraining (s : SupervisorState) :
    s.settleStartup.1.lifecycle.isDraining = s.lifecycle.isDraining := by
  by_cases hst : s.lifecycle = .starting
  · rw [settleStartup_eq hst, hst]
    simp only
    split_ifs <;> rfl
  · rw [settleStartup_of_not_starting hst]

/-- A scope that is not draining has no stop pass. -/
theorem settle_of_not_draining (h : s.lifecycle.isDraining = false) :
    s.settle = (s.settleStartup.1.settleFinish.1,
      s.settleStartup.2 ++ s.settleStartup.1.settleFinish.2) := by
  -- completing startup does not enter a drain
  have hstop : s.settleStartup.1.settleOrderedStop = (s.settleStartup.1, []) := by
    apply settleOrderedStop_of_not
    right
    rwa [settleStartup_isDraining]
  unfold settle
  simp only [hstop, List.append_nil]

/-- A draining scope has no startup pass. -/
theorem settle_of_draining (h : s.lifecycle.isDraining = true) :
    s.settle = (s.settleOrderedStop.1.settleFinish.1,
      s.settleOrderedStop.2 ++ s.settleOrderedStop.1.settleFinish.2) := by
  have hstart := settleStartup_of_not_starting (ScopeLifecycle.ne_starting_of_isDraining h)
  unfold settle
  simp only [hstart, List.nil_append]

/-- A settled scope has the lifecycle its startup pass decided. -/
theorem settle_lifecycle (s : SupervisorState) :
    s.settle.1.lifecycle =
      if s.lifecycle = .starting ∧ s.startupDone = true then .running else s.lifecycle := by
  simp only [settle_fst, settleFinish_fields, settleOrderedStop_fields]
  by_cases hst : s.lifecycle = .starting
  · rw [settleStartup_eq hst]
    by_cases hd : s.startupDone = true <;> simp [hst, hd]
  · rw [settleStartup_of_not_starting hst]
    simp [hst]

theorem settle_isDraining (s : SupervisorState) :
    s.settle.1.lifecycle.isDraining = s.lifecycle.isDraining := by
  simp only [settle_fst, settleFinish_fields, settleOrderedStop_fields, settleStartup_isDraining]

/-- Without a stop pass the stop cursor and the waiting slot stay. -/
theorem settle_stop_idle (h : s.flavor ≠ .ordered ∨ s.lifecycle.isDraining = false) :
    s.settle.1.orderedStopCursor = s.orderedStopCursor ∧
      s.settle.1.orderedStopWaiting = s.orderedStopWaiting := by
  have hstop : s.settleStartup.1.settleOrderedStop = (s.settleStartup.1, []) := by
    apply settleOrderedStop_of_not
    rwa [settleStartup_isDraining, (settleStartup_fields s).2.2.2.1]
  simp [settle_fst, hstop]

/-! ### When an effect is emitted -/

variable {effect : Effect}

/-- Both flavors start only registered, startable, never spawned children. -/
theorem mem_startCommands_iff :
    effect ∈ s.startCommands ↔ ∃ c r, effect = .startChild c ∧ s.children.get? c = some r ∧
      r.spawnedOnce = false ∧ r.startable = true ∧
      (s.flavor = .ordered → s.startBlocker = some (c, r)) ∧
      (s.flavor = .dynamic → r.startup ≠ .runtime) := by
  cases hf : s.flavor with
  | ordered =>
    simp only [startCommands, hf, reduceCtorEq, false_implies, true_implies, and_true]
    cases hb : s.startBlocker with
    | none => simp
    | some b =>
      obtain ⟨j, r⟩ := b
      have hget : s.children.get? j = some r := by
        unfold startBlocker at hb
        obtain ⟨c, -, hfind⟩ := Option.bind_eq_some_iff.mp hb
        exact (OrdMap.findFrom_eq_some_iff.mp hfind).1
      simp only [Option.map_some, Option.getD_some, ChildRecord.startCommand,
        Option.some.injEq, Prod.mk.injEq]
      split_ifs with hcmd
      · simp only [Bool.not_eq_true', List.mem_singleton] at hcmd ⊢
        refine ⟨?_, ?_⟩
        · intro he
          exact ⟨j, r, he, hget, hcmd.1, hcmd.2, rfl, rfl⟩
        · rintro ⟨c, r', he, -, -, -, rfl, rfl⟩
          exact he
      · simp only [List.not_mem_nil, false_iff]
        rintro ⟨c, r', -, -, hs, hst, rfl, rfl⟩
        exact hcmd ⟨by simp [hs], hst⟩
  | dynamic =>
    simp only [startCommands, hf, dynamicStarts, List.mem_filterMap, reduceCtorEq,
      false_implies, true_implies, true_and]
    refine ⟨?_, ?_⟩
    · rintro ⟨⟨c, r⟩, hmem, he⟩
      split_ifs at he with hcmd
      cases he
      obtain ⟨hi, hs, hst⟩ := hcmd
      exact ⟨c, r, rfl, OrdMap.get?_eq_some_iff.mpr hmem, by simpa using hs, hst, hi⟩
    · rintro ⟨c, r, rfl, hget, hs, hst, hi⟩
      refine ⟨(c, r), OrdMap.get?_eq_some_iff.mp hget, ?_⟩
      rw [if_pos ⟨hi, by simp [hs], hst⟩]

theorem finished_of_mem_settleFinish (h : effect ∈ s.settleFinish.2) :
    ∃ reason, effect = .finished reason := by
  rw [settleFinish_eq] at h
  split at h
  · exact ⟨_, List.mem_singleton.mp h⟩
  · simp at h

theorem stopChild_of_mem_settleOrderedStop (h : effect ∈ s.settleOrderedStop.2) :
    ∃ c r, effect = .stopChild c ∧ s.flavor = .ordered ∧ s.lifecycle.isDraining = true ∧
      (∀ w, s.orderedStopWaiting = some w → s.isIncomplete w = false) ∧
      s.stopCandidate = some (c, r) := by
  by_cases hact : s.flavor = .ordered ∧ s.lifecycle.isDraining = true
  · rcases s.waiting_or_idle with ⟨w, hw, hi⟩ | hidle
    · rw [settleOrderedStop_of_waiting hw hi] at h
      simp at h
    · rw [settleOrderedStop_eq hact.1 hact.2 hidle] at h
      cases hc : s.stopCandidate with
      | none => simp [hc] at h
      | some b =>
        simp only [hc, List.mem_singleton] at h
        exact ⟨b.1, b.2, h, hact.1, hact.2, hidle, rfl⟩
  · rw [settleOrderedStop_of_not (by by_contra hne; simp_all)] at h
    simp at h

theorem settleStartup_effects (h : effect ∈ s.settleStartup.2) :
    s.lifecycle = .starting ∧
      (effect ∈ s.startCommands ∨ effect = .startupCompleted .running ∧ s.startupDone = true) := by
  by_cases hst : s.lifecycle = .starting
  · rw [settleStartup_eq hst] at h
    refine ⟨hst, ?_⟩
    rcases List.mem_append.mp h with h | h
    · exact .inl h
    · split_ifs at h with hd
      · exact .inr ⟨List.mem_singleton.mp h, hd⟩
      · simp at h
  · rw [settleStartup_of_not_starting hst] at h
    simp at h

/-- **A settlement emits four kinds of effect**, each by one pass. -/
theorem mem_settle_cases (h : effect ∈ s.settle.2) :
    ((∃ c, effect = .startChild c) ∧ s.lifecycle = .starting ∧ effect ∈ s.startCommands) ∨
      (effect = .startupCompleted .running ∧ s.lifecycle = .starting ∧ s.startupDone = true) ∨
      (∃ c r, effect = .stopChild c ∧ s.flavor = .ordered ∧ s.lifecycle.isDraining = true ∧
        (∀ w, s.orderedStopWaiting = some w → s.isIncomplete w = false) ∧
        s.stopCandidate = some (c, r)) ∨
      ((∃ reason, effect = .finished reason) ∧
        effect ∈ s.settleStartup.1.settleOrderedStop.1.settleFinish.2) := by
  rw [settle_snd, List.mem_append, List.mem_append] at h
  rcases h with (h | h) | h
  · obtain ⟨hst, hcommand | ⟨heq, hdone⟩⟩ := settleStartup_effects h
    · obtain ⟨c, _, heq, -⟩ := mem_startCommands_iff.mp hcommand
      exact .inl ⟨⟨c, heq⟩, hst, hcommand⟩
    · exact .inr (.inl ⟨heq, hst, hdone⟩)
  · obtain ⟨c, r, heq, hf, hd, hw, hc⟩ := stopChild_of_mem_settleOrderedStop h
    -- the startup pass of a draining scope changes nothing
    rw [settleStartup_isDraining] at hd
    rw [settleStartup_of_not_starting (ScopeLifecycle.ne_starting_of_isDraining hd)] at hf hw hc
    exact .inr (.inr (.inl ⟨c, r, heq, hf, hd, hw, hc⟩))
  · exact .inr (.inr (.inr ⟨finished_of_mem_settleFinish h, h⟩))

/-- **What a settlement starts.** -/
theorem startChild_mem_settle_iff {c : ChildKey} :
    .startChild c ∈ s.settle.2 ↔ s.lifecycle = .starting ∧
      ∃ r, s.children.get? c = some r ∧ r.spawnedOnce = false ∧ r.startable = true ∧
        (s.flavor = .ordered → s.startBlocker = some (c, r)) ∧
        (s.flavor = .dynamic → r.startup ≠ .runtime) := by
  refine ⟨?_, ?_⟩
  · intro h
    rcases mem_settle_cases h with ⟨-, hst, hmem⟩ | ⟨heq, -⟩ | ⟨_, _, heq, -⟩ | ⟨⟨_, heq⟩, -⟩
    · obtain ⟨c', r, heq, hrest⟩ := mem_startCommands_iff.mp hmem
      obtain rfl := Effect.startChild.inj heq
      exact ⟨hst, r, hrest⟩
    all_goals cases heq
  · rintro ⟨hst, r, hrest⟩
    rw [settle_snd, settleStartup_eq hst]
    apply List.mem_append_left
    apply List.mem_append_left
    exact List.mem_append_left _ (mem_startCommands_iff.mpr ⟨c, r, rfl, hrest⟩)

/-- **When a settlement completes startup.** -/
theorem startupCompleted_mem_settle_iff {state : ScopeState} :
    .startupCompleted state ∈ s.settle.2 ↔
      state = .running ∧ s.lifecycle = .starting ∧ s.startupDone = true := by
  refine ⟨?_, ?_⟩
  · intro h
    rcases mem_settle_cases h with ⟨⟨_, heq⟩, -⟩ | ⟨heq, hverdict⟩ | ⟨_, _, heq, -⟩ | ⟨⟨_, heq⟩, -⟩
    · cases heq
    · exact ⟨Effect.startupCompleted.inj heq, hverdict⟩
    all_goals cases heq
  · rintro ⟨rfl, hst, hd⟩
    rw [settle_snd, settleStartup_eq hst]
    simp [hd]

/-- **What a settlement stops.** -/
theorem stopChild_mem_settle_iff {c : ChildKey} :
    .stopChild c ∈ s.settle.2 ↔ s.flavor = .ordered ∧ s.lifecycle.isDraining = true ∧
      (∀ w, s.orderedStopWaiting = some w → s.isIncomplete w = false) ∧
      ∃ r, s.stopCandidate = some (c, r) := by
  refine ⟨?_, ?_⟩
  · intro h
    rcases mem_settle_cases h with
      ⟨⟨_, heq⟩, -⟩ | ⟨heq, -⟩ | ⟨c', r, heq, hf, hd, hw, hc⟩ | ⟨⟨_, heq⟩, -⟩
    · cases heq
    · cases heq
    · obtain rfl := Effect.stopChild.inj heq
      exact ⟨hf, hd, hw, r, hc⟩
    · cases heq
  · rintro ⟨hf, hd, hw, r, hc⟩
    rw [settle_of_draining hd, settleOrderedStop_eq hf hd hw, hc]
    simp

/-- The finish verdict of a settlement, read in the state it leaves. -/
def finishReason (s : SupervisorState) : Option StopReason :=
  s.settle.1.lifecycle.finishIfReady s.flavor ⟨!s.children.isEmpty, s.allChildrenJoined⟩

/-- The finish pass of a settlement acts on `finishReason`. -/
theorem settle_settleFinish (s : SupervisorState) :
    s.settleStartup.1.settleOrderedStop.1.settleFinish =
      match s.finishEmitted, s.finishReason with
      | false, some reason =>
        ({ s.settleStartup.1.settleOrderedStop.1 with finishEmitted := true },
          [.finished reason])
      | _, _ => (s.settleStartup.1.settleOrderedStop.1, []) := by
  -- the three passes touch nothing the verdict reads but the lifecycle
  have hverdict : s.finishReason = s.settleStartup.1.settleOrderedStop.1.lifecycle.finishIfReady
      s.settleStartup.1.settleOrderedStop.1.flavor
      ⟨!s.settleStartup.1.settleOrderedStop.1.children.isEmpty,
        s.settleStartup.1.settleOrderedStop.1.allChildrenJoined⟩ := by
    simp [finishReason, settle_fst, allChildrenJoined]
  have hflag : s.settleStartup.1.settleOrderedStop.1.finishEmitted = s.finishEmitted := by simp
  have hpass := settleFinish_eq s.settleStartup.1.settleOrderedStop.1
  rw [← hverdict, hflag] at hpass
  exact hpass

/-- **When a settlement finishes the scope.** -/
theorem finished_mem_settle_iff {reason : StopReason} :
    .finished reason ∈ s.settle.2 ↔
      s.finishEmitted = false ∧ s.finishReason = some reason := by
  have hlate : .finished reason ∈ s.settle.2 ↔
      .finished reason ∈ s.settleStartup.1.settleOrderedStop.1.settleFinish.2 := by
    refine ⟨?_, List.mem_append_right _⟩
    intro h
    rcases mem_settle_cases h with ⟨⟨_, heq⟩, -⟩ | ⟨heq, -⟩ | ⟨_, _, heq, -⟩ | ⟨-, hlast⟩
    · cases heq
    · cases heq
    · cases heq
    · exact hlast
  rw [hlate, settle_settleFinish]
  cases s.finishEmitted <;> cases s.finishReason <;> simp [eq_comm]

/-- The finish flag after a settlement. -/
theorem settle_finishEmitted (s : SupervisorState) :
    s.settle.1.finishEmitted = (s.finishEmitted || s.finishReason.isSome) := by
  rw [settle_fst, settle_settleFinish]
  cases hf : s.finishEmitted <;> cases s.finishReason <;> simp [hf]

/-- The start cursor after a settlement. -/
theorem settle_nextOrderedStart (s : SupervisorState) :
    s.settle.1.nextOrderedStart =
      if s.lifecycle = .starting then s.startCursor else s.nextOrderedStart := by
  simp only [settle_fst, settleFinish_fields, settleOrderedStop_fields]
  split_ifs with hst
  · rw [settleStartup_eq hst]
  · rw [settleStartup_of_not_starting hst]

/-- While startup is pending a settlement moves only the start cursor. -/
theorem settle_of_pending (hst : s.lifecycle = .starting) (hd : s.startupDone = false) :
    s.settle = ({ s with nextOrderedStart := s.startCursor }, s.startCommands) := by
  have hself : ({ s with lifecycle := .starting, nextOrderedStart := s.startCursor } :
      SupervisorState) = { s with nextOrderedStart := s.startCursor } := by
    rw [← hst]
  -- a starting scope neither drains nor has completed, so it cannot finish
  have hfinish : ({ s with nextOrderedStart := s.startCursor } : SupervisorState).settleFinish =
      ({ s with nextOrderedStart := s.startCursor }, []) := by
    rw [settleFinish_eq]
    simp [hst, ScopeLifecycle.finishIfReady, ScopeLifecycle.drainingReason,
      ScopeLifecycle.startupComplete]
  rw [settle_of_not_draining (by rw [hst]; rfl), settleStartup_eq hst]
  simp only [hd, Bool.false_eq_true, if_false, List.append_nil, hself, hfinish]

/-- A waiting slot that holds an incomplete child keeps the stop pass idle. -/
theorem settle_stop_waiting {w : ChildKey} (hw : s.orderedStopWaiting = some w)
    (hi : s.isIncomplete w = true) :
    s.settle.1.orderedStopCursor = s.orderedStopCursor ∧
      s.settle.1.orderedStopWaiting = s.orderedStopWaiting := by
  have hstop : s.settleStartup.1.settleOrderedStop = (s.settleStartup.1, []) := by
    apply settleOrderedStop_of_waiting (w := w)
    · rwa [(settleStartup_fields s).2.2.2.2.2.1]
    · simpa [isIncomplete, contains, joined, childState] using hi
  simp [settle_fst, hstop]

/-- Otherwise the stop pass moves on to the next candidate. -/
theorem settle_stop_next (hf : s.flavor = .ordered) (hd : s.lifecycle.isDraining = true)
    (hw : ∀ w, s.orderedStopWaiting = some w → s.isIncomplete w = false) :
    s.settle.1.orderedStopWaiting = s.stopCandidate.map Prod.fst ∧
      s.settle.1.orderedStopCursor =
        s.stopCandidate.bind fun b => s.children.previousKey b.1 := by
  rw [settle_of_draining hd, settleOrderedStop_eq hf hd hw]
  cases s.stopCandidate <;> simp

end SupervisorState

end Shelterwood
