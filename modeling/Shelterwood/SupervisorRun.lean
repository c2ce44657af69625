/-
Shelterwood/SupervisorRun.lean

Supervisor runs: any finite sequence of reducer calls on a fresh scope.

`SupervisorCall` lists what one call can do, with its result, and
`call_of_edge` says that the reducer does nothing else.  Every invariant of this
development is derived from that list: first the local one of a child record
(`ChildRecord.Wf`), then the ones that tie the arena to the history of the run
(`Accounted`): which keys were minted, which were reclaimed, and what was
accepted for them.

A call that aborts or unwinds has no edge, so a run never contains one.
-/
import Shelterwood.Settle
import Mathlib.Data.List.Destutter

namespace Shelterwood

/-- A run of a fresh scope of the given flavor. -/
abbrev SupervisorRun (flavor : ScopeFlavor) (tr : List SupervisorEdge)
    (s : SupervisorState) : Prop :=
  Run (stepEdge Input.apply) (.new flavor .starting) tr s

/-! ### What one call can do -/

namespace SupervisorState

/-- The state after an admission. -/
def admitted (s : SupervisorState) (membership : Membership) (initial : Bool) :
    SupervisorState :=
  { s with
    keys := ⟨s.keys.current + 1⟩
    children := s.children.insert (s.keys.current + 1) (admittedRecord membership initial)
    childKeys := s.childKeys.insert membership (s.keys.current + 1)
    nextOrderedStart :=
      if initial ∧ s.flavor = .ordered ∧ s.nextOrderedStart = none then
        some (s.keys.current + 1)
      else s.nextOrderedStart }

/-- The state after a drain command, with the lifecycle it left, whether it
entered the drain and whether it forced. -/
def drained (s : SupervisorState) (lifecycle : ScopeLifecycle) (entered forced : Bool) :
    SupervisorState :=
  { s with
    lifecycle := lifecycle
    orderedStopCursor :=
      if entered ∧ s.flavor = .ordered then s.children.lastKey else s.orderedStopCursor
    hardForced := s.hardForced || forced }

/-- The commands a drain command emits. -/
def drainEffects (s : SupervisorState) (entered forced : Bool) : List Effect :=
  (if entered ∧ s.flavor = .dynamic then s.incompleteKeys.map .stopChild else []) ++
    if forced then s.incompleteKeys.map .forceChild else []

variable {result : Option (Bool × ScopeState)}

theorem beginDrain_eq_ok {s s' : SupervisorState} {reason : StopReason} {effects : List Effect}
    (h : s.beginDrain reason = .ok (s', effects, result)) :
    ∃ lifecycle, s.lifecycle.beginDrain reason = .ok (lifecycle, result) ∧
      s' = s.drained lifecycle result.isSome false ∧
      effects = s.drainEffects result.isSome false := by
  unfold beginDrain at h
  cases hb : s.lifecycle.beginDrain reason with
  | error fault => simp [hb] at h
  | ok r =>
    obtain ⟨lifecycle, r⟩ := r
    cases r with
    | none =>
      simp only [hb, Except.ok.injEq, Prod.mk.injEq] at h
      obtain ⟨rfl, rfl, rfl⟩ := h
      exact ⟨lifecycle, rfl, by simp [drained], by simp [drainEffects]⟩
    | some effect =>
      cases hf : s.flavor <;>
        simp only [hb, hf, Except.ok.injEq, Prod.mk.injEq] at h <;>
        obtain ⟨rfl, rfl, rfl⟩ := h <;>
        exact ⟨lifecycle, rfl, by simp [drained, hf], by simp [drainEffects, hf]⟩

theorem force_eq_ok {s s' : SupervisorState} {effects : List Effect}
    (h : s.force = .ok (s', effects, result)) :
    ∃ lifecycle, s.lifecycle.beginDrain .shutdownRequested = .ok (lifecycle, result) ∧
      s' = s.drained lifecycle result.isSome true ∧
      effects = s.drainEffects result.isSome true := by
  unfold force at h
  cases hb : ({ s with hardForced := true } : SupervisorState).beginDrain
      .shutdownRequested with
  | error fault => simp [hb] at h
  | ok r =>
    obtain ⟨s₁, effects₁, result₁⟩ := r
    simp only [hb, Except.ok.injEq, Prod.mk.injEq] at h
    obtain ⟨rfl, rfl, rfl⟩ := h
    obtain ⟨lifecycle, hl, rfl, rfl⟩ := beginDrain_eq_ok hb
    exact ⟨lifecycle, hl, by simp [drained],
      by simp [drainEffects, drained, incompleteKeys, joined, childState]⟩

end SupervisorState

/-- **What one reducer call can do.**  A forced drain is a drain with reason
`ShutdownRequested` that also forces every incomplete child. -/
inductive SupervisorCall : SupervisorEdge → Prop
  | admitChild (s : SupervisorState) (membership : Membership) (initial : Bool) :
      SupervisorCall ⟨s, .admitChild membership initial, .admitted (s.keys.current + 1),
        s.admitted membership initial⟩
  | step (s : SupervisorState) (event : Event) :
      SupervisorCall ⟨s, .step event, .stepped (s.apply event).2, (s.apply event).1⟩
  | failStartup (s : SupervisorState) :
      SupervisorCall ⟨s, .failStartup, .startupFailed s.lifecycle.failStartup.2,
        { s with lifecycle := s.lifecycle.failStartup.1 }⟩
  | drain (s : SupervisorState) (reason : StopReason) (forced : Bool)
      (lifecycle : ScopeLifecycle) (result : Option (Bool × ScopeState))
      (reached : s.lifecycle.beginDrain reason = .ok (lifecycle, result)) :
      SupervisorCall ⟨s, if forced then .force else .beginDrain reason,
        .drained (s.drainEffects result.isSome forced) result,
        s.drained lifecycle result.isSome forced⟩

variable {e : SupervisorEdge}

theorem call_of_edge (h : stepEdge Input.apply e) : SupervisorCall e := by
  obtain ⟨s, input, output, s'⟩ := e
  -- an edge is a call that returned, so aborting calls drop out
  change Input.apply s input = some (s', output) at h
  cases input with
  | admitChild membership initial =>
    simp only [Input.apply, SupervisorState.admitChild] at h
    cases hm : s.keys.mint with
    | error fault => simp [hm] at h
    | ok r =>
      obtain ⟨child, keys⟩ := r
      obtain ⟨rfl, rfl, -⟩ := MonotonicCounter.mint_eq_ok_iff.mp hm
      simp only [hm] at h
      cases h
      exact .admitChild s membership initial
  | step event =>
    cases h
    exact .step s event
  | failStartup =>
    cases h
    exact .failStartup s
  | beginDrain reason =>
    simp only [Input.apply] at h
    cases hb : s.beginDrain reason with
    | error fault => simp [hb] at h
    | ok r =>
      obtain ⟨s₁, effects, result⟩ := r
      simp only [hb] at h
      cases h
      obtain ⟨lifecycle, hl, rfl, rfl⟩ := SupervisorState.beginDrain_eq_ok hb
      exact .drain s reason false lifecycle result hl
  | force =>
    simp only [Input.apply] at h
    cases hb : s.force with
    | error fault => simp [hb] at h
    | ok r =>
      obtain ⟨s₁, effects, result⟩ := r
      simp only [hb] at h
      cases h
      obtain ⟨lifecycle, hl, rfl, rfl⟩ := SupervisorState.force_eq_ok hb
      exact .drain s .shutdownRequested true lifecycle result hl

/-- The call of an event applies it. -/
theorem apply_of_input (h : SupervisorCall e) {event : Event} (hinput : e.input = .step event) :
    e.after = (e.before.apply event).1 ∧ e.output = .stepped (e.before.apply event).2 := by
  cases h with
  | step s event' =>
    obtain rfl := Input.step.inj hinput
    exact ⟨rfl, rfl⟩
  | admitChild | failStartup => cases hinput
  | drain s reason forced lifecycle result reached => cases forced <;> cases hinput

/-- The record an event names runs its machine. -/
theorem get?_after_of_input (h : SupervisorCall e) {event : Event} (hinput : e.input = .step event)
    {k : ChildKey} (ht : event.target = some k) {r : ChildRecord}
    (hr : e.before.children.get? k = some r) :
    e.after.children.get? k = r.step e.before.lifecycle.isStarting event := by
  rw [(apply_of_input h hinput).1]
  exact SupervisorState.get?_apply_target ht hr

/-! ### What one call does to one child -/

/-- The phases an incarnation can move to. -/
def IncarnationState.next : IncarnationState → List IncarnationState
  | .unstarted => [.active, .disposing]
  | .active => [.stopping, .complete]
  | .stopping => [.complete]
  | .complete => [.restartPending, .disposing]
  | .restartPending => [.active, .disposing]
  | .disposing => [.joined]
  | .joined => []

/-- How far a removal has come: resident, sampled, committed. -/
def ChildState.removalStage : ChildState → ℕ
  | .resident _ => 0
  | .removalSampled _ => 1
  | .removing _ => 2

/-- **What an event can do to the record it names**, reclaiming apart. -/
inductive ChildRecord.Move (starting : Bool) (event : Event) (r : ChildRecord) :
    ChildRecord → Prop
  | stay : Move starting event r r
  | spawn (child : ChildKey) (named : event = .spawned child) (startable : r.startable = true) :
      Move starting event r { r.moveTo .active with spawnedOnce := true }
  | ready (child : ChildKey) (named : event = .ready child)
      (accepted : r.acceptsReady = true) : Move starting event r (r.setReady true)
  | advance (next : IncarnationState) (reachable : next ∈ r.state.incarnation.next)
      (unspawned : next ≠ .active) :
      Move starting event r
        (if starting ∧ next = .restartPending then (r.moveTo next).setReady false
          else r.moveTo next)
  | sample (child : ChildKey) (named : event = .removalSampled child) :
      Move starting event r { r with state := r.state.sampleRemoval }
  | commit (child : ChildKey) (named : event = .removalLatched child) :
      Move starting event r { r with state := .removing r.state.incarnation }

namespace ChildRecord

variable {r r' : ChildRecord} {starting : Bool} {event : Event}

variable {expected : List IncarnationState}

theorem moves_iff :
    r.moves expected = true ↔ r.state.joined = false ∧ r.state.incarnation ∈ expected := by
  simp [moves]

/-- A move of `transitionIncarnation` follows an edge of the phase graph. -/
theorem advance_of_moves {next : IncarnationState} (hmoves : r.moves expected = true)
    (hnext : ∀ i ∈ expected, next ∈ i.next) (hne : next ≠ .active) (hnr : next ≠ .restartPending) :
    Move starting event r (r.moveTo next) := by
  have hadv := @Move.advance starting event r next
    (hnext _ (moves_iff.mp hmoves).2) hne
  rwa [if_neg (fun h => hnr h.2)] at hadv

theorem move_of_step (h : r.step starting event = some r') : Move starting event r r' := by
  cases event with
  | spawned c =>
    cases h
    split_ifs with hst
    · exact .spawn c rfl hst
    · exact .stay
  | ready c =>
    cases h
    split_ifs with hacc
    · exact .ready c rfl hacc
    · exact .stay
  | incarnationComplete c | stopStarted c | disposalStarted c | terminalized c =>
    cases h
    split_ifs with hm
    · exact advance_of_moves hm (by decide) (by decide) (by decide)
    · exact .stay
  | restartPending c =>
    cases h
    by_cases hm : r.moves [.complete] = true
    · have hinc : r.state.incarnation = .complete :=
        List.mem_singleton.mp (moves_iff.mp hm).2
      have hadv := @Move.advance starting (.restartPending c) r .restartPending
        (by rw [hinc]; decide) (by decide)
      simpa [hm] using hadv
    · simp only [hm]
      exact .stay
  | removalSampled c =>
    cases h
    exact .sample c rfl
  | removalLatched c =>
    cases h
    exact .commit c rfl
  | reclaim c =>
    simp only [step] at h
    split_ifs at h with hj
    cases h
    exact .stay
  | settle =>
    cases h
    exact .stay

/-- Only reclaiming a joined child removes its record. -/
theorem step_eq_none_iff :
    r.step starting event = none ↔ (∃ c, event = .reclaim c) ∧ r.state.joined = true := by
  cases event <;> simp [step]

@[simp] theorem moveTo_fields (r : ChildRecord) (next : IncarnationState) :
    (r.moveTo next).membership = r.membership ∧ (r.moveTo next).startup = r.startup ∧
      (r.moveTo next).spawnedOnce = r.spawnedOnce ∧
      (r.moveTo next).state = r.state.withIncarnation next := ⟨rfl, rfl, rfl, rfl⟩

@[simp] theorem setReady_fields (r : ChildRecord) (ready : Bool) :
    (r.setReady ready).membership = r.membership ∧ (r.setReady ready).state = r.state ∧
      (r.setReady ready).spawnedOnce = r.spawnedOnce := by
  unfold setReady
  split <;> exact ⟨rfl, rfl, rfl⟩

@[simp] theorem setReady_startup (r : ChildRecord) (ready : Bool) :
    (r.setReady ready).startup = if r.startup = .runtime then .runtime else .initial ready := by
  cases hs : r.startup <;> simp [setReady, hs]

end ChildRecord

@[simp] theorem ChildState.removing_incarnation (i : IncarnationState) :
    (ChildState.removing i).incarnation = i := rfl

@[simp] theorem ChildState.withIncarnation_incarnation (st : ChildState)
    (i : IncarnationState) : (st.withIncarnation i).incarnation = i := by
  cases st <;> rfl

@[simp] theorem ChildState.withIncarnation_removalStage (st : ChildState)
    (i : IncarnationState) : (st.withIncarnation i).removalStage = st.removalStage := by
  cases st <;> rfl

@[simp] theorem ChildState.sampleRemoval_incarnation (st : ChildState) :
    st.sampleRemoval.incarnation = st.incarnation := by
  cases st <;> rfl

/-! ### The local invariant of a record -/

/-- What holds of a child record by itself: readiness needs a spawn, a phase
that follows a spawn has one, and the first phase has none. -/
structure ChildRecord.Wf (r : ChildRecord) : Prop where
  spawned_of_ready : r.startup = .initial true → r.spawnedOnce = true
  spawned_of_phase : r.state.incarnation ∈
    [IncarnationState.active, .stopping, .complete, .restartPending] → r.spawnedOnce = true
  fresh_of_unstarted : r.state.incarnation = .unstarted → r.spawnedOnce = false

namespace ChildRecord

variable {r r' : ChildRecord} {starting : Bool} {event : Event}

theorem wf_admittedRecord (membership : Membership) (initial : Bool) :
    (SupervisorState.admittedRecord membership initial).Wf := by
  refine ⟨?_, ?_, fun _ => rfl⟩
  · intro h
    cases initial <;> simp [SupervisorState.admittedRecord] at h
  · intro h
    simp [SupervisorState.admittedRecord, ChildState.incarnation] at h

theorem acceptsReady_iff : r.acceptsReady = true ↔
    r.state.membershipStatus ≠ .removing ∧
      (r.state.incarnation = .active ∨ r.state.incarnation = .stopping) := by
  obtain ⟨membership, state, startup, spawnedOnce⟩ := r
  cases state with
  | resident i =>
    cases i <;> simp [acceptsReady, ChildState.membershipStatus, ChildState.joined,
      ChildState.incarnation]
  | removalSampled i | removing i => simp [acceptsReady, ChildState.membershipStatus]

theorem startable_iff : r.startable = true ↔
    r.state = .resident .unstarted ∨ r.state = .resident .restartPending := by
  simp [startable]

/-- Every successor phase but `joined` and `disposing` follows a spawn. -/
theorem spawned_of_advance {i next : IncarnationState} (h : next ∈ i.next)
    (hne : next ≠ .active)
    (hphase : next ∈ [IncarnationState.active, .stopping, .complete, .restartPending]) :
    i ∈ [IncarnationState.active, .stopping, .complete, .restartPending] := by
  revert h hne hphase
  cases i <;> cases next <;> decide

theorem unstarted_not_next (i : IncarnationState) : .unstarted ∉ i.next := by
  cases i <;> decide

/-- **The local invariant is kept by every event.** -/
theorem Wf.move (hr : r.Wf) (h : Move starting event r r') : r'.Wf := by
  cases h with
  | stay => exact hr
  | spawn child named startable =>
    exact ⟨fun _ => rfl, fun _ => rfl, fun h => by simp at h⟩
  | ready child named accepted =>
    have hlive := (acceptsReady_iff.mp accepted).2
    have hspawn : r.spawnedOnce = true :=
      hr.spawned_of_phase (by rcases hlive with h | h <;> simp [h])
    refine ⟨fun _ => by simpa using hspawn, fun _ => by simpa using hspawn, ?_⟩
    intro h
    rcases hlive with h' | h' <;> simp [h'] at h
  | advance next reachable unspawned =>
    have hphase : next ∈ [IncarnationState.active, .stopping, .complete, .restartPending] →
        r.spawnedOnce = true :=
      fun h => hr.spawned_of_phase (spawned_of_advance reachable unspawned h)
    have hnot : next ≠ .unstarted := by
      rintro rfl
      exact unstarted_not_next _ reachable
    -- re-arming only clears the ready bit, so readiness still needs a spawn
    split_ifs with hb
    · refine ⟨?_, fun h => by simpa using hphase (by simpa using h), ?_⟩
      · intro h
        rw [setReady_startup] at h
        split_ifs at h
        cases h
      · intro h
        exact absurd (by simpa using h) hnot
    · refine ⟨fun h => by simpa using hr.spawned_of_ready (by simpa using h),
        fun h => by simpa using hphase (by simpa using h), ?_⟩
      intro h
      exact absurd (by simpa using h) hnot
  | sample child named =>
    exact ⟨hr.spawned_of_ready, fun h => hr.spawned_of_phase (by simpa using h),
      fun h => hr.fresh_of_unstarted (by simpa using h)⟩
  | commit child named => exact ⟨hr.spawned_of_ready, hr.spawned_of_phase, hr.fresh_of_unstarted⟩

theorem move_membership (h : Move starting event r r') : r'.membership = r.membership := by
  cases h with
  | advance next _ _ => split_ifs <;> simp
  | ready child _ _ => simp
  | stay | spawn child _ _ | sample child _ | commit child _ => rfl

/-- No event turns an initial membership into a runtime one or back. -/
theorem move_runtime_iff (h : Move starting event r r') :
    r'.startup = .runtime ↔ r.startup = .runtime := by
  cases h with
  | advance next _ _ =>
    split_ifs
    · simp
    · simp
  | ready child _ _ => simp
  | stay | spawn child _ _ | sample child _ | commit child _ => rfl

/-- A phase stays or follows one edge of the phase graph. -/
theorem move_incarnation (h : Move starting event r r') :
    r.state.incarnation = r'.state.incarnation ∨
      r'.state.incarnation ∈ r.state.incarnation.next := by
  cases h with
  | stay | commit child _ => exact .inl rfl
  | sample | ready => exact .inl (by simp)
  | spawn child _ startable =>
    right
    rcases startable_iff.mp startable with h | h <;> simp [h, ChildState.incarnation,
      IncarnationState.next, ChildState.withIncarnation]
  | advance next reachable _ =>
    right
    split_ifs <;> simpa using reachable

/-- A removal never goes back a stage. -/
theorem move_removalStage (h : Move starting event r r') :
    r.state.removalStage ≤ r'.state.removalStage := by
  cases h with
  | stay => exact le_rfl
  | commit child _ => cases r.state <;> simp [ChildState.removalStage]
  | sample child _ =>
    cases hs : r.state <;> simp [ChildState.removalStage, ChildState.sampleRemoval]
  | ready | spawn => simp
  | advance next reachable _ => split_ifs <;> simp

end ChildRecord

/-! ### One call seen from one key -/

/-- **What one call can do at a key**: leave it alone, mint it, or run the
machine of the child registered there. -/
inductive RecordStep (k : ChildKey) (e : SupervisorEdge) : Prop
  | untouched (same : e.after.children.get? k = e.before.children.get? k)
      (missed : ∀ event, e.input = .step event → event.target = some k →
        e.before.children.get? k = none)
      (unminted : e.output ≠ .admitted k)
  | minted (membership : Membership) (initial : Bool)
      (input : e.input = .admitChild membership initial)
      (key : k = e.before.keys.current + 1) (output : e.output = .admitted k)
      (after : e.after.children.get? k =
        some (SupervisorState.admittedRecord membership initial))
  | stepped (event : Event) (r : ChildRecord) (input : e.input = .step event)
      (target : event.target = some k) (before : e.before.children.get? k = some r)
      (after : e.after.children.get? k = r.step e.before.lifecycle.isStarting event)
      (output : e.output = .stepped (r.effects event))

theorem recordStep_of_call (h : SupervisorCall e) (k : ChildKey) : RecordStep k e := by
  cases h with
  | admitChild s membership initial =>
    by_cases hk : k = s.keys.current + 1
    · refine .minted membership initial rfl hk (by rw [hk]) ?_
      simp [SupervisorState.admitted, hk]
    · refine .untouched (by simp [SupervisorState.admitted, hk]) (fun _ h => by cases h) ?_
      intro h
      exact hk (Output.admitted.inj h).symm
  | step s event =>
    by_cases ht : event.target = some k
    · -- the event names `k`, registered or not
      have hne : event ≠ .settle := by
        rintro rfl
        cases ht
      have hget := s.get?_apply_of_ne_settle hne k
      rw [if_pos ht] at hget
      cases hr : s.children.get? k with
      | none =>
        refine .untouched (by simpa [hr] using hget) (fun _ _ _ => hr) ?_
        intro h
        cases h
      | some r =>
        refine .stepped event r rfl ht hr (by simpa [hr] using hget) ?_
        simp only [SupervisorState.apply_effects ht, hr, Option.map_some, Option.getD_some]
    · -- a settlement and an event for another key leave the record
      refine .untouched ?_ ?_ (fun h => by cases h)
      · by_cases hs : event = .settle
        · simp [hs, SupervisorState.apply]
        · rw [s.get?_apply_of_ne_settle hs k, if_neg ht]
      · intro event' h htarget
        exact absurd (by rwa [← Input.step.inj h] at htarget) ht
  | failStartup s => exact .untouched rfl (fun _ h => by cases h) (fun h => by cases h)
  | drain s reason forced lifecycle result reached =>
    refine .untouched rfl (fun _ h => ?_) (fun h => by cases h)
    cases forced <;> cases h

/-- The key counter after a call. -/
theorem keys_after (h : SupervisorCall e) :
    (e.after.keys = e.before.keys ∧ ∀ k, e.output ≠ .admitted k) ∨
      (e.after.keys.current = e.before.keys.current + 1 ∧
        e.output = .admitted (e.before.keys.current + 1)) := by
  cases h with
  | admitChild s membership initial => exact .inr ⟨rfl, rfl⟩
  | step s event =>
    refine .inl ⟨?_, fun k h => by cases h⟩
    by_cases hs : event = .settle
    · simp [hs, SupervisorState.apply]
    · rw [s.apply_eq_of_ne_settle hs]
  | failStartup | drain => exact .inl ⟨rfl, fun k h => by cases h⟩

theorem flavor_after (h : SupervisorCall e) : e.after.flavor = e.before.flavor := by
  cases h with
  | admitChild | failStartup | drain => rfl
  | step s event =>
    by_cases hs : event = .settle
    · simp [hs, SupervisorState.apply]
    · rw [s.apply_eq_of_ne_settle hs]

/-- Every command but `StopChild`, `ForceChild` and `FinalizeRemoval` comes from
a settlement. -/
theorem effects_cases (h : SupervisorCall e) {effect : Effect} (hmem : effect ∈ e.output.effects) :
    (e.input = .step .settle ∧ e.after = e.before.settle.1 ∧ effect ∈ e.before.settle.2) ∨
      ∃ c, effect = .stopChild c ∨ effect = .forceChild c ∨ effect = .finalizeRemoval c := by
  cases h with
  | admitChild | failStartup => simp [Output.effects] at hmem
  | step s event =>
    by_cases hs : event = .settle
    · subst hs
      exact .inl ⟨rfl, rfl, hmem⟩
    · right
      obtain ⟨-, r, -, -, heffect⟩ := (SupervisorState.mem_apply_iff hs).mp hmem
      obtain ⟨c, ⟨-, -, -, rfl⟩ | ⟨-, -, rfl⟩⟩ := ChildRecord.mem_effects_iff.mp heffect
      · exact ⟨c, .inr (.inr rfl)⟩
      · refine ⟨c, ?_⟩
        split_ifs
        · exact .inr (.inr rfl)
        · exact .inl rfl
  | drain s reason forced lifecycle result reached =>
    right
    simp only [Output.effects, SupervisorState.drainEffects, List.mem_append] at hmem
    rcases hmem with hmem | hmem <;> split_ifs at hmem
    · obtain ⟨c, -, rfl⟩ := List.mem_map.mp hmem
      exact ⟨c, .inl rfl⟩
    · simp at hmem
    · obtain ⟨c, -, rfl⟩ := List.mem_map.mp hmem
      exact ⟨c, .inr (.inl rfl)⟩
    · simp at hmem

variable {tr : List SupervisorEdge} {flavor : ScopeFlavor} {s : SupervisorState}

theorem flavor_eq (h : SupervisorRun flavor tr s) : s.flavor = flavor := by
  refine h.invariant rfl ?_
  intro e he _ hf
  rw [flavor_after (call_of_edge he), hf]

/-- Every registered record is well-formed. -/
def SupervisorState.RecordsWf (s : SupervisorState) : Prop :=
  ∀ k r, s.children.get? k = some r → r.Wf

theorem SupervisorState.RecordsWf.after (hwf : e.before.RecordsWf) (h : SupervisorCall e) :
    e.after.RecordsWf := by
  intro k r hr
  cases recordStep_of_call h k with
  | untouched same missed unminted => exact hwf k r (same ▸ hr)
  | minted membership initial input key output after =>
    obtain rfl := Option.some.inj (after.symm.trans hr)
    exact ChildRecord.wf_admittedRecord membership initial
  | stepped event r₀ input target before after output =>
    exact (hwf k r₀ before).move (ChildRecord.move_of_step (after.symm.trans hr))

theorem SupervisorState.RecordsWf.run {s' : SupervisorState} (hwf : s.RecordsWf)
    (h : Run (stepEdge Input.apply) s tr s') : s'.RecordsWf :=
  h.invariant hwf fun _ he _ hP => hP.after (call_of_edge he)

/-- **Every record of every run is well-formed.** -/
theorem wf_of_run (h : SupervisorRun flavor tr s) : s.RecordsWf := by
  refine SupervisorState.RecordsWf.run ?_ h
  intro k r hr
  cases hr

/-! ### The history of a key -/

/-- The run minted the key. -/
def Admitted (k : ChildKey) (tr : List SupervisorEdge) : Prop :=
  ∃ e ∈ tr, e.output = .admitted k

/-- The call is a `spawned` for the key that the reducer accepts. -/
def SpawnAccepted (k : ChildKey) (e : SupervisorEdge) : Prop :=
  e.input = .step (.spawned k) ∧
    ∃ r, e.before.children.get? k = some r ∧ r.startable = true

/-- The call is a `ready` for the key that the reducer accepts. -/
def ReadyAccepted (k : ChildKey) (e : SupervisorEdge) : Prop :=
  e.input = .step (.ready k) ∧
    ∃ r, e.before.children.get? k = some r ∧ r.acceptsReady = true

theorem get?_after_eq_bind {k : ChildKey} {event : Event} (h : SupervisorCall e)
    (hinput : e.input = .step event) (ht : event.target = some k) :
    e.after.children.get? k =
      (e.before.children.get? k).bind (·.step e.before.lifecycle.isStarting event) := by
  cases hr : e.before.children.get? k with
  | some r => exact get?_after_of_input h hinput ht hr
  | none =>
    cases recordStep_of_call h k with
    | untouched same => rw [same, hr, Option.bind_none]
    | minted _ _ input => cases hinput.symm.trans input
    | stepped _ _ _ _ before => cases hr.symm.trans before

/-- A `spawned` makes its child active if it is accepted, and leaves it otherwise. -/
theorem spawned_after {k : ChildKey} (h : SupervisorCall e) (hi : e.input = .step (.spawned k)) :
    e.after.children.get? k = (e.before.children.get? k).bind fun r =>
      if r.startable then some { r.moveTo .active with spawnedOnce := true } else some r := by
  simp only [get?_after_eq_bind h hi rfl, ChildRecord.step, apply_ite some]

/-- A `ready` sets its child's ready bit if it is accepted, and leaves it otherwise. -/
theorem ready_after {k : ChildKey} (h : SupervisorCall e) (hi : e.input = .step (.ready k)) :
    e.after.children.get? k = (e.before.children.get? k).bind fun r =>
      if r.acceptsReady then some (r.setReady true) else some r := by
  simp only [get?_after_eq_bind h hi rfl, ChildRecord.step, apply_ite some]

/-- The call is a `reclaim` that removes the key from the arena. -/
def Reclaimed (k : ChildKey) (e : SupervisorEdge) : Prop :=
  e.input = .step (.reclaim k) ∧ e.before.contains k = true ∧ e.after.contains k = false

theorem admitted_snoc {k : ChildKey} {pre : List SupervisorEdge} :
    Admitted k (pre ++ [e]) ↔ Admitted k pre ∨ e.output = .admitted k := by
  simp [Admitted, or_and_right, exists_or]

/-- The arena agrees with the history of the run. -/
structure Accounted (tr : List SupervisorEdge) (s : SupervisorState) : Prop where
  le_current : ∀ k : ℕ, Admitted k tr → k ≤ s.keys.current
  admitted_of_registered : ∀ k r, s.children.get? k = some r → Admitted k tr
  reclaimed_of_missing : ∀ k, Admitted k tr → s.children.get? k = none →
    ∃ e ∈ tr, Reclaimed k e

theorem Accounted.snoc {pre : List SupervisorEdge} (h : Accounted pre e.before)
    (he : SupervisorCall e) : Accounted (pre ++ [e]) e.after := by
  have hkeys := keys_after he
  refine ⟨?_, ?_, ?_⟩
  · intro k hk
    rcases admitted_snoc.mp hk with hk | hk
    · have := h.le_current k hk
      rcases hkeys with ⟨heq, -⟩ | ⟨heq, -⟩
      · rw [heq]
        exact this
      · omega
    · rcases hkeys with ⟨-, hne⟩ | ⟨heq, hout⟩
      · exact absurd hk (hne k)
      · have hmint : k = e.before.keys.current + 1 :=
          Output.admitted.inj (hk.symm.trans hout)
        omega
  · intro k r hr
    apply admitted_snoc.mpr
    cases recordStep_of_call he k with
    | untouched same missed unminted =>
      exact .inl (h.admitted_of_registered k r (same ▸ hr))
    | minted membership initial input key output after => exact .inr output
    | stepped event r₀ input target before after output =>
      exact .inl (h.admitted_of_registered k r₀ before)
  · intro k hk hnone
    cases recordStep_of_call he k with
    | untouched same missed unminted =>
      obtain ⟨e', he', hrec⟩ := h.reclaimed_of_missing k
        ((admitted_snoc.mp hk).resolve_right unminted) (same ▸ hnone)
      exact ⟨e', List.mem_append_left _ he', hrec⟩
    | minted membership initial input key output after => simp [after] at hnone
    | stepped event r₀ input target before after output =>
      -- the key is gone by this very call, which then reclaims it
      obtain ⟨⟨c, rfl⟩, -⟩ := ChildRecord.step_eq_none_iff.mp (after.symm.trans hnone)
      obtain rfl := Option.some.inj target
      refine ⟨e, by simp, input, ?_, ?_⟩
      · simp [SupervisorState.contains, before]
      · simp [SupervisorState.contains, hnone]

theorem accounted (h : SupervisorRun flavor tr s) : Accounted tr s := by
  refine h.history ?_ ?_
  · refine ⟨?_, ?_, ?_⟩
    · rintro k ⟨e, he, -⟩
      cases he
    · intro k r hr
      cases hr
    · rintro k ⟨e, he, -⟩
      cases he
  · intro pre e _ he _ hP
    exact hP.snoc (call_of_edge he)

end Shelterwood
