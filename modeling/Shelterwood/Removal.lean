/-
Shelterwood/Removal.lean

Removal effects are issued exactly once.

Sampling a removal, committing it and joining are three edges that can arrive
in any order, repeated and stale.  What the record keeps of them is enough:
it is committed iff a latch found the key registered, and joined iff the child
arrived there (`committed_iff`, `joined_iff`).  `FinalizeRemoval` belongs to
the second of the two, `StopChild` to a latch that comes first.
-/
import Shelterwood.ChildHistory

namespace Shelterwood

variable {flavor : ScopeFlavor} {tr pre post : List SupervisorEdge}
variable {s : SupervisorState} {e : SupervisorEdge} {k : ChildKey}

/-! ### The two edges -/

/-- The call is a `removalLatched` that finds the key registered. -/
def Latches (k : ChildKey) (e : SupervisorEdge) : Prop :=
  e.input = .step (.removalLatched k) ∧ e.before.contains k = true

instance (k : ChildKey) (e : SupervisorEdge) : Decidable (Latches k e) :=
  inferInstanceAs (Decidable (_ ∧ _))

/-- The child arrives in `joined` by the call. -/
def Arrives (k : ChildKey) (e : SupervisorEdge) : Prop :=
  e.before.joined k = false ∧ e.after.joined k = true

/-- The call is a `removalSampled` that finds the key registered. -/
def Samples (k : ChildKey) (e : SupervisorEdge) : Prop :=
  e.input = .step (.removalSampled k) ∧ e.before.contains k = true

variable {r : ChildRecord}

theorem joined_of_get? (hr : s.children.get? k = some r) : s.joined k = r.state.joined := by
  simp [SupervisorState.joined, SupervisorState.childState, hr]

theorem contains_of_get? (hr : s.children.get? k = some r) : s.contains k = true := by
  simp [SupervisorState.contains, hr]

theorem contains_of_joined (h : s.joined k = true) : s.contains k = true := by
  cases hr : s.children.get? k with
  | none => simp [SupervisorState.joined, SupervisorState.childState, hr] at h
  | some r => exact contains_of_get? hr

namespace ChildRecord

variable {r r' : ChildRecord} {starting : Bool} {event : Event}

theorem committed_iff_removalStage : r.committed = true ↔ 2 ≤ r.state.removalStage := by
  obtain ⟨membership, state, startup, spawnedOnce⟩ := r
  cases state <;> simp [committed, ChildState.removalStage]

theorem removing_iff_removalStage :
    r.state.membershipStatus = .removing ↔ 1 ≤ r.state.removalStage := by
  cases r.state <;> simp [ChildState.membershipStatus, ChildState.removalStage]

/-- Only a latch commits a removal. -/
theorem latched_of_committed (h : Move starting event r r') (hr : ¬ r.committed = true)
    (hr' : r'.committed = true) : ∃ c, event = .removalLatched c := by
  rw [committed_iff_removalStage] at hr hr'
  cases h with
  | stay => exact absurd hr' hr
  | spawn | ready => simp [hr] at hr'
  | advance next reachable unspawned => split_ifs at hr' <;> simp [hr] at hr'
  | sample child named =>
    exfalso
    cases hs : r.state <;> simp_all [ChildState.removalStage, ChildState.sampleRemoval]
  | commit child named => exact ⟨child, named⟩

/-- A joined phase is absorbing. -/
theorem joined_of_move (h : Move starting event r r') (hr : r.state.joined = true) :
    r'.state.joined = true := by
  have hinc : r.state.incarnation = .joined := by simpa [ChildState.joined] using hr
  rcases move_incarnation h with heq | hmem
  · simp [ChildState.joined, ← heq, hinc]
  · rw [hinc] at hmem
    cases hmem

/-- A child arrives in `joined` from `disposing`, by `terminalized`. -/
theorem step_joined_iff (hr : r.state.joined = false) :
    (∃ r', r.step starting event = some r' ∧ r'.state.joined = true) ↔
      (∃ c, event = .terminalized c) ∧ r.moves [.disposing] = true := by
  -- every other event moves to a phase that is not `joined`, or keeps it
  have hstay : ∀ {st : ChildState} {i : IncarnationState}, i ≠ .joined →
      (st.withIncarnation i).joined = false := by
    intro st i hi
    simp [ChildState.joined, hi]
  cases event with
  | terminalized c =>
    by_cases hm : r.moves [.disposing] = true
    · simp [step, hm, ChildState.joined]
    · simp [step, hm, hr]
  | spawned c | incarnationComplete c | stopStarted c | disposalStarted c | restartPending c =>
    simp only [step, Option.some.injEq, exists_eq_left', reduceCtorEq, exists_false,
      false_and, iff_false, Bool.not_eq_true]
    split_ifs <;> simp [hr, hstay]
  | ready c =>
    simp only [step, Option.some.injEq, exists_eq_left', reduceCtorEq, exists_false,
      false_and, iff_false, Bool.not_eq_true]
    split_ifs <;> simp [hr]
  | removalSampled c | removalLatched c =>
    have hkeep : r.state.incarnation ≠ .joined := by simpa [ChildState.joined] using hr
    simp [step, ChildState.joined, hkeep]
  | reclaim | settle => simp [step, hr]

end ChildRecord

/-! ### What the record keeps of them -/

/-- **A record is committed iff a latch found its key registered.** -/
theorem committed_iff (h : SupervisorRun flavor tr s) (hr : s.children.get? k = some r) :
    r.committed = true ↔ ∃ e ∈ tr, Latches k e := by
  refine ⟨?_, ?_⟩
  · refine marked_of_record (Q := fun r => r.committed = true) ?_ ?_ h hr
    · intro membership initial hc
      cases hc
    · intro e event r r' _ hinput htarget hbefore _ hmove hold hnew
      obtain ⟨c, rfl⟩ := ChildRecord.latched_of_committed hmove hold hnew
      cases htarget
      exact ⟨hinput, contains_of_get? hbefore⟩
  · intro hmark
    refine record_of_marked (Q := fun r => r.committed = true) ?_ ?_ ?_ h hmark hr
    · intro e _ hl
      exact hl.2
    · rintro e hcall ⟨hinput, hreg⟩ r' hr'
      obtain ⟨r₀, hr₀⟩ := Option.isSome_iff_exists.mp hreg
      have hafter := get?_after_of_input hcall hinput rfl hr₀
      obtain rfl := Option.some.inj (hafter.symm.trans hr')
      rfl
    · intro starting event r r' hmove hc
      rw [ChildRecord.committed_iff_removalStage] at hc ⊢
      exact hc.trans (ChildRecord.move_removalStage hmove)

/-- A call after which a child is newly joined is its `terminalized`. -/
theorem terminalized_of_arrives (h : SupervisorCall e) (harr : Arrives k e) :
    ∃ r, e.before.children.get? k = some r ∧ e.input = .step (.terminalized k) ∧
      r.moves [.disposing] = true ∧ e.output = .stepped (r.effects (.terminalized k)) := by
  obtain ⟨hbefore, hafter⟩ := harr
  obtain ⟨r', hr'⟩ := Option.isSome_iff_exists.mp (contains_of_joined hafter)
  rw [joined_of_get? hr'] at hafter
  cases recordStep_of_call h k with
  | untouched same missed unminted =>
    rw [joined_of_get? (same ▸ hr'), hafter] at hbefore
    cases hbefore
  | minted membership initial input key output after =>
    obtain rfl := Option.some.inj (after.symm.trans hr')
    cases hafter
  | stepped event r₀ input target before after output =>
    rw [joined_of_get? before] at hbefore
    obtain ⟨⟨c, rfl⟩, hm⟩ := (ChildRecord.step_joined_iff hbefore).mp
      ⟨r', after.symm.trans hr', hafter⟩
    obtain rfl := Option.some.inj target
    exact ⟨r₀, before, input, hm, output⟩

/-- **A record is joined iff its child arrived there.** -/
theorem joined_iff (h : SupervisorRun flavor tr s) (hr : s.children.get? k = some r) :
    r.state.joined = true ↔ ∃ e ∈ tr, Arrives k e := by
  refine ⟨?_, ?_⟩
  · refine marked_of_record (Q := fun r => r.state.joined = true) ?_ ?_ h hr
    · intro membership initial hj
      cases hj
    · intro e event r r' _ _ _ hbefore hafter _ hold hnew
      refine ⟨?_, ?_⟩
      · rw [joined_of_get? hbefore]
        simpa using hold
      · rw [joined_of_get? hafter]
        exact hnew
  · intro hmark
    refine record_of_marked (Q := fun r => r.state.joined = true) ?_ ?_ ?_ h hmark hr
    · intro e hcall harr
      obtain ⟨r, hr, -⟩ := terminalized_of_arrives hcall harr
      exact contains_of_get? hr
    · intro e _ harr r hr
      rw [← joined_of_get? hr]
      exact harr.2
    · intro starting event r r' hmove hj
      exact ChildRecord.joined_of_move hmove hj

/-- Once a removal was sampled or latched the record stays marked. -/
theorem removing_of_marked (h : SupervisorRun flavor tr s)
    (hmark : ∃ e ∈ tr, Samples k e ∨ Latches k e) (hr : s.children.get? k = some r) :
    r.state.membershipStatus = .removing := by
  rw [ChildRecord.removing_iff_removalStage]
  refine record_of_marked (Q := fun r => 1 ≤ r.state.removalStage) ?_ ?_ ?_ h hmark hr
  · intro e _ hm
    exact hm.elim (fun hs => hs.2) (fun hl => hl.2)
  · rintro e hcall (⟨hinput, hreg⟩ | ⟨hinput, hreg⟩) r' hr'
    · obtain ⟨r₀, hr₀⟩ := Option.isSome_iff_exists.mp hreg
      have hafter := get?_after_of_input hcall hinput rfl hr₀
      obtain rfl := Option.some.inj (hafter.symm.trans hr')
      cases hs : r₀.state <;> simp [ChildState.sampleRemoval, ChildState.removalStage]
    · obtain ⟨r₀, hr₀⟩ := Option.isSome_iff_exists.mp hreg
      have hafter := get?_after_of_input hcall hinput rfl hr₀
      obtain rfl := Option.some.inj (hafter.symm.trans hr')
      simp [ChildState.removalStage]
  · intro starting event r r' hmove hstage
    exact hstage.trans (ChildRecord.move_removalStage hmove)

/-! ### Emission -/

theorem ChildRecord.finalizeRemoval_mem_effects_iff {event : Event} :
    .finalizeRemoval k ∈ r.effects event ↔
      event = .terminalized k ∧ r.moves [.disposing] = true ∧ r.committed = true ∨
        event = .removalLatched k ∧ r.committed = false ∧ r.state.joined = true := by
  rw [mem_effects_iff]
  refine ⟨?_, ?_⟩
  · rintro ⟨c, ⟨rfl, hm, hc, heq⟩ | ⟨rfl, hc, heq⟩⟩
    · obtain rfl := Effect.finalizeRemoval.inj heq
      exact .inl ⟨rfl, hm, hc⟩
    · split_ifs at heq with hj
      obtain rfl := Effect.finalizeRemoval.inj heq
      exact .inr ⟨rfl, hc, hj⟩
  · rintro (⟨rfl, hm, hc⟩ | ⟨rfl, hc, hj⟩)
    · exact ⟨k, .inl ⟨rfl, hm, hc, rfl⟩⟩
    · exact ⟨k, .inr ⟨rfl, hc, by rw [if_pos hj]⟩⟩

/-- What can emit a `FinalizeRemoval`. -/
theorem finalizeRemoval_mem_iff (h : SupervisorCall e) :
    .finalizeRemoval k ∈ e.output.effects ↔ ∃ r, e.before.children.get? k = some r ∧
      (e.input = .step (.terminalized k) ∧ r.moves [.disposing] = true ∧ r.committed = true ∨
        e.input = .step (.removalLatched k) ∧ r.committed = false ∧ r.state.joined = true) := by
  cases h with
  | admitChild | failStartup => simp [Output.effects]
  | step s event =>
    simp only [Output.effects, Input.step.injEq]
    simp only [← ChildRecord.finalizeRemoval_mem_effects_iff]
    by_cases hs : event = .settle
    · subst hs
      constructor
      · intro hmem
        rcases SupervisorState.mem_settle_cases (s := s) hmem with
          ⟨⟨_, h⟩, -⟩ | ⟨h, -⟩ | ⟨_, _, h, -⟩ | ⟨⟨_, h⟩, -⟩ <;> cases h
      · rintro ⟨_, _, hmem⟩
        cases hmem
    · -- an event that emits for `k` names `k`
      have hnames : ∀ r : ChildRecord, .finalizeRemoval k ∈ r.effects event →
          event.target = some k := by
        intro r hmem
        rcases ChildRecord.finalizeRemoval_mem_effects_iff.mp hmem with ⟨rfl, -⟩ | ⟨rfl, -⟩ <;>
          rfl
      rw [SupervisorState.mem_apply_iff hs]
      refine ⟨?_, ?_⟩
      · rintro ⟨c, r, hc, hr, hmem⟩
        obtain rfl := Option.some.inj (hc.symm.trans (hnames r hmem))
        exact ⟨r, hr, hmem⟩
      · rintro ⟨r, hr, hmem⟩
        exact ⟨k, r, hnames r hmem, hr, hmem⟩
  | drain s reason forced lifecycle result reached =>
    have hnot : .finalizeRemoval k ∉ s.drainEffects result.isSome forced := by
      unfold SupervisorState.drainEffects
      split_ifs <;> simp
    refine ⟨fun hmem => absurd hmem hnot, ?_⟩
    rintro ⟨r, -, ⟨hinput, -⟩ | ⟨hinput, -⟩⟩ <;> cases forced <;> cases hinput

/-- **`FinalizeRemoval` is emitted exactly at the second of the two edges**, the
first effective latch and the arrival in `joined`. -/
theorem finalizeRemoval_iff_second (h : SupervisorRun flavor pre e.before)
    (hcall : SupervisorCall e) :
    .finalizeRemoval k ∈ e.output.effects ↔
      (Latches k e ∧ (¬ ∃ e' ∈ pre, Latches k e') ∧ ∃ e' ∈ pre, Arrives k e') ∨
        (Arrives k e ∧ ∃ e' ∈ pre, Latches k e') := by
  rw [finalizeRemoval_mem_iff hcall]
  refine ⟨?_, ?_⟩
  · -- the record says which edge lies behind; `committed_iff` and `joined_iff` find it
    rintro ⟨r, hr, ⟨hinput, hm, hc⟩ | ⟨hinput, hc, hj⟩⟩
    · right
      refine ⟨⟨?_, ?_⟩, (committed_iff h hr).mp hc⟩
      · rw [joined_of_get? hr]
        exact (ChildRecord.moves_iff.mp hm).1
      · have hafter := get?_after_of_input hcall hinput rfl hr
        simp only [ChildRecord.step, hm, if_true] at hafter
        rw [joined_of_get? hafter]
        simp [ChildState.joined]
    · left
      refine ⟨⟨hinput, contains_of_get? hr⟩, ?_, (joined_iff h hr).mp hj⟩
      rw [← committed_iff h hr, hc]
      simp
  · rintro (⟨⟨hinput, hreg⟩, hfirst, harrived⟩ | ⟨harr, hlatched⟩)
    · obtain ⟨r, hr⟩ := Option.isSome_iff_exists.mp hreg
      refine ⟨r, hr, .inr ⟨hinput, ?_, (joined_iff h hr).mpr harrived⟩⟩
      rw [← committed_iff h hr] at hfirst
      simpa using hfirst
    · obtain ⟨r, hr, hinput, hm, -⟩ := terminalized_of_arrives hcall harr
      exact ⟨r, hr, .inl ⟨hinput, hm, (committed_iff h hr).mpr hlatched⟩⟩

/-- The first latch of the run that finds the key registered. -/
def firstLatch (k : ChildKey) (tr : List SupervisorEdge) : Option SupervisorEdge :=
  tr.find? fun e => Latches k e

/-- The effects of all `removalLatched` events that name the key. -/
def latchEffects (k : ChildKey) (tr : List SupervisorEdge) : List Effect :=
  (tr.filter fun e => e.input = .step (.removalLatched k)).flatMap fun e => e.output.effects

/-- What the first effective latch emits. -/
def latchEffect (k : ChildKey) (e : SupervisorEdge) : Effect :=
  if e.before.joined k then .finalizeRemoval k else .stopChild k

/-- The effects of one latch, by the record it finds. -/
theorem effects_of_latched (h : SupervisorCall e)
    (hinput : e.input = .step (.removalLatched k)) :
    e.output.effects =
      match e.before.children.get? k with
      | none => []
      | some r => if r.committed then [] else [latchEffect k e] := by
  rw [(apply_of_input h hinput).2]
  simp only [Output.effects, SupervisorState.apply_effects (e := .removalLatched k) rfl]
  cases hr : e.before.children.get? k with
  | none => rfl
  | some r =>
    simp only [Option.map_some, Option.getD_some, ChildRecord.effects, latchEffect,
      joined_of_get? hr]
    split_ifs <;> rfl

theorem firstLatch_eq_none_iff : firstLatch k tr = none ↔ ¬ ∃ e ∈ tr, Latches k e := by
  simp [firstLatch]

/-- **The latches of a key emit one effect in total**, at the first that finds
the key registered. -/
theorem latchEffects_eq (h : SupervisorRun flavor tr s) (k : ChildKey) :
    latchEffects k tr = ((firstLatch k tr).map (latchEffect k)).toList := by
  refine h.history ?_ ?_
  · rfl
  · intro pre e hrun he _ hP
    have hcall := call_of_edge he
    have heffects : latchEffects k (pre ++ [e]) = latchEffects k pre ++ latchEffects k [e] := by
      simp [latchEffects]
    have hfirst : firstLatch k (pre ++ [e]) = (firstLatch k pre).or (firstLatch k [e]) := by
      simp [firstLatch]
    rw [heffects, hfirst, hP]
    by_cases hinput : e.input = .step (.removalLatched k)
    · have hone : latchEffects k [e] = e.output.effects := by simp [latchEffects, hinput]
      rw [hone, effects_of_latched hcall hinput]
      cases hr : e.before.children.get? k with
      | none =>
        have hnot : firstLatch k [e] = none := by
          simp [firstLatch, Latches, SupervisorState.contains, hr]
        simp [hnot]
      | some r =>
        have hlatch : Latches k e := ⟨hinput, contains_of_get? hr⟩
        have hcomm := committed_iff hrun hr
        -- the record is committed exactly if an earlier latch was effective
        cases hfp : firstLatch k pre with
        | none =>
          have hc : ¬ r.committed = true := by
            rw [hcomm]
            exact firstLatch_eq_none_iff.mp hfp
          simp [hc, firstLatch, hlatch]
        | some e₀ =>
          have hc : r.committed = true := by
            rw [hcomm]
            by_contra hno
            rw [firstLatch_eq_none_iff.mpr hno] at hfp
            cases hfp
          simp [hc]
    · have hone : latchEffects k [e] = [] := by simp [latchEffects, hinput]
      have hnot : firstLatch k [e] = none := by
        simp [firstLatch, Latches, hinput]
      simp [hone, hnot]

/-- All effects of a run, in order. -/
def runEffects (tr : List SupervisorEdge) : List Effect := tr.flatMap fun e => e.output.effects

/-- An event emits `FinalizeRemoval` at most once. -/
theorem count_finalizeRemoval_le_one (h : SupervisorCall e)
    (hmem : .finalizeRemoval k ∈ e.output.effects) :
    e.output.effects.count (.finalizeRemoval k) ≤ 1 := by
  obtain ⟨r, hr, hcase⟩ := (finalizeRemoval_mem_iff h).mp hmem
  refine List.count_le_length.trans ?_
  rcases hcase with ⟨hinput, -⟩ | ⟨hinput, -⟩
  · rw [(apply_of_input h hinput).2]
    simp only [Output.effects, SupervisorState.apply_effects (e := .terminalized k) rfl, hr,
      Option.map_some, Option.getD_some, ChildRecord.effects]
    split_ifs <;> simp
  · rw [effects_of_latched h hinput]
    simp only [hr]
    split_ifs <;> simp

theorem finalizeRemoval_once (h : SupervisorRun flavor tr s) (k : ChildKey) :
    (runEffects tr).count (.finalizeRemoval k) ≤ 1 := by
  -- once it is counted, both edges lie behind
  have hinv : (runEffects tr).count (.finalizeRemoval k) ≤ 1 ∧
      (0 < (runEffects tr).count (.finalizeRemoval k) →
        (∃ e ∈ tr, Latches k e) ∧ ∃ e ∈ tr, Arrives k e) := by
    refine h.history ?_ ?_
    · exact ⟨Nat.zero_le _, fun h => absurd h (Nat.lt_irrefl 0)⟩
    · rintro pre e hrun he - ⟨hle, hboth⟩
      have hcall := call_of_edge he
      have hcount : (runEffects (pre ++ [e])).count (.finalizeRemoval k) =
          (runEffects pre).count (.finalizeRemoval k) +
            e.output.effects.count (.finalizeRemoval k) := by
        simp [runEffects]
      rw [hcount]
      by_cases hmem : .finalizeRemoval k ∈ e.output.effects
      · have hsecond := (finalizeRemoval_iff_second hrun hcall).mp hmem
        -- a second emission would need one of the two edges twice
        have hzero : (runEffects pre).count (.finalizeRemoval k) = 0 := by
          by_contra hne
          obtain ⟨hlatched, harrived⟩ := hboth (Nat.pos_of_ne_zero hne)
          rcases hsecond with ⟨-, hfirst, -⟩ | ⟨harr, -⟩
          · exact hfirst hlatched
          · obtain ⟨r, hr, -⟩ := terminalized_of_arrives hcall harr
            have hj := (joined_iff hrun hr).mpr harrived
            rw [← joined_of_get? hr, harr.1] at hj
            cases hj
        refine ⟨?_, ?_⟩
        · rw [hzero, Nat.zero_add]
          exact count_finalizeRemoval_le_one hcall hmem
        · intro _
          rcases hsecond with ⟨hl, -, e', he', harr⟩ | ⟨harr, e', he', hl⟩
          · exact ⟨⟨e, by simp, hl⟩, e', by simp [he'], harr⟩
          · exact ⟨⟨e', by simp [he'], hl⟩, e, by simp, harr⟩
      · rw [List.count_eq_zero_of_not_mem hmem, Nat.add_zero]
        refine ⟨hle, fun hpos => ?_⟩
        obtain ⟨⟨e₁, he₁, hl⟩, e₂, he₂, harr⟩ := hboth hpos
        exact ⟨⟨e₁, by simp [he₁], hl⟩, e₂, by simp [he₂], harr⟩
  exact hinv.1

/-! ### The removal contract -/

/-- A `Removing(Joined)` record changes only by `reclaim`. -/
theorem removed_step (h : SupervisorCall e) (hr : e.before.children.get? k = some r)
    (hstate : r.state = .removing .joined) (hold : e.output ≠ .admitted k) :
    e.after.children.get? k = if e.input = .step (.reclaim k) then none else some r := by
  cases recordStep_of_call h k with
  | untouched same missed unminted =>
    have hne : e.input ≠ .step (.reclaim k) := by
      intro hinput
      rw [missed _ hinput rfl] at hr
      cases hr
    rw [if_neg hne, same, hr]
  | minted membership initial input key output after => exact absurd output hold
  | stepped event r₀ input target before after output =>
    obtain rfl := Option.some.inj (before.symm.trans hr)
    rw [after, input]
    obtain ⟨membership, state, startup, spawnedOnce⟩ := r₀
    obtain rfl : state = .removing .joined := hstate
    cases event with
    | settle => cases target
    | spawned c | ready c | incarnationComplete c | restartPending c | stopStarted c
    | disposalStarted c | terminalized c | removalSampled c | removalLatched c =>
      rfl
    | reclaim c =>
      obtain rfl := Option.some.inj target
      rw [if_pos rfl]
      rfl

/-- **Removal effects are issued exactly once.** -/
theorem removal_effects_exactly_once (h : SupervisorRun flavor tr s) (k : ChildKey) :
    latchEffects k tr = ((firstLatch k tr).map (latchEffect k)).toList ∧
      (runEffects tr).count (.finalizeRemoval k) ≤ 1 ∧
      ∀ pre e post, tr = pre ++ e :: post →
        (.finalizeRemoval k ∈ e.output.effects ↔
          (Latches k e ∧ (¬ ∃ e' ∈ pre, Latches k e') ∧ ∃ e' ∈ pre, Arrives k e') ∨
            (Arrives k e ∧ ∃ e' ∈ pre, Latches k e')) ∧
        (Samples k e ∨ Latches k e →
          ∀ e' ∈ post, ¬ SpawnAccepted k e' ∧ ¬ ReadyAccepted k e' ∧
            (e'.input = .step (.spawned k) ∨ e'.input = .step (.ready k) →
              e'.after.children.get? k = e'.before.children.get? k)) ∧
        ∀ r, e.before.children.get? k = some r → r.state = .removing .joined →
          e.after.children.get? k = (if e.input = .step (.reclaim k) then none else some r) ∧
          (e.input = .step (.reclaim k) → ∀ e' ∈ post, e'.after.contains k = false) := by
  refine ⟨latchEffects_eq h k, finalizeRemoval_once h k, ?_⟩
  rintro pre e post rfl
  obtain ⟨hpre, he, hpost⟩ := h.split_at
  have hcall := call_of_edge he
  -- a later call sees a history that contains `e`
  have hlater : ∀ e' ∈ post, ∃ mid, e ∈ mid ∧ SupervisorRun flavor mid e'.before ∧
      SupervisorRun flavor (mid ++ [e']) e'.after := by
    intro e' he'
    obtain ⟨mid, rest, -, hmid, hE', -⟩ := hpost.mem_split he'
    have hrun : SupervisorRun flavor (pre ++ [e] ++ mid) e'.before := (hpre.snoc he).append hmid
    exact ⟨_, by simp, hrun, hrun.snoc hE'⟩
  refine ⟨finalizeRemoval_iff_second hpre hcall, ?_, ?_⟩
  · intro hmark e' he'
    obtain ⟨mid, hmem, hrun, -⟩ := hlater e' he'
    have hremoving : ∀ r, e'.before.children.get? k = some r →
        r.state.membershipStatus = .removing :=
      fun r hr => removing_of_marked hrun ⟨e, hmem, hmark⟩ hr
    have hstart : ∀ r, e'.before.children.get? k = some r → ¬ r.startable = true :=
      fun r hr => by simp [ChildRecord.not_startable_of_removing (hremoving r hr)]
    have hready : ∀ r, e'.before.children.get? k = some r → ¬ r.acceptsReady = true :=
      fun r hr hacc => (ChildRecord.acceptsReady_iff.mp hacc).1 (hremoving r hr)
    refine ⟨fun ⟨_, r, hr, hst⟩ => hstart r hr hst, fun ⟨_, r, hr, hacc⟩ => hready r hr hacc, ?_⟩
    have hcall' := call_of_edge (hpost.edge_of_mem he')
    rintro (hinput | hinput)
    · rw [spawned_after hcall' hinput]
      exact (Option.bind_congr fun r hr => if_neg (hstart r hr)).trans (Option.bind_fun_some _)
    · rw [ready_after hcall' hinput]
      exact (Option.bind_congr fun r hr => if_neg (hready r hr)).trans (Option.bind_fun_some _)
  · intro r hr hstate
    have hold : e.output ≠ .admitted k := fun hout => fresh_of_minted hpre hcall hout
      ((accounted hpre).admitted_of_registered k r hr)
    have hstep := removed_step hcall hr hstate hold
    refine ⟨hstep, ?_⟩
    intro hinput e' he'
    rw [if_pos hinput] at hstep
    obtain ⟨mid, hmem, -, hrun⟩ := hlater e' he'
    have hrec : Reclaimed k e :=
      ⟨hinput, contains_of_get? hr, by simp [SupervisorState.contains, hstep]⟩
    have hnone := missing_of_reclaimed hrun ⟨e, by simp [hmem], hrec⟩
    simp [SupervisorState.contains, hnone]

/-- In the run of `restartedChild` the latch finds the child active, so it
stops it, and the later arrival finalizes. -/
theorem removal_effects_exactly_once_restarted :
    ∃ tr s, SupervisorRun .ordered tr s ∧ latchEffects 1 tr = [.stopChild 1] ∧
      (runEffects tr).count (.finalizeRemoval 1) ≤ 1 := by
  have hexec : ∃ tr s, exec Input.apply (.new .ordered .starting) restartedChild =
      some (tr, s) ∧ (firstLatch 1 tr).map (latchEffect 1) = some (.stopChild 1) :=
    ⟨_, _, rfl, rfl⟩
  obtain ⟨tr, s, hrun, hfirst⟩ := hexec
  have honce := removal_effects_exactly_once (run_of_exec _ hrun) 1
  refine ⟨tr, s, run_of_exec _ hrun, ?_, honce.2.1⟩
  rw [honce.1, hfirst]
  rfl

end Shelterwood
