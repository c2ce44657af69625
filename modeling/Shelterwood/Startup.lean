/-
Shelterwood/Startup.lean

Startup: its order in an ordered scope, and when it completes.

The reducer keeps of startup only a cursor and, per initial child, a ready bit
that a restart clears again.  Both stand for the history of the run.  The ready
bit says that a `ready` was accepted (`readyAccepted_of_ready`), and while the
scope is starting even that it was accepted after the last spawn
(`readyAfterSpawn`).  The cursor says that every key behind it was reclaimed
or became ready (`StartOrder`).
-/
import Shelterwood.Removal

namespace Shelterwood

variable {flavor : ScopeFlavor} {tr pre post : List SupervisorEdge}
variable {s : SupervisorState} {e : SupervisorEdge} {k : ChildKey}

/-- The call admits a runtime membership. -/
def Input.admitsRuntime : Input → Bool
  | .admitChild _ initial => !initial
  | _ => false

/-- Every admission of the run is initial. -/
def AllInitial (tr : List SupervisorEdge) : Prop := ∀ e ∈ tr, e.input.admitsRuntime = false

instance (tr : List SupervisorEdge) : Decidable (AllInitial tr) :=
  inferInstanceAs (Decidable (∀ e ∈ tr, e.input.admitsRuntime = false))

/-! ### What the ready bit and the spawn bit remember -/

theorem startup_of_allInitial (h : SupervisorRun flavor tr s) (hall : AllInitial tr)
    {r : ChildRecord} (hr : s.children.get? k = some r) : r.startup ≠ .runtime := by
  revert r
  apply h.invariant (P := fun s => ∀ {r}, s.children.get? k = some r → r.startup ≠ .runtime)
  · intro r hr
    cases hr
  · intro e he hmem ih r hr
    cases recordStep_of_call (call_of_edge he) k with
    | untouched same missed unminted => exact ih (same ▸ hr)
    | minted membership initial input key output after =>
      obtain rfl := Option.some.inj (after.symm.trans hr)
      have hinitial := hall e hmem
      simp only [input, Input.admitsRuntime, Bool.not_eq_false'] at hinitial
      simp [SupervisorState.admittedRecord, hinitial]
    | stepped event r₀ input target before after output =>
      have hmove := ChildRecord.move_of_step (after.symm.trans hr)
      rw [Ne, ChildRecord.move_runtime_iff hmove]
      exact ih before

theorem readyAccepted_of_ready (h : SupervisorRun flavor tr s) {r : ChildRecord}
    (hr : s.children.get? k = some r) (hready : r.startup = .initial true) :
    ∃ e ∈ tr, ReadyAccepted k e := by
  refine marked_of_record (Q := fun r => r.startup = .initial true) ?_ ?_ h hr hready
  · intro membership initial hnew
    cases initial <;> simp [SupervisorState.admittedRecord] at hnew
  · intro e event r r' _ hinput htarget hbefore _ hmove hold hnew
    cases hmove with
    | ready child named accepted =>
      subst named
      cases htarget
      exact ⟨hinput, r, hbefore, accepted⟩
    | advance next reachable unspawned =>
      -- re-arming clears the bit, any other move keeps it
      split_ifs at hnew
      · rw [ChildRecord.setReady_startup] at hnew
        split_ifs at hnew
        cases hnew
      · exact absurd hnew hold
    | stay | spawn | sample | commit => exact absurd hnew hold

/-- **The spawn bit is set iff a `spawned` was accepted.** -/
theorem spawnedOnce_iff (h : SupervisorRun flavor tr s) {r : ChildRecord}
    (hr : s.children.get? k = some r) :
    r.spawnedOnce = true ↔ ∃ e ∈ tr, SpawnAccepted k e := by
  refine ⟨?_, ?_⟩
  · refine marked_of_record (Q := fun r => r.spawnedOnce = true) ?_ ?_ h hr
    · intro membership initial hnew
      cases hnew
    · intro e event r r' _ hinput htarget hbefore _ hmove hold hnew
      cases hmove with
      | spawn child named startable =>
        subst named
        cases htarget
        exact ⟨hinput, r, hbefore, startable⟩
      | ready child named accepted => exact absurd (by simpa using hnew) hold
      | advance next reachable unspawned =>
        split_ifs at hnew <;> exact absurd (by simpa using hnew) hold
      | stay | sample | commit => exact absurd hnew hold
  · intro hmark
    refine record_of_marked (Q := fun r => r.spawnedOnce = true) ?_ ?_ ?_ h hmark hr
    · rintro e - ⟨-, r, hr, -⟩
      exact contains_of_get? hr
    · rintro e hcall ⟨hinput, r₀, hr₀, hst⟩ r' hr'
      have hafter := get?_after_of_input hcall hinput rfl hr₀
      simp only [ChildRecord.step, hst, if_true] at hafter
      obtain rfl := Option.some.inj (hafter.symm.trans hr')
      rfl
    · intro starting event r r' hmove hspawned
      cases hmove with
      | advance next reachable unspawned => split_ifs <;> simpa using hspawned
      | ready child named accepted => simpa using hspawned
      | spawn child named startable => rfl
      | stay | sample | commit => exact hspawned

/-! ### The order of ordered startup -/

/-- The keys the start cursor takes along a run. -/
def startCursors (tr : List SupervisorEdge) : List ChildKey :=
  tr.filterMap fun e => e.after.nextOrderedStart

/-- The children a list of effects starts. -/
def startedChildren (effects : List Effect) : List ChildKey :=
  effects.filterMap fun effect =>
    match effect with
    | .startChild child => some child
    | _ => none

/-- What the start cursor of an ordered scope stands for. -/
structure StartOrder (tr : List SupervisorEdge) (s : SupervisorState) : Prop where
  cursor_le : ∀ c : ℕ, s.nextOrderedStart = some c → c ≤ s.keys.current
  behind : ∀ k, Admitted k tr → (∀ c, s.nextOrderedStart = some c → k < c) →
    (∃ e ∈ tr, Reclaimed k e) ∨ ∃ e ∈ tr, ReadyAccepted k e
  past_le : ∀ c ∈ startCursors tr, c ≤ s.keys.current ∧
    ∀ c', s.nextOrderedStart = some c' → c ≤ c'
  monotone : (startCursors tr).Pairwise (· ≤ ·)

/-- What was reclaimed or became ready stays so. -/
theorem passed_snoc (h : (∃ e' ∈ pre, Reclaimed k e') ∨ ∃ e' ∈ pre, ReadyAccepted k e') :
    (∃ e' ∈ pre ++ [e], Reclaimed k e') ∨ ∃ e' ∈ pre ++ [e], ReadyAccepted k e' := by
  rcases h with ⟨e', he', hrec⟩ | ⟨e', he', hready⟩
  · exact .inl ⟨e', List.mem_append_left _ he', hrec⟩
  · exact .inr ⟨e', List.mem_append_left _ he', hready⟩

/-- A step that keeps the cursor, or moves it forward over settled keys, keeps
the order. -/
theorem StartOrder.snoc (h : StartOrder pre e.before)
    (hle : ∀ c : ℕ, e.after.nextOrderedStart = some c → c ≤ e.after.keys.current)
    (hkeys : e.before.keys.current ≤ e.after.keys.current)
    (hforward : ∀ c ∈ startCursors pre, ∀ c', e.after.nextOrderedStart = some c' → c ≤ c')
    (hbehind : ∀ k, Admitted k (pre ++ [e]) → (∀ c, e.after.nextOrderedStart = some c → k < c) →
      (∃ e' ∈ pre ++ [e], Reclaimed k e') ∨ ∃ e' ∈ pre ++ [e], ReadyAccepted k e') :
    StartOrder (pre ++ [e]) e.after := by
  -- the call appends the cursor it leaves, if it leaves one
  have hsnoc : startCursors (pre ++ [e]) = startCursors pre ++ e.after.nextOrderedStart.toList := by
    cases hc : e.after.nextOrderedStart <;> simp [startCursors, hc]
  refine ⟨hle, hbehind, ?_, ?_⟩
  · intro c hc
    rw [hsnoc, List.mem_append, Option.mem_toList] at hc
    rcases hc with hc | hc
    · exact ⟨((h.past_le c hc).1).trans hkeys, hforward c hc⟩
    · refine ⟨hle c hc, fun c' hc' => ?_⟩
      exact (Option.some.inj (hc.symm.trans hc')).le
  · rw [hsnoc]
    refine List.pairwise_append.mpr ⟨h.monotone, ?_, ?_⟩
    · cases e.after.nextOrderedStart <;> simp
    · intro a ha b hb
      exact hforward a ha b (Option.mem_toList.mp hb)

/-- A step that leaves the start cursor alone. -/
theorem StartOrder.snoc_of_same (h : StartOrder pre e.before)
    (hcursor : e.after.nextOrderedStart = e.before.nextOrderedStart)
    (hkeys : e.before.keys.current ≤ e.after.keys.current)
    (hnew : ∀ k, e.output = .admitted k → ∃ c, e.before.nextOrderedStart = some c ∧ c < k) :
    StartOrder (pre ++ [e]) e.after := by
  refine h.snoc ?_ hkeys ?_ ?_
  · intro c hc
    exact (h.cursor_le c (hcursor ▸ hc)).trans hkeys
  · intro c hc c' hc'
    exact (h.past_le c hc).2 c' (hcursor ▸ hc')
  · intro k hk hlt
    rw [hcursor] at hlt
    rcases admitted_snoc.mp hk with hk | hk
    · exact passed_snoc (h.behind k hk hlt)
    · obtain ⟨c, hc, hck⟩ := hnew k hk
      exact absurd (hlt c hc) (lt_asymm hck)

namespace SupervisorState

/-- Where the blocker is: registered, at or after the cursor, and blocking. -/
theorem startBlocker_spec {j : ChildKey} {r : ChildRecord} (h : s.startBlocker = some (j, r)) :
    ∃ c, s.nextOrderedStart = some c ∧ c ≤ j ∧ s.children.get? j = some r := by
  unfold startBlocker at h
  obtain ⟨c, hc, hfind⟩ := Option.bind_eq_some_iff.mp h
  obtain ⟨hget, hle, -, -⟩ := OrdMap.findFrom_eq_some_iff.mp hfind
  exact ⟨c, hc, hle, hget⟩

/-- A record the startup pass walks over does not block. -/
theorem not_blocks_of_passed {c : ChildKey} {r : ChildRecord}
    (hc : s.nextOrderedStart = some c) (hck : c ≤ k) (hr : s.children.get? k = some r)
    (hpassed : ∀ j, s.startBlocker.map Prod.fst = some j → k < j) :
    r.blocksStartup = false := by
  unfold startBlocker at hpassed
  rw [hc, Option.bind_some] at hpassed
  cases hfind : s.children.findFrom c ChildRecord.blocksStartup with
  | none => exact OrdMap.findFrom_eq_none_iff.mp hfind k r hr hck
  | some b =>
    obtain ⟨j, rj⟩ := b
    have hkj := hpassed j (by rw [hfind]; rfl)
    exact (OrdMap.findFrom_eq_some_iff.mp hfind).2.2.2 k r hr hck hkj

end SupervisorState

/-- The settlement of a starting scope walks the cursor over keys that were
reclaimed or became ready. -/
theorem StartOrder.settle (h : StartOrder pre e.before)
    (hrun : SupervisorRun .ordered pre e.before) (hall : AllInitial pre)
    (hst : e.before.lifecycle = .starting)
    (hafter : e.after = e.before.settle.1) (houtput : ∀ k, e.output ≠ .admitted k) :
    StartOrder (pre ++ [e]) e.after := by
  have hflavor := flavor_eq hrun
  have hkeys : e.after.keys = e.before.keys := by simp [hafter]
  have hcursor : e.after.nextOrderedStart = e.before.startBlocker.map Prod.fst := by
    rw [hafter, SupervisorState.settle_nextOrderedStart, if_pos hst]
    simp only [SupervisorState.startCursor, hflavor]
  -- the cursor moves from `c` to the blocker `j`
  have hmoved : ∀ j, e.after.nextOrderedStart = some j →
      ∃ c r, e.before.nextOrderedStart = some c ∧ c ≤ j ∧
        e.before.children.get? j = some r := by
    intro j hj
    rw [hcursor] at hj
    obtain ⟨⟨j', r⟩, hb, rfl⟩ := Option.map_eq_some_iff.mp hj
    obtain ⟨c, hc, hcj, hget⟩ := SupervisorState.startBlocker_spec hb
    exact ⟨c, r, hc, hcj, hget⟩
  refine h.snoc ?_ (by rw [hkeys]) ?_ ?_
  · intro j hj
    obtain ⟨c, r, -, -, hget⟩ := hmoved j hj
    rw [hkeys]
    exact (accounted hrun).le_current j ((accounted hrun).admitted_of_registered j r hget)
  · intro past hpast j hj
    obtain ⟨c, r, hc, hcj, -⟩ := hmoved j hj
    exact ((h.past_le past hpast).2 c hc).trans hcj
  · intro k hk hlt
    have hk' := (admitted_snoc.mp hk).resolve_right (houtput k)
    apply passed_snoc
    -- the key was behind the old cursor, or the walk just passed it
    by_cases hbehind : ∀ c, e.before.nextOrderedStart = some c → k < c
    · exact h.behind k hk' hbehind
    · simp only [not_forall, not_lt] at hbehind
      obtain ⟨c, hc, hck⟩ := hbehind
      cases hr : e.before.children.get? k with
      | none => exact .inl ((accounted hrun).reclaimed_of_missing k hk' hr)
      | some r =>
        right
        rw [hcursor] at hlt
        have hpass := SupervisorState.not_blocks_of_passed hc hck hr hlt
        have hinit := startup_of_allInitial hrun hall hr
        apply readyAccepted_of_ready hrun hr
        -- neither runtime nor initial and unready
        cases hs : r.startup with
        | runtime => exact absurd hs hinit
        | initial ready =>
          cases ready with
          | true => rfl
          | false => simp [ChildRecord.blocksStartup, hs] at hpass

theorem startOrder (h : SupervisorRun .ordered tr s) (hall : AllInitial tr) :
    StartOrder tr s := by
  revert hall
  refine h.history ?_ ?_
  · intro _
    refine ⟨?_, ?_, ?_, List.Pairwise.nil⟩
    · intro c hc
      cases hc
    · rintro k ⟨e, he, -⟩
      cases he
    · intro c hc
      cases hc
  · intro pre e hrun he _ hP hall
    have hall' : AllInitial pre := fun a ha => hall a (List.mem_append_left _ ha)
    have hlast := hall e (by simp)
    have horder := hP hall'
    have hflavor := flavor_eq hrun
    cases call_of_edge he with
    | admitChild s membership initial =>
      obtain rfl : initial = true := by simpa [Input.admitsRuntime] using hlast
      have hcursor : (s.admitted membership true).nextOrderedStart =
          if s.nextOrderedStart = none then some (s.keys.current + 1)
          else s.nextOrderedStart := by
        have hord : s.flavor = .ordered := hflavor
        simp [SupervisorState.admitted, hord]
      cases hc : s.nextOrderedStart with
      | some c =>
        -- the cursor stands, and the new key is ahead of it
        refine horder.snoc_of_same ?_ (Nat.le_succ _) ?_
        · simp [hcursor, hc]
        · intro k hk
          refine ⟨c, hc, ?_⟩
          rw [← Output.admitted.inj hk]
          exact Nat.lt_succ_of_le (horder.cursor_le c hc)
      | none =>
        -- startup had run dry: the cursor is set on the new key
        rw [if_pos hc] at hcursor
        refine horder.snoc ?_ (Nat.le_succ _) ?_ ?_
        · intro c hc'
          exact (Option.some.inj (hcursor.symm.trans hc')).ge
        · intro c hpast c' hc'
          rw [← Option.some.inj (hcursor.symm.trans hc')]
          exact (horder.past_le c hpast).1.trans (Nat.le_succ _)
        · intro k hk hlt
          rcases admitted_snoc.mp hk with hk | hk
          · apply passed_snoc
            apply horder.behind k hk
            intro c hc'
            rw [hc] at hc'
            cases hc'
          · have hself := hlt _ hcursor
            rw [← Output.admitted.inj hk] at hself
            exact absurd hself (lt_irrefl _)
    | step s event =>
      by_cases hs : event = .settle
      · subst hs
        by_cases hst : s.lifecycle = .starting
        · exact horder.settle hrun hall' hst rfl (fun k hk => by cases hk)
        · refine horder.snoc_of_same ?_ ?_ (fun k hk => by cases hk)
          · simp [SupervisorState.apply, SupervisorState.settle_nextOrderedStart, hst]
          · simp [SupervisorState.apply]
      · have hframe := s.apply_eq_of_ne_settle hs
        refine horder.snoc_of_same ?_ ?_ (fun k hk => by cases hk)
        · rw [hframe]
        · rw [hframe]
    | failStartup | drain => exact horder.snoc_of_same rfl le_rfl (fun k hk => by cases hk)

/-- **Ordered startup order.**  A settlement of an ordered scope starts at most
one child; that child was never spawned, and every child minted before it was
reclaimed or became ready.  The start cursor never moves back. -/
theorem ordered_startup_order (h : SupervisorRun .ordered tr s) (hall : AllInitial tr) :
    (∀ pre e post c, tr = pre ++ e :: post → e.input = .step .settle →
      .startChild c ∈ e.output.effects →
        (∀ e' ∈ pre, ¬ SpawnAccepted c e') ∧
        (∀ k < c, Admitted k pre →
          (∃ e' ∈ pre, Reclaimed k e') ∨ ∃ e' ∈ pre, ReadyAccepted k e') ∧
        startedChildren e.output.effects = [c]) ∧
      (startCursors tr).Pairwise (· ≤ ·) := by
  refine ⟨?_, (startOrder h hall).monotone⟩
  rintro pre e post c rfl hinput hmem
  obtain ⟨hpre, he, -⟩ := h.split_at
  have hflavor := flavor_eq hpre
  have hall' : AllInitial (pre ++ [e]) := by
    intro a ha
    apply hall a
    rw [List.append_cons pre e post]
    exact List.mem_append_left _ ha
  obtain ⟨hafter, houtput⟩ := apply_of_input (call_of_edge he) hinput
  rw [houtput] at hmem ⊢
  obtain ⟨hst, r, hget, hspawn, hstartable, hblock, -⟩ :=
    SupervisorState.startChild_mem_settle_iff.mp hmem
  have hb := hblock hflavor
  -- a scope that starts a child is blocked by it, so the pass ends there
  have hdone : e.before.startupDone = false := by
    simp [SupervisorState.startupDone, hflavor, hb]
  have hsettle : e.before.apply .settle =
      ({ e.before with nextOrderedStart := some c }, [.startChild c]) := by
    rw [SupervisorState.apply, SupervisorState.settle_of_pending hst hdone]
    simp [SupervisorState.startCursor, SupervisorState.startCommands, hflavor, hb,
      ChildRecord.startCommand, hspawn, hstartable]
  refine ⟨?_, ?_, ?_⟩
  · intro e' he' hacc
    have hspawned := (spawnedOnce_iff hpre hget).mpr ⟨e', he', hacc⟩
    rw [hspawn] at hspawned
    cases hspawned
  · intro k hkc hk
    have horder := startOrder (hpre.snoc he) hall'
    have hcursor : ∀ c', e.after.nextOrderedStart = some c' → k < c' := by
      intro c' hc'
      rw [hafter, hsettle] at hc'
      exact Option.some.inj hc' ▸ hkc
    -- the settlement itself neither reclaims nor readies
    rcases horder.behind k (admitted_snoc.mpr (.inl hk)) hcursor with
      ⟨e', he', hrec⟩ | ⟨e', he', hready⟩
    · rcases List.mem_append.mp he' with he' | he'
      · exact .inl ⟨e', he', hrec⟩
      · obtain rfl := List.mem_singleton.mp he'
        cases hinput.symm.trans hrec.1
    · rcases List.mem_append.mp he' with he' | he'
      · exact .inr ⟨e', he', hready⟩
      · obtain rfl := List.mem_singleton.mp he'
        cases hinput.symm.trans hready.1
  · rw [hsettle]
    rfl

/-- Two children, started in order. -/
def twoStarts : List Input :=
  [.admitChild ⟨1, 1⟩ true, .admitChild ⟨2, 1⟩ true, .step .settle, .step (.spawned 1),
    .step (.ready 1), .step .settle, .step (.spawned 2), .step (.ready 2)]

theorem ordered_startup_order_two :
    ∃ tr s, SupervisorRun .ordered tr s ∧ AllInitial tr ∧
      startedChildren (runEffects tr) = [1, 2] ∧ (startCursors tr).Pairwise (· ≤ ·) := by
  have hexec : ∃ tr s, exec Input.apply (.new .ordered .starting) twoStarts = some (tr, s) ∧
      AllInitial tr ∧ startedChildren (runEffects tr) = [1, 2] :=
    ⟨_, _, rfl, by decide, by decide⟩
  obtain ⟨tr, s, hrun, hall, hstarts⟩ := hexec
  have horder := ordered_startup_order (run_of_exec _ hrun) hall
  exact ⟨tr, s, run_of_exec _ hrun, hall, hstarts, horder.2⟩

/-! ### Aggregate completion -/

/-- The run accepted a `ready` for the key after the last `spawned` it
accepted for it, and there was one. -/
def ReadyAfterSpawn (k : ChildKey) (tr : List SupervisorEdge) : Prop :=
  ∃ pre e post, tr = pre ++ e :: post ∧ ReadyAccepted k e ∧
    (∃ e' ∈ pre, SpawnAccepted k e') ∧ ∀ e' ∈ post, ¬ SpawnAccepted k e'

/-- Nothing enters `starting`. -/
theorem starting_before (h : SupervisorCall e) (hst : e.after.lifecycle = .starting) :
    e.before.lifecycle = .starting := by
  cases h with
  | admitChild s membership initial => exact hst
  | step s event =>
    by_cases hs : event = .settle
    · subst hs
      simp only [SupervisorState.apply, SupervisorState.settle_lifecycle] at hst
      split_ifs at hst with hd
      exact hst
    · rwa [s.apply_eq_of_ne_settle hs] at hst
  | failStartup s =>
    simp only at hst
    cases hl : s.lifecycle <;> simp_all [ScopeLifecycle.failStartup]
  | drain s reason forced lifecycle result reached =>
    have hdrain : lifecycle.isDraining = true := by
      rcases ScopeLifecycle.beginDrain_cases reached with ⟨-, h, -⟩ | ⟨-, h, -⟩ <;> exact h
    simp only [SupervisorState.drained] at hst
    rw [hst] at hdrain
    cases hdrain

/-- While the scope is starting a child that waits for its restart is not
ready: the restart re-armed the aggregate. -/
theorem unready_of_restartPending (h : SupervisorRun flavor tr s)
    (hst : s.lifecycle = .starting) {r : ChildRecord} (hr : s.children.get? k = some r)
    (hpending : r.state.incarnation = .restartPending) : r.startup ≠ .initial true := by
  revert hst r
  refine h.invariant ?_ ?_
  · intro _ r hr
    cases hr
  · intro e he _ ih hst r hr hpending
    have hcall := call_of_edge he
    have hst' := starting_before hcall hst
    cases recordStep_of_call hcall k with
    | untouched same missed unminted => exact ih hst' (same ▸ hr) hpending
    | minted membership initial input key output after =>
      obtain rfl := Option.some.inj (after.symm.trans hr)
      cases hpending
    | stepped event r₀ input target before after output =>
      have hstarting : e.before.lifecycle.isStarting = true :=
        ScopeLifecycle.isStarting_iff.mpr hst'
      rw [hstarting] at after
      have hold := ih hst' before
      cases ChildRecord.move_of_step (after.symm.trans hr) with
      | stay => exact hold hpending
      | spawn child named startable => simp at hpending
      | ready child named accepted =>
        have hlive := (ChildRecord.acceptsReady_iff.mp accepted).2
        simp only [ChildRecord.setReady_fields] at hpending
        rcases hlive with hl | hl <;> simp [hl] at hpending
      | advance next reachable unspawned =>
        -- entering `restartPending` while starting clears the ready bit
        split_ifs at hpending ⊢ with hb
        · rw [ChildRecord.setReady_startup]
          split_ifs <;> simp
        · simp only [ChildRecord.moveTo_fields,
            ChildState.withIncarnation_incarnation] at hpending
          exact absurd ⟨rfl, hpending⟩ hb
      | sample child named => exact hold (by simpa using hpending)
      | commit child named => exact hold hpending

/-- **A ready bit of a starting scope is younger than the last spawn.** -/
theorem readyAfterSpawn (h : SupervisorRun flavor tr s) (hst : s.lifecycle = .starting)
    {r : ChildRecord} (hr : s.children.get? k = some r) (hready : r.startup = .initial true) :
    ReadyAfterSpawn k tr := by
  revert hst r
  refine h.history ?_ ?_
  · intro _ r hr
    cases hr
  · intro pre e hrun he _ ih hst r hr hready
    have hcall := call_of_edge he
    have hst' := starting_before hcall hst
    -- a call that accepts no spawn extends the history
    have hextend : ¬ SpawnAccepted k e → ReadyAfterSpawn k pre →
        ReadyAfterSpawn k (pre ++ [e]) := by
      rintro hnot ⟨pre', e', post', rfl, hacc, hspawn, hlast⟩
      refine ⟨pre', e', post' ++ [e], by simp, hacc, hspawn, ?_⟩
      intro a ha
      rcases List.mem_append.mp ha with ha | ha
      · exact hlast a ha
      · obtain rfl := List.mem_singleton.mp ha
        exact hnot
    cases recordStep_of_call hcall k with
    | untouched same missed unminted =>
      apply hextend
      · rintro ⟨hinput, r₀, hr₀, -⟩
        rw [missed _ hinput rfl] at hr₀
        cases hr₀
      · exact ih hst' (same ▸ hr) hready
    | minted membership initial input key output after =>
      obtain rfl := Option.some.inj (after.symm.trans hr)
      cases initial <;> simp [SupervisorState.admittedRecord] at hready
    | stepped event r₀ input target before after output =>
      have hwf := wf_of_run hrun _ _ before
      by_cases hacc : SpawnAccepted k e
      · -- a spawn finds an unready record and leaves it so
        exfalso
        obtain ⟨hinput, r₁, hr₁, hstartable⟩ := hacc
        obtain rfl := Option.some.inj (before.symm.trans hr₁)
        have hspawned := get?_after_of_input hcall hinput rfl before
        simp only [ChildRecord.step, hstartable, if_true] at hspawned
        obtain rfl := Option.some.inj (hspawned.symm.trans hr)
        have hold : r₀.startup = .initial true := hready
        -- never spawned, or waiting for its restart
        rcases ChildRecord.startable_iff.mp hstartable with hs | hs
        · have hfresh := hwf.fresh_of_unstarted (by rw [hs]; rfl)
          rw [hwf.spawned_of_ready hold] at hfresh
          cases hfresh
        · exact unready_of_restartPending hrun hst' before (by rw [hs]; rfl) hold
      · cases ChildRecord.move_of_step (after.symm.trans hr) with
        | ready child named accepted =>
          subst named
          obtain rfl := Option.some.inj target
          -- an accepted `ready` finds a live incarnation, so a spawn precedes it
          have hlive := (ChildRecord.acceptsReady_iff.mp accepted).2
          have hs : r₀.spawnedOnce = true :=
            hwf.spawned_of_phase (by rcases hlive with hl | hl <;> simp [hl])
          exact ⟨pre, e, [], rfl, ⟨input, r₀, before, accepted⟩,
            (spawnedOnce_iff hrun before).mp hs, by simp⟩
        | advance next reachable unspawned =>
          split_ifs at hready
          · rw [ChildRecord.setReady_startup] at hready
            split_ifs at hready
            cases hready
          · exact hextend hacc (ih hst' before hready)
        | stay | spawn | sample | commit => exact hextend hacc (ih hst' before hready)

theorem initialsReady_iff : s.initialsReady = true ↔
    ∀ k, s.isInitial k = true → s.initialReady k = true := by
  unfold SupervisorState.initialsReady
  rw [OrdMap.all_eq_true_iff]
  refine ⟨?_, ?_⟩
  · intro h k hinit
    cases hr : s.children.get? k with
    | none => simp [SupervisorState.isInitial, hr] at hinit
    | some r =>
      have hk := h k r hr
      simp only [SupervisorState.isInitial, SupervisorState.initialReady, hr, Option.any_some,
        ne_eq, decide_not, Bool.not_eq_true', decide_eq_false_iff_not,
        decide_eq_true_eq] at hinit hk ⊢
      cases hs : r.startup with
      | runtime => exact absurd hs hinit
      | initial ready => cases ready <;> simp_all
  · intro h k r hr
    have hk := h k
    simp only [SupervisorState.isInitial, SupervisorState.initialReady, hr,
      Option.any_some] at hk
    cases hs : r.startup with
    | runtime => simp
    | initial ready => cases ready <;> simp_all

/-- In an all-initial ordered scope whose children are ready, what blocks
startup is a removal at or after the cursor. -/
theorem startBlocker_eq_none_iff (h : SupervisorRun .ordered tr s) (hall : AllInitial tr)
    (hready : s.initialsReady = true) :
    s.startBlocker = none ↔ ∀ c k, s.nextOrderedStart = some c → c ≤ k →
      s.contains k = true → s.membershipStatus k ≠ .removing := by
  have hblocks : ∀ {k r}, s.children.get? k = some r →
      (r.blocksStartup = false ↔ s.membershipStatus k ≠ .removing) := by
    intro k r hr
    have hk : r.startup ≠ .initial false := by
      simpa using OrdMap.all_eq_true_iff.mp hready k r hr
    have hrun : r.startup ≠ .runtime := startup_of_allInitial h hall hr
    have hspawn : r.spawnedOnce = true := by
      apply (wf_of_run h _ _ hr).spawned_of_ready
      cases hs : r.startup with
      | runtime => exact absurd hs hrun
      | initial ready => cases ready <;> simp_all
    simp [ChildRecord.blocksStartup, hk, hspawn, SupervisorState.membershipStatus,
      SupervisorState.childState, hr]
  unfold SupervisorState.startBlocker
  rw [Option.bind_eq_none_iff]
  refine ⟨?_, ?_⟩
  · intro hnone c k hc hck hreg
    obtain ⟨r, hr⟩ := Option.isSome_iff_exists.mp hreg
    exact (hblocks hr).mp (OrdMap.findFrom_eq_none_iff.mp (hnone c hc) k r hr hck)
  · intro hno c hc
    apply OrdMap.findFrom_eq_none_iff.mpr
    intro k r hr hck
    exact (hblocks hr).mpr (hno c k hc hck (contains_of_get? hr))

/-- **Aggregate startup completion is exact.** -/
theorem startup_completion_exact (h : SupervisorRun flavor tr s)
    (hall : flavor = .ordered → AllInitial tr) (hst : s.lifecycle = .starting) :
    ((∃ state, .startupCompleted state ∈ s.settle.2) ↔
      (∀ k, s.isInitial k = true → s.initialReady k = true) ∧
        (flavor = .ordered → ∀ c k, s.nextOrderedStart = some c → c ≤ k →
          s.contains k = true → s.membershipStatus k ≠ .removing)) ∧
      ((∃ state, .startupCompleted state ∈ s.settle.2) →
        ∀ k, s.isInitial k = true → ReadyAfterSpawn k tr) := by
  have hflavor := flavor_eq h
  have hiff : (∃ state, .startupCompleted state ∈ s.settle.2) ↔ s.startupDone = true := by
    simp only [SupervisorState.startupCompleted_mem_settle_iff]
    refine ⟨fun ⟨_, _, _, hd⟩ => hd, fun hd => ⟨_, rfl, hst, hd⟩⟩
  refine ⟨?_, ?_⟩
  · rw [hiff, ← initialsReady_iff]
    simp only [SupervisorState.startupDone, hflavor, Bool.and_eq_true, Bool.or_eq_true,
      decide_eq_true_eq, Option.isNone_iff_eq_none]
    refine and_congr_right fun hready => ?_
    cases flavor with
    | dynamic => simp
    | ordered =>
      simp only [reduceCtorEq, false_or, true_implies]
      exact startBlocker_eq_none_iff h (hall rfl) hready
  · intro hcompleted k hinit
    have hdone := hiff.mp hcompleted
    have hready : s.initialsReady = true := by
      simp only [SupervisorState.startupDone, Bool.and_eq_true] at hdone
      exact hdone.1
    have hk := initialsReady_iff.mp hready k hinit
    cases hr : s.children.get? k with
    | none => simp [SupervisorState.isInitial, hr] at hinit
    | some r =>
      apply readyAfterSpawn h hst hr
      simpa [SupervisorState.initialReady, hr] using hk

/-- After `twoStarts` the next settlement completes startup. -/
theorem startup_completion_exact_two :
    ∃ tr s, SupervisorRun .ordered tr s ∧ AllInitial tr ∧ s.lifecycle = .starting ∧
      .startupCompleted .running ∈ s.settle.2 ∧ ReadyAfterSpawn 2 tr := by
  have hexec : ∃ tr s, exec Input.apply (.new .ordered .starting) twoStarts = some (tr, s) ∧
      AllInitial tr ∧ s.lifecycle = .starting ∧ .startupCompleted .running ∈ s.settle.2 ∧
      s.isInitial 2 = true :=
    ⟨_, _, rfl, by decide, rfl, by decide, rfl⟩
  obtain ⟨tr, s, hrun, hall, hst, hcompleted, hinit⟩ := hexec
  have hexact := startup_completion_exact (run_of_exec _ hrun) (fun _ => hall) hst
  exact ⟨tr, s, run_of_exec _ hrun, hall, hst, hcompleted, hexact.2 ⟨_, hcompleted⟩ 2 hinit⟩

end Shelterwood
