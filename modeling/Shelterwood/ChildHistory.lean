/-
Shelterwood/ChildHistory.lean

The life of one registration key over a whole run.

A key is minted once, by the admission that registers it; from then on its
record walks the phase graph one edge at a time while its removal only moves
forward, and it leaves the arena once, by `reclaim`, when it has joined.  The
two indexes of the arena stay inverse to each other, provided no membership is
admitted twice.
-/
import Shelterwood.SupervisorRun

namespace Shelterwood

variable {flavor : ScopeFlavor} {tr pre post : List SupervisorEdge}
variable {s : SupervisorState} {e : SupervisorEdge} {k : ChildKey}

/-! ### Keys are minted once -/

theorem Admitted.mono (h : Admitted k pre) (hsub : pre ⊆ tr) : Admitted k tr := by
  obtain ⟨e, he, hout⟩ := h
  exact ⟨e, hsub he, hout⟩

/-- A key that is registered after some call of the run was minted by it. -/
theorem admitted_of_mem (h : SupervisorRun flavor tr s) (he : e ∈ tr)
    (hreg : e.after.contains k = true) : Admitted k tr := by
  obtain ⟨r, hr⟩ := Option.isSome_iff_exists.mp hreg
  obtain ⟨pre, post, rfl, h₁, hE, -⟩ := h.mem_split he
  have hadm := (accounted (h₁.snoc hE)).admitted_of_registered k r hr
  apply hadm.mono
  rw [List.append_cons pre e post]
  exact List.subset_append_left _ _

/-- A key is fresh until the call that mints it. -/
theorem fresh_of_minted (h : SupervisorRun flavor pre e.before) (hcall : SupervisorCall e)
    (hout : e.output = .admitted k) : ¬ Admitted k pre := by
  intro hadm
  have hle := (accounted h).le_current k hadm
  rcases keys_after hcall with ⟨-, hne⟩ | ⟨-, hmint⟩
  · exact hne k hout
  · rw [Output.admitted.inj (hout.symm.trans hmint)] at hle
    exact Nat.not_succ_le_self _ hle

/-- The keys a run mints, in order. -/
def mintedKeys (tr : List SupervisorEdge) : List ChildKey :=
  tr.filterMap fun e =>
    match e.output with
    | .admitted child => some child
    | _ => none

theorem mem_mintedKeys_iff : k ∈ mintedKeys tr ↔ Admitted k tr := by
  simp only [mintedKeys, List.mem_filterMap, Admitted]
  refine ⟨?_, ?_⟩
  · rintro ⟨e, he, hout⟩
    refine ⟨e, he, ?_⟩
    cases ho : e.output <;> simp_all
  · rintro ⟨e, he, hout⟩
    exact ⟨e, he, by simp [hout]⟩

theorem mintedKeys_snoc (pre : List SupervisorEdge) (e : SupervisorEdge) :
    mintedKeys (pre ++ [e]) = mintedKeys pre ++ mintedKeys [e] := List.filterMap_append

/-- **Minted keys strictly increase.** -/
theorem mintedKeys_pairwise (h : SupervisorRun flavor tr s) :
    (mintedKeys tr).Pairwise (· < ·) := by
  refine h.history ?_ ?_
  · exact List.Pairwise.nil
  · intro pre e hrun he _ hP
    rw [mintedKeys_snoc]
    refine List.pairwise_append.mpr ⟨hP, ?_, ?_⟩
    · cases ho : e.output <;> simp [mintedKeys, ho]
    · intro a ha b hb
      -- an earlier key is at most the counter, and the new one is above it
      have hle := (accounted hrun).le_current a (mem_mintedKeys_iff.mp ha)
      obtain ⟨e', he', hout⟩ := mem_mintedKeys_iff.mp hb
      obtain rfl := List.mem_singleton.mp he'
      rcases keys_after (call_of_edge he) with ⟨-, hne⟩ | ⟨-, hmint⟩
      · exact absurd hout (hne b)
      · rw [Output.admitted.inj (hout.symm.trans hmint)]
        exact Nat.lt_succ_of_le hle

/-! ### The phases of a key -/

/-- The states a key takes along a run, one per call after which it is
registered. -/
def childStates (k : ChildKey) (tr : List SupervisorEdge) : List ChildState :=
  tr.filterMap fun e => e.after.childState k

/-- One call keeps a state or moves it along the two graphs. -/
structure ChildState.Follows (a b : ChildState) : Prop where
  incarnation : a.incarnation = b.incarnation ∨ b.incarnation ∈ a.incarnation.next
  removal : a.removalStage ≤ b.removalStage

theorem childState_eq_some_iff {st : ChildState} :
    s.childState k = some st ↔ ∃ r, s.children.get? k = some r ∧ r.state = st := by
  simp [SupervisorState.childState]

theorem contains_of_childState {st : ChildState} (h : s.childState k = some st) :
    s.contains k = true := by
  obtain ⟨r, hr, -⟩ := childState_eq_some_iff.mp h
  simp [SupervisorState.contains, hr]

/-- The step lemma of a key's history. -/
theorem follows_of_call (h : SupervisorCall e) {a b : ChildState}
    (ha : e.before.childState k = some a) (hb : e.after.childState k = some b)
    (hold : e.output ≠ .admitted k) : a.Follows b := by
  obtain ⟨r, hr, rfl⟩ := childState_eq_some_iff.mp ha
  obtain ⟨r', hr', rfl⟩ := childState_eq_some_iff.mp hb
  cases recordStep_of_call h k with
  | untouched same missed unminted =>
    obtain rfl : r' = r := Option.some.inj (hr'.symm.trans (same.trans hr))
    exact ⟨.inl rfl, le_rfl⟩
  | minted membership initial input key output after => exact absurd output hold
  | stepped event r₀ input target before after output =>
    obtain rfl : r₀ = r := Option.some.inj (before.symm.trans hr)
    have hmove := ChildRecord.move_of_step (after.symm.trans hr')
    exact ⟨ChildRecord.move_incarnation hmove, ChildRecord.move_removalStage hmove⟩

/-- A key appears in the arena only by being minted, as an unstarted resident. -/
theorem minted_of_appears (h : SupervisorCall e) (hbefore : e.before.contains k = false)
    (hafter : e.after.contains k = true) :
    e.output = .admitted k ∧ e.after.childState k = some (.resident .unstarted) := by
  obtain ⟨r', hr'⟩ := Option.isSome_iff_exists.mp hafter
  have hnone : e.before.children.get? k = none := by
    simpa [SupervisorState.contains] using hbefore
  cases recordStep_of_call h k with
  | untouched same missed unminted =>
    rw [hnone] at same
    rw [same] at hr'
    cases hr'
  | minted membership initial input key output after =>
    exact ⟨output, childState_eq_some_iff.mpr ⟨_, after, rfl⟩⟩
  | stepped event r₀ input target before after output =>
    rw [hnone] at before
    cases before

/-- A key leaves the arena only by `reclaim`, once joined. -/
theorem reclaimed_of_leaves (h : SupervisorCall e) (hbefore : e.before.contains k = true)
    (hafter : e.after.contains k = false) :
    e.input = .step (.reclaim k) ∧ e.before.joined k = true := by
  obtain ⟨r, hr⟩ := Option.isSome_iff_exists.mp hbefore
  have hnone : e.after.children.get? k = none := by
    simpa [SupervisorState.contains] using hafter
  cases recordStep_of_call h k with
  | untouched same missed unminted =>
    rw [hnone, hr] at same
    cases same
  | minted membership initial input key output after =>
    rw [hnone] at after
    cases after
  | stepped event r₀ input target before after output =>
    obtain ⟨⟨c, rfl⟩, hj⟩ := ChildRecord.step_eq_none_iff.mp (after.symm.trans hnone)
    obtain rfl := Option.some.inj target
    exact ⟨input, by simp [SupervisorState.joined, SupervisorState.childState, before, hj]⟩

/-- A fresh key has no history. -/
theorem childStates_eq_nil (h : SupervisorRun flavor pre s) (hfresh : ¬ Admitted k pre) :
    childStates k pre = [] := by
  apply List.eq_nil_iff_forall_not_mem.mpr
  intro st hst
  obtain ⟨e, he, hstate⟩ := List.mem_filterMap.mp hst
  exact hfresh (admitted_of_mem h he (contains_of_childState hstate))

/-- **The history of a key is a path.**  It starts as an unstarted resident,
and while the key is registered its current state is the last of the path. -/
theorem childStates_path (h : SupervisorRun flavor tr s) (k : ChildKey) :
    (childStates k tr).IsChain ChildState.Follows ∧
      (∀ st ∈ (childStates k tr).head?, st = .resident .unstarted) ∧
      (s.childState k = none ∨ s.childState k = (childStates k tr).getLast?) := by
  refine h.history ?_ ?_
  · exact ⟨List.IsChain.nil, by simp [childStates], .inl rfl⟩
  · rintro pre e hrun he - ⟨hchain, hhead, hlast⟩
    have hcall := call_of_edge he
    have hsnoc : childStates k (pre ++ [e]) = childStates k pre ++ childStates k [e] :=
      List.filterMap_append
    cases hafter : e.after.childState k with
    | none =>
      have hone : childStates k [e] = [] := by simp [childStates, hafter]
      rw [hsnoc, hone, List.append_nil]
      exact ⟨hchain, hhead, .inl rfl⟩
    | some b =>
      have hone : childStates k [e] = [b] := by simp [childStates, hafter]
      rw [hsnoc, hone]
      cases hbefore : e.before.childState k with
      | none =>
        -- the key is minted by this call, so nothing precedes it
        obtain ⟨hout, hb⟩ := minted_of_appears (k := k) hcall
          (by simpa [SupervisorState.contains, SupervisorState.childState] using hbefore)
          (contains_of_childState hafter)
        rw [childStates_eq_nil hrun (fresh_of_minted hrun hcall hout)]
        refine ⟨List.IsChain.singleton b, ?_, .inr rfl⟩
        intro st hst
        obtain rfl : b = st := by simpa using hst
        exact Option.some.inj (hafter.symm.trans hb)
      | some a =>
        -- registered before and after: one step of the machine extends the path
        have hlast' : (childStates k pre).getLast? = some a := by
          rcases hlast with hlast | hlast
          · rw [hbefore] at hlast
            cases hlast
          · rw [← hlast, hbefore]
        have hne : childStates k pre ≠ [] := by
          intro hnil
          simp [hnil] at hlast'
        have hold : e.output ≠ .admitted k := by
          intro hout
          obtain ⟨r, hr, -⟩ := childState_eq_some_iff.mp hbefore
          exact fresh_of_minted hrun hcall hout
            ((accounted hrun).admitted_of_registered k r hr)
        refine ⟨?_, ?_, .inr (by simp)⟩
        · refine List.isChain_append.mpr ⟨hchain, List.IsChain.singleton b, ?_⟩
          intro x hx y hy
          obtain rfl : a = x := by
            rw [hlast'] at hx
            exact Option.some.inj hx
          obtain rfl : b = y := by simpa using hy
          exact follows_of_call hcall hbefore hafter hold
        · intro st hst
          apply hhead st
          rwa [List.head?_append_of_ne_nil _ hne] at hst

/-! ### What a record remembers

A mark is a call that leaves a trace in the record of `k`.  The two rules below
translate between "the run contains a marked call" and a property of the
record, for as long as the key is registered. -/

theorem admitted_of_mem_before (h : SupervisorRun flavor tr s) (he : e ∈ tr)
    (hreg : e.before.contains k = true) : Admitted k tr := by
  obtain ⟨r, hr⟩ := Option.isSome_iff_exists.mp hreg
  obtain ⟨pre, post, rfl, h₁, -, -⟩ := h.mem_split he
  exact ((accounted h₁).admitted_of_registered k r hr).mono (List.subset_append_left _ _)

/-- A property that a mark establishes and every move keeps holds of the
record after the mark. -/
theorem record_of_marked {mark : SupervisorEdge → Prop} {Q : ChildRecord → Prop}
    (hreg : ∀ e, SupervisorCall e → mark e → e.before.contains k = true)
    (hset : ∀ e, SupervisorCall e → mark e → ∀ r, e.after.children.get? k = some r → Q r)
    (hkeep : ∀ starting event r r', ChildRecord.Move starting event r r' → Q r → Q r')
    (h : SupervisorRun flavor tr s) (hmark : ∃ e ∈ tr, mark e) {r : ChildRecord}
    (hr : s.children.get? k = some r) : Q r := by
  revert hmark r
  refine h.history ?_ ?_
  · rintro ⟨e, he, -⟩
    cases he
  · rintro pre e hrun he - hP ⟨e', he', hmark⟩ r hr
    have hcall := call_of_edge he
    rcases List.mem_append.mp he' with hpre | hlast
    · cases recordStep_of_call hcall k with
      | untouched same missed unminted => exact hP ⟨e', hpre, hmark⟩ (same ▸ hr)
      | minted membership initial input key output after =>
        -- a marked key was registered before, so it cannot be minted now
        have hbefore := hreg e' (call_of_edge (hrun.edge_of_mem hpre)) hmark
        exact absurd (admitted_of_mem_before hrun hpre hbefore)
          (fresh_of_minted hrun hcall output)
      | stepped event r₀ input target before after output =>
        exact hkeep _ event r₀ r (ChildRecord.move_of_step (after.symm.trans hr))
          (hP ⟨e', hpre, hmark⟩ before)
    · obtain rfl := List.mem_singleton.mp hlast
      exact hset e' hcall hmark r hr

/-- A property that a fresh record lacks and only a mark establishes shows
that the run contains the mark. -/
theorem marked_of_record {mark : SupervisorEdge → Prop} {Q : ChildRecord → Prop}
    (hnew : ∀ membership initial, ¬ Q (SupervisorState.admittedRecord membership initial))
    (hset : ∀ e event r r', SupervisorCall e → e.input = .step event →
      event.target = some k → e.before.children.get? k = some r →
      e.after.children.get? k = some r' →
      ChildRecord.Move e.before.lifecycle.isStarting event r r' → ¬ Q r → Q r' → mark e)
    (h : SupervisorRun flavor tr s) {r : ChildRecord} (hr : s.children.get? k = some r)
    (hQ : Q r) : ∃ e ∈ tr, mark e := by
  revert r
  apply h.history (P := fun pre s =>
    ∀ {r}, s.children.get? k = some r → Q r → ∃ e ∈ pre, mark e)
  · intro r hr
    cases hr
  · intro pre e hrun he _ hP r hr hQ
    have hcall := call_of_edge he
    have hold : ∀ {r₀}, e.before.children.get? k = some r₀ → Q r₀ →
        ∃ e' ∈ pre ++ [e], mark e' := by
      intro r₀ hr₀ hQ₀
      obtain ⟨e', he', hmark⟩ := hP hr₀ hQ₀
      exact ⟨e', List.mem_append_left _ he', hmark⟩
    cases recordStep_of_call hcall k with
    | untouched same missed unminted => exact hold (same ▸ hr) hQ
    | minted membership initial input key output after =>
      obtain rfl := Option.some.inj (after.symm.trans hr)
      exact absurd hQ (hnew membership initial)
    | stepped event r₀ input target before after output =>
      -- either it held before, or this call established it
      by_cases hQ₀ : Q r₀
      · exact hold before hQ₀
      · have hmove := ChildRecord.move_of_step (after.symm.trans hr)
        exact ⟨e, by simp, hset e event r₀ r hcall input target before hr hmove hQ₀ hQ⟩

/-- **Reclaiming is for good.** -/
theorem missing_of_reclaimed (h : SupervisorRun flavor tr s) (hrec : ∃ e ∈ tr, Reclaimed k e) :
    s.children.get? k = none := by
  by_contra hne
  obtain ⟨r, hr⟩ := Option.ne_none_iff_exists'.mp hne
  -- a reclaimed key has no record, so the property may be absurd
  refine record_of_marked (Q := fun _ => False) ?_ ?_ ?_ h hrec hr
  · intro e _ hmark
    exact hmark.2.1
  · intro e _ hmark r' hr'
    simpa [SupervisorState.contains, hr'] using hmark.2.2
  · intro _ _ _ _ _ hfalse
    exact hfalse

/-! ### The two indexes -/

/-- The memberships a run admits, in order. -/
def admittedMemberships (tr : List SupervisorEdge) : List Membership :=
  tr.filterMap fun e =>
    match e.input with
    | .admitChild membership _ => some membership
    | _ => none

/-- `key_for` and the records' memberships are inverse to each other. -/
structure Indexed (tr : List SupervisorEdge) (s : SupervisorState) : Prop where
  admitted : ∀ k r, s.children.get? k = some r → r.membership ∈ admittedMemberships tr
  inverse : ∀ m k, s.keyFor m = some k ↔ ∃ r, s.children.get? k = some r ∧ r.membership = m

theorem Indexed.putRecord {r : ChildRecord} {r' : Option ChildRecord} (h : Indexed tr s)
    (hr : s.children.get? k = some r) (hm : ∀ r₁, r' = some r₁ → r₁.membership = r.membership) :
    Indexed tr (s.putRecord k r r') := by
  refine ⟨?_, ?_⟩
  · intro j rj hj
    rw [SupervisorState.putRecord_get?] at hj
    split_ifs at hj with hjk
    · rw [hm rj hj]
      exact h.admitted k r hr
    · exact h.admitted j rj hj
  · intro m j
    have hkm : s.keyFor r.membership = some k := (h.inverse r.membership k).mpr ⟨r, hr, rfl⟩
    simp only [SupervisorState.putRecord_get?]
    cases r' with
    | some r₁ =>
      have hkeep : (s.putRecord k r (some r₁)).keyFor m = s.keyFor m := rfl
      rw [hkeep, h.inverse m j]
      split_ifs with hjk
      · subst hjk
        simp [hr, hm r₁ rfl]
      · rfl
    | none =>
      -- reclaiming drops one entry from each index
      have hkeep : (s.putRecord k r none).keyFor m =
          if m = r.membership then none else s.keyFor m := by
        have hkm' : s.childKeys.lookup r.membership = some k := hkm
        simp only [SupervisorState.putRecord, SupervisorState.keyFor, hkm', if_true]
        split_ifs with hmr
        · rw [hmr, Finmap.lookup_erase]
        · exact Finmap.lookup_erase_ne hmr
      rw [hkeep]
      split_ifs with hmr hjk hjk
      · simp
      · subst hmr
        refine ⟨fun h => (by cases h), fun hex => ?_⟩
        have := (h.inverse r.membership j).mpr hex
        exact absurd (Option.some.inj (this.symm.trans hkm)) hjk
      · subst hjk
        rw [h.inverse m j, hr]
        constructor
        · rintro ⟨r₁, h₁, h₂⟩
          cases h₁
          exact absurd h₂.symm hmr
        · rintro ⟨_, h₁, -⟩
          cases h₁
      · exact h.inverse m j

theorem Indexed.snoc (h : Indexed pre e.before) (hacc : Accounted pre e.before)
    (hcall : SupervisorCall e) (hdistinct : (admittedMemberships (pre ++ [e])).Nodup) :
    Indexed (pre ++ [e]) e.after := by
  -- all but an admission keep the list of memberships
  have hkeep : ∀ {t}, Indexed pre t → Indexed (pre ++ [e]) t := by
    intro t ht
    refine ⟨fun k r hr => ?_, ht.inverse⟩
    have hsnoc : admittedMemberships (pre ++ [e]) =
        admittedMemberships pre ++ admittedMemberships [e] := List.filterMap_append
    rw [hsnoc]
    exact List.mem_append_left _ (ht.admitted k r hr)
  cases hcall with
  | admitChild s m₀ initial =>
    have hsnoc : admittedMemberships (pre ++
        [⟨s, .admitChild m₀ initial, .admitted (s.keys.current + 1), s.admitted m₀ initial⟩])
        = admittedMemberships pre ++ [m₀] := List.filterMap_append
    -- distinct admissions: no registered child has this membership
    have hnew : m₀ ∉ admittedMemberships pre := by
      rw [hsnoc] at hdistinct
      exact fun hmem => (List.nodup_append.mp hdistinct).2.2 m₀ hmem m₀ (by simp) rfl
    -- the minted key is above every registered one
    have hfresh : s.children.get? (s.keys.current + 1) = none := by
      by_contra hne
      obtain ⟨r, hr⟩ := Option.ne_none_iff_exists'.mp hne
      exact Nat.not_succ_le_self _
        (hacc.le_current _ (hacc.admitted_of_registered _ r hr))
    refine ⟨?_, ?_⟩
    · intro k r hr
      rw [hsnoc]
      simp only [SupervisorState.admitted, OrdMap.get?_insert] at hr
      split_ifs at hr with hk
      · cases hr
        simp [SupervisorState.admittedRecord]
      · exact List.mem_append_left _ (h.admitted k r hr)
    · intro m k
      simp only [SupervisorState.admitted, SupervisorState.keyFor, OrdMap.get?_insert]
      by_cases hm : m = m₀
      · subst hm
        rw [Finmap.lookup_insert]
        split_ifs with hk
        · simp [hk, SupervisorState.admittedRecord]
        · refine ⟨fun heq => absurd (Option.some.inj heq).symm hk, ?_⟩
          rintro ⟨r, hr, rfl⟩
          exact absurd (h.admitted k r hr) hnew
      · rw [Finmap.lookup_insert_of_ne _ hm]
        split_ifs with hk
        · subst hk
          refine ⟨fun heq => ?_, ?_⟩
          · obtain ⟨r, hr, -⟩ := (h.inverse m _).mp heq
            rw [hfresh] at hr
            cases hr
          · rintro ⟨r, hr, hrm⟩
            cases hr
            exact absurd hrm.symm hm
        · exact h.inverse m k
  | step s event =>
    apply hkeep
    by_cases hs : event = .settle
    · subst hs
      have hsettle := s.settle_fields
      refine ⟨fun k r hr => h.admitted k r ?_, fun m k => ?_⟩
      · rwa [← hsettle.1]
      · have := h.inverse m k
        simpa [SupervisorState.apply, SupervisorState.keyFor] using this
    · obtain ⟨c, hc⟩ := Event.exists_target hs
      cases hget : s.children.get? c with
      | none =>
        rw [SupervisorState.apply_of_missing hc hget]
        exact h
      | some r =>
        rw [SupervisorState.apply_of_registered hc hget]
        apply h.putRecord hget
        intro r₁ hr₁
        exact ChildRecord.move_membership (ChildRecord.move_of_step hr₁)
  | failStartup | drain => exact hkeep ⟨h.admitted, h.inverse⟩

theorem indexed (h : SupervisorRun flavor tr s) (hdistinct : (admittedMemberships tr).Nodup) :
    Indexed tr s := by
  revert hdistinct
  refine h.history ?_ ?_
  · intro _
    refine ⟨?_, ?_⟩
    · intro k r hr
      cases hr
    · intro m k
      simp [SupervisorState.keyFor, SupervisorState.new]
  · intro pre e hrun he _ hP hdistinct
    have hsub : (admittedMemberships pre).Nodup := by
      have hsnoc : admittedMemberships (pre ++ [e]) =
          admittedMemberships pre ++ admittedMemberships [e] := List.filterMap_append
      rw [hsnoc] at hdistinct
      exact hdistinct.of_append_left
    exact (hP hsub).snoc (accounted hrun) (call_of_edge he) hdistinct

/-! ### Cursors of a dynamic scope -/

/-- A dynamic scope never holds a start cursor, a stop cursor or a waiting slot. -/
theorem dynamic_cursors (h : SupervisorRun .dynamic tr s) :
    s.nextOrderedStart = none ∧ s.orderedStopCursor = none ∧ s.orderedStopWaiting = none := by
  have hinv : s.flavor = .dynamic ∧ s.nextOrderedStart = none ∧ s.orderedStopCursor = none ∧
      s.orderedStopWaiting = none := by
    refine h.invariant ⟨rfl, rfl, rfl, rfl⟩ ?_
    rintro e he - ⟨hf, hn, hc, hw⟩
    refine ⟨(flavor_after (call_of_edge he)).trans hf, ?_⟩
    cases call_of_edge he with
    | admitChild s membership initial => simp_all [SupervisorState.admitted]
    | step s event =>
      by_cases hs : event = .settle
      · subst hs
        have hdyn : s.flavor = .dynamic := hf
        have hidle := s.settle_stop_idle (.inl (by simp [hdyn]))
        refine ⟨?_, hidle.1.trans hc, hidle.2.trans hw⟩
        simp only [SupervisorState.apply, SupervisorState.settle_nextOrderedStart,
          SupervisorState.startCursor, hdyn]
        split_ifs <;> exact hn
      · rw [s.apply_eq_of_ne_settle hs]
        exact ⟨hn, hc, hw⟩
    | failStartup s => exact ⟨hn, hc, hw⟩
    | drain s reason forced lifecycle result reached =>
      simp_all [SupervisorState.drained]
  exact hinv.2

/-! ### The authoritative child state -/

/-- **Authoritative child state.**  In every run, for every key: its phases
walk the phase graph, starting unstarted; its removal only moves forward; it
appears by being minted and leaves by `reclaim` once joined; minted keys
strictly increase; the indexes are inverse to each other; readiness needs a
spawn; a dynamic scope holds no cursor. -/
theorem authoritative_child_state (h : SupervisorRun flavor tr s)
    (hdistinct : (admittedMemberships tr).Nodup) :
    (∀ k, ((childStates k tr).map ChildState.incarnation).IsChain
        fun a b => a = b ∨ b ∈ a.next) ∧
      (∀ k, ∀ st ∈ (childStates k tr).head?, st = .resident .unstarted) ∧
      (∀ k, ((childStates k tr).map ChildState.removalStage).Pairwise (· ≤ ·)) ∧
      (∀ e ∈ tr, ∀ k, e.before.contains k = true → e.after.contains k = false →
        e.input = .step (.reclaim k) ∧ e.before.joined k = true) ∧
      (∀ e ∈ tr, ∀ k, e.before.contains k = false → e.after.contains k = true →
        e.output = .admitted k) ∧
      (mintedKeys tr).Pairwise (· < ·) ∧
      (∀ m k, s.keyFor m = some k ↔ ∃ r, s.children.get? k = some r ∧ r.membership = m) ∧
      (∀ k, s.initialReady k = true → s.spawnedOnce k = true) ∧
      (flavor = .dynamic → s.nextOrderedStart = none ∧ s.orderedStopCursor = none ∧
        s.orderedStopWaiting = none) := by
  refine ⟨?_, ?_, ?_, ?_, ?_, mintedKeys_pairwise h, (indexed h hdistinct).inverse, ?_, ?_⟩
  · intro k
    rw [List.isChain_map]
    exact (childStates_path h k).1.imp fun _ _ hab => hab.incarnation
  · intro k
    exact (childStates_path h k).2.1
  · intro k
    rw [← List.isChain_iff_pairwise, List.isChain_map]
    exact (childStates_path h k).1.imp fun _ _ hab => hab.removal
  · intro e he k
    exact reclaimed_of_leaves (call_of_edge (h.edge_of_mem he))
  · intro e he k hbefore hafter
    exact (minted_of_appears (call_of_edge (h.edge_of_mem he)) hbefore hafter).1
  · intro k hready
    cases hr : s.children.get? k with
    | none => simp [SupervisorState.initialReady, hr] at hready
    | some r =>
      have hwf := wf_of_run h _ _ hr
      simp only [SupervisorState.initialReady, hr, Option.any_some, decide_eq_true_eq] at hready
      simp [SupervisorState.spawnedOnce, hr, hwf.spawned_of_ready hready]
  · rintro rfl
    exact dynamic_cursors h

/-- A child that starts, restarts once, is removed and reclaimed. -/
def restartedChild : List Input :=
  [.admitChild ⟨1, 1⟩ true, .step .settle, .step (.spawned 1), .step (.ready 1),
    .step (.incarnationComplete 1), .step (.restartPending 1), .step (.spawned 1),
    .step (.removalSampled 1), .step (.removalLatched 1), .step (.stopStarted 1),
    .step (.incarnationComplete 1), .step (.disposalStarted 1), .step (.terminalized 1),
    .step (.reclaim 1)]

theorem authoritative_child_state_restarted :
    ∃ tr s, SupervisorRun .ordered tr s ∧ (admittedMemberships tr).Nodup ∧
      (childStates 1 tr).map ChildState.removalStage = [0, 0, 0, 0, 0, 0, 0, 1, 2, 2, 2, 2, 2] ∧
      ((childStates 1 tr).map ChildState.incarnation).IsChain fun a b => a = b ∨ b ∈ a.next := by
  have hexec : ∃ tr s, exec Input.apply (.new .ordered .starting) restartedChild =
      some (tr, s) ∧ (admittedMemberships tr).Nodup ∧
      (childStates 1 tr).map ChildState.removalStage = [0, 0, 0, 0, 0, 0, 0, 1, 2, 2, 2, 2, 2] :=
    ⟨_, _, rfl, by decide, by decide⟩
  obtain ⟨tr, s, hrun, hdistinct, hstages⟩ := hexec
  have hpath := authoritative_child_state (run_of_exec _ hrun) hdistinct
  exact ⟨tr, s, run_of_exec _ hrun, hdistinct, hstages, hpath.1 1⟩

end Shelterwood
