/-
Shelterwood/Descent.lean

What the reducer uses up.

Apart from admission, which adds a child, and force, which addresses the same
children again, every call moves a supervisor one way: startup ends once, a
finish is reported once, the reverse stop cursor only retreats, and a child is
committed, joined and started at most once.  `Descends` says that one state lies
that way from another, and `potential` counts what is left to use up.

The effects a call queues are paid for out of the potential, with one
exception: a settlement asks for an unstarted child without noting that it did
(`paid_or_pending`).  Such a request stays open until the child or the scope
leaves its startup state, and that costs a unit (`potential_lt_of_startPending`).
-/
import Shelterwood.Settlement

namespace Shelterwood

/-- The calls that neither admit a child nor force the scope. -/
def Input.isAnswer : Input → Bool
  | .admitChild _ _ | .force => false
  | .step _ | .failStartup | .beginDrain _ => true

/-! ### One state after another -/

/-- What an answer keeps of a child record. -/
structure ChildRecord.Precedes (r r' : ChildRecord) : Prop where
  committed : r.committed = true → r'.committed = true
  joined : r.state.joined = true → r'.state.joined = true
  unstarted : r'.state = .resident .unstarted → r.state = .resident .unstarted

namespace SupervisorState

/-- The ordered stop has not reached the key; a dynamic scope stops all its
children at once. -/
def undrained (s : SupervisorState) (k : ChildKey) : Bool :=
  !s.lifecycle.isDraining || (s.flavor = .ordered && s.orderedStopCursor.any fun c => k ≤ c)

/-- A settlement may ask for the child. -/
def StartPending (s : SupervisorState) (k : ChildKey) : Prop :=
  s.lifecycle.isStarting = true ∧ s.childState k = some (.resident .unstarted)

theorem not_startPending_iff {s : SupervisorState} {k : ChildKey} :
    ¬ s.StartPending k ↔
      s.lifecycle.isStarting = false ∨ s.childState k ≠ some (.resident .unstarted) := by
  rw [StartPending, not_and_or, Bool.not_eq_true]

/-- The second state lies ahead of the first. -/
structure Descends (s s' : SupervisorState) : Prop where
  starting : s'.lifecycle.isStarting = true → s.lifecycle.isStarting = true
  finished : s.finishEmitted = true → s'.finishEmitted = true
  undrained : ∀ k, s'.undrained k = true → s.undrained k = true
  record : ∀ k r', s'.children.get? k = some r' →
    ∃ r, s.children.get? k = some r ∧ r.Precedes r'

namespace Descends

variable {s s' s'' : SupervisorState}

theorem refl (s : SupervisorState) : Descends s s :=
  ⟨id, id, fun _ => id, fun _ r hr => ⟨r, hr, id, id, id⟩⟩

theorem trans (h : Descends s s') (h' : Descends s' s'') : Descends s s'' where
  starting := h.starting ∘ h'.starting
  finished := h'.finished ∘ h.finished
  undrained k := h.undrained k ∘ h'.undrained k
  record k r'' hr'' := by
    obtain ⟨r', hr', hpre'⟩ := h'.record k r'' hr''
    obtain ⟨r, hr, hpre⟩ := h.record k r' hr'
    exact ⟨r, hr, hpre'.committed ∘ hpre.committed, hpre'.joined ∘ hpre.joined,
      hpre.unstarted ∘ hpre'.unstarted⟩

/-- A child that cannot be started any more stays so. -/
theorem startPending (h : Descends s s') {k : ChildKey} (hk : s'.StartPending k) :
    s.StartPending k := by
  obtain ⟨hst, hstate⟩ := hk
  obtain ⟨r', hr', hun⟩ := Option.map_eq_some_iff.mp hstate
  obtain ⟨r, hr, hpre⟩ := h.record k r' hr'
  refine ⟨h.starting hst, ?_⟩
  simp [childState, hr, hpre.unstarted hun]

end Descends

/-! ### The potential -/

/-- What a child still has to use up: its removal, its join, its turn in the
drain and its first start. -/
def weight (s : SupervisorState) (k : ChildKey) (r : ChildRecord) : ℕ :=
  (!r.committed).toNat + (!r.state.joined).toNat + (s.undrained k).toNat +
    (s.lifecycle.isStarting && r.state = .resident .unstarted).toNat

/-- What the scope still has to use up. -/
def potential (s : SupervisorState) : ℕ :=
  s.children.sumBy s.weight + s.lifecycle.isStarting.toNat + (!s.finishEmitted).toNat

theorem toNat_not_le_toNat_not {a b : Bool} (h : b = true → a = true) :
    (!a).toNat ≤ (!b).toNat :=
  Bool.toNat_le_toNat fun ha => by cases b <;> simp_all

namespace Descends

variable {s s' : SupervisorState}

/-- No component of a child's weight rises. -/
theorem weight_le (h : Descends s s') {k : ChildKey} {r r' : ChildRecord}
    (hpre : r.Precedes r') :
    (!r'.committed).toNat ≤ (!r.committed).toNat ∧
      (!r'.state.joined).toNat ≤ (!r.state.joined).toNat ∧
      (s'.undrained k).toNat ≤ (s.undrained k).toNat ∧
      (s'.lifecycle.isStarting && r'.state = .resident .unstarted).toNat ≤
        (s.lifecycle.isStarting && r.state = .resident .unstarted).toNat := by
  refine ⟨toNat_not_le_toNat_not hpre.committed, toNat_not_le_toNat_not hpre.joined,
    Bool.toNat_le_toNat (h.undrained k), Bool.toNat_le_toNat fun hst => ?_⟩
  simp only [Bool.and_eq_true, decide_eq_true_eq] at hst ⊢
  exact ⟨h.starting hst.1, hpre.unstarted hst.2⟩

theorem weightAt_le (h : Descends s s') (k : ChildKey) :
    s'.children.weightAt s'.weight k ≤ s.children.weightAt s.weight k := by
  cases hr' : s'.children.get? k with
  | none =>
    rw [OrdMap.weightAt_of_none hr']
    exact Nat.zero_le _
  | some r' =>
    obtain ⟨r, hr, hpre⟩ := h.record k r' hr'
    obtain ⟨h₁, h₂, h₃, h₄⟩ := h.weight_le (k := k) hpre
    rw [OrdMap.weightAt_of_some hr, OrdMap.weightAt_of_some hr']
    unfold weight
    omega

/-- **The potential does not rise.** -/
theorem potential_le (h : Descends s s') : s'.potential ≤ s.potential := by
  have hsum := OrdMap.sumBy_le_sumBy h.weightAt_le
  have hstart := Bool.toNat_le_toNat h.starting
  have hfinish := toNat_not_le_toNat_not h.finished
  unfold potential
  omega

/-- Using up something of one child lowers it. -/
theorem potential_lt_of_weight (h : Descends s s') {k : ChildKey}
    (hk : s'.children.weightAt s'.weight k < s.children.weightAt s.weight k) :
    s'.potential < s.potential := by
  have hsum := OrdMap.sumBy_lt_sumBy h.weightAt_le hk
  have hstart := Bool.toNat_le_toNat h.starting
  have hfinish := toNat_not_le_toNat_not h.finished
  unfold potential
  omega

/-- Ending startup lowers it. -/
theorem potential_lt_of_starting (h : Descends s s') (hs : s.lifecycle.isStarting = true)
    (hs' : s'.lifecycle.isStarting = false) : s'.potential < s.potential := by
  have hsum := OrdMap.sumBy_le_sumBy h.weightAt_le
  have hfinish := toNat_not_le_toNat_not h.finished
  unfold potential
  rw [hs, hs', Bool.toNat_true, Bool.toNat_false]
  omega

/-- Reporting the finish lowers it. -/
theorem potential_lt_of_finished (h : Descends s s') (hs : s.finishEmitted = false)
    (hs' : s'.finishEmitted = true) : s'.potential < s.potential := by
  have hsum := OrdMap.sumBy_le_sumBy h.weightAt_le
  have hstart := Bool.toNat_le_toNat h.starting
  unfold potential
  rw [hs, hs', Bool.not_true, Bool.not_false, Bool.toNat_true, Bool.toNat_false]
  omega

/-- A start that is no longer pending has cost a unit. -/
theorem potential_lt_of_startPending (h : Descends s s') {k : ChildKey} (hk : s.StartPending k)
    (hk' : ¬ s'.StartPending k) : s'.potential < s.potential := by
  obtain ⟨hst, hstate⟩ := hk
  obtain ⟨r, hr, hun⟩ := Option.map_eq_some_iff.mp hstate
  apply h.potential_lt_of_weight (k := k)
  rw [OrdMap.weightAt_of_some hr]
  -- a reclaimed child weighs nothing; a registered one has lost its start
  cases hr' : s'.children.get? k with
  | none =>
    rw [OrdMap.weightAt_of_none hr']
    simp [weight, hst, hun]
  | some r' =>
    obtain ⟨r₀, hr₀, hpre⟩ := h.record k r' hr'
    obtain rfl := Option.some.inj (hr₀.symm.trans hr)
    obtain ⟨h₁, h₂, h₃, -⟩ := h.weight_le (k := k) hpre
    have hspent : (s'.lifecycle.isStarting && r'.state = .resident .unstarted) = false := by
      by_contra hne
      simp only [Bool.not_eq_false, Bool.and_eq_true, decide_eq_true_eq] at hne
      exact hk' ⟨hne.1, by simp [childState, hr', hne.2]⟩
    have hpending : (s.lifecycle.isStarting && r₀.state = .resident .unstarted) = true := by
      simp [hst, hun]
    rw [OrdMap.weightAt_of_some hr']
    unfold weight
    rw [hspent, hpending, Bool.toNat_true, Bool.toNat_false]
    omega

end Descends

end SupervisorState

/-! ### One answer -/

theorem ChildRecord.Precedes.of_move {r r' : ChildRecord} {starting : Bool} {event : Event}
    (h : ChildRecord.Move starting event r r') : r.Precedes r' := by
  refine ⟨?_, ChildRecord.joined_of_move h, ?_⟩
  · intro hc
    rw [ChildRecord.committed_iff_removalStage] at hc ⊢
    exact hc.trans (ChildRecord.move_removalStage h)
  · intro hun
    -- neither the removal nor the phase goes back
    have hstage := ChildRecord.move_removalStage h
    have hinc : r.state.incarnation = .unstarted := by
      rcases ChildRecord.move_incarnation h with heq | hmem
      · rw [heq, hun]
        rfl
      · rw [hun] at hmem
        exact absurd hmem (ChildRecord.unstarted_not_next _)
    cases hs : r.state <;> simp_all [ChildState.removalStage, ChildState.incarnation]

variable {e : SupervisorEdge}

theorem finishEmitted_kept (h : SupervisorCall e) (hf : e.before.finishEmitted = true) :
    e.after.finishEmitted = true := by
  have hstep := finish_step h
  rw [hf, Bool.not_true, Bool.toNat_false] at hstep
  cases ha : e.after.finishEmitted with
  | true => rfl
  | false =>
    rw [ha, Bool.not_false, Bool.toNat_true] at hstep
    omega

namespace SupervisorState

variable {s : SupervisorState}

theorem undrained_iff {k : ChildKey} : s.undrained k = true ↔
    s.lifecycle.isDraining = false ∨
      s.flavor = .ordered ∧ ∃ c, s.orderedStopCursor = some c ∧ k ≤ c := by
  simp [undrained, Option.any_eq_true]

/-- The stop pass moves its cursor below the child it stops. -/
theorem settle_cursor_lt (hf : s.flavor = .ordered) (hd : s.lifecycle.isDraining = true)
    (hw : ∀ w, s.orderedStopWaiting = some w → s.isIncomplete w = false) {c : ChildKey}
    (hc : s.settle.1.orderedStopCursor = some c) :
    ∃ j r, s.stopCandidate = some (j, r) ∧ c < j := by
  rw [(settle_stop_next hf hd hw).2] at hc
  obtain ⟨⟨j, r⟩, hcand, hprev⟩ := Option.bind_eq_some_iff.mp hc
  exact ⟨j, r, hcand, (OrdMap.previousKey_eq_some_iff.mp hprev).2.1⟩

theorem settle_undrained {k : ChildKey} (h : s.settle.1.undrained k = true) :
    s.undrained k = true := by
  rw [undrained_iff, settle_isDraining, (settle_fields s).2.2.2.1] at h
  rw [undrained_iff]
  rcases h with h | ⟨hf, c, hc, hkc⟩
  · exact .inl h
  · by_cases hd : s.lifecycle.isDraining = true
    · rcases s.waiting_or_idle with ⟨w, hw, hi⟩ | hidle
      · rw [(settle_stop_waiting hw hi).1] at hc
        exact .inr ⟨hf, c, hc, hkc⟩
      · obtain ⟨j, r, hcand, hcj⟩ := settle_cursor_lt hf hd hidle hc
        obtain ⟨c₀, hc₀, hjc₀, -⟩ := stopCandidate_spec hcand
        exact .inr ⟨hf, c₀, hc₀, hkc.trans (hcj.le.trans hjc₀)⟩
    · exact .inl (by simpa using hd)

end SupervisorState

theorem undrained_before (h : SupervisorCall e) {k : ChildKey}
    (hk : e.after.undrained k = true) : e.before.undrained k = true := by
  -- before the drain every key is undrained
  by_cases hd : e.before.lifecycle.isDraining = true
  · cases h with
    | admitChild s membership initial => exact hk
    | step s event =>
      by_cases hs : event = .settle
      · subst hs
        exact SupervisorState.settle_undrained hk
      · rw [s.apply_eq_of_ne_settle hs] at hk
        exact hk
    | failStartup s =>
      have hsame : s.lifecycle.failStartup.1 = s.lifecycle := by
        obtain ⟨drain, hl⟩ := ScopeLifecycle.isDraining_iff.mp hd
        rw [hl]
        rfl
      rw [hsame] at hk
      exact hk
    | drain s reason forced lifecycle result reached =>
      -- inside a drain the command moves only its reason
      rcases ScopeLifecycle.beginDrain_cases reached with ⟨hb, -, -⟩ | ⟨hb, ha, rfl⟩
      · rw [hd] at hb
        cases hb
      · rw [SupervisorState.undrained_iff] at hk ⊢
        replace hk : lifecycle.isDraining = false ∨ s.flavor = .ordered ∧
          ∃ c, s.orderedStopCursor = some c ∧ k ≤ c := hk
        rw [ha] at hk
        exact .inr (hk.resolve_left (by decide))
  · exact SupervisorState.undrained_iff.mpr (.inl (by simpa using hd))

/-- **Every answer descends.** -/
theorem descends_of_call (h : SupervisorCall e) (ha : e.input.isAnswer = true) :
    e.before.Descends e.after := by
  refine ⟨?_, finishEmitted_kept h, fun k => undrained_before h, ?_⟩
  · intro hst
    rw [ScopeLifecycle.isStarting_iff] at hst ⊢
    exact starting_before h hst
  intro k r' hr'
  cases recordStep_of_call h k with
  | untouched same missed unminted => exact ⟨r', same ▸ hr', id, id, id⟩
  | minted membership initial input key output after =>
    rw [input] at ha
    cases ha
  | stepped event r input target before after output =>
    exact ⟨r, before, .of_move (ChildRecord.move_of_step (after.symm.trans hr'))⟩

theorem SupervisorState.settle_descends (s : SupervisorState) : s.Descends s.settle.1 :=
  descends_of_call (.step s .settle) rfl

/-! ### What an answer queues -/

/-- An event that queues an effect commits its child or joins it. -/
theorem ChildRecord.spent_of_effects {r : ChildRecord} {starting : Bool} {event : Event}
    {effect : Effect} (h : effect ∈ r.effects event) :
    ∃ r', r.step starting event = some r' ∧
      (r.committed = false ∧ r'.committed = true ∨
        r.state.joined = false ∧ r'.state.joined = true) := by
  obtain ⟨c, ⟨rfl, hmoves, -, -⟩ | ⟨rfl, hcommitted, -⟩⟩ := mem_effects_iff.mp h
  · refine ⟨r.moveTo .joined, by simp [step, hmoves], .inr ⟨(moves_iff.mp hmoves).1, ?_⟩⟩
    simp [ChildState.joined]
  · exact ⟨{ r with state := .removing r.state.incarnation }, rfl, .inl ⟨hcommitted, rfl⟩⟩

namespace SupervisorState

variable {s s' : SupervisorState} {k : ChildKey} {r r' : ChildRecord}

/-- Committing or joining a child costs a unit. -/
theorem Descends.potential_lt_of_spent (h : Descends s s') (hr : s.children.get? k = some r)
    (hr' : s'.children.get? k = some r')
    (hspent : r.committed = false ∧ r'.committed = true ∨
      r.state.joined = false ∧ r'.state.joined = true) : s'.potential < s.potential := by
  obtain ⟨r₀, hr₀, hpre⟩ := h.record k r' hr'
  obtain rfl := Option.some.inj (hr₀.symm.trans hr)
  obtain ⟨h₁, h₂, h₃, h₄⟩ := h.weight_le (k := k) hpre
  apply h.potential_lt_of_weight (k := k)
  rw [OrdMap.weightAt_of_some hr, OrdMap.weightAt_of_some hr']
  unfold weight
  rcases hspent with ⟨hb, ha⟩ | ⟨hb, ha⟩
  · rw [hb, ha, Bool.not_true, Bool.not_false, Bool.toNat_true, Bool.toNat_false]
    omega
  · rw [hb, ha, Bool.not_true, Bool.not_false, Bool.toNat_true, Bool.toNat_false]
    omega

/-- So does a child's turn in the drain. -/
theorem Descends.potential_lt_of_undrained (h : Descends s s') (hr : s.children.get? k = some r)
    (hr' : s'.children.get? k = some r) (hb : s.undrained k = true)
    (ha : s'.undrained k = false) : s'.potential < s.potential := by
  obtain ⟨h₁, h₂, -, h₄⟩ := h.weight_le (k := k) (r := r) ⟨id, id, id⟩
  apply h.potential_lt_of_weight (k := k)
  rw [OrdMap.weightAt_of_some hr, OrdMap.weightAt_of_some hr']
  unfold weight
  rw [hb, ha, Bool.toNat_true, Bool.toNat_false]
  omega

/-- What a settlement queues is paid for, or asks for an unstarted child. -/
theorem settle_paid_or_pending (hwf : s.RecordsWf) {effect : Effect}
    (hmem : effect ∈ s.settle.2) :
    s.settle.1.potential < s.potential ∨
      ∃ c, effect = .startChild c ∧ s.settle.1.StartPending c := by
  have hdesc := s.settle_descends
  rcases mem_settle_cases hmem with
    ⟨⟨c, rfl⟩, -⟩ | ⟨rfl, hst, hdone⟩ | ⟨c, r, rfl, hf, hd, hw, hcand⟩ | ⟨⟨reason, rfl⟩, -⟩
  · obtain ⟨hst, r, hr, hnever, hstartable, -⟩ := startChild_mem_settle_iff.mp hmem
    have hun : r.state = .resident .unstarted := by
      rcases ChildRecord.startable_iff.mp hstartable with hun | hpend
      · exact hun
      · -- a pending restart was spawned before
        have hspawned := (hwf c r hr).spawned_of_phase (by simp [hpend, ChildState.incarnation])
        rw [hnever] at hspawned
        cases hspawned
    have hpending := pending_of_startChild hwf hmem
    right
    refine ⟨c, rfl, ?_, ?_⟩
    · rw [settle_lifecycle, hpending, hst]
      rfl
    · simp [childState, hr, hun]
  · -- completing startup is paid for by leaving `starting`
    left
    apply hdesc.potential_lt_of_starting (ScopeLifecycle.isStarting_iff.mpr hst)
    rw [settle_lifecycle, if_pos ⟨hst, hdone⟩]
    rfl
  · obtain ⟨c₀, hc₀, hle, hinc⟩ := stopCandidate_spec hcand
    obtain ⟨r₀, hr₀, -⟩ := isIncomplete_iff.mp hinc
    left
    refine hdesc.potential_lt_of_undrained hr₀ (by simpa using hr₀)
      (undrained_iff.mpr (.inr ⟨hf, c₀, hc₀, hle⟩)) ?_
    -- the cursor has moved below the stopped child
    by_contra hne
    rw [Bool.not_eq_false, undrained_iff, settle_isDraining, hd] at hne
    obtain ⟨-, c', hc', hcc'⟩ := hne.resolve_left (by decide)
    obtain ⟨j, r', hcand', hlt⟩ := settle_cursor_lt hf hd hw hc'
    obtain ⟨rfl, -⟩ := Prod.mk.inj (Option.some.inj (hcand'.symm.trans hcand))
    exact absurd hcc' (not_le.mpr hlt)
  · -- the finish is paid for by its flag
    obtain ⟨hf, hreason⟩ := finished_mem_settle_iff.mp hmem
    left
    apply hdesc.potential_lt_of_finished hf
    rw [settle_finishEmitted, hreason]
    simp

end SupervisorState

/-- **What an answer queues is paid for**, or asks for a child that is still to
be started. -/
theorem paid_or_pending (h : SupervisorCall e) (ha : e.input.isAnswer = true)
    (hwf : e.before.RecordsWf) {effect : Effect}
    (hmem : effect ∈ e.output.effects) :
    e.after.potential < e.before.potential ∨
      ∃ c, effect = .startChild c ∧ e.after.StartPending c := by
  have hdesc := descends_of_call h ha
  cases h with
  | admitChild s membership initial => cases ha
  | step s event =>
    by_cases hs : event = .settle
    · subst hs
      exact SupervisorState.settle_paid_or_pending hwf hmem
    · left
      obtain ⟨c, r, hc, hr, heffect⟩ := (SupervisorState.mem_apply_iff hs).mp hmem
      obtain ⟨r', hstep, hspent⟩ := ChildRecord.spent_of_effects heffect
      exact hdesc.potential_lt_of_spent hr
        ((SupervisorState.get?_apply_target hc hr).trans hstep) hspent
  | failStartup s => cases hmem
  | drain s reason forced lifecycle result reached =>
    cases forced with
    | true => cases ha
    | false =>
      left
      simp only [SupervisorState.drainEffects, Bool.false_eq_true, if_false,
        List.append_nil] at hmem
      split_ifs at hmem with hentered
      · obtain ⟨c, hc, rfl⟩ := List.mem_map.mp hmem
        obtain ⟨v, hv⟩ := OrdMap.mem_keys.mp (List.mem_filter.mp hc).1
        rcases ScopeLifecycle.beginDrain_cases reached with ⟨hb, ha', -⟩ | ⟨-, -, rfl⟩
        · refine hdesc.potential_lt_of_undrained hv hv
            (SupervisorState.undrained_iff.mpr (.inl hb)) ?_
          -- a dynamic drain stops every child at once
          simp [SupervisorState.undrained, SupervisorState.drained, ha', hentered.2]
        · cases hentered.1
      · cases hmem

/-! ### A run of answers -/

/-- The calls of the trace are answers. -/
def Answers (tr : List SupervisorEdge) : Prop := ∀ e ∈ tr, e.input.isAnswer = true

variable {s s' : SupervisorState} {tr : List SupervisorEdge}

theorem descends_of_run (h : Run (stepEdge Input.apply) s tr s') (ha : Answers tr) :
    s.Descends s' := by
  refine h.invariant (.refl s) ?_
  intro e he hmem hs
  exact hs.trans (descends_of_call (call_of_edge he) (ha e hmem))

/-- A run that leaves the potential alone queues only requests that are still
open at its end. -/
theorem pending_of_run (h : Run (stepEdge Input.apply) s tr s') (ha : Answers tr)
    (hwf : s.RecordsWf) (hpot : s'.potential = s.potential)
    {effect : Effect} (hmem : effect ∈ runEffects tr) :
    ∃ c, effect = .startChild c ∧ s'.StartPending c := by
  obtain ⟨e, he, heffect⟩ := List.mem_flatMap.mp hmem
  obtain ⟨pre, post, rfl, hpre, hedge, hpost⟩ := h.mem_split he
  have hdesc : s.Descends e.before :=
    descends_of_run hpre fun e' he' => ha e' (List.mem_append_left _ he')
  have hdesc' : e.after.Descends s' :=
    descends_of_run hpost fun e' he' =>
      ha e' (List.mem_append_right _ (List.mem_cons_of_mem _ he'))
  have hstep := descends_of_call (call_of_edge hedge) (ha e he)
  -- nothing is paid for: not by the call, nor by the calls after it
  have hle := hdesc.potential_le
  have hle' := hdesc'.potential_le
  have hcall := hstep.potential_le
  rcases paid_or_pending (call_of_edge hedge) (ha e he) (hwf.run hpre) heffect with
    hlt | ⟨c, rfl, hc⟩
  · omega
  · refine ⟨c, rfl, ?_⟩
    by_contra hclosed
    have hlt := hdesc'.potential_lt_of_startPending hc hclosed
    omega

end Shelterwood
