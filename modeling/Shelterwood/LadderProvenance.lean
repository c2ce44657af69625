/-
Shelterwood/LadderProvenance.lean

What the grace phase of an abort means.

The phase is set at two places, both guarded by the sticky `force` flag: the
escalation of an unforced ladder, and the first `force` of a cooperative one.  So
it records whether the grace ran out before anything cut it short, and nothing
that happens after the escalation touches it.
-/
import Shelterwood.LadderTrace

namespace Shelterwood

variable {ceiling : Instant}

/-- The grace ran out: its deadline exists, and either no `force` came before the
escalation or the first one of the run came after the cancel and not before that
deadline. -/
def GraceExpired (ceiling : Instant) (policy : Shutdown) (pre : List LadderEdge) (tc : Instant)
    (mid : List LadderEdge) : Prop :=
  ∃ grace d, policy = .graceful grace ∧ deadlineAfter ceiling tc grace.value = some d ∧
    ((pre ++ mid).find? LadderEdge.forces = none ∨
      ∃ f t, pre.find? LadderEdge.forces = none ∧ mid.find? LadderEdge.forces = some f ∧
        f.input = .force t ∧ d ≤ t)

namespace LadderMove

variable {l l' : StopLadder} {step : LadderStep} {output : Option StopAction}

theorem input_of_action {action : StopAction} (h : LadderMove ceiling l step (some action) l') :
    ∃ now, step = .advance now := by
  cases h <;> exact ⟨_, rfl⟩

theorem forced_mono (h : LadderMove ceiling l step output l') (hforced : l.forceRequested = true) :
    l'.forceRequested = true := by
  cases h <;> simp [hforced]

theorem gracePhase_abort (h : LadderMove ceiling l step output l') (hpolicy : l.policy = .abort) :
    l'.gracePhase = l.gracePhase := by
  cases h <;> simp [hpolicy]

theorem gracePhase_idle (h : LadderMove ceiling l step output l') (hphase : l'.phase = .idle) :
    l.phase = .idle ∧ l'.gracePhase = l.gracePhase := by
  cases h <;> simp_all

/-- The first `force` of a cooperative ladder settles the grace phase. -/
theorem of_force {t : Instant} (h : LadderMove ceiling l (.force t) output l')
    (hphase : l.phase = .cooperative) (hunforced : l.forceRequested = false) :
    l'.forceRequested = true ∧
      l'.gracePhase = if l.policy ≠ .abort && l.isDue t then .afterGrace else l.gracePhase := by
  cases h <;> simp_all

end LadderMove

section Provenance

variable {policy : Shutdown} {frameworkDriver : Bool}
variable {tr pre mid post : List LadderEdge} {s t : TimedLadder}

theorem gracePhase_of_idle (h : LadderRun ceiling policy frameworkDriver tr s)
    (hphase : s.ladder.phase = .idle) : s.ladder.gracePhase = .withinGrace := by
  refine h.invariant (fun _ => rfl) ?_ hphase
  intro e he _ hbefore hafter
  obtain ⟨hidle, hgrace⟩ := (ladderMove_of_edge he).gracePhase_idle hafter
  exact hgrace.trans (hbefore hidle)

theorem gracePhase_of_forced
    (h : Run (stepEdge (LadderStep.apply ceiling)) s tr t)
    (hforced : s.ladder.forceRequested = true) :
    t.ladder.forceRequested = true ∧ t.ladder.gracePhase = s.ladder.gracePhase := by
  refine h.invariant ⟨hforced, rfl⟩ ?_
  rintro e he - ⟨hflag, hgrace⟩
  have hmove := ladderMove_of_edge he
  exact ⟨hmove.forced_mono hflag, (hmove.gracePhase_eq hflag).trans hgrace⟩

theorem gracePhase_of_escalated
    (h : Run (stepEdge (LadderStep.apply ceiling)) s tr t)
    (hphase : s.ladder.phase = .escalated) : t.ladder.gracePhase = s.ladder.gracePhase := by
  refine h.history rfl ?_
  intro pre e hpre he _ hgrace
  have hlate := remaining_le_of_run hpre
  rw [hphase] at hlate
  exact ((ladderMove_of_edge he).gracePhase_settled hlate).trans hgrace

/-- An abort has no grace to run out. -/
theorem gracePhase_of_abort (h : LadderRun ceiling .abort frameworkDriver tr s) :
    s.ladder.gracePhase = .withinGrace := by
  refine h.history rfl ?_
  intro pre e hpre he _ hgrace
  exact ((ladderMove_of_edge he).gracePhase_abort (policy_of_run hpre).1).trans hgrace

theorem any_forces_of_find {tr : List LadderEdge} (h : tr.find? LadderEdge.forces = none) :
    tr.any LadderEdge.forces = false := by
  rw [List.any_eq_false]
  exact List.find?_eq_none.mp h

/-- The phase an escalation leaves, for a grace that no `force` cut off before the
cancel. -/
theorem gracePhase_of_unforced {grace : NonZeroDuration} {c e : LadderEdge} {tc te : Instant}
    (h : LadderRun ceiling (.graceful grace) frameworkDriver (pre ++ c :: (mid ++ e :: post)) s)
    (hcancel : EmitsAt c .cancel tc) (hescalate : EmitsAt e .escalate te)
    (hnone : pre.find? LadderEdge.forces = none) :
    e.after.ladder.gracePhase = .afterGrace ↔
      ∃ d, deadlineAfter ceiling tc grace.value = some d ∧
        ∀ f, mid.find? LadderEdge.forces = some f → ∃ t, f.input = .force t ∧ d ≤ t := by
  obtain ⟨hpre, hc, hrest⟩ := h.split_at
  obtain ⟨hmid, he, -⟩ := hrest.split_at
  obtain ⟨hidle, hstart⟩ := (hcancel.move hc).of_cancel
  obtain ⟨hcooperative, hdue, -, -, hsettled⟩ := (hescalate.move he).of_escalate
  have hcancelled := hpre.snoc hc
  have hphase : e.before.ladder.phase = c.after.ladder.phase := by rw [hcooperative, hstart]
  obtain ⟨-, hfirst, hflag₀⟩ := start_of_unforced hpre hc hcancel (any_forces_of_find hnone)
  have hwithin : c.after.ladder.gracePhase = .withinGrace := by
    rw [hstart]
    exact gracePhase_of_idle hpre hidle
  have hgraceful : e.before.ladder.policy = .graceful grace :=
    (policy_of_run (hcancelled.append hmid)).1
  cases hfind : mid.find? LadderEdge.forces with
  | none =>
    -- the escalation itself finds the grace used up
    have hflag : e.before.ladder.forceRequested = false := by
      rw [flag_of_run hmid (by rw [hcooperative]; decide), hflag₀, any_forces_of_find hfind]
      rfl
    have hstill := still_within hmid hphase fun _ f hf =>
      Bool.eq_false_of_not_eq_true (List.find?_eq_none.mp hfind f hf)
    obtain ⟨d, hd, -⟩ := (e.before.ladder.isDue_iff te).mp hdue
    rw [hstill.1, hfirst] at hd
    rw [hsettled, hgraceful, hflag]
    exact ⟨fun _ => ⟨d, hd, by rintro f ⟨⟩⟩, fun _ => rfl⟩
  | some f =>
    -- the first `force` settles it
    obtain ⟨hforces, before, after, rfl, hbefore⟩ := List.find?_eq_some_iff_append.mp hfind
    obtain ⟨hquiet, hf, hlater⟩ := hmid.split_at
    obtain ⟨t, ht⟩ : ∃ t, f.input = .force t := by
      cases hinput : f.input with
      | force t => exact ⟨t, rfl⟩
      | _ =>
        rw [LadderEdge.forces, hinput] at hforces
        cases hforces
    have hnoforce : ∀ g ∈ before, LadderEdge.forces g = false := by
      intro g hg
      have hnot := hbefore g hg
      rwa [Bool.not_eq_true'] at hnot
    have hsame := (phase_within hmid hphase (List.mem_append_right _ List.mem_cons_self)).1
    have hstill := still_within hquiet hsame fun _ => hnoforce
    have hfcooperative : f.before.ladder.phase = .cooperative := by rw [hsame, hstart]
    have hfflag : f.before.ladder.forceRequested = false := by
      rw [flag_of_run hquiet (by rw [hfcooperative]; decide), hflag₀, Bool.false_or,
        List.any_eq_false]
      intro g hg
      rw [hnoforce g hg]
      decide
    have hmove := ladderMove_of_edge hf
    rw [ht] at hmove
    obtain ⟨hafter, hset⟩ := hmove.of_force hfcooperative hfflag
    obtain ⟨hflag, hkept⟩ := gracePhase_of_forced hlater hafter
    rw [hsettled, hflag, hkept, hset, (policy_of_run (hcancelled.append hquiet)).1, hstill.2,
      hwithin]
    have hiff := f.before.ladder.isDue_iff t
    rw [hstill.1, hfirst] at hiff
    cases hd : f.before.ladder.isDue t with
    | true =>
      obtain ⟨d, hd, hle⟩ := hiff.mp hd
      refine ⟨fun _ => ⟨d, hd, ?_⟩, fun _ => by simp⟩
      rintro g ⟨⟩
      exact ⟨t, ht, hle⟩
    | false =>
      refine ⟨fun habs => by simp at habs, ?_⟩
      rintro ⟨d, hd', hall⟩
      obtain ⟨t', ht', hle⟩ := hall f rfl
      rw [ht] at ht'
      cases ht'
      rw [hiff.mpr ⟨d, hd', hle⟩] at hd
      cases hd

/-- The phase an escalation leaves. -/
theorem gracePhase_of_escalate {c e : LadderEdge} {tc te : Instant}
    (h : LadderRun ceiling policy frameworkDriver (pre ++ c :: (mid ++ e :: post)) s)
    (hcancel : EmitsAt c .cancel tc) (hescalate : EmitsAt e .escalate te) :
    e.after.ladder.gracePhase = .afterGrace ↔ GraceExpired ceiling policy pre tc mid := by
  obtain ⟨hpre, hc, hrest⟩ := h.split_at
  obtain ⟨hmid, he, -⟩ := hrest.split_at
  cases policy with
  | abort =>
    rw [gracePhase_of_abort (((hpre.snoc hc).append hmid).snoc he)]
    constructor
    · intro habs
      cases habs
    · rintro ⟨grace, d, habs, -⟩
      cases habs
  | graceful grace =>
    cases hfind : pre.find? LadderEdge.forces with
    | none =>
      rw [gracePhase_of_unforced h hcancel hescalate hfind]
      constructor
      · rintro ⟨d, hd, hall⟩
        refine ⟨grace, d, rfl, hd, ?_⟩
        cases hmidfind : mid.find? LadderEdge.forces with
        | none => exact .inl (by rw [List.find?_append, hfind, hmidfind]; rfl)
        | some f =>
          obtain ⟨t, ht, hle⟩ := hall f hmidfind
          exact .inr ⟨f, t, hfind, rfl, ht, hle⟩
      · rintro ⟨grace', d, hgrace, hd, hwhen⟩
        cases hgrace
        refine ⟨d, hd, fun f hf => ?_⟩
        rcases hwhen with hnone | ⟨f', t, -, hf', ht, hle⟩
        · rw [List.find?_append, hfind, hf] at hnone
          cases hnone
        · rw [hf] at hf'
          cases hf'
          exact ⟨t, ht, hle⟩
    | some f =>
      -- forced before the cancel: nothing sets the phase any more
      obtain ⟨hidle, hstart⟩ := (hcancel.move hc).of_cancel
      have hforced : c.before.ladder.forceRequested = true := by
        rw [forced_of_run hpre (by rw [hidle]; decide), List.any_eq_true]
        exact ⟨f, List.mem_of_find?_eq_some hfind, List.find?_some hfind⟩
      have hkept := (gracePhase_of_forced ((Run.single hc).append (hmid.snoc he)) hforced).2
      rw [hkept, gracePhase_of_idle hpre hidle]
      constructor
      · intro habs
        cases habs
      · rintro ⟨grace', d, -, -, hnone | ⟨g, t, hnone, -⟩⟩
        · rw [List.find?_append, hfind] at hnone
          cases hnone
        · rw [hfind] at hnone
          cases hnone

end Provenance

/-- **The stop ladder's provenance.**  A framework or hard abort reports
`AfterGrace` exactly if the grace ran out, and `WithinGrace` otherwise. -/
theorem stop_ladder_provenance {policy : Shutdown} {frameworkDriver : Bool}
    {left post : List LadderEdge} {a : LadderEdge} {s : TimedLadder} {phase : GracePhase}
    (hrun : LadderRun ceiling policy frameworkDriver (left ++ a :: post) s)
    (habort : a.output = some (.abortFramework phase) ∨ a.output = some (.hardAbort phase)) :
    ∃ (pre : List LadderEdge) (c : LadderEdge) (mid : List LadderEdge) (e : LadderEdge)
      (rest : List LadderEdge) (tc te : Instant), left = pre ++ c :: (mid ++ e :: rest) ∧
      EmitsAt c .cancel tc ∧ EmitsAt e .escalate te ∧
      (phase = .afterGrace ↔ GraceExpired ceiling policy pre tc mid) ∧
      (phase = .withinGrace ↔ ¬ GraceExpired ceiling policy pre tc mid) := by
  obtain ⟨hleft, ha, -⟩ := hrun.split_at
  have hmove := ladderMove_of_edge ha
  have hreported : phase = a.before.ladder.gracePhase ∧
      ∃ actions, a.before.ladder.climbed = .cancel :: .escalate :: actions := by
    rcases habort with houtput | houtput <;> rw [houtput] at hmove
    · obtain ⟨now, hinput⟩ := hmove.input_of_action
      rw [hinput] at hmove
      obtain ⟨hphase, -, hgrace, -⟩ := hmove.of_abortFramework
      exact ⟨hgrace, _, by rw [StopLadder.climbed, hphase]⟩
    · obtain ⟨now, hinput⟩ := hmove.input_of_action
      rw [hinput] at hmove
      obtain ⟨hphase | hphase, -, hgrace⟩ := hmove.of_hardAbort
      · exact ⟨hgrace, _, by rw [StopLadder.climbed, hphase]⟩
      · exact ⟨hgrace, _, by rw [StopLadder.climbed, hphase]⟩
  obtain ⟨hgrace, actions, hclimbed⟩ := hreported
  -- the two earlier actions are in the trace
  have hemitted := (emitted_eq_climbed hleft).trans hclimbed
  obtain ⟨pre, c, tail, rfl, -, hc, htail⟩ := List.filterMap_eq_cons_iff.mp hemitted
  obtain ⟨mid, e, rest, rfl, -, he, -⟩ := List.filterMap_eq_cons_iff.mp htail
  obtain ⟨hpre, hcedge, hafter⟩ := hleft.split_at
  obtain ⟨hmid, heedge, hrest⟩ := hafter.split_at
  have hcmove := ladderMove_of_edge hcedge
  rw [hc] at hcmove
  have hemove := ladderMove_of_edge heedge
  rw [he] at hemove
  obtain ⟨tc, htc⟩ := hcmove.input_of_action
  obtain ⟨te, hte⟩ := hemove.input_of_action
  have hcancel : EmitsAt c .cancel tc := ⟨htc, hc⟩
  have hescalate : EmitsAt e .escalate te := ⟨hte, he⟩
  have hsettled : phase = e.after.ladder.gracePhase :=
    hgrace.trans (gracePhase_of_escalated hrest (hescalate.move heedge).of_escalate.2.2.1)
  have hiff := gracePhase_of_escalate hleft hcancel hescalate
  rw [← hsettled] at hiff
  refine ⟨pre, c, mid, e, rest, tc, te, rfl, hcancel, hescalate, hiff, ?_⟩
  rw [← hiff]
  cases phase <;> simp

theorem stop_ladder_provenance_lateForce :
    ∃ (left post : List LadderEdge) (a : LadderEdge) (s : TimedLadder),
      LadderRun (10 ^ 12) (.graceful sampleGrace) true (left ++ a :: post) s ∧
      a.output = some (.abortFramework .afterGrace) ∧
      ∃ pre tc mid, GraceExpired (10 ^ 12) (.graceful sampleGrace) pre tc mid := by
  have hexec : ∃ tr s, exec (fun s step => LadderStep.apply (10 ^ 12) s step)
      ⟨0, .withFrameworkDriver (.graceful sampleGrace) true⟩ forcedSteps = some (tr, s) ∧
      some (.abortFramework .afterGrace) ∈ tr.map Edge.output := ⟨_, _, rfl, by decide⟩
  obtain ⟨tr, s, hexec, hemitted⟩ := hexec
  obtain ⟨a, ha, houtput⟩ := List.mem_map.mp hemitted
  obtain ⟨left, post, rfl⟩ := List.append_of_mem ha
  have hrun := run_of_exec _ hexec
  obtain ⟨pre, c, mid, e, rest, tc, te, -, -, -, hiff, -⟩ :=
    stop_ladder_provenance hrun (.inl houtput)
  exact ⟨left, post, a, s, hrun, houtput, pre, tc, mid, hiff.mp rfl⟩

end Shelterwood
