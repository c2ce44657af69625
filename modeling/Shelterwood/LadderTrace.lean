/-
Shelterwood/LadderTrace.lean

Whole runs of a stop ladder: what it emits, and when.

A run is any interleaving of `advance`, `force` and `acknowledge_framework_abort`
whose times do not decrease.  One inversion (`LadderMove`) says what a single call
can do.  The rest is read off phase by phase: phases are never left backwards, so
a stretch of a run that starts and ends in one phase stays in it
(`phase_within`), and there the deadline and the grace phase move only by the
first `force`.
-/
import Shelterwood.Engine
import Shelterwood.Trace
import Mathlib.Tactic.SplitIfs

namespace Shelterwood

/-! ### Calls on a ladder -/

/-- A ladder and the time of the last call on it. -/
structure TimedLadder where
  now : Instant
  ladder : StopLadder
  deriving DecidableEq, Repr

inductive LadderStep
  | advance (now : Instant)
  | force (now : Instant)
  | acknowledgeFrameworkAbort
  deriving DecidableEq, Repr

def LadderStep.isForce : LadderStep → Bool
  | .force _ => true
  | _ => false

/-- One call; a time before the last one is not a call of a run. -/
def LadderStep.apply (ceiling : Instant) (s : TimedLadder) :
    LadderStep → Option (TimedLadder × Option StopAction)
  | .advance now =>
    if now < s.now then none
    else some (⟨now, (s.ladder.advance ceiling now).1⟩, (s.ladder.advance ceiling now).2)
  | .force now =>
    if now < s.now then none else some (⟨now, s.ladder.force now⟩, none)
  | .acknowledgeFrameworkAbort =>
    some (⟨s.now, s.ladder.acknowledgeFrameworkAbort⟩, none)

abbrev LadderEdge := Edge TimedLadder LadderStep (Option StopAction)

/-- The call is an `advance` at that time with that action. -/
def EmitsAt (e : LadderEdge) (action : StopAction) (now : Instant) : Prop :=
  e.input = .advance now ∧ e.output = some action

/-- The call is a `force`. -/
def LadderEdge.forces (e : LadderEdge) : Bool := e.input.isForce

/-- Runs of a fresh ladder. -/
def LadderRun (ceiling : Instant) (policy : Shutdown) (frameworkDriver : Bool) :
    List LadderEdge → TimedLadder → Prop :=
  Run (stepEdge fun s step => LadderStep.apply ceiling s step)
    ⟨0, .withFrameworkDriver policy frameworkDriver⟩

/-- The grace of a policy, none for an abort. -/
def Shutdown.grace : Shutdown → Duration
  | .graceful grace => grace.value
  | .abort => 0

namespace StopLadder

/-- The deadline of the cooperative phase of a ladder that starts now. -/
def firstDeadline (ceiling : Instant) (ladder : StopLadder) (now : Instant) : Option Instant :=
  if ladder.forceRequested then some now
  else
    match ladder.policy with
    | .graceful grace => deadlineAfter ceiling now grace.value
    | .abort => some now

/-- The phase a due ladder moves to. -/
def nextPhase (ladder : StopLadder) : StopPhase :=
  match ladder.phase with
  | .idle => .cooperative
  | .cooperative => .escalated
  | .escalated => if ladder.frameworkDriver then .abortingFramework else .finished
  | .abortingFramework => .finished
  | .finished => .finished

/-- The actions of a ladder up to its phase. -/
def climbed (ladder : StopLadder) : List StopAction :=
  match ladder.phase with
  | .idle => []
  | .cooperative => [.cancel]
  | .escalated => [.cancel, .escalate]
  | .abortingFramework => [.cancel, .escalate, .abortFramework ladder.gracePhase]
  | .finished =>
    if ladder.frameworkDriver then
      [.cancel, .escalate, .abortFramework ladder.gracePhase] ++
        if ladder.frameworkAbortAcked then [] else [.hardAbort ladder.gracePhase]
    else [.cancel, .escalate, .hardAbort ladder.gracePhase]

end StopLadder

/-! ### What one call does -/

/-- The calls on a ladder, by what they do. -/
inductive LadderMove (ceiling : Instant) (l : StopLadder) :
    LadderStep → Option StopAction → StopLadder → Prop
  | cancel (now : Instant) : l.phase = .idle →
      LadderMove ceiling l (.advance now) (some .cancel)
        { l with phase := .cooperative, deadline := l.firstDeadline ceiling now }
  | escalate (now : Instant) : l.phase = .cooperative → l.isDue now = true →
      LadderMove ceiling l (.advance now) (some .escalate)
        { l with
          phase := .escalated
          gracePhase :=
            if l.policy ≠ .abort && !l.forceRequested then .afterGrace else l.gracePhase
          deadline := deadlineAfter ceiling now
            (tidyAbortBeat (if l.forceRequested then 0 else l.policy.grace)) }
  | abortFramework (now : Instant) : l.phase = .escalated → l.isDue now = true →
      l.frameworkDriver = true →
      LadderMove ceiling l (.advance now) (some (.abortFramework l.gracePhase))
        { l with
          phase := .abortingFramework
          deadline := deadlineAfter ceiling now (tidyAbortBeat 0) }
  | hardAbort (now : Instant) : l.phase = .escalated → l.isDue now = true →
      l.frameworkDriver = false →
      LadderMove ceiling l (.advance now) (some (.hardAbort l.gracePhase))
        { l with phase := .finished, deadline := none }
  | hardAbortFramework (now : Instant) : l.phase = .abortingFramework → l.isDue now = true →
      l.frameworkAbortAcked = false →
      LadderMove ceiling l (.advance now) (some (.hardAbort l.gracePhase))
        { l with phase := .finished, deadline := none }
  | acknowledged (now : Instant) : l.phase = .abortingFramework → l.isDue now = true →
      l.frameworkAbortAcked = true →
      LadderMove ceiling l (.advance now) none { l with phase := .finished, deadline := none }
  | wait (now : Instant) : LadderMove ceiling l (.advance now) none l
  | force (now : Instant) : l.phase = .cooperative →
      LadderMove ceiling l (.force now) none
        { l with
          gracePhase :=
            if !l.forceRequested && l.policy ≠ .abort && l.isDue now then .afterGrace
            else l.gracePhase
          deadline := some (l.deadline.elim now fun deadline => min deadline now)
          forceRequested := true }
  | latch (now : Instant) : l.phase ≠ .cooperative → l.phase ≠ .finished →
      LadderMove ceiling l (.force now) none { l with forceRequested := true }
  | late (now : Instant) : l.phase = .finished → LadderMove ceiling l (.force now) none l
  | acknowledge : l.phase = .abortingFramework →
      LadderMove ceiling l .acknowledgeFrameworkAbort none { l with frameworkAbortAcked := true }
  | unasked : l.phase ≠ .abortingFramework →
      LadderMove ceiling l .acknowledgeFrameworkAbort none l

variable {ceiling : Instant}

theorem ladderMove_advance (l : StopLadder) (now : Instant) :
    LadderMove ceiling l (.advance now) (l.advance ceiling now).2 (l.advance ceiling now).1 := by
  rw [StopLadder.advance.eq_def]
  cases hphase : l.phase with
  | idle => exact .cancel now hphase
  | finished => exact .wait now
  | cooperative =>
    by_cases hdue : l.isDue now = true
    · rw [if_pos hdue]
      exact .escalate now hphase hdue
    · rw [if_neg hdue]
      exact .wait now
  | escalated =>
    show LadderMove ceiling l _ (ite _ _ _ : StopLadder × _).2 (ite _ _ _ : StopLadder × _).1
    by_cases hdue : l.isDue now = true
    · rw [if_pos hdue]
      by_cases hdriver : l.frameworkDriver = true
      · rw [if_pos hdriver]
        exact .abortFramework now hphase hdue hdriver
      · rw [if_neg hdriver]
        exact .hardAbort now hphase hdue (Bool.eq_false_of_not_eq_true hdriver)
    · rw [if_neg hdue]
      exact .wait now
  | abortingFramework =>
    show LadderMove ceiling l _ (ite _ _ _ : StopLadder × _).2 (ite _ _ _ : StopLadder × _).1
    by_cases hdue : l.isDue now = true
    · rw [if_pos hdue]
      by_cases hacked : l.frameworkAbortAcked = true
      · rw [if_pos hacked]
        exact .acknowledged now hphase hdue hacked
      · rw [if_neg hacked]
        exact .hardAbortFramework now hphase hdue (Bool.eq_false_of_not_eq_true hacked)
    · rw [if_neg hdue]
      exact .wait now

theorem ladderMove_force (l : StopLadder) (now : Instant) :
    LadderMove ceiling l (.force now) none (l.force now) := by
  unfold StopLadder.force
  by_cases hfinished : l.phase = .finished
  · rw [if_pos hfinished]
    exact .late now hfinished
  · rw [if_neg hfinished]
    by_cases hcooperative : l.phase = .cooperative
    · rw [if_pos hcooperative]
      exact .force now hcooperative
    · rw [if_neg hcooperative]
      exact .latch now hcooperative hfinished

theorem ladderMove_acknowledge (l : StopLadder) :
    LadderMove ceiling l .acknowledgeFrameworkAbort none l.acknowledgeFrameworkAbort := by
  unfold StopLadder.acknowledgeFrameworkAbort
  split_ifs with haborting
  · exact .acknowledge haborting
  · exact .unasked haborting

/-- Every call of a run is one of the moves. -/
theorem ladderMove_of_edge {e : LadderEdge}
    (he : stepEdge (LadderStep.apply ceiling) e) :
    LadderMove ceiling e.before.ladder e.input e.output e.after.ladder := by
  obtain ⟨s, step, output, s'⟩ := e
  change LadderStep.apply ceiling s step = some (s', output) at he
  cases step with
  | advance now =>
    simp only [LadderStep.apply] at he
    split_ifs at he
    cases he
    exact ladderMove_advance s.ladder now
  | force now =>
    simp only [LadderStep.apply] at he
    split_ifs at he
    cases he
    exact ladderMove_force s.ladder now
  | acknowledgeFrameworkAbort =>
    cases he
    exact ladderMove_acknowledge s.ladder

namespace LadderMove

variable {l l' : StopLadder} {step : LadderStep} {output : Option StopAction}

theorem policy_eq (h : LadderMove ceiling l step output l') :
    l'.policy = l.policy ∧ l'.frameworkDriver = l.frameworkDriver := by
  cases h <;> exact ⟨rfl, rfl⟩

/-- No phase is left backwards. -/
theorem remaining_le (h : LadderMove ceiling l step output l') :
    l'.phase.remaining ≤ l.phase.remaining := by
  cases h <;> simp_all [StopPhase.remaining]

/-- A call adds its action to the climb. -/
theorem climbed_eq (h : LadderMove ceiling l step output l')
    (hdriver : l.phase = .abortingFramework → l.frameworkDriver = true) :
    l'.climbed = l.climbed ++ output.toList := by
  cases h with
  | wait | late | unasked => exact (List.append_nil _).symm
  | latch now hcooperative hfinished =>
    cases hphase : l.phase <;> simp_all [StopLadder.climbed]
  | hardAbortFramework _ hphase _ hacked | acknowledged _ hphase _ hacked =>
    simp [StopLadder.climbed, hphase, hdriver hphase, hacked]
  | _ => simp_all [StopLadder.climbed]

/-- Until the ladder is finished its flag tells whether it was forced. -/
theorem forceRequested_eq (h : LadderMove ceiling l step output l')
    (hunfinished : l'.phase ≠ .finished) :
    l.phase ≠ .finished ∧ l'.forceRequested = (l.forceRequested || step.isForce) := by
  cases h <;> simp_all [LadderStep.isForce]

/-- A call that is no `force` and changes no phase moves neither deadline nor
grace phase; only in the cooperative phase does a `force` move them. -/
theorem still (h : LadderMove ceiling l step output l') (hphase : l'.phase = l.phase)
    (hforce : step.isForce = true → l.phase ≠ .cooperative) :
    l'.deadline = l.deadline ∧ l'.gracePhase = l.gracePhase := by
  cases h <;> simp_all [LadderStep.isForce]

/-- On a forced ladder the grace phase is settled. -/
theorem gracePhase_eq (h : LadderMove ceiling l step output l')
    (hforced : l.forceRequested = true) : l'.gracePhase = l.gracePhase := by
  cases h <;> simp [hforced]

/-- From escalation on the grace phase is settled. -/
theorem gracePhase_settled (h : LadderMove ceiling l step output l')
    (hphase : l.phase.remaining ≤ 2) : l'.gracePhase = l.gracePhase := by
  cases h <;> simp_all [StopPhase.remaining]

/-- An acknowledgement is recorded only while the framework is being aborted. -/
theorem acked_cases (h : LadderMove ceiling l step output l')
    (hacked : l'.frameworkAbortAcked = true) :
    l.frameworkAbortAcked = true ∨
      step = .acknowledgeFrameworkAbort ∧ l.phase = .abortingFramework := by
  cases h <;> simp_all

/-- A ladder that aborts its framework has one. -/
theorem driver_of_aborting (h : LadderMove ceiling l step output l')
    (hdriver : l.phase = .abortingFramework → l.frameworkDriver = true)
    (hphase : l'.phase = .abortingFramework) : l'.frameworkDriver = true := by
  cases h <;> simp_all

/-- A `force` keeps the phase and never makes the deadline later. -/
theorem force_expedites (h : LadderMove ceiling l step output l') (hstep : step.isForce = true) :
    l'.phase = l.phase ∧ ∀ d, l.deadline = some d → ∃ d' ≤ d, l'.deadline = some d' := by
  cases h with
  | force now hphase =>
    refine ⟨rfl, fun d hd => ⟨min d now, min_le_left d now, ?_⟩⟩
    simp [hd]
  | latch | late => exact ⟨rfl, fun d hd => ⟨d, le_rfl, hd⟩⟩
  | _ => cases hstep

end LadderMove

/-! ### Runs -/

section Runs

variable {policy : Shutdown} {frameworkDriver : Bool}
variable {tr : List LadderEdge} {s t : TimedLadder}

theorem remaining_le_of_run
    (h : Run (stepEdge (LadderStep.apply ceiling)) s tr t) :
    t.ladder.phase.remaining ≤ s.ladder.phase.remaining := by
  refine h.invariant le_rfl ?_
  intro e he _ hbefore
  exact (ladderMove_of_edge he).remaining_le.trans hbefore

theorem StopPhase.remaining_injective : Function.Injective StopPhase.remaining := by
  intro p q h
  cases p <;> cases q <;> first | rfl | cases h

/-- A run that ends in the phase it started from has every call within it. -/
theorem phase_within (h : Run (stepEdge (LadderStep.apply ceiling)) s tr t)
    (hphase : t.ladder.phase = s.ladder.phase) {e : LadderEdge} (hmem : e ∈ tr) :
    e.before.ladder.phase = s.ladder.phase ∧ e.after.ladder.phase = s.ladder.phase := by
  obtain ⟨pre, post, -, hpre, he, hpost⟩ := h.mem_split hmem
  have hfirst := remaining_le_of_run hpre
  have hstep := (ladderMove_of_edge he).remaining_le
  have hlast := remaining_le_of_run hpost
  rw [hphase] at hlast
  constructor
  · exact StopPhase.remaining_injective (le_antisymm hfirst (hlast.trans hstep))
  · exact StopPhase.remaining_injective (le_antisymm (hstep.trans hfirst) hlast)

/-- Within a phase, deadline and grace phase stand still up to the first `force`,
and outside the cooperative one altogether. -/
theorem still_within (h : Run (stepEdge (LadderStep.apply ceiling)) s tr t)
    (hphase : t.ladder.phase = s.ladder.phase)
    (hforce : s.ladder.phase = .cooperative → ∀ e ∈ tr, LadderEdge.forces e = false) :
    t.ladder.deadline = s.ladder.deadline ∧ t.ladder.gracePhase = s.ladder.gracePhase := by
  refine h.invariant ⟨rfl, rfl⟩ ?_
  rintro e he hmem ⟨hdeadline, hgrace⟩
  obtain ⟨hbefore, hafter⟩ := phase_within h hphase hmem
  obtain ⟨hd, hg⟩ := (ladderMove_of_edge he).still (hafter.trans hbefore.symm) <| by
    intro hforced hcooperative
    exact absurd hforced
      (Bool.eq_false_iff.mp (hforce (hbefore.symm.trans hcooperative) e hmem))
  exact ⟨hd.trans hdeadline, hg.trans hgrace⟩

theorem policy_of_run (h : LadderRun ceiling policy frameworkDriver tr s) :
    s.ladder.policy = policy ∧ s.ladder.frameworkDriver = frameworkDriver := by
  refine h.invariant ⟨rfl, rfl⟩ ?_
  rintro e he - ⟨hpolicy, hdriver⟩
  obtain ⟨hp, hd⟩ := (ladderMove_of_edge he).policy_eq
  exact ⟨hp.trans hpolicy, hd.trans hdriver⟩

/-- A ladder that is aborting its framework has one. -/
theorem driver_of_run (h : LadderRun ceiling policy frameworkDriver tr s)
    (hphase : s.ladder.phase = .abortingFramework) : s.ladder.frameworkDriver = true := by
  revert hphase
  refine h.invariant (by rintro ⟨⟩) ?_
  intro e he _ hbefore
  exact (ladderMove_of_edge he).driver_of_aborting hbefore

/-- What a run emitted is the climb of its ladder. -/
theorem emitted_eq_climbed (h : LadderRun ceiling policy frameworkDriver tr s) :
    tr.filterMap Edge.output = s.ladder.climbed := by
  refine h.history rfl ?_
  intro pre e hpre he _ hemitted
  rw [(ladderMove_of_edge he).climbed_eq (driver_of_run hpre), List.filterMap_append, hemitted]
  cases houtput : e.output <;> simp [houtput]

/-- An unfinished ladder's flag tells whether the run forced it. -/
theorem flag_of_run (h : Run (stepEdge (LadderStep.apply ceiling)) s tr t)
    (hunfinished : t.ladder.phase ≠ .finished) :
    t.ladder.forceRequested = (s.ladder.forceRequested || tr.any LadderEdge.forces) := by
  revert hunfinished
  refine h.history (fun _ => (Bool.or_false _).symm) ?_
  intro pre e _ he _ ih hafter
  obtain ⟨hbefore, hflag⟩ := (ladderMove_of_edge he).forceRequested_eq hafter
  rw [hflag, ih hbefore, List.any_append, ← Bool.or_assoc]
  simp [LadderEdge.forces]

theorem forced_of_run (h : LadderRun ceiling policy frameworkDriver tr s)
    (hunfinished : s.ladder.phase ≠ .finished) :
    s.ladder.forceRequested = tr.any LadderEdge.forces :=
  (flag_of_run h hunfinished).trans (Bool.false_or _)

/-- A recorded acknowledgement was made while the framework was being aborted. -/
theorem acknowledged_of_run (h : LadderRun ceiling policy frameworkDriver tr s)
    (hacked : s.ladder.frameworkAbortAcked = true) :
    ∃ (pre : List LadderEdge) (k : LadderEdge) (post : List LadderEdge),
      tr = pre ++ k :: post ∧ k.input = .acknowledgeFrameworkAbort ∧
      k.before.ladder.phase = .abortingFramework := by
  revert hacked
  refine h.history (by rintro ⟨⟩) ?_
  intro before e _ he _ ih hafter
  rcases (ladderMove_of_edge he).acked_cases hafter with hearlier | ⟨hinput, hphase⟩
  · obtain ⟨pre, k, post, rfl, hk⟩ := ih hearlier
    exact ⟨pre, k, post ++ [e], by simp, hk⟩
  · exact ⟨before, e, [], rfl, hinput, hphase⟩

end Runs

/-! ### Deadlines -/

theorem StopLadder.isDue_iff (l : StopLadder) (now : Instant) :
    l.isDue now = true ↔ ∃ d, l.deadline = some d ∧ d ≤ now := by
  simp [StopLadder.isDue, Option.any_eq_true]

/-- Who is due waited out the budget. -/
theorem budget_le_of_due {l : StopLadder} {startedAt now : Instant} {duration : Duration}
    (hdeadline : l.deadline = deadlineAfter ceiling startedAt duration)
    (hdue : l.isDue now = true) : startedAt + duration ≤ now := by
  obtain ⟨d, hd, hle⟩ := (l.isDue_iff now).mp hdue
  rw [← deadlineAfter_eq_some (hdeadline.symm.trans hd)]
  exact hle

/-- A due ladder moves to its next phase. -/
theorem StopLadder.advance_due {l : StopLadder} {d now : Instant} (hstarted : l.phase ≠ .idle)
    (hunfinished : l.phase ≠ .finished) (hdeadline : l.deadline = some d) (hdue : d ≤ now) :
    (l.advance ceiling now).1.phase = l.nextPhase := by
  have hisDue : l.isDue now = true := (l.isDue_iff now).mpr ⟨d, hdeadline, hdue⟩
  rw [StopLadder.advance.eq_def, StopLadder.nextPhase]
  cases hphase : l.phase with
  | idle => exact absurd hphase hstarted
  | finished => exact absurd hphase hunfinished
  | cooperative | abortingFramework => simp [hisDue]
  | escalated => cases l.frameworkDriver <;> simp [hisDue]

namespace LadderMove

variable {l l' : StopLadder} {now : Instant} {phase : GracePhase}

theorem of_cancel (h : LadderMove ceiling l (.advance now) (some .cancel) l') :
    l.phase = .idle ∧
      l' = { l with phase := .cooperative, deadline := l.firstDeadline ceiling now } := by
  cases h with
  | cancel _ hphase => exact ⟨hphase, rfl⟩

theorem of_escalate (h : LadderMove ceiling l (.advance now) (some .escalate) l') :
    l.phase = .cooperative ∧ l.isDue now = true ∧ l'.phase = .escalated ∧
      l'.deadline = deadlineAfter ceiling now
        (tidyAbortBeat (if l.forceRequested then 0 else l.policy.grace)) ∧
      l'.gracePhase =
        if l.policy ≠ .abort && !l.forceRequested then .afterGrace else l.gracePhase := by
  cases h with
  | escalate _ hphase hdue => exact ⟨hphase, hdue, rfl, rfl, rfl⟩

theorem of_abortFramework
    (h : LadderMove ceiling l (.advance now) (some (.abortFramework phase)) l') :
    l.phase = .escalated ∧ l.isDue now = true ∧ phase = l.gracePhase ∧
      l'.phase = .abortingFramework ∧
      l'.deadline = deadlineAfter ceiling now (tidyAbortBeat 0) := by
  cases h with
  | abortFramework _ hphase hdue => exact ⟨hphase, hdue, rfl, rfl, rfl⟩

theorem of_hardAbort (h : LadderMove ceiling l (.advance now) (some (.hardAbort phase)) l') :
    (l.phase = .escalated ∨ l.phase = .abortingFramework) ∧ l.isDue now = true ∧
      phase = l.gracePhase := by
  cases h with
  | hardAbort _ hphase hdue => exact ⟨.inl hphase, hdue, rfl⟩
  | hardAbortFramework _ hphase hdue => exact ⟨.inr hphase, hdue, rfl⟩

/-- An action after the escalation is due in its phase. -/
theorem due_of_action {action : StopAction}
    (h : LadderMove ceiling l (.advance now) (some action) l') (hphase : l.phase = .escalated) :
    l.isDue now = true := by
  cases h <;> simp_all

end LadderMove

theorem EmitsAt.move {e : LadderEdge} {action : StopAction} {now : Instant}
    (h : EmitsAt e action now)
    (he : stepEdge (LadderStep.apply ceiling) e) :
    LadderMove ceiling e.before.ladder (.advance now) (some action) e.after.ladder := by
  have hmove := ladderMove_of_edge he
  rw [h.1, h.2] at hmove
  exact hmove

section Timing

variable {policy : Shutdown} {frameworkDriver : Bool} {s : TimedLadder}
variable {pre mid post : List LadderEdge} {c e a : LadderEdge} {tc te ta : Instant}

/-- Where the `cancel` leaves a graceful ladder that was not forced before. -/
theorem start_of_unforced {grace : NonZeroDuration}
    (h : LadderRun ceiling (.graceful grace) frameworkDriver pre c.before)
    (hc : stepEdge (LadderStep.apply ceiling) c)
    (hcancel : EmitsAt c .cancel tc) (hforce : pre.any LadderEdge.forces = false) :
    c.after.ladder.phase = .cooperative ∧
      c.after.ladder.deadline = deadlineAfter ceiling tc grace.value ∧
      c.after.ladder.forceRequested = false := by
  obtain ⟨hidle, hstart⟩ := (hcancel.move hc).of_cancel
  have hunforced : c.before.ladder.forceRequested = false := by
    rw [forced_of_run h (by rw [hidle]; decide), hforce]
  rw [hstart]
  refine ⟨rfl, ?_, hunforced⟩
  simp only [StopLadder.firstDeadline, hunforced, (policy_of_run h).1, Bool.false_eq_true,
    if_false]

/-- Unforced, the grace is waited out. -/
theorem grace_le_escalate {grace : NonZeroDuration}
    (h : LadderRun ceiling (.graceful grace) frameworkDriver (pre ++ c :: (mid ++ e :: post)) s)
    (hcancel : EmitsAt c .cancel tc) (hescalate : EmitsAt e .escalate te)
    (hforce : ∀ f ∈ pre ++ mid, LadderEdge.forces f = false) : tc + grace.value ≤ te := by
  obtain ⟨hpre, hc, hrest⟩ := h.split_at
  obtain ⟨hmid, he, -⟩ := hrest.split_at
  obtain ⟨hcooperative, hdue, -⟩ := (hescalate.move he).of_escalate
  have hnone : pre.any LadderEdge.forces = false :=
    List.any_eq_false.mpr fun f hf =>
      Bool.eq_false_iff.mp (hforce f (List.mem_append_left mid hf))
  obtain ⟨hstart, hfirst, -⟩ := start_of_unforced hpre hc hcancel hnone
  have hphase : e.before.ladder.phase = c.after.ladder.phase := by
    rw [hcooperative, hstart]
  have hstill := still_within hmid hphase fun _ f hf => hforce f (List.mem_append_right pre hf)
  exact budget_le_of_due (hstill.1.trans hfirst) hdue

/-- After the escalation the tidy beat is waited out. -/
theorem beat_le_action {action : StopAction}
    (h : LadderRun ceiling policy frameworkDriver (pre ++ e :: (mid ++ a :: post)) s)
    (hescalate : EmitsAt e .escalate te) (haction : EmitsAt a action ta)
    (hquiet : ∀ f ∈ mid, f.output = none) :
    te + tidyAbortBeat
      (if policy = .abort ∨ pre.any LadderEdge.forces = true then 0 else policy.grace) ≤ ta := by
  obtain ⟨hpre, he, hrest⟩ := h.split_at
  obtain ⟨hmid, ha, -⟩ := hrest.split_at
  obtain ⟨hcooperative, -, hescalated, hdeadline, -⟩ := (hescalate.move he).of_escalate
  -- nothing was emitted in between, so the ladder is where the escalation left it
  have hphase : a.before.ladder.phase = .escalated := by
    have hfirst := emitted_eq_climbed (hpre.snoc he)
    have hsecond := emitted_eq_climbed ((hpre.snoc he).append hmid)
    rw [List.filterMap_append, hfirst, List.filterMap_eq_nil_iff.mpr hquiet,
      List.append_nil] at hsecond
    simp only [StopLadder.climbed, hescalated] at hsecond
    cases hp : a.before.ladder.phase with
    | escalated => rfl
    | finished =>
      rw [hp] at hsecond
      cases hd : a.before.ladder.frameworkDriver <;> rw [hd] at hsecond <;> cases hsecond
    | _ =>
      rw [hp] at hsecond
      cases hsecond
  have hstill := still_within hmid (hphase.trans hescalated.symm) <| by
    intro habs
    rw [hescalated] at habs
    cases habs
  have hforced := forced_of_run hpre (by rw [hcooperative]; decide)
  have hbeat : (if e.before.ladder.forceRequested then 0 else e.before.ladder.policy.grace) =
      if policy = .abort ∨ pre.any LadderEdge.forces = true then 0 else policy.grace := by
    rw [(policy_of_run hpre).1, hforced]
    cases policy <;> simp [Shutdown.grace]
  rw [← hbeat]
  exact budget_le_of_due (hstill.1.trans hdeadline) ((haction.move ha).due_of_action hphase)

/-- After the framework abort the zero-grace beat is waited out. -/
theorem beat_le_hardAbort {phase phase' : GracePhase} {th : Instant} {k : LadderEdge}
    (h : LadderRun ceiling policy frameworkDriver (pre ++ a :: (mid ++ k :: post)) s)
    (habort : EmitsAt a (.abortFramework phase) ta) (hhard : EmitsAt k (.hardAbort phase') th) :
    ta + tidyAbortBeat 0 ≤ th := by
  obtain ⟨-, ha, hrest⟩ := h.split_at
  obtain ⟨hmid, hk, -⟩ := hrest.split_at
  obtain ⟨-, -, -, haborting, hdeadline⟩ := (habort.move ha).of_abortFramework
  obtain ⟨hwhere, hdue, -⟩ := (hhard.move hk).of_hardAbort
  have hphase : k.before.ladder.phase = a.after.ladder.phase := by
    have hle := remaining_le_of_run hmid
    rw [haborting] at hle ⊢
    rcases hwhere with hp | hp
    · rw [hp] at hle
      cases hle.not_gt (by decide)
    · exact hp
  have hstill := still_within hmid hphase <| by
    intro habs
    rw [haborting] at habs
    cases habs
  exact budget_le_of_due (hstill.1.trans hdeadline) hdue

end Timing

/-- A finished ladder without a hard abort was acknowledged after the framework
abort. -/
theorem acknowledged_of_skipped {policy : Shutdown} {frameworkDriver : Bool}
    {tr : List LadderEdge} {s : TimedLadder} (h : LadderRun ceiling policy frameworkDriver tr s)
    (hfinished : s.ladder.phase = .finished)
    (hskipped : ∀ phase, StopAction.hardAbort phase ∉ tr.filterMap Edge.output) :
    ∃ (pre : List LadderEdge) (a : LadderEdge) (mid : List LadderEdge) (k : LadderEdge)
      (post : List LadderEdge) (phase : GracePhase), tr = pre ++ a :: (mid ++ k :: post) ∧
      a.output = some (.abortFramework phase) ∧ k.input = .acknowledgeFrameworkAbort := by
  have hclimb := emitted_eq_climbed h
  have hacked : s.ladder.frameworkAbortAcked = true := by
    have hnot := hskipped s.ladder.gracePhase
    rw [hclimb] at hnot
    simp only [StopLadder.climbed, hfinished] at hnot
    cases hd : s.ladder.frameworkDriver <;> cases hk : s.ladder.frameworkAbortAcked <;>
      simp_all
  obtain ⟨before, k, post, rfl, hk, hphase⟩ := acknowledged_of_run h hacked
  obtain ⟨hbefore, -, -⟩ := h.split_at
  have hemitted : .abortFramework k.before.ladder.gracePhase ∈ before.filterMap Edge.output := by
    rw [emitted_eq_climbed hbefore]
    simp [StopLadder.climbed, hphase]
  obtain ⟨a, ha, houtput⟩ := List.mem_filterMap.mp hemitted
  obtain ⟨pre, mid, rfl⟩ := List.append_of_mem ha
  exact ⟨pre, a, mid, k, post, _, by simp, houtput, hk⟩

/-- A climb is a beginning of the whole ladder. -/
theorem StopLadder.climbed_isPrefix (l : StopLadder)
    (hdriver : l.phase = .abortingFramework → l.frameworkDriver = true) :
    l.climbed <+: [StopAction.cancel, .escalate] ++
      (if l.frameworkDriver then [.abortFramework l.gracePhase] else []) ++
        [.hardAbort l.gracePhase] := by
  unfold StopLadder.climbed
  cases hphase : l.phase with
  | abortingFramework =>
    rw [hdriver hphase]
    exact ⟨[.hardAbort l.gracePhase], rfl⟩
  | finished =>
    cases l.frameworkDriver with
    | false => exact List.prefix_rfl
    | true =>
      cases l.frameworkAbortAcked with
      | false => exact List.prefix_rfl
      | true => exact ⟨[.hardAbort l.gracePhase], rfl⟩
  | _ => exact ⟨_, rfl⟩

/-- **The stop ladder's trace.**  Whatever the calls, a ladder emits a beginning
of cancel, escalate, framework abort for framework drivers and hard abort, each
no earlier than the wait before it; only an acknowledgement skips the hard abort;
`force` neither delays nor rewinds, and a due ladder moves on. -/
theorem stop_ladder_trace {policy : Shutdown} {frameworkDriver : Bool} {tr : List LadderEdge}
    {s : TimedLadder} (hrun : LadderRun ceiling policy frameworkDriver tr s) :
    (∃ phase : GracePhase, tr.filterMap Edge.output <+: [StopAction.cancel, .escalate] ++
      (if frameworkDriver then [.abortFramework phase] else []) ++ [.hardAbort phase]) ∧
    (tr.filterMap Edge.output).Nodup ∧
    (∀ (pre : List LadderEdge) (c : LadderEdge) (mid : List LadderEdge) (e : LadderEdge)
        (post : List LadderEdge) (tc te : Instant) (grace : NonZeroDuration),
      tr = pre ++ c :: (mid ++ e :: post) →
      EmitsAt c .cancel tc → EmitsAt e .escalate te → policy = .graceful grace →
      (∀ f ∈ pre ++ mid, LadderEdge.forces f = false) → tc + grace.value ≤ te) ∧
    (∀ (pre : List LadderEdge) (e : LadderEdge) (mid : List LadderEdge) (a : LadderEdge)
        (post : List LadderEdge) (te ta : Instant) (action : StopAction),
      tr = pre ++ e :: (mid ++ a :: post) →
      EmitsAt e .escalate te → EmitsAt a action ta → (∀ f ∈ mid, f.output = none) →
      te + tidyAbortBeat
        (if policy = .abort ∨ pre.any LadderEdge.forces = true then 0 else policy.grace) ≤ ta) ∧
    (∀ (pre : List LadderEdge) (a : LadderEdge) (mid : List LadderEdge) (k : LadderEdge)
        (post : List LadderEdge) (ta th : Instant) (phase phase' : GracePhase),
      tr = pre ++ a :: (mid ++ k :: post) →
      EmitsAt a (.abortFramework phase) ta → EmitsAt k (.hardAbort phase') th →
      ta + tidyAbortBeat 0 ≤ th) ∧
    (s.ladder.phase = .finished →
      (∀ phase, StopAction.hardAbort phase ∉ tr.filterMap Edge.output) →
      ∃ (pre : List LadderEdge) (a : LadderEdge) (mid : List LadderEdge) (k : LadderEdge)
      (post : List LadderEdge) (phase : GracePhase), tr = pre ++ a :: (mid ++ k :: post) ∧
        a.output = some (.abortFramework phase) ∧ k.input = .acknowledgeFrameworkAbort) ∧
    (∀ f ∈ tr, LadderEdge.forces f = true →
      f.after.ladder.phase = f.before.ladder.phase ∧
        ∀ d, f.before.ladder.deadline = some d → ∃ d' ≤ d, f.after.ladder.deadline = some d') ∧
    (s.ladder.phase ≠ .idle → s.ladder.phase ≠ .finished →
      ∀ d now, s.ladder.deadline = some d → d ≤ now →
        (s.ladder.advance ceiling now).1.phase = s.ladder.nextPhase) := by
  have hemitted := emitted_eq_climbed hrun
  have hwhole := s.ladder.climbed_isPrefix (driver_of_run hrun)
  rw [(policy_of_run hrun).2] at hwhole
  refine ⟨⟨_, hemitted ▸ hwhole⟩, ?_, ?_, ?_, ?_, acknowledged_of_skipped hrun, ?_, ?_⟩
  · rw [hemitted]
    refine hwhole.sublist.nodup ?_
    cases frameworkDriver <;> simp
  · rintro pre c mid e post tc te grace rfl hcancel hescalate rfl hforce
    exact grace_le_escalate hrun hcancel hescalate hforce
  · rintro pre e mid a post te ta action rfl hescalate haction hquiet
    exact beat_le_action hrun hescalate haction hquiet
  · rintro pre a mid k post ta th phase phase' rfl habort hhard
    exact beat_le_hardAbort hrun habort hhard
  · intro f hf hforces
    exact (ladderMove_of_edge (hrun.edge_of_mem hf)).force_expedites hforces
  · intro hstarted hunfinished d now hdeadline hdue
    exact StopLadder.advance_due hstarted hunfinished hdeadline hdue

/-- A framework driver with a grace of thirty milliseconds is forced late,
acknowledges and finishes without a hard abort. -/
def forcedSteps : List LadderStep :=
  [.advance 0, .advance 1, .acknowledgeFrameworkAbort, .force 40000000, .advance 40000000,
    .force 40000001, .advance 42000000, .acknowledgeFrameworkAbort, .advance 43000000]

def sampleGrace : NonZeroDuration := ⟨30000000, by decide⟩

theorem stop_ladder_trace_forced :
    ∃ (tr : List LadderEdge) (s : TimedLadder),
      LadderRun (10 ^ 12) (.graceful sampleGrace) true tr s ∧
      tr.filterMap Edge.output = [.cancel, .escalate, .abortFramework .afterGrace] ∧
      ∃ (pre : List LadderEdge) (a : LadderEdge) (mid : List LadderEdge) (k : LadderEdge)
      (post : List LadderEdge) (phase : GracePhase), tr = pre ++ a :: (mid ++ k :: post) ∧
        a.output = some (.abortFramework phase) ∧ k.input = .acknowledgeFrameworkAbort := by
  have hexec : ∃ tr s, exec (fun s step => LadderStep.apply (10 ^ 12) s step)
      ⟨0, .withFrameworkDriver (.graceful sampleGrace) true⟩ forcedSteps = some (tr, s) ∧
      tr.filterMap Edge.output = [.cancel, .escalate, .abortFramework .afterGrace] ∧
      s.ladder.phase = .finished := ⟨_, _, rfl, by decide, by decide⟩
  obtain ⟨tr, s, hexec, hemitted, hfinished⟩ := hexec
  have hrun := run_of_exec _ hexec
  obtain ⟨-, -, -, -, -, hskipped, -⟩ := stop_ladder_trace hrun
  refine ⟨tr, s, hrun, hemitted, hskipped hfinished ?_⟩
  intro phase
  rw [hemitted]
  cases phase <;> decide

end Shelterwood
