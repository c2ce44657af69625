/-
Shelterwood/MemberTerminality.lean

The terminal record of a member and its mailbox.

A member owns at most one mailbox, attached before or after the member is
terminalized.  Both ways round the mailbox must end terminal together with the
record: a terminalizer that finds a mailbox terminates it, and an attachment
that finds the slot terminal terminates the mailbox it brings.  Inside one gated
section the order is fixed: the slot is marked, the record is stored, and only
then does the mailbox turn terminal, so a sender that is refused for good can
read the exit.

`OwnedMember` is the member cell together with that mailbox.  A section is given
with the states it passes through, because the order inside it is part of the
statement.  Senders, receivers and the driver use the mailbox between the
sections; nothing they do makes it terminal.
-/
import Shelterwood.Member
import Shelterwood.MailboxMoves

namespace Shelterwood

/-! ### The member and its mailbox -/

/-- A member cell with the mailbox its slot holds. -/
structure OwnedMember (M : Type) where
  cell : MemberCell
  control : Option (MailboxSystem M)

/-- The mailbox after `prepare_termination`. -/
def MailboxSystem.prepareTermination {M : Type} (mailbox : MailboxSystem M) : MailboxSystem M :=
  match mailbox.cell.prepareTermination with
  | (some teardown, cell) => { mailbox with cell, teardown := some teardown.termination }
  | (none, _) => mailbox

/-- Whether the section is the member's own. -/
def MailboxStep.prepares {M : Type} : MailboxStep M → Bool
  | .prepareTermination => true
  | _ => false

/-- One gated section on a member, or one section on its mailbox. -/
inductive MemberStep (M : Type)
  | advance (transition : MemberTransition)
  | terminalize (exit : Exit) (startup : StartupDisposition)
  | attachMailbox
  | mailbox (step : MailboxStep M)
  deriving DecidableEq

inductive MemberOutput
  | accepted (accepted : Bool)
  | terminalized (exit : Exit)
  | done
  | panicked (message : String)
  deriving DecidableEq, Repr

namespace OwnedMember

variable {M : Type}

def new (id : ChildId) (membership : Membership) : OwnedMember M := ⟨.new id membership, none⟩

def stage (m : OwnedMember M) : MemberStage := m.cell.record.stage

/-- Marks the mailbox slot terminal; the mailbox stays live. -/
def markTerminal (m : OwnedMember M) : OwnedMember M :=
  { m with cell := { m.cell with mailbox := m.cell.mailbox.terminate } }

def storeTerminal (m : OwnedMember M) (exit : Exit) (startup : StartupDisposition) :
    OwnedMember M :=
  { m with cell := { m.cell with record := m.cell.record.terminalize exit startup } }

def terminateMailbox (m : OwnedMember M) : OwnedMember M :=
  { m with control := m.control.map MailboxSystem.prepareTermination }

/-- The states a terminalization passes through, and the exit it returns. -/
def terminalizeLocked (m : OwnedMember M) (exit : Exit) (startup : StartupDisposition) :
    Exit × List (OwnedMember M) :=
  match m.cell.mailbox, m.cell.record.stage with
  | .terminal _, .terminal winner => (winner, [])
  | slot, _ =>
    let marked := m.markTerminal
    let stored := marked.storeTerminal exit startup
    (exit, [marked, stored, if slot = .attached then stored.terminateMailbox else stored])

/-- The states an attachment of a fresh mailbox passes through; `none` when the
member owns one already. -/
def attachMailbox (m : OwnedMember M) : Option (List (OwnedMember M)) :=
  match m.cell.mailbox with
  | .unattached =>
    some [⟨{ m.cell with mailbox := .attached }, some (.new m.cell.id)⟩]
  | .attached | .terminal true => none
  | .terminal false =>
    some [⟨{ m.cell with mailbox := .terminal true },
      some (MailboxSystem.new m.cell.id).prepareTermination⟩]

end OwnedMember

namespace MemberStep

variable {M : Type}

/-- What a section returns, and the states it passes through.  Only the member
terminates its mailbox. -/
def stages (m : OwnedMember M) : MemberStep M → Option (MemberOutput × List (OwnedMember M))
  | .advance transition =>
    some (.accepted (m.cell.transitionLocked transition).1,
      [{ m with cell := (m.cell.transitionLocked transition).2 }])
  | .terminalize exit startup =>
    some (.terminalized (m.terminalizeLocked exit startup).1,
      (m.terminalizeLocked exit startup).2)
  | .attachMailbox =>
    match m.attachMailbox with
    | some states => some (.done, states)
    | none => some (.panicked "a member can own only one mailbox", [])
  | .mailbox step =>
    match m.control with
    | none => none
    | some control =>
      if step.prepares then none
      else
        (MailboxStep.apply control step).map fun result =>
          (.done, [{ m with control := some result.1 }])

/-- Runs one section. -/
def apply (m : OwnedMember M) (step : MemberStep M) : Option (OwnedMember M × MemberOutput) :=
  (step.stages m).map fun result => (result.2.getLast?.getD m, result.1)

end MemberStep

abbrev MemberEdge (M : Type) := Edge (OwnedMember M) (MemberStep M) MemberOutput

/-- A run of a fresh member. -/
abbrev MemberRun {M : Type} (id : ChildId) (membership : Membership) (tr : List (MemberEdge M))
    (m : OwnedMember M) : Prop :=
  Run (stepEdge fun m step => MemberStep.apply m step) (.new id membership) tr m

variable {M : Type}

/-! ### The cell inside -/

namespace OwnedMember

/-- A terminalization loses to the stored exit, or passes through its three
states. -/
theorem terminalizeLocked_cases (m : OwnedMember M) (exit : Exit) (startup : StartupDisposition) :
    (∃ control winner, m.cell.mailbox = .terminal control ∧ m.stage = .terminal winner ∧
        m.terminalizeLocked exit startup = (winner, []) ∧
        m.cell.terminalizeLocked exit startup = (winner, m.cell)) ∨
      (¬ (∃ control winner, m.cell.mailbox = .terminal control ∧ m.stage = .terminal winner) ∧
        m.terminalizeLocked exit startup =
          (exit, [m.markTerminal, m.markTerminal.storeTerminal exit startup,
            if m.cell.mailbox = .attached then
              (m.markTerminal.storeTerminal exit startup).terminateMailbox
            else m.markTerminal.storeTerminal exit startup]) ∧
        m.cell.terminalizeLocked exit startup =
          (exit, (m.markTerminal.storeTerminal exit startup).cell)) := by
  unfold terminalizeLocked MemberCell.terminalizeLocked stage
  cases hslot : m.cell.mailbox with
  | terminal control =>
    cases hstage : m.cell.record.stage with
    | terminal winner => exact .inl ⟨control, winner, rfl, rfl, rfl, rfl⟩
    | _ =>
      refine .inr ⟨?_, rfl, ?_⟩
      · rintro ⟨_, _, -, ⟨⟩⟩
      · simp only [markTerminal, storeTerminal, hslot]
  | _ =>
    refine .inr ⟨?_, rfl, ?_⟩
    · rintro ⟨_, _, ⟨⟩, -⟩
    · simp only [markTerminal, storeTerminal, hslot]

end OwnedMember

/-! ### Mailbox terminality -/

/-- A mailbox is terminal exactly when its teardown has been prepared. -/
def MailboxSystem.Sealed (mailbox : MailboxSystem M) : Prop :=
  mailbox.cell.state.phase.isTerminal = mailbox.teardown.isSome

theorem Phase.isTerminal_of_observation {phase : Phase} {incarnation : Incarnation}
    (h : phase.observation = some incarnation) : phase.isTerminal = false := by
  cases phase with
  | terminal final => cases h
  | _ => rfl

namespace MailboxSystem

variable {s t : MailboxSystem M}

/-- One move keeps the two in step. -/
theorem Sealed.moves {f : Flow M} (hs : s.Sealed) (h : Moves s f t) : t.Sealed := by
  -- most moves touch neither the phase nor the teardown
  have hsame : t.cell.state.phase = s.cell.state.phase → t.teardown = s.teardown → t.Sealed := by
    intro hphase hteardown
    rw [Sealed, hphase, hteardown]
    exact hs
  cases h with
  | refuse | park | skip | drop | reclaim | rewake | configure | retire | discharge =>
    exact hsame rfl rfl
  | accept => exact hsame (MailboxState.push_phase _ _ _) rfl
  | promote => exact hsame (promoted_phase _ _ _ _ _) rfl
  | take binding mode envelope state phase taken =>
    exact hsame (MailboxState.takeNext_frame taken).1 rfl
  | bind binding unbound configured unclaimed =>
    rw [Sealed, unbound] at hs
    exact hs
  | freeze binding bound =>
    rw [Sealed, bound] at hs
    exact hs
  | close incarnation bound =>
    rw [Sealed, Phase.isTerminal_of_observation bound] at hs
    rw [Sealed, MailboxCell.close, if_pos bound]
    exact hs
  | terminate live =>
    rw [Sealed, MailboxCell.prepareTermination, if_neg (by rw [live]; decide)]
    rfl
  | clear termination reference waiters teardown free pop =>
    rw [Sealed, teardown] at hs
    exact hs

theorem Sealed.moved {f : Flow M} (hs : s.Sealed) (h : Moved s f t) : t.Sealed := by
  induction h with
  | refl => exact hs
  | tail _ hmove ih => exact ih.moves hmove

/-- No use of a mailbox makes it terminal. -/
theorem teardown_of_use {step : MailboxStep M} {output : MailboxOutput M}
    (hstep : step.prepares = false) (h : MailboxStep.apply s step = some (t, output)) :
    t.teardown.isSome = s.teardown.isSome := by
  have hfaulted : ∀ {fault : Fault}, s.faulted fault = some (t, output) →
      t.teardown.isSome = s.teardown.isSome := by
    intro fault hfault
    cases fault with
    | exhausted => cases hfault
    | panicked message =>
      cases hfault
      rfl
  cases step with
  | prepareTermination => cases hstep
  | acceptedSequence | currentObservation | freeze | close =>
    cases h
    rfl
  | submit | trySend | receive | bind | configure =>
    simp only [MailboxStep.apply] at h
    split at h
    · cases h
      rfl
    · exact hfaulted h
  | poll reference replacement current =>
    simp only [MailboxStep.apply] at h
    split at h
    · cases h
    · split at h
      · cases h
        rfl
      · exact hfaulted h
  | withdraw reference disposition =>
    simp only [MailboxStep.apply] at h
    split at h
    · cases h
    · cases h
      rfl
  | clearRegistration =>
    simp only [MailboxStep.apply] at h
    split at h
    · next hteardown _ =>
        split at h
        · cases h
          rw [hteardown]
          rfl
        · cases h
    · cases h
  | terminate =>
    simp only [MailboxStep.apply] at h
    split at h
    · split at h
      · cases h
        rfl
      · cases h
    · cases h

theorem Sealed.use {step : MailboxStep M} {output : MailboxOutput M} (hs : s.Sealed)
    (h : MailboxStep.apply s step = some (t, output)) : t.Sealed := by
  have hedge : IsMailboxEdge ⟨s, step, output, t⟩ := h
  exact hs.moved (moved_of_edge hedge)

theorem Sealed.prepared (hs : s.Sealed) :
    s.prepareTermination.Sealed ∧ s.prepareTermination.cell.state.phase.isTerminal = true := by
  unfold prepareTermination MailboxCell.prepareTermination
  by_cases hterminal : s.cell.state.phase.isTerminal = true
  · rw [if_pos hterminal]
    exact ⟨hs, hterminal⟩
  · rw [if_neg hterminal]
    exact ⟨rfl, rfl⟩

end MailboxSystem

/-! ### The record -/

/-- An incarnation is named only while it runs, and a restart time only while
one is awaited. -/
structure MemberRecord.Wf (r : MemberRecord) : Prop where
  incarnation : ∀ i, r.incarnation = some i →
    (r.stage = .starting ∨ r.stage = .running ∨ r.stage = .stopping) ∧ r.lastIncarnation = some i
  restartAt : r.restartAt.isSome = true → r.stage = .restarting

namespace MemberRecord

variable {r r' : MemberRecord}

theorem wf_new : MemberRecord.new.Wf where
  incarnation := by rintro _ ⟨⟩
  restartAt := by rintro ⟨⟩

/-- An accepted transition was legal, and leaves the terminal stage out. -/
theorem Wf.transition {transition : MemberTransition} (hr : r.Wf)
    (h : r.applyTransition transition = some r') :
    r'.Wf ∧ r.stage.isTerminal = false ∧ r'.stage.isTerminal = false := by
  unfold applyTransition at h
  split_ifs at h with hlegal
  cases transition with
  | admitted =>
    cases h
    have hstage : r.stage = .reserved := by
      cases hs : r.stage <;> rw [hs] at hlegal <;> first | rfl | cases hlegal
    refine ⟨⟨?_, ?_⟩, by rw [hstage]; rfl, rfl⟩
    · intro i hi
      obtain ⟨hlive, -⟩ := hr.incarnation i hi
      simp [hstage] at hlive
    · intro hat
      have hrestarting := hr.restartAt hat
      rw [hstage] at hrestarting
      cases hrestarting
  | starting incarnation =>
    cases h
    refine ⟨⟨fun i hi => ⟨.inl rfl, hi⟩, by rintro ⟨⟩⟩, ?_, rfl⟩
    cases hs : r.stage <;> rw [hs] at hlegal <;> first | rfl | cases hlegal
  | running =>
    cases h
    have hstage : r.stage = .starting ∨ r.stage = .reserved := by
      cases hs : r.stage <;> rw [hs] at hlegal <;>
        first | exact .inl rfl | exact .inr rfl | cases hlegal
    refine ⟨⟨?_, ?_⟩, ?_, rfl⟩
    · intro i hi
      exact ⟨.inr (.inl rfl), (hr.incarnation i hi).2⟩
    · intro hat
      have hrestarting := hr.restartAt hat
      rcases hstage with hs | hs <;> (rw [hs] at hrestarting; cases hrestarting)
    · rcases hstage with hs | hs <;> (rw [hs]; rfl)
  | stopping =>
    cases h
    have hstage : r.stage = .starting ∨ r.stage = .running := by
      cases hs : r.stage <;> rw [hs] at hlegal <;>
        first | exact .inl rfl | exact .inr rfl | cases hlegal
    refine ⟨⟨?_, ?_⟩, ?_, rfl⟩
    · intro i hi
      exact ⟨.inr (.inr rfl), (hr.incarnation i hi).2⟩
    · intro hat
      have hrestarting := hr.restartAt hat
      rcases hstage with hs | hs <;> (rw [hs] at hrestarting; cases hrestarting)
    · rcases hstage with hs | hs <;> (rw [hs]; rfl)
  | restartScheduled exit restartCount restartAt =>
    cases h
    refine ⟨⟨by rintro _ ⟨⟩, fun _ => rfl⟩, ?_, rfl⟩
    cases hs : r.stage <;> rw [hs] at hlegal <;> first | rfl | cases hlegal

theorem Wf.terminalize (hr : r.Wf) (exit : Exit) (startup : StartupDisposition) :
    (r.terminalize exit startup).Wf := by
  unfold MemberRecord.terminalize
  split_ifs
  · exact hr
  · exact ⟨by rintro _ ⟨⟩, by rintro ⟨⟩⟩

theorem terminalize_isTerminal (r : MemberRecord) (exit : Exit) (startup : StartupDisposition) :
    (r.terminalize exit startup).stage.isTerminal = true := by
  unfold MemberRecord.terminalize
  split_ifs with h
  · exact h
  · rfl

/-- The first terminalizer's exit is stored. -/
theorem terminalize_stage (hr : r.stage.isTerminal = false) (exit : Exit)
    (startup : StartupDisposition) : (r.terminalize exit startup).stage = .terminal exit := by
  unfold MemberRecord.terminalize
  rw [if_neg (by rw [hr]; decide)]

end MemberRecord

/-- A transition that a cell refuses changes nothing; one it accepts is
legal. -/
theorem MemberCell.transitionLocked_cases (m : MemberCell) (transition : MemberTransition) :
    (transition.isLegalFrom m.record.stage = true ∧ ∃ record,
        m.record.applyTransition transition = some record ∧
        m.transitionLocked transition = (true, { m with record })) ∨
      (transition.isLegalFrom m.record.stage = false ∧
        m.transitionLocked transition = (false, m)) := by
  unfold transitionLocked
  cases hlegal : transition.isLegalFrom m.record.stage with
  | true =>
    left
    refine ⟨rfl, ?_⟩
    unfold MemberRecord.applyTransition
    rw [if_pos hlegal]
    cases transition <;> exact ⟨_, rfl, rfl⟩
  | false =>
    right
    unfold MemberRecord.applyTransition
    rw [if_neg (by rw [hlegal]; decide)]
    exact ⟨rfl, rfl⟩

/-! ### The invariant -/

/-- Whether the mailbox slot is marked terminal. -/
def MemberMailbox.isTerminal : MemberMailbox → Bool
  | .terminal _ => true
  | _ => false

/-- Whether the mailbox slot holds a mailbox. -/
def MemberMailbox.isOwned : MemberMailbox → Bool
  | .attached | .terminal true => true
  | .unattached | .terminal false => false

namespace OwnedMember

/-- The mailbox is not terminal ahead of the record. -/
def RecordFirst (m : OwnedMember M) : Prop :=
  ∀ mailbox, m.control = some mailbox → mailbox.cell.state.phase.isTerminal = true →
    m.stage.isTerminal = true

/-- Record, slot and mailbox are in step. -/
structure Wf (m : OwnedMember M) : Prop where
  record : m.cell.record.Wf
  slot : m.cell.mailbox.isTerminal = m.stage.isTerminal
  owned : m.control.isSome = m.cell.mailbox.isOwned
  together : ∀ mailbox, m.control = some mailbox →
    mailbox.Sealed ∧ mailbox.cell.state.phase.isTerminal = m.stage.isTerminal

variable {m : OwnedMember M}

theorem wf_new (id : ChildId) (membership : Membership) :
    (new id membership : OwnedMember M).Wf where
  record := MemberRecord.wf_new
  slot := rfl
  owned := rfl
  together := by rintro _ ⟨⟩

theorem Wf.recordFirst (hm : m.Wf) : m.RecordFirst := by
  intro mailbox hcontrol hterminal
  rw [← (hm.together mailbox hcontrol).2]
  exact hterminal

theorem Wf.advance (hm : m.Wf) (transition : MemberTransition) :
    ({ m with cell := (m.cell.transitionLocked transition).2 } : OwnedMember M).Wf := by
  rcases m.cell.transitionLocked_cases transition with ⟨-, record, happly, heq⟩ | ⟨-, heq⟩
  · obtain ⟨hrecord, hbefore, hafter⟩ := hm.record.transition happly
    have hstage : record.stage.isTerminal = m.stage.isTerminal := hafter.trans hbefore.symm
    rw [heq]
    refine ⟨hrecord, hm.slot.trans hstage.symm, hm.owned, ?_⟩
    intro mailbox hcontrol
    obtain ⟨hsealed, hphase⟩ := hm.together mailbox hcontrol
    exact ⟨hsealed, hphase.trans hstage.symm⟩
  · rw [heq]
    exact hm

/-- A member that is not terminal holds no terminal mailbox, so each state of a
terminalization stores the record first. -/
theorem Wf.terminalize (hm : m.Wf) (exit : Exit) (startup : StartupDisposition) :
    (∀ m' ∈ (m.terminalizeLocked exit startup).2, m'.RecordFirst) ∧
      ((m.terminalizeLocked exit startup).2.getLast?.getD m).Wf := by
  rcases m.terminalizeLocked_cases exit startup with
    ⟨control, winner, -, -, howned, -⟩ | ⟨hlive, howned, -⟩
  · rw [howned]
    exact ⟨by rintro _ ⟨⟩, hm⟩
  · have hnot : m.stage.isTerminal = false := by
      by_contra habs
      rw [Bool.not_eq_false] at habs
      have hslot := hm.slot.trans habs
      cases hs : m.stage <;> rw [hs] at habs <;> try cases habs
      cases hb : m.cell.mailbox <;> rw [hb] at hslot <;> try cases hslot
      exact hlive ⟨_, _, hb, hs⟩
    have hterminal : (m.markTerminal.storeTerminal exit startup).stage.isTerminal = true :=
      m.cell.record.terminalize_isTerminal exit startup
    have hslot : m.cell.mailbox.isTerminal = false := hm.slot.trans hnot
    have hmarked : m.cell.mailbox.terminate.isTerminal = true := by
      cases m.cell.mailbox <;> rfl
    have hstill : m.cell.mailbox.terminate.isOwned = m.cell.mailbox.isOwned := by
      cases m.cell.mailbox <;> rfl
    have hrecord : (m.markTerminal.storeTerminal exit startup).cell.record.Wf :=
      hm.record.terminalize exit startup
    rw [howned]
    refine ⟨?_, ?_⟩
    · intro m' hmem
      simp only [List.mem_cons, List.not_mem_nil, or_false] at hmem
      rcases hmem with rfl | rfl | rfl
      · exact hm.recordFirst
      · exact fun _ _ _ => hterminal
      · split_ifs <;> exact fun _ _ _ => hterminal
    · split_ifs with hattached
      · refine ⟨hrecord, hmarked.trans hterminal.symm, ?_, ?_⟩
        · show (m.control.map _).isSome = m.cell.mailbox.terminate.isOwned
          rw [Option.isSome_map, hm.owned, hstill]
        · intro mailbox hcontrol
          obtain ⟨live, hlive', rfl⟩ := Option.map_eq_some_iff.mp hcontrol
          obtain ⟨hsealed, hphase⟩ := (hm.together live hlive').1.prepared
          exact ⟨hsealed, hphase.trans hterminal.symm⟩
      · refine ⟨hrecord, hmarked.trans hterminal.symm, hm.owned.trans hstill.symm, ?_⟩
        -- a slot that is neither attached nor terminal holds no mailbox
        intro mailbox hcontrol
        have hsome : m.control.isSome = true := by
          rw [show m.control = some mailbox from hcontrol]
          rfl
        rw [hm.owned] at hsome
        cases hb : m.cell.mailbox with
        | unattached =>
          rw [hb] at hsome
          cases hsome
        | attached => exact absurd hb hattached
        | terminal control =>
          rw [hb] at hslot
          cases hslot

theorem sealed_new (id : ChildId) : (MailboxSystem.new id : MailboxSystem M).Sealed := rfl

theorem Wf.attach (hm : m.Wf) {states : List (OwnedMember M)}
    (h : m.attachMailbox = some states) :
    (∀ m' ∈ states, m'.RecordFirst) ∧ (states.getLast?.getD m).Wf := by
  -- either way the section passes through its final state only
  suffices hfinal : ∃ m', states = [m'] ∧ m'.Wf by
    obtain ⟨m', rfl, hwf⟩ := hfinal
    refine ⟨?_, hwf⟩
    intro m'' hmem
    rw [List.mem_singleton.mp hmem]
    exact hwf.recordFirst
  unfold attachMailbox at h
  split at h
  · next hslot =>
      have hstage : m.stage.isTerminal = false := by
        rw [← hm.slot, hslot]
        rfl
      cases h
      refine ⟨_, rfl, hm.record, hstage.symm, rfl, ?_⟩
      rintro mailbox ⟨⟩
      exact ⟨sealed_new _, hstage.symm⟩
  · cases h
  · cases h
  · next hslot =>
      have hstage : m.stage.isTerminal = true := by
        rw [← hm.slot, hslot]
        rfl
      cases h
      refine ⟨_, rfl, hm.record, hstage.symm, rfl, ?_⟩
      rintro mailbox ⟨⟩
      obtain ⟨hsealed, hphase⟩ := (sealed_new (M := M) m.cell.id).prepared
      exact ⟨hsealed, hphase.trans hstage.symm⟩

end OwnedMember

/-- **One section keeps record, slot and mailbox in step**, and no state it
passes through has the mailbox terminal ahead of the record. -/
theorem MemberStep.stages_wf {m : OwnedMember M} (hm : m.Wf) {step : MemberStep M}
    {output : MemberOutput} {states : List (OwnedMember M)}
    (h : step.stages m = some (output, states)) :
    (∀ m' ∈ states, m'.RecordFirst) ∧ (states.getLast?.getD m).Wf := by
  cases step with
  | advance transition =>
    cases h
    refine ⟨?_, hm.advance transition⟩
    intro m' hmem
    rw [List.mem_singleton.mp hmem]
    exact (hm.advance transition).recordFirst
  | terminalize exit startup =>
    cases h
    exact hm.terminalize exit startup
  | attachMailbox =>
    simp only [stages] at h
    split at h
    · next hattach =>
        cases h
        exact hm.attach hattach
    · cases h
      exact ⟨by rintro _ ⟨⟩, hm⟩
  | mailbox step =>
    simp only [stages] at h
    split at h
    · cases h
    · next control hcontrol =>
        split_ifs at h with hstep
        obtain ⟨⟨control', output'⟩, happly, heq⟩ := Option.map_eq_some_iff.mp h
        cases heq
        obtain ⟨hsealed, hphase⟩ := hm.together control hcontrol
        have hsealed' := hsealed.use happly
        have hwf : ({ m with control := some control' } : OwnedMember M).Wf := by
          refine ⟨hm.record, hm.slot, ?_, ?_⟩
          · rw [← hm.owned, hcontrol]
            rfl
          · rintro mailbox ⟨⟩
            refine ⟨hsealed', ?_⟩
            rw [hsealed', MailboxSystem.teardown_of_use (by simpa using hstep) happly, ← hsealed]
            exact hphase
        refine ⟨?_, hwf⟩
        intro m' hmem
        rw [List.mem_singleton.mp hmem]
        exact hwf.recordFirst

/-! ### Runs -/

/-- The step is a terminalization. -/
def MemberStep.isTerminalize : MemberStep M → Bool
  | .terminalize _ _ => true
  | _ => false

section Edges

variable {e : MemberEdge M}

/-- An edge runs the states of its section to the last one. -/
theorem stages_of_edge (he : stepEdge MemberStep.apply e) :
    ∃ states, e.input.stages e.before = some (e.output, states) ∧
      e.after = states.getLast?.getD e.before := by
  obtain ⟨⟨output, states⟩, hstages, heq⟩ := Option.map_eq_some_iff.mp he
  obtain ⟨hafter, houtput⟩ := Prod.mk.inj heq
  exact ⟨states, houtput ▸ hstages, hafter.symm⟩

theorem member_wf_of_edge (he : stepEdge MemberStep.apply e)
    (hwf : e.before.Wf) : e.after.Wf := by
  obtain ⟨states, hstages, hafter⟩ := stages_of_edge he
  rw [hafter]
  exact (MemberStep.stages_wf hwf hstages).2

/-- A terminalizer loses to a stored exit and wins otherwise. -/
theorem terminalize_edge (he : stepEdge MemberStep.apply e)
    (hwf : e.before.Wf) {exit : Exit} {startup : StartupDisposition}
    (hinput : e.input = .terminalize exit startup) :
    (∃ winner, e.before.stage = .terminal winner ∧ e.output = .terminalized winner ∧
        e.after = e.before) ∨
      e.before.stage.isTerminal = false ∧ e.output = .terminalized exit ∧
        e.after.stage = .terminal exit := by
  obtain ⟨states, hstages, hafter⟩ := stages_of_edge he
  rw [hinput] at hstages
  obtain ⟨houtput, hstates⟩ := Prod.mk.inj (Option.some.inj hstages)
  rcases e.before.terminalizeLocked_cases exit startup with
    ⟨control, winner, -, hstage, howned, -⟩ | ⟨hlive, howned, -⟩
  · rw [howned] at houtput hstates
    rw [← hstates] at hafter
    exact .inl ⟨winner, hstage, houtput.symm, hafter⟩
  · have hnot : e.before.stage.isTerminal = false := by
      have hslot := hwf.slot
      cases hs : e.before.stage with
      | terminal winner =>
        cases hb : e.before.cell.mailbox <;> rw [hb, hs] at hslot <;> try cases hslot
        exact absurd ⟨_, _, hb, hs⟩ hlive
      | _ => rfl
    rw [howned] at houtput hstates
    rw [← hstates] at hafter
    refine .inr ⟨hnot, houtput.symm, ?_⟩
    have hstored : (e.before.markTerminal.storeTerminal exit startup).stage = .terminal exit :=
      MemberRecord.terminalize_stage hnot exit startup
    rw [hafter]
    split_ifs
    · exact hstored
    · exact hstored

/-- Every other section leaves a terminal stage alone and makes none. -/
theorem stage_of_edge (he : stepEdge MemberStep.apply e)
    (hwf : e.before.Wf) (hinput : e.input.isTerminalize = false) :
    e.after.stage.isTerminal = e.before.stage.isTerminal ∧
      (e.before.stage.isTerminal = true → e.after.stage = e.before.stage) := by
  obtain ⟨m, step, output, m'⟩ := e
  obtain ⟨states, hstages, hafter⟩ := stages_of_edge he
  replace hstages : step.stages m = some (output, states) := hstages
  replace hafter : m' = states.getLast?.getD m := hafter
  cases step with
  | terminalize exit startup => cases hinput
  | advance transition =>
    cases hstages
    subst hafter
    rcases m.cell.transitionLocked_cases transition with ⟨-, record, happly, heq⟩ | ⟨-, heq⟩
    · obtain ⟨-, hbefore, hlater⟩ := hwf.record.transition happly
      simp only [heq]
      refine ⟨hlater.trans hbefore.symm, fun habs => ?_⟩
      exact absurd (habs.symm.trans hbefore) (by decide)
    · simp only [heq]
      exact ⟨rfl, fun _ => rfl⟩
  | attachMailbox =>
    have hrecord : m'.cell.record = m.cell.record := by
      simp only [MemberStep.stages] at hstages
      split at hstages
      · next hattach =>
          cases hstages
          subst hafter
          unfold OwnedMember.attachMailbox at hattach
          split at hattach <;> first | cases hattach; rfl | cases hattach
      · cases hstages
        subst hafter
        rfl
    show m'.cell.record.stage.isTerminal = _ ∧ (_ → m'.cell.record.stage = _)
    rw [hrecord]
    exact ⟨rfl, fun _ => rfl⟩
  | mailbox step =>
    simp only [MemberStep.stages] at hstages
    split at hstages
    · cases hstages
    · split_ifs at hstages
      obtain ⟨result, -, heq⟩ := Option.map_eq_some_iff.mp hstages
      cases heq
      subst hafter
      exact ⟨rfl, fun _ => rfl⟩

/-- A stored exit is never replaced. -/
theorem terminal_absorbing (he : stepEdge MemberStep.apply e)
    (hwf : e.before.Wf) {exit : Exit} (hstage : e.before.stage = .terminal exit) :
    e.after.stage = .terminal exit := by
  have hterminal : e.before.stage.isTerminal = true := by rw [hstage]; rfl
  cases hinput : e.input with
  | terminalize other startup =>
    rcases terminalize_edge he hwf hinput with ⟨winner, -, -, hsame⟩ | ⟨hnot, -⟩
    · rw [hsame]
      exact hstage
    · rw [hnot] at hterminal
      cases hterminal
  | _ => exact ((stage_of_edge he hwf (by rw [hinput]; rfl)).2 hterminal).trans hstage

end Edges

section Runs

variable {tr : List (MemberEdge M)} {m n : OwnedMember M}

theorem member_wf_of_run (h : Run (stepEdge MemberStep.apply) n tr m)
    (hn : n.Wf) : m.Wf :=
  h.invariant hn fun _ he _ => member_wf_of_edge he

/-- After the first terminalizer, its exit is stored and every later one gets it
back. -/
theorem winner_kept (h : Run (stepEdge MemberStep.apply) n tr m)
    (hn : n.Wf) {exit : Exit} (hstage : n.stage = .terminal exit) :
    m.stage = .terminal exit ∧
      ∀ e ∈ tr, e.input.isTerminalize = true → e.output = .terminalized exit := by
  have hkept : ∀ {tr m}, Run (stepEdge MemberStep.apply) n tr m →
      m.Wf ∧ m.stage = .terminal exit := by
    intro tr m h
    refine h.invariant ⟨hn, hstage⟩ ?_
    rintro e he - ⟨hwf, hs⟩
    exact ⟨member_wf_of_edge he hwf, terminal_absorbing he hwf hs⟩
  refine ⟨(hkept h).2, ?_⟩
  intro e hmem hinput
  obtain ⟨pre, post, rfl, hpre, he, -⟩ := h.mem_split hmem
  have hbefore := hkept hpre
  cases hstep : e.input with
  | terminalize other startup =>
    rcases terminalize_edge he hbefore.1 hstep with ⟨winner, hs, houtput, -⟩ | ⟨hnot, -⟩
    · rw [hbefore.2] at hs
      cases hs
      exact houtput
    · rw [hbefore.2] at hnot
      cases hnot
  | _ =>
    rw [hstep] at hinput
    cases hinput

/-- Before the first terminalizer the member is not terminal. -/
theorem live_of_run (h : Run (stepEdge MemberStep.apply) n tr m)
    (hn : n.Wf) (hlive : n.stage.isTerminal = false)
    (htr : ∀ e ∈ tr, e.input.isTerminalize = false) : m.stage.isTerminal = false := by
  have hkept : m.Wf ∧ m.stage.isTerminal = false := by
    refine h.invariant ⟨hn, hlive⟩ ?_
    rintro e he hmem ⟨hwf, hs⟩
    exact ⟨member_wf_of_edge he hwf, (stage_of_edge he hwf (htr e hmem)).1.trans hs⟩
  exact hkept.2

end Runs

/-- **Member terminality and its mailbox.**  `terminal` is absorbing and the
first terminalizer's exit is the one every later one gets back; the record names
an incarnation only while it runs and a restart time only while one is awaited;
a refused transition changes nothing; the mailbox is terminal exactly with the
record, and inside no section ahead of it. -/
theorem member_terminality {id : ChildId} {membership : Membership} {tr : List (MemberEdge M)}
    {m : OwnedMember M} (hrun : MemberRun id membership tr m) :
    (∀ e ∈ tr, ∀ exit, e.before.stage = .terminal exit → e.after.stage = .terminal exit) ∧
    (∀ pre e post exit startup, tr = pre ++ e :: post → e.input = .terminalize exit startup →
      (∀ f ∈ pre, f.input.isTerminalize = false) →
        e.output = .terminalized exit ∧ m.stage = .terminal exit ∧
          ∀ f ∈ post, f.input.isTerminalize = true → f.output = .terminalized exit) ∧
    (∀ i, m.cell.record.incarnation = some i →
      (m.stage = .starting ∨ m.stage = .running ∨ m.stage = .stopping) ∧
        m.cell.record.lastIncarnation = some i) ∧
    (m.cell.record.restartAt.isSome = true → m.stage = .restarting) ∧
    (∀ e ∈ tr, ∀ transition, e.input = .advance transition →
      e.output = .accepted (transition.isLegalFrom e.before.stage) ∧
        (e.output = .accepted false → e.after = e.before)) ∧
    (∀ mailbox, m.control = some mailbox →
      (mailbox.cell.state.phase.isTerminal = true ↔ m.stage.isTerminal = true)) ∧
    (∀ e ∈ tr, ∀ output states, e.input.stages e.before = some (output, states) →
      ∀ m' ∈ states, ∀ mailbox, m'.control = some mailbox →
        mailbox.cell.state.phase.isTerminal = true → m'.stage.isTerminal = true) := by
  have hnew : (OwnedMember.new id membership : OwnedMember M).Wf := OwnedMember.wf_new id membership
  have hwf := member_wf_of_run hrun hnew
  refine ⟨?_, ?_, hwf.record.incarnation, hwf.record.restartAt, ?_, ?_, ?_⟩
  · intro e hmem exit hstage
    obtain ⟨pre, post, -, hpre, he, -⟩ := hrun.mem_split hmem
    exact terminal_absorbing he (member_wf_of_run hpre hnew) hstage
  · rintro pre e post exit startup rfl hinput hfirst
    obtain ⟨hpre, he, hpost⟩ := hrun.split_at
    have hbefore := member_wf_of_run hpre hnew
    have hlive := live_of_run hpre hnew rfl hfirst
    rcases terminalize_edge he hbefore hinput with ⟨winner, hs, -⟩ | ⟨-, houtput, hstage⟩
    · rw [hs] at hlive
      cases hlive
    · exact ⟨houtput, winner_kept hpost (member_wf_of_edge he hbefore) hstage⟩
  · intro e hmem transition hinput
    obtain ⟨m, step, output, m'⟩ := e
    obtain ⟨states, hstages, hafter⟩ := stages_of_edge (hrun.edge_of_mem hmem)
    obtain rfl : step = .advance transition := hinput
    obtain ⟨hout, rfl⟩ := Prod.mk.inj (Option.some.inj hstages)
    replace hout : .accepted (m.cell.transitionLocked transition).1 = output := hout
    replace hafter : m' = { m with cell := (m.cell.transitionLocked transition).2 } := hafter
    subst hout
    rcases m.cell.transitionLocked_cases transition with ⟨hlegal, record, -, heq⟩ | ⟨hlegal, heq⟩
    · refine ⟨by simp only [heq, OwnedMember.stage, hlegal], fun hrefused => ?_⟩
      simp only [heq] at hrefused
      cases hrefused
    · refine ⟨by simp only [heq, OwnedMember.stage, hlegal], fun _ => ?_⟩
      rw [hafter, heq]
  · intro mailbox hcontrol
    rw [(hwf.together mailbox hcontrol).2]
  · intro e hmem output states hstages m' hm'
    obtain ⟨pre, post, -, hpre, -, -⟩ := hrun.mem_split hmem
    exact (MemberStep.stages_wf (member_wf_of_run hpre hnew) hstages).1 m' hm'

/-- A child starts twice with a mailbox, a parked sender waits, two terminalizers
compete and a late start and a second mailbox are refused. -/
def memberSteps : List (MemberStep ℕ) :=
  [.advance .admitted, .attachMailbox, .advance (.starting (sampleIncarnation 1)),
    .mailbox (.submit 7), .advance .running,
    .advance (.restartScheduled (.completed .observed) ⟨1⟩ (some 9)),
    .advance (.starting (sampleIncarnation 2)), .terminalize .neverStarted .aborted,
    .advance .running, .terminalize (.completed .observed) .notAborted, .attachMailbox]

theorem member_terminality_raced :
    ∃ (tr : List (MemberEdge ℕ)) (m : OwnedMember ℕ), MemberRun ⟨"actor"⟩ ⟨1, 1⟩ tr m ∧
      tr.map Edge.output = [.accepted true, .done, .accepted true, .done, .accepted true,
        .accepted true, .accepted true, .terminalized .neverStarted, .accepted false,
        .terminalized .neverStarted, .panicked "a member can own only one mailbox"] ∧
      m.stage = .terminal .neverStarted ∧
      ∀ mailbox, m.control = some mailbox → mailbox.cell.state.phase.isTerminal = true := by
  have hexec : ∃ (tr : List (MemberEdge ℕ)) (m : OwnedMember ℕ),
      exec (fun m step => MemberStep.apply m step) (.new ⟨"actor"⟩ ⟨1, 1⟩) memberSteps =
        some (tr, m) ∧
      tr.map Edge.output = [.accepted true, .done, .accepted true, .done, .accepted true,
        .accepted true, .accepted true, .terminalized .neverStarted, .accepted false,
        .terminalized .neverStarted, .panicked "a member can own only one mailbox"] ∧
      m.stage = .terminal .neverStarted := ⟨_, _, rfl, rfl, rfl⟩
  obtain ⟨tr, m, hrun, houtputs, hstage⟩ := hexec
  have hfacts := member_terminality (run_of_exec _ hrun)
  refine ⟨tr, m, run_of_exec _ hrun, houtputs, hstage, ?_⟩
  intro mailbox hcontrol
  refine (hfacts.2.2.2.2.2.1 mailbox hcontrol).mpr ?_
  rw [hstage]
  rfl

end Shelterwood
