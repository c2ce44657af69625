/-
Shelterwood/ScopeProjection.lean

The epoch plane and the published state agree.

The two planes are written by different owners: the live driver publishes its
lifecycle, a stale driver finishes an epoch that is no longer its own, the
parent terminalizes the membership, and a never-started body is closed from
outside.  A stop publication may also decline to write.  Nevertheless an idle
plane always pairs with an unstarted or stopped record, and a live one with
neither, as long as every publication is made by the owner of its plane:
lifecycle states while an epoch is live, never-started verdicts while none is.

Two things rest on the pairing.  A begin finds an idle projection exactly when
no epoch is live, so its assertion tells a second simultaneous begin from every
other; and a shutdown wait released through terminal membership is never
released under a live incarnation.
-/
import Shelterwood.ShutdownRequests

namespace Shelterwood

/-! ### Ownership -/

/-- The publication is made by the owner of the plane it belongs to: lifecycle
states while an epoch is live, never-started and root stop verdicts while none
is. -/
def owned (e : ScopeEdge) : Bool :=
  match e.input with
  | .setStateAndStartup state _ => e.before.control.epochs.liveEpoch.isSome && !state.isIdle
  | .publishDrain _ => e.before.control.epochs.liveEpoch.isSome
  | .publishRootStopped _ _ => e.before.control.epochs.liveEpoch.isNone
  | .terminalizeNeverStarted => e.before.control.epochs.liveEpoch.isNone
  | .terminalizeChild _ _ _ =>
    e.before.member.record.lastIncarnation.isSome || e.before.control.epochs.liveEpoch.isNone
  | _ => true

/-- An idle plane pairs with an idle projection, a live one with a lifecycle
state. -/
def ScopeCell.Agrees (s : ScopeCell) : Prop :=
  s.control.epochs.liveEpoch = none ↔ s.record.state.isIdle = true

namespace ScopeCell

variable {s s' : ScopeCell}

theorem Agrees.of_same (h : s.Agrees) (hlive : s'.control.epochs.liveEpoch = none ↔
    s.control.epochs.liveEpoch = none) (hstate : s'.record.state = s.record.state) :
    s'.Agrees := by
  rw [Agrees, hlive, hstate]
  exact h

theorem Agrees.of_stopped (hidle : s.control.epochs.liveEpoch = none)
    (hstopped : s.record.state.isStopped = true) : s.Agrees :=
  iff_of_true hidle (ScopeState.isIdle_of_isStopped hstopped)

theorem Agrees.of_lifecycle (hlive : s.control.epochs.liveEpoch ≠ none)
    (hstate : s.record.state.isIdle = false) : s.Agrees :=
  iff_of_false hlive (by simp [hstate])

/-- Closing the streams touches neither plane. -/
theorem Agrees.close (h : s.Agrees) (closes : Bool) :
    (if closes then s.closeObservationLocked else s).Agrees := by
  split_ifs
  · exact h.of_same Iff.rfl rfl
  · exact h

/-- A finish either ends the live epoch and stops the record, or leaves both
planes alone. -/
theorem Agrees.finish (h : s.Agrees) (epoch : Epoch) (reason : StopReason) (exit : Option Exit) :
    (s.finishIncarnationWithTerminal epoch reason exit).Agrees := by
  unfold finishIncarnationWithTerminal
  -- even a suppressed verdict leaves a stopped record
  rcases s.control.epochs.finish_cases epoch with ⟨-, heq⟩ | ⟨-, heq⟩
  · simp only [heq]
    refine .close (.of_stopped ?_ (publishStoppedLocked_isStopped _ reason exit)) _
    simp [ScopeEpochs.liveEpoch]
  · simp only [heq]
    cases exit with
    | none => exact h
    | some exit => exact h.of_same Iff.rfl rfl

theorem Agrees.terminalizeNeverStarted (h : s.Agrees)
    (hidle : s.control.epochs.liveEpoch = none) : s.terminalizeNeverStarted.Agrees := by
  unfold ScopeCell.terminalizeNeverStarted
  split_ifs
  · exact h
  · refine .of_stopped ?_ (publishStoppedLocked_isStopped _ .neverStarted none)
    simpa [closeObservationLocked, terminalizeMember] using hidle

/-- The fallback of a never-started body writes only over an unstarted record,
which already says that no epoch is live. -/
theorem Agrees.closeNeverStartedBody (h : s.Agrees) : s.closeNeverStartedBody.Agrees := by
  have hpublished : (if s.record.state = .unstarted then
      s.publishStoppedLocked .neverStarted none else s).Agrees := by
    split_ifs with hunstarted
    · refine .of_stopped ?_ (publishStoppedLocked_isStopped _ .neverStarted none)
      rw [publishStoppedLocked_control]
      exact h.mpr (by rw [hunstarted]; rfl)
    · exact h
  unfold ScopeCell.closeNeverStartedBody
  split
  · exact h
  · exact hpublished.close _

theorem Agrees.terminalizeChild {resident terminalized : Bool} {exit : Exit}
    {startup : StartupDisposition} (h : s.Agrees)
    (hidle : s.member.record.lastIncarnation = none → s.control.epochs.liveEpoch = none)
    (hok : s.terminalizeChild resident exit startup = .ok (terminalized, s')) : s'.Agrees := by
  have hpublished : (if s.member.record.lastIncarnation.isNone then
      (s.terminalizeMember exit startup).publishStoppedLocked .neverStarted none
      else s.terminalizeMember exit startup).Agrees := by
    split_ifs with hnever
    · refine .of_stopped ?_ (publishStoppedLocked_isStopped _ .neverStarted none)
      rw [publishStoppedLocked_control]
      exact hidle (Option.isNone_iff_eq_none.mp hnever)
    · exact h.of_same Iff.rfl rfl
  unfold ScopeCell.terminalizeChild at hok
  split at hok
  · cases hok
    exact h
  · split at hok
    · cases hok
      exact hpublished.close _
    · cases hok

end ScopeCell

/-- **One gated section keeps the agreement**, whoever enters it, if its
publication is its owner's. -/
theorem agrees_of_edge {e : ScopeEdge}
    (he : stepEdge ScopeStep.apply e) (hinv : e.before.control.Inv)
    (howned : owned e = true) (h : e.before.Agrees) : e.after.Agrees := by
  cases scopeCall_of_edge he with
  | unwound s step message => exact h
  | begin ok =>
    rcases (ScopeCell.beginIncarnationInto_cases ok).2 with
      ⟨-, -, rfl⟩ | ⟨epoch, epochs, -, -, -, hlive, -, rfl⟩
    · exact h
    · exact .of_lifecycle (by simp [hlive]) rfl
  | finish s epoch reason exit => exact h.finish epoch reason exit
  | request ok =>
    obtain ⟨-, -, ⟨-, rfl⟩ | ⟨-, rfl⟩⟩ := ScopeCell.requestShutdown_cases ok
    · exact h.of_same Iff.rfl rfl
    · exact h
  | takeShutdown s epoch =>
    rcases s.takeRequest_cases .shutdown epoch with ⟨-, heq⟩ | heq
    · rw [heq]
      exact h.of_same Iff.rfl rfl
    · rw [heq]
      exact h
  | takeForce s epoch =>
    rcases s.takeRequest_cases .force epoch with ⟨-, heq⟩ | heq
    · rw [heq]
      exact h.of_same Iff.rfl rfl
    · rw [heq]
      exact h
  | force s epoch =>
    unfold ScopeCell.forceShutdown
    split_ifs
    · exact h.of_same Iff.rfl rfl
    · exact h
  | vacate ok =>
    rcases ScopeCell.vacatePendingShutdown_cases ok with ⟨-, -, hidle, -, rfl⟩ | ⟨-, rfl⟩
    · exact h.of_same (iff_of_true rfl hidle) rfl
    · exact h
  | @start s s' incarnation restartStopped started ok =>
    obtain ⟨started', s'', hok, hrecord, -, hcases⟩ := hinv.start incarnation restartStopped
    cases hok.symm.trans ok
    rcases hcases with ⟨-, hcontrol⟩ | ⟨target, hpending, ⟨-, -, rfl⟩ | ⟨-, hcontrol⟩⟩
    · exact h.of_same (by rw [hcontrol]) (by rw [hrecord])
    · exact h
    · -- the request spent was pending, so the plane was and stays idle
      have hidle : s.control.epochs.liveEpoch = none := (hinv.pending hpending).2.1
      refine h.of_same (iff_of_true ?_ hidle) (by rw [hrecord])
      rw [hcontrol]
      rfl
  | setStartup s startup =>
    obtain ⟨hcontrol, hstate, -⟩ := s.setStartupLocked_fields startup
    exact h.of_same (by rw [hcontrol]) hstate
  | setState ok =>
    obtain ⟨hcontrol, hstate, -⟩ := ScopeCell.setStateAndStartup_eq_ok ok
    simp only [owned, Bool.and_eq_true, Bool.not_eq_true'] at howned
    refine .of_lifecycle ?_ (by rw [hstate]; exact howned.2)
    rw [hcontrol]
    exact Option.isSome_iff_ne_none.mp howned.1
  | drain ok =>
    obtain ⟨hcontrol, hstate, -⟩ := ScopeCell.publishDrain_eq_ok ok
    refine .of_lifecycle ?_ (by rw [hstate]; rfl)
    rw [hcontrol]
    exact Option.isSome_iff_ne_none.mp howned
  | rootStopped s reason exit =>
    refine .of_stopped ?_ (s.publishStoppedLocked_isStopped reason (some exit))
    show (s.publishStoppedLocked reason (some exit)).control.epochs.liveEpoch = none
    rw [ScopeCell.publishStoppedLocked_control]
    exact Option.isNone_iff_eq_none.mp howned
  | neverStarted s => exact h.terminalizeNeverStarted (Option.isNone_iff_eq_none.mp howned)
  | closeBody s => exact h.closeNeverStartedBody
  | @terminalize s s' resident terminalized exit startup ok =>
    refine h.terminalizeChild (fun hnever => ?_) ok
    replace hnever : s.member.record.lastIncarnation = none := hnever
    simpa [owned, hnever] using howned
  | controlEvent | takeEvents => exact h.of_same Iff.rfl rfl

/-! ### Terminal membership -/

/-- What a gated section can do to the member. -/
inductive MemberMove (m : MemberCell) : MemberCell → Prop
  | kept : MemberMove m m
  | terminalized (exit : Exit) (startup : StartupDisposition) :
      MemberMove m (m.terminalizeLocked exit startup).2
  | transitioned (transition : MemberTransition) : MemberMove m (m.transitionLocked transition).2

theorem MemberMove.of_eq {m m' : MemberCell} (h : m' = m) : MemberMove m m' := by
  rw [h]
  exact .kept

/-- Terminal membership is final. -/
theorem MemberMove.isTerminal {m m' : MemberCell} (move : MemberMove m m')
    (h : m.record.stage.isTerminal = true) : m'.record.stage.isTerminal = true := by
  cases move with
  | kept => exact h
  | terminalized exit startup => exact m.terminalizeLocked_isTerminal exit startup
  | transitioned transition =>
    rw [MemberCell.transitionLocked_of_isTerminal transition h]
    exact h

theorem member_of_close (s : ScopeCell) (closes : Bool) :
    (if closes then s.closeObservationLocked else s).member = s.member := by
  cases closes <;> rfl

theorem memberMove_publishStopped {s : ScopeCell} {m : MemberCell} (hm : s.member = m)
    (reason : StopReason) (exit : Option Exit) :
    MemberMove m (s.publishStoppedLocked reason exit).member := by
  subst hm
  cases exit with
  | none => exact .of_eq (by simp)
  | some exit =>
    rw [ScopeCell.publishStoppedLocked_member_exit]
    exact .terminalized exit .unchanged

theorem memberMove_finish (s : ScopeCell) (epoch : Epoch) (reason : StopReason)
    (exit : Option Exit) :
    MemberMove s.member (s.finishIncarnationWithTerminal epoch reason exit).member := by
  unfold ScopeCell.finishIncarnationWithTerminal
  split
  · cases exit with
    | none => exact .kept
    | some exit => exact .terminalized exit .unchanged
  · simp only [member_of_close]
    refine memberMove_publishStopped ?_ reason exit
    rfl

theorem memberMove_terminalizeChild {s s' : ScopeCell} {resident terminalized : Bool} {exit : Exit}
    {startup : StartupDisposition}
    (ok : s.terminalizeChild resident exit startup = .ok (terminalized, s')) :
    MemberMove s.member s'.member := by
  unfold ScopeCell.terminalizeChild at ok
  split at ok
  · cases ok
    exact .kept
  · split at ok
    · cases ok
      rw [member_of_close]
      split_ifs
      · rw [ScopeCell.publishStoppedLocked_member]
        exact .terminalized exit startup
      · exact .terminalized exit startup
    · cases ok

theorem memberMove_of_edge {e : ScopeEdge}
    (he : stepEdge ScopeStep.apply e) (hinv : e.before.control.Inv) :
    MemberMove e.before.member e.after.member := by
  cases scopeCall_of_edge he with
  | unwound | controlEvent | takeEvents => exact .kept
  | begin ok =>
    rcases (ScopeCell.beginIncarnationInto_cases ok).2 with
      ⟨-, -, rfl⟩ | ⟨epoch, epochs, -, -, -, -, -, rfl⟩ <;> exact .kept
  | finish s epoch reason exit => exact memberMove_finish s epoch reason exit
  | request ok =>
    obtain ⟨-, -, ⟨-, rfl⟩ | ⟨-, rfl⟩⟩ := ScopeCell.requestShutdown_cases ok <;> exact .kept
  | takeShutdown s epoch =>
    rcases s.takeRequest_cases .shutdown epoch with ⟨-, heq⟩ | heq <;>
      exact .of_eq (by rw [heq])
  | takeForce s epoch =>
    rcases s.takeRequest_cases .force epoch with ⟨-, heq⟩ | heq <;> exact .of_eq (by rw [heq])
  | force s epoch =>
    refine .of_eq ?_
    simp only [ScopeCell.forceShutdown]
    split_ifs <;> rfl
  | vacate ok =>
    rcases ScopeCell.vacatePendingShutdown_cases ok with ⟨-, -, -, -, rfl⟩ | ⟨-, rfl⟩ <;>
      exact .kept
  | @start s s' incarnation restartStopped started ok =>
    obtain ⟨started', s'', hok, -, hmember, -⟩ := hinv.start incarnation restartStopped
    cases hok.symm.trans ok
    rcases hmember with heq | heq
    · exact .of_eq heq
    · rw [heq]
      exact .transitioned _
  | setStartup s startup => exact .of_eq (s.setStartupLocked_fields startup).2.2
  | setState ok => exact .of_eq (ScopeCell.setStateAndStartup_eq_ok ok).2.2
  | drain ok => exact .of_eq (ScopeCell.publishDrain_eq_ok ok).2.2
  | rootStopped s reason exit => exact memberMove_publishStopped rfl reason (some exit)
  | neverStarted s =>
    simp only [ScopeCell.terminalizeNeverStarted]
    split_ifs
    · exact .kept
    · simp only [ScopeCell.closeObservationLocked, ScopeCell.publishStoppedLocked_member]
      exact .terminalized .neverStarted .unchanged
  | closeBody s =>
    refine .of_eq ?_
    simp only [ScopeCell.closeNeverStartedBody, ScopeCell.closeObservationLocked]
    split_ifs <;> simp
  | terminalize ok => exact memberMove_terminalizeChild ok

/-! ### Runs -/

variable {member : MemberCell} {parent : Bool} {tr : List ScopeEdge} {s : ScopeCell}

/-- A cell some owned run reaches. -/
structure ScopeCell.Sound (s : ScopeCell) : Prop where
  inv : s.control.Inv
  agrees : s.Agrees

theorem ScopeCell.Sound.run {s₀ : ScopeCell} (h : s₀.Sound)
    (hrun : Run (stepEdge ScopeStep.apply) s₀ tr s)
    (howned : ∀ e ∈ tr, owned e = true) : s.Sound := by
  refine hrun.invariant h ?_
  intro e he hmem hbefore
  exact ⟨hbefore.inv.move (controlMove_of_edge he hbefore.inv),
    agrees_of_edge he hbefore.inv (howned e hmem) hbefore.agrees⟩

theorem ScopeCell.Sound.terminal_of_run {s₀ : ScopeCell} (h : s₀.Sound)
    (hrun : Run (stepEdge ScopeStep.apply) s₀ tr s)
    (hterminal : s₀.membershipTerminal = true) : s.membershipTerminal = true := by
  have hkept : s.control.Inv ∧ s.membershipTerminal = true := by
    refine hrun.invariant ⟨h.inv, hterminal⟩ ?_
    rintro e he _ ⟨hinv, hbefore⟩
    exact ⟨hinv.move (controlMove_of_edge he hinv), (memberMove_of_edge he hinv).isTerminal hbefore⟩
  exact hkept.2

theorem sound_of_run (hrun : ScopeRun member parent tr s)
    (howned : ∀ e ∈ tr, owned e = true) : s.Sound := by
  refine ScopeCell.Sound.run ⟨.new, ?_⟩ hrun howned
  exact iff_of_true rfl rfl

/-- A begin mints from an idle plane and panics on a live one. -/
theorem begin_of_sound {e : ScopeEdge}
    (he : stepEdge ScopeStep.apply e) (h : e.before.Sound)
    (hbegin : e.input = .beginIncarnation) :
    (e.before.control.epochs.liveEpoch = none →
        ∃ epoch, e.output = .begun (some epoch) ∧
          e.after.control.epochs.liveEpoch = some epoch) ∧
      (e.before.control.epochs.liveEpoch ≠ none → e.after = e.before ∧
        e.output = .panicked
          "an idle scope projection is Unstarted or Stopped before a fresh incarnation mints") := by
  obtain ⟨s, step, output, s'⟩ := e
  subst hbegin
  replace h : s.Sound := h
  replace he : ScopeStep.apply s .beginIncarnation = some (s', output) := he
  constructor
  · intro hlive
    replace hlive : s.control.epochs.liveEpoch = none := hlive
    have hidle := h.agrees.mp hlive
    cases hbegin : s.beginIncarnationInto .starting none with
    | error fault =>
      cases fault with
      | exhausted => simp [ScopeStep.apply, hbegin, ScopeStep.faulted] at he
      | panicked message =>
        have hbusy := (ScopeCell.beginIncarnationInto_eq_panicked_iff.mp hbegin).1
        rw [hidle] at hbusy
        cases hbusy
    | ok result =>
      obtain ⟨minted, begun⟩ := result
      simp only [ScopeStep.apply, hbegin] at he
      cases he
      rcases (ScopeCell.beginIncarnationInto_cases hbegin).2 with
        ⟨hbusy, -, -⟩ | ⟨epoch, epochs, -, rfl, -, hcurrent, -, rfl⟩
      · exact absurd hlive hbusy
      · exact ⟨epoch, rfl, hcurrent⟩
  · intro hlive
    have hbusy : s.record.state.isIdle = false :=
      Bool.eq_false_iff.mpr fun hidle => hlive (h.agrees.mpr hidle)
    have hbegin := ScopeCell.beginIncarnationInto_eq_panicked_iff.mpr ⟨hbusy, rfl⟩
    simp only [ScopeStep.apply, hbegin, ScopeStep.faulted, Option.some.injEq, Prod.mk.injEq] at he
    exact ⟨he.1.symm, he.2.symm⟩

/-- A shutdown wait released across three reads was released by the end of its
target, or by terminal membership over an idle plane. -/
theorem released_of_settled {s₁ s₂ s₃ : ScopeCell} {tr₁ tr₂ : List ScopeEdge} {T : Epoch}
    (h : s₁.Sound) (hrun₁ : Run (stepEdge ScopeStep.apply) s₁ tr₁ s₂)
    (hrun₂ : Run (stepEdge ScopeStep.apply) s₂ tr₂ s₃)
    (howned₁ : ∀ e ∈ tr₁, owned e = true) (howned₂ : ∀ e ∈ tr₂, owned e = true)
    (hsettled : ScopeCell.settledAcross s₁ s₂ s₃ (some T) = true) :
    s₁.control.epochs.finished T = true ∨
      s₃.membershipTerminal = true ∧ s₃.control.epochs.liveEpoch = none := by
  have h₂ := h.run hrun₁ howned₁
  have h₃ := h₂.run hrun₂ howned₂
  simp only [ScopeCell.settledAcross, Option.any_some, Bool.or_eq_true, Bool.and_eq_true]
    at hsettled
  -- terminal membership is final, so it still holds at the third read
  rcases hsettled with hfinished | ⟨hterminal, hjoined⟩
  · exact .inl hfinished
  · exact .inr ⟨h₂.terminal_of_run hrun₂ hterminal, h₃.agrees.mpr hjoined⟩

/-- **The epoch plane and the published state agree.**  After every step the
plane is idle exactly when the record is unstarted or stopped; a begin trips its
projection assertion exactly when an epoch is live, and mints otherwise; and a
shutdown wait is released only once its target ended, or once the membership is
terminal with no incarnation live, even when its three reads see the cell at
three moments. -/
theorem epoch_plane_agrees (hrun : ScopeRun member parent tr s)
    (howned : ∀ e ∈ tr, owned e = true) :
    (s.control.epochs.liveEpoch = none ↔
        s.record.state = .unstarted ∨ ∃ reason, s.record.state = .stopped reason) ∧
      (∀ e ∈ tr, e.input = .beginIncarnation →
        (e.before.control.epochs.liveEpoch = none →
          ∃ epoch, e.output = .begun (some epoch) ∧
            e.after.control.epochs.liveEpoch = some epoch) ∧
        (e.before.control.epochs.liveEpoch ≠ none → e.after = e.before ∧
          e.output = .panicked
            "an idle scope projection is Unstarted or Stopped before a fresh incarnation mints")) ∧
      (∀ T, s.settled (some T) = true → s.control.epochs.finished T = false →
        s.membershipTerminal = true ∧ s.control.epochs.liveEpoch = none) ∧
      (∀ T, s.settled (some T) = true → s.control.epochs.liveEpoch ≠ some T) ∧
      ∀ T tr₁ tr₂ s₂ s₃, Run (stepEdge fun s step => ScopeStep.apply s step) s tr₁ s₂ →
        Run (stepEdge fun s step => ScopeStep.apply s step) s₂ tr₂ s₃ →
        (∀ e ∈ tr₁ ++ tr₂, owned e = true) →
        ScopeCell.settledAcross s s₂ s₃ (some T) = true →
        s.control.epochs.finished T = false →
        s₃.membershipTerminal = true ∧ s₃.control.epochs.liveEpoch = none := by
  have hsound := sound_of_run hrun howned
  have hreleased : ∀ T, s.settled (some T) = true → s.control.epochs.finished T = true ∨
      s.membershipTerminal = true ∧ s.control.epochs.liveEpoch = none := by
    intro T hsettled
    exact released_of_settled hsound (.nil s) (.nil s) (by simp) (by simp) hsettled
  refine ⟨?_, ?_, ?_, ?_, ?_⟩
  · refine hsound.agrees.trans ?_
    cases s.record.state <;> simp [ScopeState.isIdle]
  · intro e he hbegin
    obtain ⟨pre, post, hsplit, hpre, hedge, -⟩ := hrun.mem_split he
    have hpreowned : ∀ a ∈ pre, owned a = true := by
      intro a ha
      exact howned a (by simp [hsplit, ha])
    exact begin_of_sound hedge (sound_of_run hpre hpreowned) hbegin
  · intro T hsettled hunfinished
    rcases hreleased T hsettled with hfinished | hterminal
    · simp [hunfinished] at hfinished
    · exact hterminal
  · intro T hsettled hlive
    rcases hreleased T hsettled with hfinished | ⟨-, hidle⟩
    · -- a live epoch is the one after those that ended
      have hcurrent := hsound.inv.plane T hlive
      rw [ScopeEpochs.finished_iff] at hfinished
      omega
    · rw [hidle] at hlive
      cases hlive
  · intro T tr₁ tr₂ s₂ s₃ hrun₁ hrun₂ hown hsettled hunfinished
    have hown₁ : ∀ e ∈ tr₁, owned e = true := fun e he => hown e (List.mem_append_left _ he)
    have hown₂ : ∀ e ∈ tr₂, owned e = true := fun e he => hown e (List.mem_append_right _ he)
    rcases released_of_settled hsound hrun₁ hrun₂ hown₁ hown₂ hsettled with hfinished | hterminal
    · simp [hunfinished] at hfinished
    · exact hterminal

/-- A nested scope whose membership the parent terminalizes under a live
incarnation, finished by its own epilogue and requested once more. -/
def terminalizedLive : List ScopeStep :=
  [.startScopeChild ⟨⟨1, 1⟩, 1⟩ false, .beginIncarnation,
    .setStateAndStartup .running (.ok ()), .requestShutdown, .publishDrain none,
    .terminalizeChild true (.completed .notObserved) .notAborted,
    .finishIncarnation .first .shutdownRequested none, .requestShutdown]

theorem epoch_plane_agrees_terminalizedLive :
    ∃ tr s, ScopeRun windowMember true tr s ∧ (∀ e ∈ tr, owned e = true) ∧
      ∃ T, s.settled (some T) = true ∧ s.control.epochs.finished T = false ∧
        s.membershipTerminal = true ∧ s.control.epochs.liveEpoch = none := by
  have hexec : ∃ tr s,
      exec (fun s step => ScopeStep.apply s step) (.new windowMember true) terminalizedLive =
        some (tr, s) ∧
      (∀ e ∈ tr, owned e = true) ∧
      s.settled (some ⟨2, by decide, by decide⟩) = true ∧
      s.control.epochs.finished ⟨2, by decide, by decide⟩ = false :=
    ⟨_, _, rfl, by decide, by decide, by decide⟩
  obtain ⟨tr, s, hrun, howned, hsettled, hunfinished⟩ := hexec
  have hagrees := epoch_plane_agrees (run_of_exec _ hrun) howned
  obtain ⟨hterminal, hidle⟩ := hagrees.2.2.1 _ hsettled hunfinished
  exact ⟨tr, s, run_of_exec _ hrun, howned, _, hsettled, hunfinished, hterminal, hidle⟩

/-- A second begin on a live plane does trip the projection assertion. -/
theorem begin_twice_panics :
    ∃ tr s, ScopeRun windowMember true tr s ∧ (∀ e ∈ tr, owned e = true) ∧
      ∃ e ∈ tr, e.input = .beginIncarnation ∧ e.output = .panicked
        "an idle scope projection is Unstarted or Stopped before a fresh incarnation mints" := by
  have hexec : ∃ tr s,
      exec (fun s step => ScopeStep.apply s step) (.new windowMember true)
        [.beginIncarnation, .beginIncarnation] = some (tr, s) ∧
      (∀ e ∈ tr, owned e = true) ∧
      ∃ e ∈ tr, e.input = .beginIncarnation ∧ e.output = .panicked
        "an idle scope projection is Unstarted or Stopped before a fresh incarnation mints" :=
    ⟨_, _, rfl, by decide, by decide⟩
  obtain ⟨tr, s, hrun, howned, htrips⟩ := hexec
  exact ⟨tr, s, run_of_exec _ hrun, howned, htrips⟩

end Shelterwood
