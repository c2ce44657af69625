/-
Shelterwood/TreeWriters.lean

Every stage and scope-state writer is a sequence of quiet moves without debt,
followed by at most one closure.

The child writers rely on their member being announced by no other scope: then
what they change is shown by their own scope and its ancestors, whose hubs they
publish.  A verdict that terminalizes a root without an emission relies on the
root being announced nowhere.
-/
import Shelterwood.TreeMoves

namespace Shelterwood

variable [TokioBroadcast LifecycleEvent]

/-- Quiet moves that leave no debt, then at most one closure. -/
def Wrote (txn txn' : ObservationTxn) : Prop :=
  ∃ t, TreeMoves true txn (fun _ => False) t ∧
    (txn' = t ∨ ∃ s ∈ t.forest.arena, txn' = t.closeObservation s)

theorem TreeMoves.wrote {txn t : ObservationTxn} (h : TreeMoves true txn (fun _ => False) t) :
    Wrote txn t := ⟨t, h, .inl rfl⟩

theorem TreeMoves.wrote_close {txn t : ObservationTxn}
    (h : TreeMoves true txn (fun _ => False) t) {s : Membership} (hs : s ∈ txn.forest.arena) :
    Wrote txn (t.closeObservation s) := ⟨t, h, .inr ⟨s, h.arena ▸ hs, rfl⟩⟩

namespace Forest

theorem WellLinked.eq_of_childOf {f : Forest} (hf : f.WellLinked) {s m p : Membership}
    (h : f.childOf s m = true) (hp : m ∈ f.announcedChildren p) : p = s := by
  have hscope := hf.owner p m (mem_residents_of_announced hp)
  have hall := List.all_eq_true.1 h p hscope
  simpa [hp] using hall

theorem WellLinked.not_announced_of_isRoot {f : Forest} (hf : f.WellLinked) {m : Membership}
    (h : f.isRoot m = true) (p : Membership) : m ∉ f.announcedChildren p := by
  intro hp
  have hscope := hf.owner p m (mem_residents_of_announced hp)
  have hall := List.all_eq_true.1 h p hscope
  simp [hp] at hall

end Forest

namespace TreeMoves

variable {txn t : ObservationTxn} {D : Membership → Prop}

variable {s : Membership}

/-- An edited chain is published by the emission that follows. -/
theorem emit_chain (h : TreeMoves true txn (fun x => D x ∨ x ∈ txn.forest.chain s) t)
    (hf : txn.forest.WellLinked) (hscope : s ∈ txn.forest.arena) {kind : LifecycleEventKind}
    (hkind : kind.isResidency = false) : TreeMoves true txn D (t.emit s kind) := by
  refine .emit s kind h (by rwa [h.arena]) (fun _ => hkind) ?_
  intro x hx hchain
  rw [(h.sameShape hf).chain] at hchain
  exact hx.resolve_right hchain

theorem publish_chain (h : TreeMoves true txn (fun x => D x ∨ x ∈ txn.forest.chain s) t)
    (hf : txn.forest.WellLinked) : TreeMoves true txn D (t.publishChain s) := by
  refine h.publishChain s ?_
  intro x hx hchain
  rw [(h.sameShape hf).chain] at hchain
  exact hx.resolve_right hchain

/-- An edit of a scope's own cell, in terms of the chains at the start. -/
theorem ownScope (hf : txn.forest.WellLinked) (h : TreeMoves true txn D t)
    (hscope : s ∈ txn.forest.arena) {scope : ScopeCell}
    (hkeeps : (t.forest.cells s).scope.Keeps scope) :
    TreeMoves true txn (fun x => D x ∨ x ∈ txn.forest.chain s) (t.setScope s scope) := by
  rw [← (h.sameShape hf).chain]
  exact h.editScope hf (by rwa [h.arena]) hkeeps

/-- An edit of a child's record, in terms of the chains at the start. -/
theorem childMember (hf : txn.forest.WellLinked) (h : TreeMoves true txn D t) {m : Membership}
    (hchild : ∀ p, m ∈ txn.forest.announcedChildren p → p = s) {scope : ScopeCell}
    (hkeeps : (t.forest.cells m).scope.Keeps scope)
    (hrecord : scope.record = (t.forest.cells m).scope.record) :
    TreeMoves true txn (fun x => D x ∨ x ∈ txn.forest.chain s) (t.setScope m scope) := by
  rw [← (h.sameShape hf).chain]
  refine h.editMember hf ?_ hkeeps hrecord
  intro p hp
  rw [(h.sameShape hf).announcedChildren] at hp
  exact hchild p hp

/-- A stop verdict.  Its member edge is only taken for a membership that is
announced nowhere. -/
theorem publishStopped (hf : txn.forest.WellLinked) (h : TreeMoves true txn D t)
    (hscope : s ∈ txn.forest.arena) (reason : StopReason) {terminalExit : Option Exit}
    (hexit : terminalExit = none ∨ ∀ p, s ∉ txn.forest.announcedChildren p) :
    TreeMoves true txn D (t.publishStopped s reason terminalExit) := by
  have hkeeps := (t.forest.cells s).scope.keeps_publishStopped reason terminalExit
  unfold ObservationTxn.publishStopped
  by_cases hsuppressed : (t.forest.cells s).scope.stopSuppressed reason = true
  · simp only [hsuppressed, if_true]
    rcases hexit with rfl | hroot
    · rw [ScopeCell.publishStoppedLocked_of_suppressed _ _ hsuppressed]
      exact h.editControl hf rfl rfl rfl
    · refine h.editUnannounced hf ?_ hkeeps
        (ScopeCell.publishStoppedLocked_record _ _ _ hsuppressed)
      intro p
      rw [(h.sameShape hf).announcedChildren]
      exact hroot p
  · simp only [hsuppressed, Bool.false_eq_true, if_false]
    exact (h.ownScope hf hscope hkeeps).emit_chain hf hscope rfl

end TreeMoves

/-! ### The writers -/

namespace ObservationTxn

variable {txn : ObservationTxn} (hf : txn.forest.WellLinked)
include hf

variable {m s : Membership}

theorem setMember_moves (hchild : ∀ p, m ∈ txn.forest.announcedChildren p → p = s)
    (transition : MemberTransition) :
    TreeMoves true txn (fun x => False ∨ x ∈ txn.forest.chain s)
      (txn.setMember m ((txn.forest.member m).transitionLocked transition).2) :=
  TreeMoves.start.childMember hf hchild
    ((txn.forest.cells m).scope.keeps_transition transition) rfl

theorem transitionChildStage_moves (hscope : s ∈ txn.forest.arena)
    (hchild : ∀ p, m ∈ txn.forest.announcedChildren p → p = s) (transition : MemberTransition)
    {event : Option LifecycleEventKind} (hevent : ∀ kind ∈ event, kind.isResidency = false) :
    TreeMoves true txn (fun _ => False) (txn.transitionChildStage s m transition event).2 := by
  have hmoved := setMember_moves hf hchild transition
  unfold transitionChildStage
  split
  · exact .start
  · next member heq =>
      rw [heq] at hmoved
      cases event with
      | none => exact hmoved.publish_chain hf
      | some kind => exact hmoved.emit_chain hf hscope (hevent kind rfl)

variable {txn' : ObservationTxn}

theorem startScopeChild_moves {c : Membership} (hscope : s ∈ txn.forest.arena)
    (hchild : ∀ p, c ∈ txn.forest.announcedChildren p → p = s) {incarnation : Incarnation}
    {restartStopped started : Bool}
    (h : txn.startScopeChild s c incarnation restartStopped = .ok (started, txn')) :
    TreeMoves true txn (fun _ => False) txn' := by
  unfold startScopeChild at h
  split at h
  · cases h
  · next started' scope hstart =>
      obtain ⟨hkeeps, hrecord, hrefused⟩ := ScopeCell.keeps_startScopeChild hstart
      by_cases hstarted : started' = some true
      · rw [if_pos hstarted] at h
        cases h
        exact (TreeMoves.start.childMember hf hchild hkeeps hrecord).emit_chain hf hscope rfl
      · rw [if_neg hstarted] at h
        cases h
        exact TreeMoves.start.editControl hf (hrefused hstarted) hrecord hkeeps.closed

theorem publishChildRestart_moves (hscope : s ∈ txn.forest.arena)
    (hchild : ∀ p, m ∈ txn.forest.announcedChildren p → p = s) (totalRestarts : TotalRestarts)
    (transition : MemberTransition) {exited scheduled : LifecycleEventKind}
    (hexited : exited.isResidency = false) (hscheduled : scheduled.isResidency = false) :
    TreeMoves true txn (fun _ => False)
      (txn.publishChildRestart s m totalRestarts transition exited scheduled).2 := by
  have hmoved := setMember_moves hf hchild transition
  unfold publishChildRestart
  split
  · exact .start
  · next member heq =>
      rw [heq] at hmoved
      show TreeMoves true txn (fun _ => False)
        ((((txn.setMember m _).setScope s _).emit s exited).emit s scheduled)
      generalize txn.setMember m member = moved at hmoved ⊢
      have hcharged : (moved.forest.cells s).scope.Keeps
          { (moved.forest.cells s).scope with
            record := { (moved.forest.cells s).scope.record with totalRestarts } } :=
        ScopeCell.keeps_of_member rfl rfl
      have hexitedMoves := (hmoved.ownScope hf hscope hcharged).emit_chain hf hscope hexited
      exact hexitedMoves.emit_chain hf hscope hscheduled

theorem setStateAndStartup_moves (hscope : s ∈ txn.forest.arena) {state : ScopeState}
    {startup : Except StartupError Unit} (h : txn.setStateAndStartup s state startup = .ok txn') :
    TreeMoves true txn (fun _ => False) txn' := by
  unfold setStateAndStartup at h
  split at h
  · cases h
  · next scope hset =>
      cases h
      exact (TreeMoves.start.ownScope hf hscope
        (ScopeCell.keeps_setStateAndStartup hset)).emit_chain hf hscope rfl

theorem publishDrain_moves (hscope : s ∈ txn.forest.arena)
    {startup : Option (Except StartupError Unit)} (h : txn.publishDrain s startup = .ok txn') :
    TreeMoves true txn (fun _ => False) txn' := by
  unfold publishDrain at h
  split at h
  · cases h
  · next scope hset =>
      cases h
      exact (TreeMoves.start.ownScope hf hscope
        (ScopeCell.keeps_publishDrain hset)).emit_chain hf hscope rfl

theorem beginIncarnationInto_moves (hscope : s ∈ txn.forest.arena) {epoch : Option Epoch}
    (h : txn.beginIncarnationInto s = .ok (epoch, txn')) :
    TreeMoves true txn (fun _ => False) txn' := by
  unfold beginIncarnationInto at h
  split at h
  · cases h
  · cases h
    exact .start
  · next epoch scope hbegin =>
      cases h
      exact (TreeMoves.start.ownScope hf hscope
        (ScopeCell.keeps_beginIncarnation hbegin)).emit_chain hf hscope rfl

theorem setIntensity_moves (hscope : s ∈ txn.forest.arena) (intensity : Intensity) :
    TreeMoves true txn (fun _ => False) (txn.setIntensity s intensity) := by
  have hself : s ∈ txn.forest.chain s := List.mem_cons_self ..
  have hedit : TreeMoves true txn (fun x => False ∨ x ∈ txn.forest.chain s)
      (txn.modify s fun cell => { cell with intensity }) := by
    refine TreeMoves.start.modify hf s _ (hf.upClosed_chain s) rfl rfl id
      (fun hs => absurd hself hs) ?_ (fun _ => id)
    intro p hannounced hp
    exact absurd (hf.mem_chain_of_announced hself hannounced hscope) hp
  exact hedit.publish_chain hf

theorem requestShutdown_moves {target : Epoch} (h : txn.requestShutdown s = .ok (target, txn')) :
    TreeMoves true txn (fun _ => False) txn' := by
  unfold requestShutdown at h
  split at h
  · cases h
  · next target event scope hrequest =>
      obtain ⟨hmember, hrecord, hclosed⟩ := ScopeCell.requestShutdown_planes hrequest
      have hset : TreeMoves true txn (fun _ => False) (txn.setScope s scope) :=
        TreeMoves.start.editControl hf hmember hrecord hclosed
      cases h
      split
      · exact hset.modify_unseen hf _ _ rfl rfl rfl rfl
      · exact hset

theorem setChildRemovingLocked_moves (hchild : ∀ p, m ∈ txn.forest.announcedChildren p → p = s) :
    TreeMoves true txn (fun _ => False) (txn.setChildRemovingLocked s m) := by
  unfold setChildRemovingLocked
  split_ifs
  · exact .start
  · have hmoved : TreeMoves true txn (fun x => False ∨ x ∈ txn.forest.chain s)
        (txn.setMember m { txn.forest.member m with
          record := { (txn.forest.member m).record with membershipStatus := .removing } }) :=
      TreeMoves.start.childMember hf hchild ⟨rfl, rfl, id⟩ rfl
    exact hmoved.publish_chain hf

theorem finishIncarnationWithTerminal_wrote (hscope : s ∈ txn.forest.arena) (epoch : Epoch)
    (reason : StopReason) {terminalExit : Option Exit}
    (hexit : terminalExit = none ∨ ∀ p, s ∉ txn.forest.announcedChildren p) :
    Wrote txn (txn.finishIncarnationWithTerminal s epoch reason terminalExit) := by
  unfold finishIncarnationWithTerminal
  rcases hfinish : (txn.forest.cells s).scope.control.epochs.finish epoch with ⟨finished, epochs⟩
  cases finished with
  | false =>
    simp only [hfinish]
    cases terminalExit with
    | none => exact TreeMoves.start.wrote
    | some exit =>
      have hroot := hexit.resolve_left (by simp)
      have hterminal : TreeMoves true txn (fun _ => False)
          (txn.setScope s ((txn.forest.cells s).scope.terminalizeMember exit .unchanged)) :=
        TreeMoves.start.editUnannounced hf hroot (ScopeCell.keeps_terminalize _ _ _) rfl
      exact hterminal.wrote_close hscope
  | true =>
    simp only [hfinish]
    have hended : TreeMoves true txn (fun _ => False)
        (txn.setScope s (endEpoch (txn.forest.cells s).scope epochs epoch)) :=
      TreeMoves.start.editControl hf rfl rfl rfl
    have hpublished := hended.publishStopped hf hscope reason hexit
    split_ifs
    · exact hpublished.wrote_close hscope
    · exact hpublished.wrote

theorem publishRootStopped_wrote (hscope : s ∈ txn.forest.arena)
    (hroot : ∀ p, s ∉ txn.forest.announcedChildren p) (reason : StopReason) (exit : Exit) :
    Wrote txn (txn.publishRootStopped s reason exit) :=
  (TreeMoves.start.publishStopped hf hscope reason (.inr hroot)).wrote_close hscope

theorem terminalizeNeverStarted_wrote (hscope : s ∈ txn.forest.arena)
    (hroot : ∀ p, s ∉ txn.forest.announcedChildren p) :
    Wrote txn (txn.terminalizeNeverStarted s) := by
  unfold terminalizeNeverStarted
  simp only
  split_ifs
  · exact TreeMoves.start.wrote
  · have hterminal : TreeMoves true txn (fun _ => False)
        (txn.setScope s ((txn.forest.cells s).scope.terminalizeMember .neverStarted .unchanged)) :=
      TreeMoves.start.editUnannounced hf hroot (ScopeCell.keeps_terminalize _ _ _) rfl
    exact (hterminal.publishStopped hf hscope .neverStarted (.inl rfl)).wrote_close hscope

theorem closeNeverStartedBody_wrote (hscope : s ∈ txn.forest.arena) :
    Wrote txn (txn.closeNeverStartedBody s) := by
  have hpublished : TreeMoves true txn (fun _ => False)
      (if (txn.forest.cells s).scope.record.state = .unstarted then
        txn.publishStopped s .neverStarted none else txn) := by
    split_ifs
    · exact TreeMoves.start.publishStopped hf hscope .neverStarted (.inl rfl)
    · exact .start
  unfold closeNeverStartedBody
  simp only
  by_cases hclosed : (txn.forest.cells s).scope.closed = true
  · rw [if_pos hclosed]
    exact TreeMoves.start.wrote
  · rw [if_neg hclosed]
    generalize (if (txn.forest.cells s).scope.record.state = .unstarted then
      txn.publishStopped s .neverStarted none else txn) = published at hpublished ⊢
    split_ifs
    · exact hpublished.wrote_close hscope
    · exact hpublished.wrote

theorem terminalizeChild_wrote (hscope : s ∈ txn.forest.arena) {exit : Exit}
    {exitedIncarnation : Option Incarnation} {startup : StartupDisposition} {terminalized : Bool}
    (h : txn.terminalizeChild s m exit exitedIncarnation startup = .ok (terminalized, txn')) :
    Wrote txn txn' := by
  unfold terminalizeChild at h
  simp only at h
  by_cases hterminal : (txn.forest.member m).record.stage.isTerminal = true
  · rw [if_pos hterminal] at h
    cases h
    exact TreeMoves.start.wrote
  rw [if_neg hterminal] at h
  by_cases hresident : ((txn.forest.cells s).currentChildren.any fun r => r.member = m) = true
  swap
  · rw [if_neg hresident] at h
    cases h
  rw [if_pos hresident] at h
  cases h
  -- being resident here, the member is announced by no other scope
  have hchild : ∀ p, m ∈ txn.forest.announcedChildren p → p = s := by
    intro p hp
    obtain ⟨r, hr, hmember⟩ := List.any_eq_true.1 hresident
    have hm : m ∈ txn.forest.residents s :=
      List.mem_map.2 ⟨r, hr, by simpa using hmember⟩
    exact hf.single p s m (Forest.mem_residents_of_announced hp) hm
  have hstored : TreeMoves true txn (fun x => False ∨ x ∈ txn.forest.chain s)
      (txn.setMember m ((txn.forest.member m).terminalizeLocked exit startup).2) :=
    TreeMoves.start.childMember hf hchild (ScopeCell.keeps_terminalize _ exit startup) rfl
  have hstopped : TreeMoves true txn (fun x => False ∨ x ∈ txn.forest.chain s)
      (if ((txn.forest.member m).record.lastIncarnation.isNone && txn.forest.isScope m) = true then
        (txn.setMember m ((txn.forest.member m).terminalizeLocked exit startup).2).publishStopped m
          .neverStarted none
      else txn.setMember m ((txn.forest.member m).terminalizeLocked exit startup).2) := by
    split_ifs with hnever
    · have hm : m ∈ txn.forest.arena := by
        simp only [Bool.and_eq_true, Forest.isScope, decide_eq_true_eq] at hnever
        exact hnever.2
      exact hstored.publishStopped hf hm .neverStarted (.inl rfl)
    · exact hstored
  generalize (if ((txn.forest.member m).record.lastIncarnation.isNone && txn.forest.isScope m) =
      true then
    (txn.setMember m ((txn.forest.member m).terminalizeLocked exit startup).2).publishStopped m
      .neverStarted none
    else txn.setMember m ((txn.forest.member m).terminalizeLocked exit startup).2) = stopped
    at hstopped ⊢
  have hpublished : TreeMoves true txn (fun _ => False)
      (stopped.publishExited s m exitedIncarnation
        ((txn.forest.member m).terminalizeLocked exit startup).1) := by
    cases exitedIncarnation with
    | none => exact hstopped.publish_chain hf
    | some incarnation => exact hstopped.emit_chain hf hscope rfl
  split_ifs with hclose
  · have hm : m ∈ txn.forest.arena := by
      simp only [Bool.and_eq_true, Forest.isScope, decide_eq_true_eq] at hclose
      exact hclose.1
    exact hpublished.wrote_close hm
  · exact hpublished.wrote

end ObservationTxn

end Shelterwood
