/-
Shelterwood/TreeMoves.lean

What a writer of the observation tree is made of.

Inside a transaction a writer edits cells, publishes snapshot hubs and emits
events.  `TreeMoves quiet txn D txn'` says that `txn'` is reached from `txn` by such
moves and that at most the scopes in `D` owe their hub a publication.  An edit
adds the scopes whose projection it can have changed, always a set closed
upwards; a publication takes one scope out of `D`, an emission a whole chain.
The moves of a quiet writer keep the residency edges and emit no residency event.

Each invariant of the tree is shown for the three moves, and each writer is shown
to be such a sequence that ends with no debt, followed by at most one closure
(`Wrote`).
-/
import Shelterwood.TreeShape
import Mathlib.Tactic.SplitIfs

namespace Shelterwood

variable [TokioBroadcast LifecycleEvent]

/-! ### Publications -/

namespace ObservationTxn

@[simp]
theorem publishSnapshot_forest (txn : ObservationTxn) (s : Membership) :
    (txn.publishSnapshot s).forest = txn.forest := by
  unfold publishSnapshot
  split
  · rfl
  · split_ifs <;> rfl

@[simp]
theorem publishAll_forest (l : List Membership) (txn : ObservationTxn) :
    (l.foldl publishSnapshot txn).forest = txn.forest := by
  induction l generalizing txn with
  | nil => rfl
  | cons s l ih => rw [List.foldl_cons, ih, publishSnapshot_forest]

end ObservationTxn

/-! ### Emissions -/

/-- What a subscriber of a scope sees of an emission: the event with the ids from
the child of that scope down to the emitter. -/
def Emission.seenFrom (e : Emission) (ids : Membership → ChildId) (s : Membership) :
    Option LifecycleEvent :=
  if s ∈ e.chain then
    some { e.event with
      scopePath := ((e.chain.takeWhile fun x => x ≠ s).map ids).reverse ++ e.event.scopePath }
  else none

namespace Forest

def ids (f : Forest) (m : Membership) : ChildId := (f.member m).id

/-- Delivery touches the lifecycle hubs of the chain, each once. -/
theorem deliverThrough_cells {chain : List Membership} (hnodup : chain.Nodup) (f : Forest)
    (event : LifecycleEvent) (links : Membership → Option Membership) (x : Membership) :
    (f.deliverThrough event chain).cells x =
      { f.cells x with
        lifecycle := ((Emission.mk event chain links).seenFrom f.ids x).elim (f.cells x).lifecycle
          ((f.cells x).lifecycle.publish (f.cells x).scope.closed) } := by
  induction chain generalizing f event with
  | nil => rfl
  | cons s rest ih =>
    obtain ⟨hs, hrest⟩ := List.nodup_cons.1 hnodup
    simp only [deliverThrough]
    rw [ih hrest]
    have hids : (f.modify s fun cell =>
        { cell with lifecycle := cell.lifecycle.publish cell.scope.closed event }).ids = f.ids := by
      funext m
      exact view_modify (fun cell => cell.scope.member.id) f s _ rfl m
    rw [hids]
    by_cases hx : x = s
    · subst hx
      simp [Emission.seenFrom, hs]
    · rw [modify_cells_of_ne f _ hx]
      by_cases hmem : x ∈ rest
      · simp [Emission.seenFrom, hmem, Ne.symm hx, LifecycleEvent.prependScope, ids]
      · simp [Emission.seenFrom, hmem, hx]

theorem deliverThrough_arena (chain : List Membership) (f : Forest) (event : LifecycleEvent) :
    (f.deliverThrough event chain).arena = f.arena := by
  induction chain generalizing f event with
  | nil => rfl
  | cons s rest ih => simp only [deliverThrough, ih, modify_arena]

theorem deliverThrough_unwound (chain : List Membership) (f : Forest) (event : LifecycleEvent) :
    (f.deliverThrough event chain).unwound = f.unwound := by
  induction chain generalizing f event with
  | nil => rfl
  | cons s rest ih => simp only [deliverThrough, ih, modify_unwound]

theorem deliverThrough_emitted (chain : List Membership) (f : Forest) (event : LifecycleEvent) :
    (f.deliverThrough event chain).emitted = f.emitted := by
  induction chain generalizing f event with
  | nil => rfl
  | cons s rest ih => simp only [deliverThrough, ih, modify_emitted]

/-- The emission that the next event of a scope is. -/
def emission (f : Forest) (s : Membership) (kind : LifecycleEventKind) : Emission :=
  ⟨⟨[], s, (f.cells s).lifecycleSeq + 1, kind⟩, f.chain s, f.parentOf⟩

end Forest

namespace ObservationTxn

@[simp]
theorem emit_arena (txn : ObservationTxn) (s : Membership) (kind : LifecycleEventKind) :
    (txn.emit s kind).forest.arena = txn.forest.arena := by
  simp only [emit]
  split_ifs
  · simp [ObservationTxn.modify]
  · simp [ObservationTxn.modify, Forest.deliverThrough_arena]

@[simp]
theorem emit_unwound (txn : ObservationTxn) (s : Membership) (kind : LifecycleEventKind) :
    (txn.emit s kind).forest.unwound = txn.forest.unwound := by
  simp only [emit]
  split_ifs
  · simp [ObservationTxn.modify]
  · simp [ObservationTxn.modify, Forest.deliverThrough_unwound]

theorem emit_emitted (txn : ObservationTxn) (s : Membership) (kind : LifecycleEventKind) :
    (txn.emit s kind).forest.emitted = txn.forest.emitted ++ [txn.forest.emission s kind] := by
  simp only [emit]
  split_ifs
  · simp [ObservationTxn.modify, Forest.emission]
  · simp [ObservationTxn.modify, Forest.deliverThrough_emitted, Forest.emission]

/-- An emission changes the counter of its scope and the lifecycle hubs of the
chain.  The shortcut for a chain without receivers changes nothing more. -/
theorem emit_cells {txn : ObservationTxn} (hf : txn.forest.WellLinked) (s : Membership)
    (kind : LifecycleEventKind) (x : Membership) :
    (txn.emit s kind).forest.cells x =
      { txn.forest.cells x with
        lifecycleSeq :=
          if x = s then (txn.forest.cells s).lifecycleSeq + 1 else (txn.forest.cells x).lifecycleSeq
        lifecycle := ((txn.forest.emission s kind).seenFrom txn.forest.ids x).elim
          (txn.forest.cells x).lifecycle
          ((txn.forest.cells x).lifecycle.publish (txn.forest.cells x).scope.closed) } := by
  have hminted : ∀ x, ((txn.forest.modify s fun cell =>
      { cell with lifecycleSeq := (txn.forest.cells s).lifecycleSeq + 1 }).cells x) =
      { txn.forest.cells x with
        lifecycleSeq := if x = s then (txn.forest.cells s).lifecycleSeq + 1
          else (txn.forest.cells x).lifecycleSeq } := by
    intro x
    by_cases hx : x = s
    · subst hx
      simp
    · rw [Forest.modify_cells_of_ne _ _ hx]
      simp [hx]
  simp only [emit]
  by_cases hreceivers :
      ((txn.forest.chain s).all fun a => !(txn.forest.cells a).lifecycle.hasReceivers) = true
  · -- nobody on the chain listens, so publishing would change nothing
    rw [if_pos hreceivers]
    simp only [publishAll_forest, ObservationTxn.modify, hminted]
    by_cases hmem : x ∈ txn.forest.chain s
    · have hnone := List.all_eq_true.1 hreceivers x hmem
      simp only [Bool.not_eq_true'] at hnone
      simp [Forest.emission, Emission.seenFrom, hmem, LifecycleHub.publish, hnone]
    · simp [Forest.emission, Emission.seenFrom, hmem]
  · rw [if_neg hreceivers]
    simp only [publishAll_forest, ObservationTxn.modify]
    rw [Forest.deliverThrough_cells (hf.chain_nodup s) _ _ txn.forest.parentOf x, hminted]
    have hids : (txn.forest.modify s fun cell =>
        { cell with lifecycleSeq := (txn.forest.cells s).lifecycleSeq + 1 }).ids =
        txn.forest.ids := by
      funext m
      exact Forest.view_modify (fun cell => cell.scope.member.id) txn.forest s _ rfl m
    rw [hids]
    rfl

end ObservationTxn

/-- An emission keeps the residency edges. -/
theorem ObservationTxn.emit_sameShape {txn : ObservationTxn} (hf : txn.forest.WellLinked)
    (s : Membership) (kind : LifecycleEventKind) :
    txn.forest.SameShape (txn.emit s kind).forest where
  arena := txn.emit_arena s kind
  unwound := txn.emit_unwound s kind
  shape := fun m => by rw [emit_cells hf]; rfl
  entered := fun m hm => by
    simp only [Forest.member, emit_cells hf]
    exact hm

/-- The counter of a scope is shown by itself and by the scope that announced it,
both on its chain. -/
theorem ObservationTxn.emit_sameRow {txn : ObservationTxn} (hf : txn.forest.WellLinked)
    {s : Membership} (hscope : s ∈ txn.forest.arena) (kind : LifecycleEventKind) {x : Membership}
    (hx : x ∉ txn.forest.chain s) : txn.forest.SameRow (txn.emit s kind).forest x := by
  have hchain : s ∈ txn.forest.chain s := List.mem_cons_self ..
  refine Forest.sameRow_of (txn.emit_arena s kind) ?_ ?_
  · have hne : x ≠ s := fun h => hx (h ▸ hchain)
    rw [emit_cells hf]
    simp only [TreeCell.row, hne, if_false]
  · intro m hm
    have hne : m ≠ s := by
      rintro rfl
      exact hx (hf.mem_chain_of_announced hchain hm hscope)
    rw [emit_cells hf]
    simp only [TreeCell.face, hne, if_false]

/-! ### Moves -/

/-- The event stream, the hubs and the ids are kept. -/
structure Forest.SameLog (f f' : Forest) : Prop where
  arena : f'.arena = f.arena
  emitted : f'.emitted = f.emitted
  log : ∀ m, (f'.cells m).log = (f.cells m).log

theorem Forest.sameLog_modify (f : Forest) (m : Membership) (g : TreeCell → TreeCell)
    (h : (g (f.cells m)).log = (f.cells m).log) : f.SameLog (f.modify m g) :=
  ⟨rfl, rfl, view_modify TreeCell.log f m g h⟩

/-- Reached by edits, publications and emissions, with the scopes that still owe
their hub a publication. -/
inductive TreeMoves (quiet : Bool) (txn : ObservationTxn) :
    (Membership → Prop) → ObservationTxn → Prop
  | start {D : Membership → Prop} : TreeMoves quiet txn D txn
  | edit {D D' : Membership → Prop} {txn' : ObservationTxn} (forest : Forest)
      (R : Membership → Prop) :
      TreeMoves quiet txn D txn' → txn'.forest.SameLog forest → forest.WellLinked →
      txn'.forest.UpClosed R → (∀ x, ¬ R x → txn'.forest.SameRow forest x) →
      (quiet = true → txn'.forest.SameShape forest) →
      (∀ x, D x ∨ R x → D' x) → TreeMoves quiet txn D' { txn' with forest }
  | publish {D D' : Membership → Prop} {txn' : ObservationTxn} (s : Membership) :
      TreeMoves quiet txn D txn' → (∀ x, D x → x ≠ s → D' x) →
      TreeMoves quiet txn D' (txn'.publishSnapshot s)
  | emit {D D' : Membership → Prop} {txn' : ObservationTxn} (s : Membership)
      (kind : LifecycleEventKind) :
      TreeMoves quiet txn D txn' → s ∈ txn'.forest.arena →
      (quiet = true → kind.isResidency = false) →
      (∀ x, D x → x ∉ txn'.forest.chain s → D' x) →
      TreeMoves quiet txn D' (txn'.emit s kind)

namespace TreeMoves

variable {quiet : Bool} {txn t : ObservationTxn} {D D' : Membership → Prop}

theorem wellLinked (hf : txn.forest.WellLinked) (h : TreeMoves quiet txn D t) :
    t.forest.WellLinked := by
  induction h with
  | start => exact hf
  | edit forest R _ _ hforest _ _ _ _ _ => exact hforest
  | publish s _ _ ih => rwa [ObservationTxn.publishSnapshot_forest]
  | emit s kind _ _ _ _ ih => exact (ObservationTxn.emit_sameShape ih s kind).wellLinked ih

theorem arena (h : TreeMoves quiet txn D t) : t.forest.arena = txn.forest.arena := by
  induction h with
  | start => rfl
  | edit forest R _ hlog _ _ _ _ _ ih => exact hlog.arena.trans ih
  | publish s _ _ ih => rwa [ObservationTxn.publishSnapshot_forest]
  | emit s kind _ _ _ _ ih => rwa [ObservationTxn.emit_arena]

/-- Quiet moves keep the residency edges. -/
theorem sameShape (hf : txn.forest.WellLinked) (h : TreeMoves true txn D t) :
    txn.forest.SameShape t.forest := by
  generalize hquiet : true = quiet at h
  induction h with
  | start => exact .refl _
  | edit forest R _ _ _ _ _ hshape _ ih => exact ih.trans (hshape hquiet.symm)
  | publish s _ _ ih => rwa [ObservationTxn.publishSnapshot_forest]
  | emit s kind h _ _ _ ih =>
    exact ih.trans (ObservationTxn.emit_sameShape (h.wellLinked hf) s kind)

theorem weaken (h : TreeMoves quiet txn D t) (hD : ∀ x, D x → D' x) : TreeMoves quiet txn D' t := by
  cases h with
  | start => exact .start
  | edit forest R h hlog hforest hup hrows hquiet hdebt =>
    exact .edit forest R h hlog hforest hup hrows hquiet fun x hx => hD x (hdebt x hx)
  | publish s h hdebt => exact .publish s h fun x hx hne => hD x (hdebt x hx hne)
  | emit s kind h hscope hquiet hdebt =>
    exact .emit s kind h hscope hquiet fun x hx hne => hD x (hdebt x hx hne)

/-- A change of one cell that keeps its edges. -/
theorem modify (hf : txn.forest.WellLinked) (h : TreeMoves quiet txn D t) (m : Membership)
    (g : TreeCell → TreeCell) {R : Membership → Prop} (hup : t.forest.UpClosed R)
    (hlog : (g (t.forest.cells m)).log = (t.forest.cells m).log)
    (hshape : (g (t.forest.cells m)).shape = (t.forest.cells m).shape)
    (hentered : (t.forest.member m).record.stage ≠ .reserved →
      (g (t.forest.cells m)).scope.member.record.stage ≠ .reserved)
    (hrow : ¬ R m → (g (t.forest.cells m)).row = (t.forest.cells m).row)
    (hface : ∀ p, m ∈ t.forest.announcedChildren p → ¬ R p →
      (g (t.forest.cells m)).face = (t.forest.cells m).face)
    (hD : ∀ x, D x ∨ R x → D' x) : TreeMoves quiet txn D' (t.modify m g) := by
  have hsame := t.forest.sameShape_modify m g hshape hentered
  refine .edit (t.forest.modify m g) R h (t.forest.sameLog_modify m g hlog)
    (hsame.wellLinked (h.wellLinked hf)) hup ?_ (fun _ => hsame) hD
  intro x hx
  exact t.forest.sameRow_modify m g (fun hxm => hrow (hxm ▸ hx)) fun hm => hface x hm hx

/-- A change that no projection shows. -/
theorem modify_unseen (hf : txn.forest.WellLinked) (h : TreeMoves quiet txn D t) (m : Membership)
    (g : TreeCell → TreeCell)
    (hlog : (g (t.forest.cells m)).log = (t.forest.cells m).log)
    (hshape : (g (t.forest.cells m)).shape = (t.forest.cells m).shape)
    (hrow : (g (t.forest.cells m)).row = (t.forest.cells m).row)
    (hface : (g (t.forest.cells m)).face = (t.forest.cells m).face) :
    TreeMoves quiet txn D (t.modify m g) := by
  refine h.modify hf m g t.forest.upClosed_empty hlog hshape ?_ (fun _ => hrow)
    (fun _ _ _ => hface) (fun x hx => hx.elim id False.elim)
  have hrecord : (g (t.forest.cells m)).scope.member.record = (t.forest.member m).record :=
    congrArg (fun view => view.2.1) hface
  rw [hrecord]
  exact id

theorem publishAll (l : List Membership) (h : TreeMoves quiet txn D t)
    (hD : ∀ x, D x → x ∉ l → D' x) :
    TreeMoves quiet txn D' (l.foldl ObservationTxn.publishSnapshot t) := by
  induction l generalizing D t with
  | nil => exact h.weaken fun x hx => hD x hx List.not_mem_nil
  | cons s l ih =>
    refine ih (D := fun x => D x ∧ x ≠ s) (.publish s h fun x hx hne => ⟨hx, hne⟩) ?_
    intro x hx hl
    exact hD x hx.1 fun hmem => (List.mem_cons.1 hmem).elim hx.2 hl

theorem publishChain (h : TreeMoves quiet txn D t) (s : Membership)
    (hD : ∀ x, D x → x ∉ t.forest.chain s → D' x) : TreeMoves quiet txn D' (t.publishChain s) :=
  h.publishAll _ hD

end TreeMoves

/-! ### Edits of a scope cell -/

/-- What every operation on a scope cell keeps: the id, the closed flag, and
having left `reserved`. -/
structure ScopeCell.Keeps (s s' : ScopeCell) : Prop where
  id : s'.member.id = s.member.id
  closed : s'.closed = s.closed
  entered : s.member.record.stage ≠ .reserved → s'.member.record.stage ≠ .reserved

namespace MemberCell

omit [TokioBroadcast LifecycleEvent]

theorem transitionLocked_id (m : MemberCell) (transition : MemberTransition) :
    (m.transitionLocked transition).2.id = m.id := by
  unfold transitionLocked
  split <;> rfl

theorem transitionLocked_entered (m : MemberCell) (transition : MemberTransition)
    (h : m.record.stage ≠ .reserved) :
    (m.transitionLocked transition).2.record.stage ≠ .reserved := by
  simp only [transitionLocked, MemberRecord.applyTransition]
  by_cases hlegal : transition.isLegalFrom m.record.stage = true
  · cases transition <;> simp [hlegal]
  · simpa [hlegal] using h

theorem terminalizeLocked_id (m : MemberCell) (exit : Exit) (startup : StartupDisposition) :
    (m.terminalizeLocked exit startup).2.id = m.id := by
  unfold terminalizeLocked
  split <;> rfl

theorem terminalizeLocked_entered (m : MemberCell) (exit : Exit) (startup : StartupDisposition) :
    (m.terminalizeLocked exit startup).2.record.stage ≠ .reserved := by
  intro h
  have hterminal := m.terminalizeLocked_isTerminal exit startup
  rw [h] at hterminal
  cases hterminal

end MemberCell

namespace ScopeCell

omit [TokioBroadcast LifecycleEvent]

theorem Keeps.refl (s : ScopeCell) : s.Keeps s := ⟨rfl, rfl, fun h => h⟩

variable {s s' : ScopeCell}

theorem Keeps.trans {t : ScopeCell} (h : s.Keeps s') (h' : s'.Keeps t) : s.Keeps t :=
  ⟨h'.id.trans h.id, h'.closed.trans h.closed, h'.entered ∘ h.entered⟩

/-- Only the record, the control plane or the parent flag changed. -/
theorem keeps_of_member (hmember : s'.member = s.member) (hclosed : s'.closed = s.closed) :
    s.Keeps s' :=
  ⟨by rw [hmember], hclosed, by rw [hmember]; exact id⟩

theorem keeps_transition (s : ScopeCell) (transition : MemberTransition) :
    s.Keeps { s with member := (s.member.transitionLocked transition).2 } :=
  ⟨s.member.transitionLocked_id transition, rfl, s.member.transitionLocked_entered transition⟩

theorem keeps_terminalize (s : ScopeCell) (exit : Exit) (startup : StartupDisposition) :
    s.Keeps (s.terminalizeMember exit startup) :=
  ⟨s.member.terminalizeLocked_id exit startup, rfl,
    fun _ => s.member.terminalizeLocked_entered exit startup⟩

theorem keeps_publishStopped (s : ScopeCell) (reason : StopReason) (terminalExit : Option Exit) :
    s.Keeps (s.publishStoppedLocked reason terminalExit) := by
  unfold publishStoppedLocked
  cases terminalExit with
  | none => exact keeps_of_member (by split_ifs <;> rfl) (by split_ifs <;> rfl)
  | some exit =>
    refine Keeps.trans ?_ (keeps_terminalize _ exit .unchanged)
    exact keeps_of_member (by split_ifs <;> rfl) (by split_ifs <;> rfl)

/-- A suppressed verdict leaves the record alone. -/
theorem publishStoppedLocked_record (s : ScopeCell) (reason : StopReason)
    (terminalExit : Option Exit) (h : s.stopSuppressed reason = true) :
    (s.publishStoppedLocked reason terminalExit).record = s.record := by
  unfold publishStoppedLocked
  cases terminalExit <;> simp [h, terminalizeMember]

theorem publishStoppedLocked_of_suppressed (s : ScopeCell) (reason : StopReason)
    (h : s.stopSuppressed reason = true) : s.publishStoppedLocked reason none = s := by
  simp [publishStoppedLocked, h]

theorem setStartupLocked_member (s : ScopeCell) (startup : Except StartupError Unit) :
    (s.setStartupLocked startup).member = s.member := by
  unfold setStartupLocked
  split_ifs <;> rfl

theorem setStartupLocked_closed (s : ScopeCell) (startup : Except StartupError Unit) :
    (s.setStartupLocked startup).closed = s.closed := by
  unfold setStartupLocked
  split_ifs <;> rfl

variable {state : ScopeState}

theorem keeps_setStateAndStartup {startup : Except StartupError Unit}
    (h : s.setStateAndStartup state startup = .ok s') : s.Keeps s' := by
  unfold setStateAndStartup at h
  split_ifs at h
  cases h
  exact keeps_of_member (s.setStartupLocked_member startup) (s.setStartupLocked_closed startup)

theorem keeps_publishDrain {startup : Option (Except StartupError Unit)}
    (h : s.publishDrain state startup = .ok s') : s.Keeps s' := by
  unfold publishDrain at h
  split_ifs at h
  cases startup with
  | none =>
    cases h
    exact keeps_of_member rfl rfl
  | some startup =>
    cases h
    exact keeps_of_member (s.setStartupLocked_member startup) (s.setStartupLocked_closed startup)

theorem keeps_beginIncarnation {epoch : Epoch}
    (h : s.beginIncarnationInto state none = .ok (some epoch, s')) : s.Keeps s' := by
  simp only [beginIncarnationInto, Option.isSome_none, Bool.false_eq_true, if_false] at h
  split_ifs at h
  split at h
  · cases h
  · cases h
  · cases h
    exact keeps_of_member rfl rfl

/-- A start touches the member and the control plane only. -/
theorem keeps_startScopeChild {incarnation : Incarnation} {restartStopped : Bool}
    {started : Option Bool}
    (h : s.startScopeChildLocked incarnation restartStopped = .ok (started, s')) :
    s.Keeps s' ∧ s'.record = s.record ∧ (started ≠ some true → s'.member = s.member) := by
  have hstart : ∀ control, ((some (s.member.transitionLocked (.starting incarnation)).1,
      { s with control, member := (s.member.transitionLocked (.starting incarnation)).2 }) :
        Option Bool × ScopeCell) = (started, s') →
      s.Keeps s' ∧ s'.record = s.record ∧ (started ≠ some true → s'.member = s.member) := by
    intro control heq
    cases heq
    refine ⟨⟨s.member.transitionLocked_id _, rfl, s.member.transitionLocked_entered _⟩, rfl, ?_⟩
    intro hrefused
    simp only [MemberCell.transitionLocked] at hrefused ⊢
    split at hrefused
    · exact absurd rfl hrefused
    · simp
  unfold startScopeChildLocked at h
  split at h
  · split_ifs at h
    · split at h
      · cases h
      · exact hstart _ (Except.ok.inj h)
    · cases h
      exact ⟨.refl s, rfl, fun _ => rfl⟩
  · exact hstart _ (Except.ok.inj h)

theorem requestShutdown_planes {answer : Epoch × Option ScopeControlEvent}
    (h : s.requestShutdown = .ok (answer, s')) :
    s'.member = s.member ∧ s'.record = s.record ∧ s'.closed = s.closed := by
  unfold requestShutdown at h
  split at h
  · cases h
  · simp only at h
    split_ifs at h <;> cases h <;> exact ⟨rfl, rfl, rfl⟩

end ScopeCell

namespace TreeMoves

variable {quiet : Bool} {txn t : ObservationTxn} {D D' : Membership → Prop}

variable {scope : ScopeCell}

/-- An edit of a scope's own cell can change the projections of its chain. -/
theorem editScope (hf : txn.forest.WellLinked) (h : TreeMoves quiet txn D t) {s : Membership}
    (hscope : s ∈ t.forest.arena) (hkeeps : (t.forest.cells s).scope.Keeps scope) :
    TreeMoves quiet txn (fun x => D x ∨ x ∈ t.forest.chain s) (t.setScope s scope) := by
  have ht := h.wellLinked hf
  have hself : s ∈ t.forest.chain s := List.mem_cons_self ..
  refine h.modify hf s _ (ht.upClosed_chain s) ?_ rfl hkeeps.entered (fun hs => absurd hself hs) ?_
    (fun _ => id)
  · simp only [TreeCell.log, hkeeps.id, hkeeps.closed]
  · intro p hannounced hp
    exact absurd (ht.mem_chain_of_announced hself hannounced hscope) hp

variable {m : Membership}

/-- An edit of a member's record can change the projections of the scope that
announced it, and of that scope's chain. -/
theorem editMember (hf : txn.forest.WellLinked) (h : TreeMoves quiet txn D t) {s : Membership}
    (hchild : ∀ p, m ∈ t.forest.announcedChildren p → p = s)
    (hkeeps : (t.forest.cells m).scope.Keeps scope)
    (hrecord : scope.record = (t.forest.cells m).scope.record) :
    TreeMoves quiet txn (fun x => D x ∨ x ∈ t.forest.chain s) (t.setScope m scope) := by
  have ht := h.wellLinked hf
  refine h.modify hf m _ (ht.upClosed_chain s) ?_ rfl hkeeps.entered (fun _ => ?_) ?_ (fun _ => id)
  · simp only [TreeCell.log, hkeeps.id, hkeeps.closed]
  · simp only [TreeCell.row, hrecord]
  · intro p hannounced hp
    rw [hchild p hannounced] at hp
    exact absurd (List.mem_cons_self ..) hp

/-- An edit of an unannounced member's record is shown nowhere. -/
theorem editUnannounced (hf : txn.forest.WellLinked) (h : TreeMoves quiet txn D t)
    (hchild : ∀ p, m ∉ t.forest.announcedChildren p)
    (hkeeps : (t.forest.cells m).scope.Keeps scope)
    (hrecord : scope.record = (t.forest.cells m).scope.record) :
    TreeMoves quiet txn D (t.setScope m scope) := by
  refine h.modify hf m _ t.forest.upClosed_empty ?_ rfl hkeeps.entered (fun _ => ?_) ?_
    (fun x hx => hx.elim id False.elim)
  · simp only [TreeCell.log, hkeeps.id, hkeeps.closed]
  · simp only [TreeCell.row, hrecord]
  · intro p hannounced
    exact absurd hannounced (hchild p)

/-- An edit of the control plane is shown nowhere. -/
theorem editControl (hf : txn.forest.WellLinked) (h : TreeMoves quiet txn D t)
    (hmember : scope.member = (t.forest.cells m).scope.member)
    (hrecord : scope.record = (t.forest.cells m).scope.record)
    (hclosed : scope.closed = (t.forest.cells m).scope.closed) :
    TreeMoves quiet txn D (t.setScope m scope) := by
  refine h.modify_unseen hf m _ ?_ rfl ?_ ?_
  · simp only [TreeCell.log, hmember, hclosed]
  · simp only [TreeCell.row, hrecord]
  · simp only [TreeCell.face, hmember]

end TreeMoves

end Shelterwood
