/-
Shelterwood/TreeResidency.lean

Admission and withdrawal of residents.

An accepted admission appends the resident to its scope, links a child scope and
emits `Added`; an admission that unwinds leaves the resident unannounced, where no
projection shows it; a refused one leaves the transaction as it was.  A
withdrawal takes residents out, cuts the links of the child scopes among them,
and emits `Removed` for the announced ones.

All of them re-house one scope: the announced children of the others stay, what
is shown of announced children does not change, and the chain of the scope is the
same before and after.
-/
import Shelterwood.TreeMoves

namespace Shelterwood

variable [TokioBroadcast LifecycleEvent]

namespace Forest

/-- The residency of one scope changed. -/
structure Rehoused (f f' : Forest) (s : Membership) : Prop where
  sameLog : f.SameLog f'
  wellLinked : f'.WellLinked
  others : ∀ x, x ≠ s → f'.announcedChildren x = f.announcedChildren x
  row : ∀ x, f'.announcedChildren x = f.announcedChildren x →
    (f'.cells x).row = (f.cells x).row
  face : ∀ x m, m ∈ f.announcedChildren x → (f'.cells m).face = (f.cells m).face
  chain : f'.chain s = f.chain s
  entered : ∀ m, f.Entered m → f'.Entered m

namespace Rehoused

variable {f f' : Forest} {s : Membership} (h : f.Rehoused f' s)
include h

theorem sameRow {x : Membership} (hx : f'.announcedChildren x = f.announcedChildren x) :
    f.SameRow f' x :=
  sameRow_of h.sameLog.arena (h.row x hx) fun m hm => h.face x m hm

end Rehoused

end Forest

namespace TreeMoves

variable {txn t : ObservationTxn} {f' : Forest} {s : Membership}

/-- A change of the announced children is published by the emission that
follows. -/
theorem rehouse_emit (hf : txn.forest.WellLinked) (hscope : s ∈ txn.forest.arena)
    (h : txn.forest.Rehoused f' s) (kind : LifecycleEventKind) :
    TreeMoves false txn (fun _ => False)
      (ObservationTxn.emit { txn with forest := f' } s kind) := by
  have hedit : TreeMoves false txn (· ∈ txn.forest.chain s) { txn with forest := f' } := by
    refine .edit f' (· ∈ txn.forest.chain s) .start h.sameLog h.wellLinked (hf.upClosed_chain s)
      ?_ (fun hquiet => by cases hquiet) (fun x hx => hx.elim id id)
    intro x hx
    refine h.sameRow (h.others x ?_)
    rintro rfl
    exact hx (List.mem_cons_self ..)
  refine .emit s kind hedit (by rw [h.sameLog.arena]; exact hscope)
    (fun hquiet => by cases hquiet) ?_
  intro x hx hchain
  rw [h.chain] at hchain
  exact hchain hx

/-- A change of unannounced residents is shown nowhere. -/
theorem rehouse_unseen (h : txn.forest.Rehoused f' s)
    (hsame : f'.announcedChildren s = txn.forest.announcedChildren s) :
    TreeMoves false txn (fun _ => False) { txn with forest := f' } := by
  refine .edit f' (fun _ => False) .start h.sameLog h.wellLinked txn.forest.upClosed_empty
    ?_ (fun hquiet => by cases hquiet) (fun x hx => hx.elim id id)
  intro x _
  refine h.sameRow ?_
  by_cases hx : x = s
  · rw [hx, hsame]
  · exact h.others x hx

end TreeMoves

/-! ### Entering -/

namespace Forest

/-- A new resident, and the changes of the cells around it. -/
structure Enters (f f' : Forest) (s m : Membership) (announced : Bool) : Prop where
  arena : f'.arena = f.arena
  emitted : f'.emitted = f.emitted
  unwound : ∀ x ∈ f.unwound, x ∈ f'.unwound
  home : ∃ scope, f'.cells s =
      { f.cells s with
        scope
        currentChildren := (f.cells s).currentChildren ++ [⟨m, announced⟩] } ∧
    scope.member = (f.cells s).scope.member ∧ scope.record = (f.cells s).scope.record ∧
    scope.closed = (f.cells s).scope.closed
  guest : ∃ scope parent, f'.cells m = { f.cells m with scope, parent } ∧
    (f.cells m).scope.Keeps scope ∧ scope.record = (f.cells m).scope.record ∧
    (parent = f.parentOf m ∨ parent = some s ∧ m ∈ f.arena) ∧
    (announced = true → m ∈ f.arena → parent = some s) ∧
    (scope.member.record.stage ≠ .reserved ∨ m ∈ f'.unwound)
  rest : ∀ x, x ≠ s → x ≠ m → f'.cells x = f.cells x

namespace Enters

variable {f f' : Forest} {s m : Membership} {announced : Bool} (h : f.Enters f' s m announced)
include h

theorem residents_self : f'.residents s = f.residents s ++ [m] := by
  obtain ⟨scope, hcell, -⟩ := h.home
  simp only [residents, hcell, List.map_append, List.map_cons, List.map_nil]

theorem announced_self :
    f'.announcedChildren s = f.announcedChildren s ++ if announced = true then [m] else [] := by
  obtain ⟨scope, hcell, -⟩ := h.home
  simp only [announcedChildren, hcell, List.filter_append, List.map_append]
  cases announced <;> rfl

variable {x : Membership}

/-- No cell loses what its log and its row show. -/
theorem cell (x : Membership) : ∃ scope parent currentChildren,
    f'.cells x = { f.cells x with scope, parent, currentChildren } ∧
      (f.cells x).scope.Keeps scope ∧ scope.record = (f.cells x).scope.record := by
  by_cases hxm : x = m
  · subst hxm
    obtain ⟨scope, parent, hcell, hkeeps, hrecord, -⟩ := h.guest
    exact ⟨scope, parent, _, hcell, hkeeps, hrecord⟩
  · by_cases hxs : x = s
    · subst hxs
      obtain ⟨scope, hcell, hmember, hrecord, hclosed⟩ := h.home
      exact ⟨scope, _, _, hcell, ScopeCell.keeps_of_member hmember hclosed, hrecord⟩
    · exact ⟨_, _, _, h.rest x hxs hxm, .refl _, rfl⟩

theorem children_other (hx : x ≠ s) :
    (f'.cells x).currentChildren = (f.cells x).currentChildren := by
  by_cases hxm : x = m
  · subst hxm
    obtain ⟨scope, parent, hcell, -⟩ := h.guest
    rw [hcell]
  · rw [h.rest x hx hxm]

theorem residents_other (hx : x ≠ s) : f'.residents x = f.residents x := by
  simp only [residents, h.children_other hx]

theorem announced_other (hx : x ≠ s) : f'.announcedChildren x = f.announcedChildren x := by
  simp only [announcedChildren, h.children_other hx]

theorem parentOf_other (hne : m ≠ s) (hx : x ≠ m) : f'.parentOf x = f.parentOf x := by
  by_cases hxs : x = s
  · subst hxs
    obtain ⟨scope, hcell, -⟩ := h.home
    simp only [parentOf, hcell]
  · simp only [parentOf, h.rest x hxs hx]

theorem parentOf_self :
    (f'.parentOf m = f.parentOf m ∨ f'.parentOf m = some s ∧ m ∈ f.arena) ∧
      (announced = true → m ∈ f.arena → f'.parentOf m = some s) := by
  obtain ⟨scope, parent, hcell, -, -, hparent, hannounced, -⟩ := h.guest
  simp only [Forest.parentOf, hcell]
  exact ⟨hparent, hannounced⟩

theorem entered_mono (x : Membership) (hx : (f.member x).record.stage ≠ .reserved) :
    (f'.member x).record.stage ≠ .reserved := by
  obtain ⟨scope, parent, children, hcell, hkeeps, -⟩ := h.cell x
  simp only [member, hcell]
  exact hkeeps.entered hx

/-- A resident afterwards was one before, or is the new one. -/
theorem mem_residents {c : Membership} (hc : c ∈ f'.residents x) :
    c ∈ f.residents x ∨ x = s ∧ c = m := by
  by_cases hx : x = s
  · subst hx
    rw [h.residents_self] at hc
    rcases List.mem_append.1 hc with hc | hc
    · exact .inl hc
    · exact .inr ⟨rfl, List.mem_singleton.1 hc⟩
  · rw [h.residents_other hx] at hc
    exact .inl hc

theorem mem_announced {c : Membership} (hc : c ∈ f'.announcedChildren x) :
    c ∈ f.announcedChildren x ∨ x = s ∧ c = m ∧ announced = true := by
  by_cases hx : x = s
  · subst hx
    rw [h.announced_self] at hc
    rcases List.mem_append.1 hc with hc | hc
    · exact .inl hc
    · split_ifs at hc with hannounced
      · exact .inr ⟨rfl, List.mem_singleton.1 hc, hannounced⟩
      · cases hc
  · rw [h.announced_other hx] at hc
    exact .inl hc

theorem mem_residents_of {c : Membership} (hc : c ∈ f.residents x) : c ∈ f'.residents x := by
  by_cases hx : x = s
  · subst hx
    rw [h.residents_self]
    exact List.mem_append_left _ hc
  · rwa [h.residents_other hx]

/-- A membership that was resident nowhere, and is not above its new scope. -/
theorem wellLinked (hf : f.WellLinked) (hs : s ∈ f.arena) (hne : m ≠ s)
    (hnew : ∀ x, m ∉ f.residents x) (hchain : m ∉ f.chain s) : f'.WellLinked := by
  have hparent : ∀ x q, f'.parentOf x = some q →
      (x = m ∧ q = s ∧ m ∈ f.arena) ∨ f.parentOf x = some q := by
    intro x q hq
    by_cases hx : x = m
    · subst hx
      rcases h.parentOf_self.1 with hkept | ⟨hset, hscope⟩
      · exact .inr (hkept ▸ hq)
      · rw [hset] at hq
        exact .inl ⟨rfl, (Option.some.inj hq).symm, hscope⟩
    · exact .inr (h.parentOf_other hne hx ▸ hq)
  refine
    { acyclic := hf.acyclic.link (hf.chain_climbs s) hchain fun x q hq =>
        (hparent x q hq).imp (fun hlink => ⟨hlink.1, hlink.2.1⟩) id
      listed := ?_, held := ?_, linked := ?_, nodup := ?_, single := ?_,
      entered := ?_, owner := ?_ }
  · intro c p hp
    rw [h.arena]
    rcases hparent c p hp with ⟨rfl, -, hscope⟩ | hp
    · exact hscope
    · exact hf.listed c p hp
  · intro c p hp
    rcases hparent c p hp with ⟨rfl, rfl, -⟩ | hp
    · rw [h.residents_self]
      exact List.mem_append_right _ (List.mem_singleton.2 rfl)
    · exact h.mem_residents_of (hf.held c p hp)
  · intro x c hc hscope
    rw [h.arena] at hscope
    rcases h.mem_announced hc with hc | ⟨rfl, rfl, hannounced⟩
    · rw [h.parentOf_other hne, hf.linked x c hc hscope]
      rintro rfl
      exact hnew x (mem_residents_of_announced hc)
    · exact h.parentOf_self.2 hannounced hscope
  · intro x
    by_cases hx : x = s
    · subst hx
      rw [h.residents_self]
      refine List.nodup_append.2 ⟨hf.nodup x, List.nodup_singleton m, ?_⟩
      intro c hc d hd hcd
      rw [List.mem_singleton.1 hd] at hcd
      exact hnew x (hcd ▸ hc)
    · rw [h.residents_other hx]
      exact hf.nodup x
  · intro x y c hx hy
    rcases h.mem_residents hx with hx | ⟨rfl, rfl⟩
    · rcases h.mem_residents hy with hy | ⟨rfl, rfl⟩
      · exact hf.single x y c hx hy
      · exact absurd hx (hnew x)
    · rcases h.mem_residents hy with hy | ⟨rfl, -⟩
      · exact absurd hy (hnew y)
      · rfl
  · intro x c hc
    rcases h.mem_residents hc with hc | ⟨rfl, rfl⟩
    · exact (hf.entered x c hc).imp (h.entered_mono c) (h.unwound c)
    · obtain ⟨scope, parent, hcell, -, -, -, -, hentered⟩ := h.guest
      simp only [Entered, member, hcell]
      exact hentered
  · intro x c hc
    rw [h.arena]
    rcases h.mem_residents hc with hc | ⟨rfl, -⟩
    · exact hf.owner x c hc
    · exact hs

theorem sameLog : f.SameLog f' where
  arena := h.arena
  emitted := h.emitted
  log := fun x => by
    obtain ⟨scope, parent, children, hcell, hkeeps, -⟩ := h.cell x
    simp only [TreeCell.log, hcell, hkeeps.id, hkeeps.closed]

theorem rehoused (hf : f.WellLinked) (hs : s ∈ f.arena) (hne : m ≠ s)
    (hnew : ∀ x, m ∉ f.residents x) (hchain : m ∉ f.chain s) : f.Rehoused f' s := by
  have hf' := h.wellLinked hf hs hne hnew hchain
  refine
    { sameLog := h.sameLog, wellLinked := hf', others := fun x hx => h.announced_other hx,
      row := ?_, face := ?_, chain := ?_
      entered := fun x hx => hx.imp (h.entered_mono x) (h.unwound x) }
  · intro x hannounced
    obtain ⟨scope, parent, children, hcell, -, hrecord⟩ := h.cell x
    simp only [announcedChildren, hcell] at hannounced
    simp only [TreeCell.row, hcell, hrecord, hannounced]
  · intro x c hc
    have hcm : c ≠ m := by
      rintro rfl
      exact hnew x (mem_residents_of_announced hc)
    by_cases hcs : c = s
    · subst hcs
      obtain ⟨scope, hcell, hmember, -⟩ := h.home
      simp only [TreeCell.face, hcell, hmember]
    · rw [h.rest c hcs hcm]
  · refine hf.chain_eq hf' ?_
    intro x hx
    refine h.parentOf_other hne ?_
    rintro rfl
    exact hchain hx

end Enters

end Forest

/-! ### Admission -/

omit [TokioBroadcast LifecycleEvent] in
/-- The slot an admission pushed holds it, and announcing it there marks it. -/
theorem holdsAt_pushed (children : List ResidentChild) (m : Membership) (announced : Bool) :
    holdsAt (children ++ [⟨m, announced⟩]) children.length m = true := by
  simp [holdsAt]

omit [TokioBroadcast LifecycleEvent] in
theorem announceAt_pushed (children : List ResidentChild) (m : Membership) (announced : Bool) :
    announceAt (children ++ [⟨m, announced⟩]) children.length = children ++ [⟨m, true⟩] := by
  induction children with
  | nil => rfl
  | cons c children ih => exact congrArg (c :: ·) ih

namespace ObservationTxn

variable {txn : ObservationTxn} {s m : Membership}

theorem setParent_snapshots (txn : ObservationTxn) (c parent : Membership) :
    (txn.setParent c parent).snapshots = txn.snapshots := by
  unfold setParent
  split <;> rfl

theorem setParent_parentOf (t : ObservationTxn) (hne : m ≠ s) :
    (t.setParent m s).forest.parentOf m = some s := by
  unfold setParent
  split
  · simp only [Forest.parentOf, ObservationTxn.modify, Forest.modify_cells_self]
  · simp only [Forest.parentOf, ObservationTxn.modify, Forest.modify_cells_of_ne _ _ hne,
      Forest.modify_cells_self]

variable {t : ObservationTxn}

/-- Linking a child scope, on top of an entry that has no link yet. -/
theorem enters_setParent {f : Forest} (hne : m ≠ s) (hscope : m ∈ f.arena)
    (h : f.Enters t.forest s m false) : f.Enters (t.setParent m s).forest s m false := by
  obtain ⟨scope, hhome, hmember, hrecord, hclosed⟩ := h.home
  obtain ⟨guest, parent, hguest, hkeeps, hrecord', hparent, -, hentered⟩ := h.guest
  have hlinked : ∀ {f' : Forest}, f'.arena = t.forest.arena → f'.emitted = t.forest.emitted →
      f'.unwound = t.forest.unwound →
      f'.cells m = { t.forest.cells m with
        parent := some s, scope := { (t.forest.cells m).scope with parent := true } } →
      (∃ control, f'.cells s = { t.forest.cells s with
        scope := { (t.forest.cells s).scope with control } }) →
      (∀ x, x ≠ s → x ≠ m → f'.cells x = t.forest.cells x) → f.Enters f' s m false := by
    rintro f' harena hemitted hunwound hm ⟨control, hs⟩ hrest
    refine
      { arena := harena.trans h.arena, emitted := hemitted.trans h.emitted,
        unwound := fun x hx => hunwound ▸ h.unwound x hx
        home := ⟨{ scope with control }, by rw [hs, hhome], hmember, hrecord, hclosed⟩
        guest := ⟨{ guest with parent := true }, some s, by rw [hm, hguest],
          ⟨hkeeps.id, hkeeps.closed, hkeeps.entered⟩, hrecord', .inr ⟨rfl, hscope⟩, fun _ _ => rfl,
          hunwound ▸ hentered⟩
        rest := fun x hxs hxm => (hrest x hxs hxm).trans (h.rest x hxs hxm) }
  unfold setParent
  split
  · refine hlinked rfl rfl rfl ?_ ⟨(t.forest.cells s).scope.control, ?_⟩ ?_
    · simp only [ObservationTxn.modify, Forest.modify_cells_self]
    · simp only [ObservationTxn.modify, Forest.modify_cells_of_ne _ _ hne.symm]
    · intro x _ hxm
      simp only [ObservationTxn.modify, Forest.modify_cells_of_ne _ _ hxm]
  · next target _ =>
      refine hlinked rfl rfl rfl ?_ ⟨{ (t.forest.cells s).scope.control with
        events := (t.forest.cells s).scope.control.events ++ [.windowStop m target] }, ?_⟩ ?_
      · simp only [ObservationTxn.modify, Forest.modify_cells_of_ne _ _ hne,
          Forest.modify_cells_self]
      · simp only [ObservationTxn.modify, Forest.modify_cells_self,
          Forest.modify_cells_of_ne _ _ hne.symm, ScopeCell.publishControlEvent]
      · intro x hxs hxm
        simp only [ObservationTxn.modify, Forest.modify_cells_of_ne _ _ hxs,
          Forest.modify_cells_of_ne _ _ hxm]

omit [TokioBroadcast LifecycleEvent] in
theorem transitionLocked_admitted {member : MemberCell} (h : member.record.stage = .reserved) :
    (member.transitionLocked .admitted).2.record.stage = .admitted := by
  simp [MemberCell.transitionLocked, MemberRecord.applyTransition, h,
    MemberTransition.isLegalFrom]

/-- The entry an admission pushed, once the member left `reserved`. -/
theorem enters_admitted (hne : m ≠ s) (hstage : (txn.forest.member m).record.stage = .reserved) :
    txn.forest.Enters ((txn.pushUnannounced s m).enterAdmitted m).forest s m false where
  arena := rfl
  emitted := rfl
  unwound := fun _ => id
  home := ⟨(txn.forest.cells s).scope, by
    simp only [enterAdmitted, pushUnannounced, ObservationTxn.modify, setChildren,
      Forest.modify_cells_of_ne _ _ hne.symm, Forest.modify_cells_self], rfl, rfl, rfl⟩
  guest := ⟨{ (txn.forest.cells m).scope with
      member := ((txn.forest.cells m).scope.member.transitionLocked .admitted).2 },
    txn.forest.parentOf m, by
      simp only [enterAdmitted, pushUnannounced, ObservationTxn.modify, setChildren,
        Forest.modify_cells_of_ne _ _ hne, Forest.modify_cells_self]
      rfl,
    ScopeCell.keeps_transition _ _, rfl, .inl rfl, by rintro ⟨⟩, .inl (by
      show ((txn.forest.member m).transitionLocked .admitted).2.record.stage ≠ .reserved
      rw [transitionLocked_admitted hstage]
      rintro ⟨⟩)⟩
  rest := fun x hxs hxm => by
    simp only [enterAdmitted, pushUnannounced, ObservationTxn.modify, setChildren,
      Forest.modify_cells_of_ne _ _ hxm, Forest.modify_cells_of_ne _ _ hxs]

/-- The entry of an admission that unwound in the gate handoff. -/
theorem enters_handoff (hne : m ≠ s) :
    txn.forest.Enters ((txn.pushUnannounced s m).markUnwound m).forest s m false where
  arena := rfl
  emitted := rfl
  unwound := fun _ => List.mem_cons_of_mem _
  home := ⟨(txn.forest.cells s).scope, by
    simp only [markUnwound, pushUnannounced, ObservationTxn.modify, setChildren,
      Forest.modify_cells_self], rfl, rfl, rfl⟩
  guest := ⟨(txn.forest.cells m).scope, txn.forest.parentOf m, by
      simp only [markUnwound, pushUnannounced, ObservationTxn.modify, setChildren,
        Forest.modify_cells_of_ne _ _ hne]
      rfl, .refl _, rfl, .inl rfl, by rintro ⟨⟩, .inr (List.mem_cons_self ..)⟩
  rest := fun x hxs _ => by
    simp only [markUnwound, pushUnannounced, ObservationTxn.modify, setChildren,
      Forest.modify_cells_of_ne _ _ hxs]

theorem enters_markUnwound {f : Forest} (h : f.Enters t.forest s m false) :
    f.Enters (t.markUnwound m).forest s m false := by
  obtain ⟨scope, parent, hcell, hkeeps, hrecord, hparent, hlinked, hentered⟩ := h.guest
  exact
    { arena := h.arena, emitted := h.emitted
      unwound := fun x hx => List.mem_cons_of_mem _ (h.unwound x hx)
      home := h.home
      guest := ⟨scope, parent, hcell, hkeeps, hrecord, hparent, hlinked,
        hentered.imp id (List.mem_cons_of_mem _)⟩
      rest := h.rest }

/-- Announcing an entry, whose child scope is linked. -/
theorem enters_announce {f : Forest} (hne : m ≠ s) (h : f.Enters t.forest s m false)
    (hparent : m ∈ f.arena → t.forest.parentOf m = some s) :
    f.Enters
      (t.setChildren s (announceAt · (f.cells s).currentChildren.length)).forest s m true := by
  obtain ⟨home, hhome, hmember, hrecord, hclosed⟩ := h.home
  obtain ⟨guest, parent, hguest, hkeeps, hrecord', hkept, -, hentered⟩ := h.guest
  refine
    { arena := h.arena, emitted := h.emitted, unwound := h.unwound
      home := ⟨home, ?_, hmember, hrecord, hclosed⟩
      guest := ⟨guest, parent, ?_, hkeeps, hrecord', hkept, ?_, hentered⟩
      rest := ?_ }
  · simp only [setChildren, ObservationTxn.modify, Forest.modify_cells_self, hhome,
      announceAt_pushed]
  · simp only [setChildren, ObservationTxn.modify, Forest.modify_cells_of_ne _ _ hne, hguest]
  · intro _ hscope
    have := hparent hscope
    simpa only [Forest.parentOf, hguest] using this
  · intro x hxs hxm
    simp only [setChildren, ObservationTxn.modify, Forest.modify_cells_of_ne _ _ hxs]
    exact h.rest x hxs hxm

/-- A refused admission leaves everything as it was. -/
theorem refused_eq (txn : ObservationTxn) (s m : Membership) :
    (txn.pushUnannounced s m).setChildren s List.dropLast = txn := by
  have hcells :
      ((txn.pushUnannounced s m).setChildren s List.dropLast).forest.cells = txn.forest.cells := by
    funext x
    by_cases hx : x = s
    · subst hx
      simp only [pushUnannounced, setChildren, ObservationTxn.modify, Forest.modify_cells_self,
        List.dropLast_concat]
    · simp only [pushUnannounced, setChildren, ObservationTxn.modify,
        Forest.modify_cells_of_ne _ _ hx]
  rcases txn with ⟨⟨arena, cells, unwound, emitted⟩, snapshots⟩
  simp only [pushUnannounced, setChildren, ObservationTxn.modify, Forest.modify] at hcells ⊢
  rw [hcells]

/-- What an admission returns and does. -/
inductive Admission (txn : ObservationTxn) (s m : Membership) :
    AdmitOutcome × ObservationTxn → Prop
  | refused : Admission txn s m (.refused, txn)
  | unwound {forest : Forest} : m ≠ s → (txn.forest.member m).record.stage = .reserved →
      txn.forest.Enters forest s m false → Admission txn s m (.unwound, { txn with forest })
  | admitted {forest : Forest} : m ≠ s → (txn.forest.member m).record.stage = .reserved →
      txn.forest.Enters forest s m true →
      Admission txn s m
        (.admitted, emit { txn with forest } s (.added (txn.forest.member m).id m))

theorem admitChildLocked_admission (hs : s ∈ txn.forest.arena) (unwind : Option UnwindPoint) :
    Admission txn s m (txn.admitChildLocked s m unwind) := by
  unfold admitChildLocked
  simp only
  by_cases hrefused : ((txn.forest.isScope m && decide (m = s)) ||
      !MemberTransition.admitted.isLegalFrom (txn.forest.member m).record.stage) = true
  · rw [if_pos hrefused, refused_eq]
    exact .refused
  rw [if_neg hrefused]
  simp only [Bool.or_eq_true, Bool.and_eq_true, decide_eq_true_eq, Bool.not_eq_true', not_or,
    not_and, Bool.not_eq_false, Forest.isScope] at hrefused
  obtain ⟨hself, hlegal⟩ := hrefused
  have hne : m ≠ s := by
    rintro rfl
    exact hself hs rfl
  have hstage : (txn.forest.member m).record.stage = .reserved := by
    cases hstage : (txn.forest.member m).record.stage with
    | reserved => rfl
    | _ => rw [hstage] at hlegal; cases hlegal
  have hadmitted : txn.forest.Enters ((txn.pushUnannounced s m).enterAdmitted m).forest s m false :=
    enters_admitted hne hstage
  have hlinked : txn.forest.Enters
      (((txn.pushUnannounced s m).enterAdmitted m).linkAdmitted s m).forest s m false := by
    unfold linkAdmitted
    split_ifs with hscope
    · exact enters_setParent hne (by simpa [Forest.isScope, hadmitted.arena] using hscope) hadmitted
    · exact hadmitted
  have hsnapshots : (((txn.pushUnannounced s m).enterAdmitted m).linkAdmitted s m).snapshots =
      txn.snapshots := by
    unfold linkAdmitted
    split_ifs
    · exact setParent_snapshots _ m s
    · rfl
  have hparent : m ∈ txn.forest.arena →
      (((txn.pushUnannounced s m).enterAdmitted m).linkAdmitted s m).forest.parentOf m =
        some s := by
    intro hscope
    have hisScope : ((txn.pushUnannounced s m).enterAdmitted m).forest.isScope m = true := by
      simpa [Forest.isScope, hadmitted.arena] using hscope
    rw [linkAdmitted, if_pos hisScope]
    exact setParent_parentOf _ hne
  by_cases hhandoff : unwind = some .handoff
  · rw [if_pos hhandoff]
    exact .unwound hne hstage (enters_handoff hne)
  rw [if_neg hhandoff]
  by_cases hat : unwind = some .admitted
  · rw [if_pos hat]
    exact .unwound hne hstage (enters_markUnwound hadmitted)
  rw [if_neg hat]
  generalize ((txn.pushUnannounced s m).enterAdmitted m).linkAdmitted s m = linked
    at hlinked hsnapshots hparent ⊢
  rcases linked with ⟨forest, snapshots⟩
  replace hlinked : txn.forest.Enters forest s m false := hlinked
  replace hsnapshots : snapshots = txn.snapshots := hsnapshots
  subst hsnapshots
  by_cases hafter : unwind = some .linked
  · rw [if_pos hafter]
    exact .unwound hne hstage (enters_markUnwound hlinked)
  rw [if_neg hafter]
  obtain ⟨home, hhome, -⟩ := hlinked.home
  obtain ⟨guest, parent, hguest, hkeeps, -⟩ := hlinked.guest
  have hid : (forest.member m).id = (txn.forest.member m).id := by
    simp only [Forest.member, hguest]
    exact hkeeps.id
  have hholds : holdsAt (forest.cells s).currentChildren (txn.forest.cells s).currentChildren.length
      m = true := by
    rw [hhome]
    exact holdsAt_pushed _ m false
  rw [if_pos hholds, hid]
  exact .admitted hne hstage (enters_announce hne hlinked hparent)

end ObservationTxn

/-! ### Leaving -/

namespace Forest

/-- Residents of a scope left, and the links of those among them were cut. -/
structure Leaves (f f' : Forest) (s : Membership) (kept : List ResidentChild)
    (gone : Membership → Prop) : Prop where
  arena : f'.arena = f.arena
  emitted : f'.emitted = f.emitted
  unwound : f'.unwound = f.unwound
  children_self : (f'.cells s).currentChildren = kept
  children_other : ∀ x, x ≠ s → (f'.cells x).currentChildren = (f.cells x).currentChildren
  severed : ∀ x, gone x → x ∈ f.arena → f'.parentOf x = none
  stays : ∀ x, ¬ (gone x ∧ x ∈ f.arena) → f'.parentOf x = f.parentOf x
  log : ∀ x, (f'.cells x).log = (f.cells x).log
  face : ∀ x, (f'.cells x).face = (f.cells x).face
  row : ∀ x, (f'.cells x).scope.record = (f.cells x).scope.record ∧
    (f'.cells x).flavor = (f.cells x).flavor ∧ (f'.cells x).intensity = (f.cells x).intensity

namespace Leaves

variable {f f' : Forest} {s : Membership} {kept : List ResidentChild} {gone : Membership → Prop}
  (h : f.Leaves f' s kept gone)
include h

theorem residents_self : f'.residents s = kept.map ResidentChild.member := by
  simp only [residents, h.children_self]

theorem announced_self :
    f'.announcedChildren s = (kept.filter (·.announced)).map ResidentChild.member := by
  simp only [announcedChildren, h.children_self]

variable {x : Membership}

theorem residents_other (hx : x ≠ s) : f'.residents x = f.residents x := by
  simp only [residents, h.children_other x hx]

theorem announced_other (hx : x ≠ s) : f'.announcedChildren x = f.announcedChildren x := by
  simp only [announcedChildren, h.children_other x hx]

theorem parentOf_of_some {p : Membership} (hp : f'.parentOf x = some p) :
    f.parentOf x = some p := by
  by_cases hgone : gone x ∧ x ∈ f.arena
  · rw [h.severed x hgone.1 hgone.2] at hp
    cases hp
  · rwa [h.stays x hgone] at hp

theorem residents_sub (hkept : kept.Sublist (f.cells s).currentChildren) (x : Membership) :
    (f'.residents x).Sublist (f.residents x) := by
  by_cases hx : x = s
  · subst hx
    rw [h.residents_self]
    exact hkept.map _
  · rw [h.residents_other hx]

theorem announced_sub (hkept : kept.Sublist (f.cells s).currentChildren) (x : Membership) :
    (f'.announcedChildren x).Sublist (f.announcedChildren x) := by
  by_cases hx : x = s
  · subst hx
    rw [h.announced_self]
    exact (hkept.filter _).map _
  · rw [h.announced_other hx]

theorem sameLog : f.SameLog f' := ⟨h.arena, h.emitted, h.log⟩

theorem entered_mono {m : Membership} (hm : f.Entered m) : f'.Entered m := by
  have hrecord : (f'.member m).record = (f.member m).record :=
    congrArg (fun view => view.2.1) (h.face m)
  unfold Entered
  rwa [hrecord, h.unwound]

/-- Exactly the residents that are not kept are gone. -/
theorem wellLinked (hf : f.WellLinked) (hkept : kept.Sublist (f.cells s).currentChildren)
    (hgone : ∀ x, gone x → x ∈ f.residents s)
    (hleft : ∀ x ∈ f.residents s, gone x ↔ x ∉ kept.map ResidentChild.member) :
    f'.WellLinked := by
  refine
    { acyclic := hf.acyclic.mono fun c p => h.parentOf_of_some
      listed := fun c p hp => by rw [h.arena]; exact hf.listed c p (h.parentOf_of_some hp)
      held := ?_, linked := ?_
      nodup := fun x => (hf.nodup x).sublist (h.residents_sub hkept x)
      single := fun x y c hx hy => hf.single x y c ((h.residents_sub hkept x).subset hx)
        ((h.residents_sub hkept y).subset hy)
      entered := ?_
      owner := fun x c hc => by
        rw [h.arena]
        exact hf.owner x c ((h.residents_sub hkept x).subset hc) }
  · intro c p hp
    have hheld := hf.held c p (h.parentOf_of_some hp)
    by_cases hps : p = s
    · subst hps
      rw [h.residents_self]
      by_contra hc
      rw [h.severed c ((hleft c hheld).2 hc) (hf.listed c p (h.parentOf_of_some hp))] at hp
      cases hp
    · rwa [h.residents_other hps]
  · intro x c hc hscope
    rw [h.arena] at hscope
    have hbefore := (h.announced_sub hkept x).subset hc
    rw [h.stays c ?_]
    · exact hf.linked x c hbefore hscope
    · rintro ⟨hcgone, -⟩
      have hres := hgone c hcgone
      have hxs : x = s := hf.single x s c (mem_residents_of_announced hbefore) hres
      subst hxs
      refine (hleft c hres).1 hcgone ?_
      rw [← h.residents_self]
      exact mem_residents_of_announced hc
  · intro x c hc
    exact h.entered_mono (hf.entered x c ((h.residents_sub hkept x).subset hc))

theorem rehoused (hf : f.WellLinked) (hkept : kept.Sublist (f.cells s).currentChildren)
    (hgone : ∀ x, gone x → x ∈ f.residents s)
    (hleft : ∀ x ∈ f.residents s, gone x ↔ x ∉ kept.map ResidentChild.member) :
    f.Rehoused f' s := by
  have hf' := h.wellLinked hf hkept hgone hleft
  refine
    { sameLog := h.sameLog, wellLinked := hf', others := fun x hx => h.announced_other hx
      row := ?_, face := fun x m _ => h.face m, chain := hf.chain_eq hf' ?_
      entered := fun _ => h.entered_mono }
  · intro x hannounced
    obtain ⟨hrecord, hflavor, hintensity⟩ := h.row x
    have hseq : (f'.cells x).lifecycleSeq = (f.cells x).lifecycleSeq :=
      congrArg (fun view => view.2.2.2) (h.face x)
    simp only [announcedChildren] at hannounced
    simp only [TreeCell.row, hrecord, hflavor, hintensity, hseq, hannounced]
  · intro x hx
    by_cases hxgone : gone x ∧ x ∈ f.arena
    · rw [h.severed x hxgone.1 hxgone.2, hf.parentOf_of_mem_chain (hgone x hxgone.1) hx]
    · exact h.stays x hxgone

end Leaves

end Forest

/-! ### Withdrawal -/

namespace ObservationTxn

/-- Cutting links touches nothing else. -/
theorem severParent_cells (txn : ObservationTxn) (m x : Membership) :
    (txn.severParent m).forest.cells x =
      if x = m ∧ m ∈ txn.forest.arena then
        { txn.forest.cells x with
          parent := none, scope := { (txn.forest.cells x).scope with parent := false } }
      else txn.forest.cells x := by
  unfold severParent
  by_cases hscope : m ∈ txn.forest.arena
  · have hisScope : txn.forest.isScope m = true := by simpa [Forest.isScope] using hscope
    rw [if_pos hisScope]
    by_cases hx : x = m
    · subst hx
      rw [if_pos ⟨rfl, hscope⟩]
      simp only [ObservationTxn.modify, Forest.modify_cells_self]
    · rw [if_neg fun h => hx h.1]
      simp only [ObservationTxn.modify, Forest.modify_cells_of_ne _ _ hx]
  · have hisScope : txn.forest.isScope m = false := by simpa [Forest.isScope] using hscope
    rw [if_neg (by simp [hisScope]), if_neg fun h => hscope h.2]

theorem severParent_forest (txn : ObservationTxn) (m : Membership) :
    (txn.severParent m).forest.arena = txn.forest.arena ∧
      (txn.severParent m).forest.emitted = txn.forest.emitted ∧
      (txn.severParent m).forest.unwound = txn.forest.unwound ∧
      (txn.severParent m).snapshots = txn.snapshots := by
  unfold severParent
  split_ifs <;> exact ⟨rfl, rfl, rfl, rfl⟩

variable {t : ObservationTxn}

/-- Cutting one more link of a withdrawal. -/
theorem leaves_severParent {f : Forest} {s m : Membership} {kept : List ResidentChild}
    {gone : Membership → Prop} (h : f.Leaves t.forest s kept gone) :
    f.Leaves (t.severParent m).forest s kept fun x => gone x ∨ x = m := by
  obtain ⟨harena, hemitted, hunwound, -⟩ := t.severParent_forest m
  have hcells := t.severParent_cells m
  -- a view that ignores the link is the same
  have hview : ∀ {β : Type} (view : TreeCell → β) (x : Membership),
      view { t.forest.cells x with
        parent := none, scope := { (t.forest.cells x).scope with parent := false } } =
        view (t.forest.cells x) →
      view ((t.severParent m).forest.cells x) = view (t.forest.cells x) := by
    intro β view x hsame
    rw [hcells x]
    split_ifs
    · exact hsame
    · rfl
  refine
    { arena := harena.trans h.arena, emitted := hemitted.trans h.emitted
      unwound := hunwound.trans h.unwound
      children_self := (hview TreeCell.currentChildren s rfl).trans h.children_self
      children_other := fun x hx => (hview TreeCell.currentChildren x rfl).trans
        (h.children_other x hx)
      severed := ?_, stays := ?_
      log := fun x => (hview TreeCell.log x rfl).trans (h.log x)
      face := fun x => (hview TreeCell.face x rfl).trans (h.face x)
      row := fun x => ?_ }
  · intro x hx hscope
    simp only [Forest.parentOf, hcells x]
    split_ifs with hcut
    · rfl
    · refine h.severed x (hx.resolve_right ?_) hscope
      rintro rfl
      exact hcut ⟨rfl, h.arena ▸ hscope⟩
  · intro x hx
    have hcut : ¬ (x = m ∧ m ∈ t.forest.arena) := by
      rintro ⟨rfl, hscope⟩
      exact hx ⟨.inr rfl, h.arena ▸ hscope⟩
    simp only [Forest.parentOf, hcells x, if_neg hcut]
    exact h.stays x fun hgone => hx ⟨.inl hgone.1, hgone.2⟩
  · obtain ⟨hrecord, hflavor, hintensity⟩ := h.row x
    exact ⟨(hview (fun cell => cell.scope.record) x rfl).trans hrecord,
      (hview TreeCell.flavor x rfl).trans hflavor,
      (hview TreeCell.intensity x rfl).trans hintensity⟩

theorem leaves_severAll {f : Forest} {s : Membership} {kept : List ResidentChild}
    (l : List Membership) {gone : Membership → Prop} (h : f.Leaves t.forest s kept gone) :
    f.Leaves (l.foldl severParent t).forest s kept fun x => gone x ∨ x ∈ l := by
  induction l generalizing t gone with
  | nil =>
    have hnil : (fun x => gone x ∨ x ∈ ([] : List Membership)) = gone := by
      funext x
      simp
    rw [hnil]
    exact h
  | cons m l ih =>
    have hcons : (fun x => gone x ∨ x ∈ m :: l) = fun x => (gone x ∨ x = m) ∨ x ∈ l := by
      funext x
      simp [or_assoc]
    rw [hcons]
    exact ih (leaves_severParent h)

theorem severAll_snapshots (l : List Membership) (t : ObservationTxn) :
    (l.foldl severParent t).snapshots = t.snapshots := by
  induction l generalizing t with
  | nil => rfl
  | cons m l ih =>
    obtain ⟨-, -, -, hsnapshots⟩ := t.severParent_forest m
    rw [List.foldl_cons, ih, hsnapshots]

/-- Replacing the residents, before any link is cut. -/
theorem leaves_setChildren (txn : ObservationTxn) (s : Membership)
    (g : List ResidentChild → List ResidentChild) :
    txn.forest.Leaves (txn.setChildren s g).forest s (g (txn.forest.cells s).currentChildren)
      fun _ => False := by
  have hview : ∀ {β : Type} (view : TreeCell → β) (x : Membership),
      (∀ cell currentChildren, view { cell with currentChildren } = view cell) →
      view ((txn.setChildren s g).forest.cells x) = view (txn.forest.cells x) := by
    intro β view x hsame
    exact txn.forest.view_modify view s
      (fun cell => { cell with currentChildren := g cell.currentChildren }) (hsame _ _) x
  exact
    { arena := rfl, emitted := rfl, unwound := rfl
      children_self := by simp only [setChildren, ObservationTxn.modify, Forest.modify_cells_self]
      children_other := fun x hx => by
        simp only [setChildren, ObservationTxn.modify, Forest.modify_cells_of_ne _ _ hx]
      severed := fun _ h => h.elim
      stays := fun x _ => hview TreeCell.parent x fun _ _ => rfl
      log := fun x => hview TreeCell.log x fun _ _ => rfl
      face := fun x => hview TreeCell.face x fun _ _ => rfl
      row := fun x => ⟨hview (fun cell => cell.scope.record) x fun _ _ => rfl,
        hview TreeCell.flavor x fun _ _ => rfl, hview TreeCell.intensity x fun _ _ => rfl⟩ }

omit [TokioBroadcast LifecycleEvent] in
/-- Without repetition, erasing the first entry of a membership erases them
all. -/
theorem eraseP_eq_filter (m : Membership) {l : List ResidentChild}
    (h : (l.map ResidentChild.member).Nodup) :
    (l.eraseP fun r => r.member = m) = l.filter fun r => r.member ≠ m := by
  induction l with
  | nil => rfl
  | cons r l ih =>
    obtain ⟨hr, hl⟩ := List.nodup_cons.1 h
    by_cases hm : r.member = m
    · have hnone : ∀ r' ∈ l, r'.member ≠ m := fun r' hr' heq =>
        hr (hm ▸ heq ▸ List.mem_map_of_mem hr')
      rw [List.eraseP_cons_of_pos (by simpa using hm),
        List.filter_cons_of_neg (by simpa using hm)]
      exact (List.filter_eq_self.2 fun r' hr' => by simpa using hnone r' hr').symm
    · rw [List.eraseP_cons_of_neg (by simpa using hm),
        List.filter_cons_of_pos (by simpa using hm), ih hl]

variable {txn : ObservationTxn} {s m : Membership}

theorem eq_with_forest (h : t.snapshots = txn.snapshots) : t = { txn with forest := t.forest } := by
  cases t
  cases h
  rfl

/-- A resident is announced if its entry is. -/
theorem announced_iff (hf : txn.forest.WellLinked) {r : ResidentChild}
    (hr : r ∈ (txn.forest.cells s).currentChildren) :
    r.member ∈ txn.forest.announcedChildren s ↔ r.announced = true := by
  constructor
  · intro h
    obtain ⟨r', hr', heq⟩ := List.mem_map.1 h
    obtain ⟨hr', hannounced⟩ := List.mem_filter.1 hr'
    rwa [← List.inj_on_of_nodup_map (hf.nodup s) hr' hr heq]
  · intro h
    exact List.mem_map_of_mem (List.mem_filter.2 ⟨hr, h⟩)

/-- What a prune returns and does. -/
inductive Pruning (txn : ObservationTxn) (s m : Membership) : Bool × ObservationTxn → Prop
  | absent : m ∉ txn.forest.residents s → Pruning txn s m (false, txn)
  | unannounced {forest : Forest} : m ∈ txn.forest.residents s →
      m ∉ txn.forest.announcedChildren s → txn.forest.Rehoused forest s →
      forest.announcedChildren s = txn.forest.announcedChildren s →
      Pruning txn s m (true, { txn with forest })
  | announced {forest : Forest} {id : ChildId} {lastIncarnation : Option Incarnation} :
      m ∈ txn.forest.announcedChildren s → txn.forest.Rehoused forest s →
      forest.announcedChildren s = (txn.forest.announcedChildren s).filter (· ≠ m) →
      Pruning txn s m (true, emit { txn with forest } s (.removed id m lastIncarnation))

theorem pruneChildLocked_pruning (hf : txn.forest.WellLinked) (s m : Membership) :
    Pruning txn s m (txn.pruneChildLocked s m) := by
  unfold pruneChildLocked
  split
  · next hnone =>
      refine .absent ?_
      intro hm
      obtain ⟨r, hr, rfl⟩ := List.mem_map.1 hm
      simpa using List.find?_eq_none.1 hnone r hr
  · next resident hfind =>
      have hres : resident ∈ (txn.forest.cells s).currentChildren := List.mem_of_find?_eq_some hfind
      have hmember : resident.member = m := by simpa using List.find?_some hfind
      subst hmember
      have hm : resident.member ∈ txn.forest.residents s := List.mem_map_of_mem hres
      generalize hdrawn : (txn.setChildren s fun children =>
        children.eraseP fun r => r.member = resident.member).severParent resident.member = withdrawn
      have hleaves : txn.forest.Leaves withdrawn.forest s
          ((txn.forest.cells s).currentChildren.filter fun r => r.member ≠ resident.member)
          fun x => False ∨ x = resident.member := by
        rw [← eraseP_eq_filter _ (hf.nodup s), ← hdrawn]
        exact leaves_severParent (txn.leaves_setChildren s fun children =>
          children.eraseP fun r => r.member = resident.member)
      have hsnapshots : withdrawn.snapshots = txn.snapshots := by
        rw [← hdrawn, (severParent_forest _ _).2.2.2]
        rfl
      have hrehoused : txn.forest.Rehoused withdrawn.forest s := by
        refine hleaves.rehoused hf List.filter_sublist ?_ ?_
        · rintro x (hx | rfl)
          · exact hx.elim
          · exact hm
        · intro x hx
          obtain ⟨r, hr, rfl⟩ := List.mem_map.1 hx
          simp only [false_or, List.mem_map, List.mem_filter, decide_eq_true_eq, ne_eq]
          constructor
          · rintro heq ⟨r', ⟨-, hne⟩, hr'⟩
            exact hne (hr'.trans heq)
          · intro hnot
            by_contra hne
            exact hnot ⟨r, ⟨hr, hne⟩, rfl⟩
      have hannounced : withdrawn.forest.announcedChildren s =
          (txn.forest.announcedChildren s).filter (· ≠ resident.member) := by
        rw [hleaves.announced_self]
        simp only [Forest.announcedChildren, List.filter_map, List.filter_filter, Function.comp_def]
        simp only [Bool.and_comm]
      by_cases hres' : resident.announced = true
      · simp only [hres', if_true]
        rw [eq_with_forest hsnapshots]
        exact .announced ((announced_iff hf hres).2 hres') hrehoused hannounced
      · simp only [hres', Bool.false_eq_true, if_false]
        have hnot : resident.member ∉ txn.forest.announcedChildren s :=
          fun h => hres' ((announced_iff hf hres).1 h)
        rw [eq_with_forest hsnapshots]
        refine .unannounced hm hnot hrehoused ?_
        rw [hannounced]
        refine List.filter_eq_self.2 fun x hx => ?_
        simp only [ne_eq, decide_not, Bool.not_eq_true', decide_eq_false_iff_not]
        rintro rfl
        exact hnot hx

/-- Withdrawal events that follow each other. -/
theorem foldl_emit_moves (h : TreeMoves false txn (fun _ => False) t) (hs : s ∈ txn.forest.arena)
    (kinds : List LifecycleEventKind) :
    TreeMoves false txn (fun _ => False) (kinds.foldl (fun txn kind => txn.emit s kind) t) := by
  induction kinds generalizing t with
  | nil => exact h
  | cons kind kinds ih =>
    refine ih (.emit s kind h (by rwa [h.arena]) (fun hquiet => by cases hquiet) ?_)
    exact fun _ hx _ => hx

/-- Clearing withdraws every resident and emits for the announced ones. -/
theorem clearResidentsLocked_eq (hf : txn.forest.WellLinked) (s : Membership) :
    ∃ forest, txn.forest.Rehoused forest s ∧ forest.announcedChildren s = [] ∧
      txn.clearResidentsLocked s =
        ((txn.forest.announcedChildren s).map fun m =>
          LifecycleEventKind.removed (txn.forest.member m).id m
            (txn.forest.member m).record.lastIncarnation).foldl
          (fun txn kind => txn.emit s kind) { txn with forest } := by
  unfold clearResidentsLocked
  simp only
  generalize hdrawn : ((txn.forest.cells s).currentChildren.map ResidentChild.member).foldl
    severParent (txn.setChildren s fun _ => []) = severed
  have hleaves : txn.forest.Leaves severed.forest s []
      fun x => False ∨ x ∈ txn.forest.residents s := by
    rw [← hdrawn]
    exact leaves_severAll _ (txn.leaves_setChildren s fun _ => [])
  have hsnapshots : severed.snapshots = txn.snapshots := by
    rw [← hdrawn, severAll_snapshots]
    rfl
  have hevents : (txn.forest.announcedChildren s).map severed.removedEvent =
      (txn.forest.announcedChildren s).map fun m =>
        LifecycleEventKind.removed (txn.forest.member m).id m
          (txn.forest.member m).record.lastIncarnation := by
    apply List.map_congr_left
    intro m _
    have hid : (severed.forest.member m).id = (txn.forest.member m).id :=
      congrArg (fun view => view.1) (hleaves.face m)
    have hrecord : (severed.forest.member m).record = (txn.forest.member m).record :=
      congrArg (fun view => view.2.1) (hleaves.face m)
    simp only [removedEvent, hid, hrecord]
  refine ⟨severed.forest, ?_, ?_, ?_⟩
  · refine hleaves.rehoused hf (List.nil_sublist _) ?_ ?_
    · exact fun x hx => hx.elim False.elim id
    · intro x hx
      simp [hx]
  · exact hleaves.announced_self
  · rw [hevents, ← eq_with_forest hsnapshots]

theorem clearResidentsLocked_moves (hf : txn.forest.WellLinked) (hs : s ∈ txn.forest.arena) :
    TreeMoves false txn (fun _ => False) (txn.clearResidentsLocked s) := by
  obtain ⟨forest, hrehoused, hnil, heq⟩ := clearResidentsLocked_eq hf s
  rw [heq]
  cases hannounced : txn.forest.announcedChildren s with
  | nil => exact .rehouse_unseen hrehoused (hnil.trans hannounced.symm)
  | cons m rest =>
    -- the first event publishes the emptied scope, the others find nothing owed
    exact foldl_emit_moves (.rehouse_emit hf hs hrehoused _) hs _

theorem pruneChildLocked_moves (hf : txn.forest.WellLinked) (hs : s ∈ txn.forest.arena) :
    TreeMoves false txn (fun _ => False) (txn.pruneChildLocked s m).2 := by
  have h := pruneChildLocked_pruning hf s m
  generalize txn.pruneChildLocked s m = result at h
  cases h with
  | absent _ => exact .start
  | unannounced _ _ hrehoused hsame => exact .rehouse_unseen hrehoused hsame
  | announced _ hrehoused _ => exact .rehouse_emit hf hs hrehoused _

/-- A member that is `reserved` and was not left by an unwound admission is
resident nowhere. -/
theorem not_resident_of_reserved (hf : txn.forest.WellLinked)
    (hstage : (txn.forest.member m).record.stage = .reserved) (hm : m ∉ txn.forest.unwound)
    (x : Membership) : m ∉ txn.forest.residents x := by
  intro hx
  rcases hf.entered x m hx with hentered | hunwound
  · exact hentered hstage
  · exact hm hunwound

/-- The new resident is not above its scope: a leaf is above nothing, and the
residency is kept a forest. -/
theorem not_mem_chain (hf : txn.forest.WellLinked) (hs : s ∈ txn.forest.arena) (hne : m ≠ s)
    (hforest : m ∈ txn.forest.arena → m ∉ txn.forest.ancestors s) : m ∉ txn.forest.chain s := by
  intro hm
  have hscope := hf.mem_arena_of_mem_chain hs hm
  rcases List.mem_cons.1 hm with heq | hmem
  · exact hne heq
  · exact hforest hscope hmem

theorem admitChildLocked_moves (hf : txn.forest.WellLinked) (hs : s ∈ txn.forest.arena)
    (hm : m ∉ txn.forest.unwound)
    (hforest : m ∈ txn.forest.arena → m ∉ txn.forest.ancestors s) (unwind : Option UnwindPoint) :
    TreeMoves false txn (fun _ => False) (txn.admitChildLocked s m unwind).2 := by
  have h := admitChildLocked_admission (m := m) hs unwind
  generalize txn.admitChildLocked s m unwind = result at h
  cases h with
  | refused => exact .start
  | unwound hne hstage henters =>
    have hrehoused := henters.rehoused hf hs hne (not_resident_of_reserved hf hstage hm)
      (not_mem_chain hf hs hne hforest)
    exact .rehouse_unseen hrehoused (by rw [henters.announced_self]; exact List.append_nil _)
  | admitted hne hstage henters =>
    have hrehoused := henters.rehoused hf hs hne (not_resident_of_reserved hf hstage hm)
      (not_mem_chain hf hs hne hforest)
    exact .rehouse_emit hf hs hrehoused _

end ObservationTxn

end Shelterwood
