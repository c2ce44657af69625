/-
Shelterwood/ResidencyPairs.lean

`Added` and `Removed` pair exactly.

The residency events of a scope say everything about its announced children:
those with an `Added` and no `Removed`, in the order of their `Added` events
(`Paired`).  An admission appends an `Added` for a membership without events,
which it can only be while it is `reserved`; a withdrawal appends a `Removed` for
announced children.  No other step emits a residency event or changes the
announced children.
-/
import Shelterwood.SnapshotCoherence

namespace Shelterwood

/-! ### Event lists -/

namespace LifecycleEventKind

/-- The event announces or withdraws the membership. -/
def concerns (kind : LifecycleEventKind) (m : Membership) : Bool :=
  kind.added? = some m || kind.removed? = some m

end LifecycleEventKind

open LifecycleEventKind

section Trees

variable [TokioBroadcast LifecycleEvent]

/-- The residency events a scope emitted. -/
def Forest.residencyEvents (f : Forest) (s : Membership) : List LifecycleEventKind :=
  (f.emitted.filter fun e => e.event.scope = s && e.event.kind.isResidency).map fun e =>
    e.event.kind

/-- An `Added`, then at most one `Removed`. -/
inductive AddedThenRemoved (m : Membership) : List LifecycleEventKind → Prop
  | never : AddedThenRemoved m []
  | resident (id : ChildId) : AddedThenRemoved m [.added id m]
  | withdrawn (id id' : ChildId) (lastIncarnation : Option Incarnation) :
      AddedThenRemoved m [.added id m, .removed id' m lastIncarnation]

/-- The events of each membership pair, and the announced children are those
added and not removed yet. -/
structure Paired (events : List LifecycleEventKind) (announced : List Membership) : Prop where
  pairs : ∀ m, AddedThenRemoved m (events.filter (concerns · m))
  announced_eq : announced =
    (events.filterMap added?).filter fun m => m ∉ events.filterMap removed?

namespace Paired

omit [TokioBroadcast LifecycleEvent]

variable {events : List LifecycleEventKind} {announced : List Membership} {m : Membership}

theorem mem_added_iff (events : List LifecycleEventKind) (m : Membership) :
    m ∈ events.filterMap added? ↔ ∃ kind ∈ events.filter (concerns · m), kind.added? = some m := by
  simp only [List.mem_filterMap, List.mem_filter, concerns]
  constructor
  · rintro ⟨kind, hkind, hadded⟩
    exact ⟨kind, ⟨hkind, by simp [hadded]⟩, hadded⟩
  · rintro ⟨kind, ⟨hkind, -⟩, hadded⟩
    exact ⟨kind, hkind, hadded⟩

theorem mem_removed_iff (events : List LifecycleEventKind) (m : Membership) :
    m ∈ events.filterMap removed? ↔
      ∃ kind ∈ events.filter (concerns · m), kind.removed? = some m := by
  simp only [List.mem_filterMap, List.mem_filter, concerns]
  constructor
  · rintro ⟨kind, hkind, hremoved⟩
    exact ⟨kind, ⟨hkind, by simp [hremoved]⟩, hremoved⟩
  · rintro ⟨kind, ⟨hkind, -⟩, hremoved⟩
    exact ⟨kind, hkind, hremoved⟩

theorem nil : Paired [] [] := ⟨fun _ => .never, rfl⟩

/-- An announced child has its `Added` event alone. -/
theorem of_announced (h : Paired events announced) (hm : m ∈ announced) :
    ∃ id, events.filter (concerns · m) = [.added id m] := by
  rw [h.announced_eq, List.mem_filter] at hm
  obtain ⟨hadded, hremoved⟩ := hm
  simp only [decide_eq_true_eq] at hremoved
  rw [mem_added_iff] at hadded
  rw [mem_removed_iff] at hremoved
  have hpair := h.pairs m
  generalize events.filter (concerns · m) = about at hadded hremoved hpair ⊢
  cases hpair with
  | never =>
    obtain ⟨kind, hkind, -⟩ := hadded
    cases hkind
  | resident id => exact ⟨id, rfl⟩
  | withdrawn id id' lastIncarnation =>
    exact absurd ⟨_, List.mem_cons_of_mem _ (List.mem_cons_self ..), rfl⟩ hremoved

/-- An `Added` for a membership without events. -/
theorem add (h : Paired events announced) (id : ChildId)
    (hfresh : events.filter (concerns · m) = []) :
    Paired (events ++ [.added id m]) (announced ++ [m]) where
  pairs := fun x => by
    rw [List.filter_append]
    by_cases hx : x = m
    · subst hx
      rw [hfresh]
      simpa [concerns, added?] using AddedThenRemoved.resident id
    · have hother : [LifecycleEventKind.added id m].filter (concerns · x) = [] := by
        simp [concerns, added?, removed?, Ne.symm hx]
      rw [hother, List.append_nil]
      exact h.pairs x
  announced_eq := by
    have hremoved : m ∉ events.filterMap removed? := by
      rw [mem_removed_iff, hfresh]
      rintro ⟨kind, hkind, -⟩
      cases hkind
    have hnil : [LifecycleEventKind.added id m].filterMap removed? = [] := rfl
    have hone : [LifecycleEventKind.added id m].filterMap added? = [m] := rfl
    rw [List.filterMap_append, List.filterMap_append, hnil, hone, List.append_nil,
      List.filter_append, ← h.announced_eq]
    have hkept : [m].filter (fun x => x ∉ events.filterMap removed?) = [m] :=
      List.filter_cons_of_pos (by simpa using hremoved)
    rw [hkept]

/-- A `Removed` for an announced child. -/
theorem remove (h : Paired events announced) (id : ChildId) (lastIncarnation : Option Incarnation)
    (hm : m ∈ announced) :
    Paired (events ++ [.removed id m lastIncarnation]) (announced.filter (· ≠ m)) where
  pairs := fun x => by
    rw [List.filter_append]
    by_cases hx : x = m
    · subst hx
      obtain ⟨id', habout⟩ := h.of_announced hm
      rw [habout]
      simpa [concerns, removed?] using AddedThenRemoved.withdrawn id' id lastIncarnation
    · have hother :
          [LifecycleEventKind.removed id m lastIncarnation].filter (concerns · x) = [] := by
        simp [concerns, added?, removed?, Ne.symm hx]
      rw [hother, List.append_nil]
      exact h.pairs x
  announced_eq := by
    have hnil : [LifecycleEventKind.removed id m lastIncarnation].filterMap added? = [] := rfl
    have hone : [LifecycleEventKind.removed id m lastIncarnation].filterMap removed? = [m] := rfl
    rw [List.filterMap_append, List.filterMap_append, hnil, hone, List.append_nil,
      h.announced_eq, List.filter_filter]
    congr 1
    funext x
    simp [and_comm]

/-- A `Removed` for each of some announced children, in order. -/
theorem removeAll (gone : List Membership) (h : Paired events announced) (hnodup : gone.Nodup)
    (hgone : ∀ m ∈ gone, m ∈ announced) (kind : Membership → LifecycleEventKind)
    (hkind : ∀ m, ∃ id lastIncarnation, kind m = .removed id m lastIncarnation) :
    Paired (events ++ gone.map kind) (announced.filter (· ∉ gone)) := by
  induction gone generalizing events announced with
  | nil => simpa using h
  | cons m gone ih =>
    obtain ⟨hm, hrest⟩ := List.nodup_cons.1 hnodup
    obtain ⟨id, lastIncarnation, hremoved⟩ := hkind m
    have hone := h.remove id lastIncarnation (hgone m (List.mem_cons_self ..))
    have hafter := ih hone hrest fun x hx => by
      refine List.mem_filter.2 ⟨hgone x (List.mem_cons_of_mem _ hx), ?_⟩
      simp only [ne_eq, decide_not, Bool.not_eq_true', decide_eq_false_iff_not]
      rintro rfl
      exact hm hx
    rw [List.filter_filter, List.append_assoc] at hafter
    have hboth : (announced.filter fun x => decide (x ∉ gone) && decide (x ≠ m)) =
        announced.filter (· ∉ m :: gone) := by
      refine List.filter_congr fun x _ => ?_
      rw [← Bool.decide_and, decide_eq_decide, List.mem_cons, not_or]
      exact and_comm
    rw [hboth] at hafter
    rwa [List.map_cons, hremoved]

end Paired

/-! ### Steps -/

/-- What a step does to the announced children of a scope, and the residency
events it emits there. -/
inductive ResidencyStep (before : List Membership) :
    List Membership → List LifecycleEventKind → Prop
  | kept : ResidencyStep before before []
  | admitted {m : Membership} (id : ChildId) : m ∉ before →
      ResidencyStep before (before ++ [m]) [.added id m]
  | withdrawn {gone : List Membership} (kind : Membership → LifecycleEventKind) :
      (∀ m, ∃ id lastIncarnation, kind m = .removed id m lastIncarnation) →
      before.filter (· ∈ gone) = gone →
      ResidencyStep before (before.filter (· ∉ gone)) (gone.map kind)

namespace ResidencyStep

omit [TokioBroadcast LifecycleEvent]

variable {before after : List Membership} {new : List LifecycleEventKind}

/-- A `Removed` is emitted for exactly the announced children that left. -/
theorem removed_eq (h : ResidencyStep before after new) :
    new.filterMap removed? = before.filter (· ∉ after) := by
  cases h with
  | kept => simp
  | @admitted m id _ =>
    have hnone : before.filter (· ∉ before ++ [m]) = [] := by
      refine List.filter_eq_nil_iff.2 fun x hx => ?_
      simp [hx]
    rw [hnone]
    rfl
  | @withdrawn gone kind hkind hgone =>
    have hremoved : (gone.map kind).filterMap removed? = gone := by
      rw [List.filterMap_map]
      have hsome : removed? ∘ kind = some := by
        funext m
        obtain ⟨id, lastIncarnation, hm⟩ := hkind m
        simp [hm, removed?]
      rw [hsome, List.filterMap_some]
    rw [hremoved]
    nth_rewrite 1 [← hgone]
    refine List.filter_congr fun x hx => ?_
    simp [hx]

/-- An `Added` is emitted for exactly the children that became announced. -/
theorem added_eq (h : ResidencyStep before after new) :
    new.filterMap added? = after.filter (· ∉ before) := by
  cases h with
  | kept => simp
  | @admitted m id hm =>
    simp [added?, hm]
  | @withdrawn gone kind hkind hgone =>
    have hnone : (gone.map kind).filterMap added? = [] := by
      refine List.filterMap_eq_nil_iff.2 fun k hk => ?_
      obtain ⟨m, -, rfl⟩ := List.mem_map.1 hk
      obtain ⟨id, lastIncarnation, hm⟩ := hkind m
      rw [hm]
      rfl
    rw [hnone]
    refine (List.filter_eq_nil_iff.2 fun x hx => ?_).symm
    simp [(List.mem_filter.1 hx).1]

/-- Pairing is kept, if only memberships without events are added. -/
theorem paired (h : ResidencyStep before after new) (hnodup : before.Nodup)
    {events : List LifecycleEventKind} (hpaired : Paired events before)
    (hfresh : ∀ m ∈ new.filterMap added?, events.filter (concerns · m) = []) :
    Paired (events ++ new) after := by
  cases h with
  | kept => rwa [List.append_nil]
  | @admitted m id _ => exact hpaired.add id (hfresh m (by simp [added?]))
  | @withdrawn gone kind hkind hgone =>
    refine hpaired.removeAll gone ?_ ?_ kind hkind
    · rw [← hgone]
      exact hnodup.filter _
    · intro m hm
      rw [← hgone] at hm
      exact (List.mem_filter.1 hm).1

end ResidencyStep

namespace ObservationTxn

theorem residencyEvents_emit (txn : ObservationTxn) (s x : Membership) (kind : LifecycleEventKind) :
    (txn.emit s kind).forest.residencyEvents x =
      txn.forest.residencyEvents x ++ if s = x ∧ kind.isResidency = true then [kind] else [] := by
  simp only [Forest.residencyEvents, emit_emitted, List.filter_append, List.map_append]
  congr 1
  by_cases hx : s = x ∧ kind.isResidency = true
  · simp [hx, Forest.emission]
  · rw [if_neg hx]
    simpa [Forest.emission] using hx

end ObservationTxn

theorem Forest.residencyEvents_congr {f f' : Forest} (h : f'.emitted = f.emitted) (s : Membership) :
    f'.residencyEvents s = f.residencyEvents s := by
  simp only [residencyEvents, h]

open ObservationTxn

/-- Residency as it was: the same edges, no residency event, nobody reserved
again. -/
structure SameResidency (f f' : Forest) : Prop where
  announced : ∀ s, f'.announcedChildren s = f.announcedChildren s
  events : ∀ s, f'.residencyEvents s = f.residencyEvents s
  entered : ∀ m, f.Entered m → f'.Entered m

namespace SameResidency

theorem trans {f f' f'' : Forest} (h : SameResidency f f') (h' : SameResidency f' f'') :
    SameResidency f f'' where
  announced := fun s => (h'.announced s).trans (h.announced s)
  events := fun s => (h'.events s).trans (h.events s)
  entered := fun m hm => h'.entered m (h.entered m hm)

theorem of_shape {f f' : Forest} (hshape : f.SameShape f') (hemitted : f'.emitted = f.emitted) :
    SameResidency f f' :=
  ⟨hshape.announcedChildren, Forest.residencyEvents_congr hemitted, fun _ => hshape.entered_mono⟩

end SameResidency

theorem TreeMoves.sameResidency {txn t : ObservationTxn} {D : Membership → Prop}
    (hf : txn.forest.WellLinked) (h : TreeMoves true txn D t) :
    SameResidency txn.forest t.forest := by
  have hshape := h.sameShape hf
  refine ⟨hshape.announcedChildren, ?_, fun _ => hshape.entered_mono⟩
  intro s
  clear hshape
  generalize hquiet : true = quiet at h
  induction h with
  | start => rfl
  | edit forest R _ hlog _ _ _ _ _ ih =>
    exact (Forest.residencyEvents_congr hlog.emitted s).trans ih
  | publish x _ _ ih => rwa [publishSnapshot_forest]
  | emit x kind _ _ hkind _ ih =>
    rw [residencyEvents_emit, ih, if_neg, List.append_nil]
    rw [hkind hquiet.symm]
    rintro ⟨-, ⟨⟩⟩

/-- A quiet step leaves residency alone. -/
theorem GateMoves.sameResidency {reads : Bool} {g g' : GateState} (hf : g.txn.forest.WellLinked)
    (h : GateMoves true reads g g') : SameResidency g.txn.forest g'.txn.forest := by
  cases h with
  | writes _ _ hmoves => exact hmoves.sameResidency hf
  | @wrote txn t hwrote =>
    have hcommit := SameResidency.of_shape t.commit_sameShape t.commit_emitted
    obtain ⟨t, hmoves, rfl | ⟨s, -, rfl⟩⟩ := hwrote
    · exact (hmoves.sameResidency hf).trans hcommit
    · exact ((hmoves.sameResidency hf).trans (.of_shape (t.closeObservation_sameShape s)
        (t.closeObservation_forest s).2.1)).trans hcommit
  | @commit txn status _ => exact .of_shape txn.commit_sameShape txn.commit_emitted
  | opened | panicked => exact .of_shape (.refl _) rfl
  | @subscribed txn s _ =>
    exact .of_shape (txn.forest.modify_hubs s _ fun cell => ⟨_, _, rfl⟩).1 rfl
  | receivers | lifecycle =>
    exact .of_shape (g.txn.forest.modify_hubs _ _ fun cell => ⟨_, _, rfl⟩).1 rfl

/-! ### The residency writers -/

/-- The residency of one scope changed, with the events it emitted. -/
structure ResidencyChange (f f' : Forest) (s : Membership) (new : List LifecycleEventKind) :
    Prop where
  step : ResidencyStep (f.announcedChildren s) (f'.announcedChildren s) new
  events : f'.residencyEvents s = f.residencyEvents s ++ new
  others : ∀ x, x ≠ s → f'.announcedChildren x = f.announcedChildren x ∧
    f'.residencyEvents x = f.residencyEvents x
  entered : ∀ m, f.Entered m → f'.Entered m

namespace ResidencyChange

/-- A re-housed scope that emitted nothing. -/
theorem of_unseen {f f' : Forest} {s : Membership} (h : f.Rehoused f' s)
    (hsame : f'.announcedChildren s = f.announcedChildren s) : ResidencyChange f f' s [] where
  step := by rw [hsame]; exact .kept
  events := by rw [List.append_nil]; exact Forest.residencyEvents_congr h.sameLog.emitted s
  others := fun x hx => ⟨h.others x hx, Forest.residencyEvents_congr h.sameLog.emitted x⟩
  entered := h.entered

/-- A re-housed scope that emitted one residency event. -/
theorem of_emit {txn : ObservationTxn} {f' : Forest} {s : Membership} {kind : LifecycleEventKind}
    (h : txn.forest.Rehoused f' s) (hkind : kind.isResidency = true)
    (hstep : ResidencyStep (txn.forest.announcedChildren s) (f'.announcedChildren s) [kind]) :
    ResidencyChange txn.forest (emit { txn with forest := f' } s kind).forest s [kind] := by
  have hwell : (ObservationTxn.mk f' txn.snapshots).forest.WellLinked := h.wellLinked
  have hshape := emit_sameShape hwell s kind
  refine ⟨?_, ?_, ?_, fun m hm => hshape.entered_mono (h.entered m hm)⟩
  · rw [hshape.announcedChildren]
    exact hstep
  · rw [residencyEvents_emit, if_pos ⟨rfl, hkind⟩]
    exact congrArg (· ++ [kind]) (Forest.residencyEvents_congr h.sameLog.emitted s)
  · intro x hx
    refine ⟨(hshape.announcedChildren x).trans (h.others x hx), ?_⟩
    rw [residencyEvents_emit, if_neg fun heq => hx heq.1.symm, List.append_nil]
    exact Forest.residencyEvents_congr h.sameLog.emitted x

end ResidencyChange

/-- Emitting several residency events of one scope. -/
theorem foldl_emit_residency {s : Membership} (kinds : List LifecycleEventKind)
    (hkinds : ∀ kind ∈ kinds, kind.isResidency = true) {txn : ObservationTxn}
    (hf : txn.forest.WellLinked) :
    txn.forest.SameShape (kinds.foldl (fun txn kind => txn.emit s kind) txn).forest ∧
      (∀ x, (kinds.foldl (fun txn kind => txn.emit s kind) txn).forest.residencyEvents x =
        txn.forest.residencyEvents x ++ if s = x then kinds else []) := by
  induction kinds generalizing txn with
  | nil => exact ⟨.refl _, fun x => by simp⟩
  | cons kind kinds ih =>
    have hshape := emit_sameShape hf s kind
    obtain ⟨hrest, hevents⟩ := ih (fun k hk => hkinds k (List.mem_cons_of_mem _ hk))
      (hshape.wellLinked hf)
    refine ⟨hshape.trans hrest, fun x => ?_⟩
    rw [List.foldl_cons, hevents, residencyEvents_emit]
    by_cases hx : s = x
    · simp [hx, hkinds kind (List.mem_cons_self ..)]
    · simp [hx]

namespace ObservationTxn

variable {txn : ObservationTxn} {s m : Membership}

theorem admitChildLocked_residency (hf : txn.forest.WellLinked) (hs : s ∈ txn.forest.arena)
    (hm : m ∉ txn.forest.unwound) (hforest : m ∈ txn.forest.arena → m ∉ txn.forest.ancestors s)
    (unwind : Option UnwindPoint) :
    ∃ new, ResidencyChange txn.forest (txn.admitChildLocked s m unwind).2.forest s new ∧
      ((txn.admitChildLocked s m unwind).1 = .admitted ∧
        (∃ id, new = [.added id m]) ∧ (txn.forest.member m).record.stage = .reserved ∧
        (txn.admitChildLocked s m unwind).2.forest.Entered m ∨
      (txn.admitChildLocked s m unwind).1 ≠ .admitted ∧ new = []) := by
  have h := admitChildLocked_admission (m := m) hs unwind
  generalize txn.admitChildLocked s m unwind = result at h
  cases h with
  | refused =>
    refine ⟨[], ⟨.kept, by simp, fun x _ => ⟨rfl, rfl⟩, fun _ => id⟩, .inr ⟨?_, rfl⟩⟩
    rintro ⟨⟩
  | unwound hne hstage henters =>
    have hrehoused := henters.rehoused hf hs hne (not_resident_of_reserved hf hstage hm)
      (not_mem_chain hf hs hne hforest)
    refine ⟨[], .of_unseen hrehoused ?_, .inr ⟨?_, rfl⟩⟩
    · rw [henters.announced_self]
      exact List.append_nil _
    · rintro ⟨⟩
  | @admitted forest hne hstage henters =>
    have hnew := not_resident_of_reserved hf hstage hm
    have hrehoused := henters.rehoused hf hs hne hnew (not_mem_chain hf hs hne hforest)
    refine ⟨[.added (txn.forest.member m).id m], .of_emit hrehoused rfl ?_,
      .inl ⟨rfl, ⟨_, rfl⟩, hstage, ?_⟩⟩
    · rw [henters.announced_self]
      exact .admitted _ fun hannounced => hnew s (Forest.mem_residents_of_announced hannounced)
    · have hwell : (ObservationTxn.mk forest txn.snapshots).forest.WellLinked :=
        hrehoused.wellLinked
      have hshape := emit_sameShape hwell s (.added (txn.forest.member m).id m)
      refine hshape.entered_mono (hrehoused.wellLinked.entered s m ?_)
      rw [henters.residents_self]
      exact List.mem_append_right _ (List.mem_singleton.2 rfl)

theorem announcedChildren_nodup {f : Forest} (hf : f.WellLinked) (s : Membership) :
    (f.announcedChildren s).Nodup :=
  (hf.nodup s).sublist (List.filter_sublist.map _)

omit [TokioBroadcast LifecycleEvent] in
theorem filter_mem_singleton {l : List Membership} (hnodup : l.Nodup) {m : Membership}
    (hm : m ∈ l) : l.filter (· ∈ [m]) = [m] := by
  obtain ⟨before, after, rfl⟩ := List.append_of_mem hm
  obtain ⟨-, hafter, hdisjoint⟩ := List.nodup_append.1 hnodup
  have hbefore : before.filter (· ∈ [m]) = [] := List.filter_eq_nil_iff.2 fun x hx => by
    simpa using hdisjoint x hx m (List.mem_cons_self ..)
  have hafter' : after.filter (· ∈ [m]) = [] := List.filter_eq_nil_iff.2 fun x hx => by
    have hne : x ≠ m := fun heq => (List.nodup_cons.1 hafter).1 (heq ▸ hx)
    simpa using hne
  rw [List.filter_append, hbefore, List.filter_cons_of_pos (by simp), hafter', List.nil_append]

theorem pruneChildLocked_residency (hf : txn.forest.WellLinked) (s m : Membership) :
    ∃ new, ResidencyChange txn.forest (txn.pruneChildLocked s m).2.forest s new ∧
      new.filterMap added? = [] := by
  have h := pruneChildLocked_pruning hf s m
  generalize txn.pruneChildLocked s m = result at h
  cases h with
  | absent _ => exact ⟨[], ⟨.kept, by simp, fun x _ => ⟨rfl, rfl⟩, fun _ => id⟩, rfl⟩
  | unannounced _ _ hrehoused hsame => exact ⟨[], .of_unseen hrehoused hsame, rfl⟩
  | @announced forest id lastIncarnation hm hrehoused hannounced =>
    refine ⟨[.removed id m lastIncarnation], .of_emit hrehoused rfl ?_, rfl⟩
    rw [hannounced]
    have hgone : (txn.forest.announcedChildren s).filter (· ∈ [m]) = [m] :=
      filter_mem_singleton (announcedChildren_nodup hf s) hm
    have hfilter : (txn.forest.announcedChildren s).filter (· ≠ m) =
        (txn.forest.announcedChildren s).filter (· ∉ [m]) := by
      refine List.filter_congr fun x _ => ?_
      simp
    rw [hfilter]
    exact .withdrawn (fun x => .removed id x lastIncarnation) (fun x => ⟨id, lastIncarnation, rfl⟩)
      hgone

theorem clearResidentsLocked_residency (hf : txn.forest.WellLinked) (s : Membership) :
    ∃ new, ResidencyChange txn.forest (txn.clearResidentsLocked s).forest s new ∧
      new.filterMap added? = [] := by
  obtain ⟨forest, hrehoused, hnil, heq⟩ := clearResidentsLocked_eq hf s
  rw [heq]
  have hremovals : ∀ kind ∈ (txn.forest.announcedChildren s).map fun m =>
      LifecycleEventKind.removed (txn.forest.member m).id m
        (txn.forest.member m).record.lastIncarnation, kind.isResidency = true ∧
          kind.added? = none := by
    intro kind hkind
    obtain ⟨m, -, rfl⟩ := List.mem_map.1 hkind
    exact ⟨rfl, rfl⟩
  have hwell : (ObservationTxn.mk forest txn.snapshots).forest.WellLinked := hrehoused.wellLinked
  obtain ⟨hshape, hevents⟩ := foldl_emit_residency (s := s) _ (fun k hk => (hremovals k hk).1) hwell
  refine ⟨(txn.forest.announcedChildren s).map fun m =>
      LifecycleEventKind.removed (txn.forest.member m).id m
        (txn.forest.member m).record.lastIncarnation,
    ⟨?_, ?_, ?_, fun m hm => hshape.entered_mono (hrehoused.entered m hm)⟩,
    List.filterMap_eq_nil_iff.2 fun k hk => (hremovals k hk).2⟩
  · have hall : (txn.forest.announcedChildren s).filter (· ∈ txn.forest.announcedChildren s) =
        txn.forest.announcedChildren s := List.filter_eq_self.2 fun x hx => by simpa using hx
    have hnone : (txn.forest.announcedChildren s).filter (· ∉ txn.forest.announcedChildren s) =
        [] := by simp
    rw [hshape.announcedChildren]
    rw [hnil, ← hnone]
    exact .withdrawn _ (fun m => ⟨_, _, rfl⟩) hall
  · rw [hevents, if_pos rfl]
    exact congrArg (· ++ _) (Forest.residencyEvents_congr hrehoused.sameLog.emitted s)
  · intro x hx
    refine ⟨(hshape.announcedChildren x).trans (hrehoused.others x hx), ?_⟩
    rw [hevents, if_neg fun heq => hx heq.symm, List.append_nil]
    exact Forest.residencyEvents_congr hrehoused.sameLog.emitted x

end ObservationTxn

/-! ### Runs -/

/-- What a step did to the residency of one scope.  A membership that was added
had never been resident. -/
structure EdgeResidency (g g' : GateState) (s : Membership) (new : List LifecycleEventKind) :
    Prop where
  step : ResidencyStep (g.txn.forest.announcedChildren s) (g'.txn.forest.announcedChildren s) new
  events : g'.txn.forest.residencyEvents s = g.txn.forest.residencyEvents s ++ new
  fresh : ∀ m ∈ new.filterMap added?, ¬ g.txn.forest.Entered m ∧ g'.txn.forest.Entered m
  entered : ∀ m, g.txn.forest.Entered m → g'.txn.forest.Entered m

/-- A change of one scope, seen from any scope. -/
theorem ResidencyChange.edge {g g' : GateState} {s : Membership} {new : List LifecycleEventKind}
    (h : ResidencyChange g.txn.forest g'.txn.forest s new)
    (hfresh : ∀ m ∈ new.filterMap added?, ¬ g.txn.forest.Entered m ∧ g'.txn.forest.Entered m)
    (x : Membership) : EdgeResidency g g' x (if x = s then new else []) := by
  by_cases hx : x = s
  · subst hx
    rw [if_pos rfl]
    exact ⟨h.step, h.events, hfresh, h.entered⟩
  · rw [if_neg hx]
    obtain ⟨hannounced, hevents⟩ := h.others x hx
    refine ⟨?_, ?_, ?_, h.entered⟩
    · rw [hannounced]
      exact .kept
    · rw [hevents, List.append_nil]
    · rintro m ⟨⟩

theorem edgeResidency_of_apply {g g' : GateState} {step : TreeStep} {output : TreeOutput}
    (hf : g.txn.forest.WellLinked) (h : TreeStep.apply g step = some (g', output))
    (s : Membership) :
    ∃ new, EdgeResidency g g' s new ∧
      ∀ m unwind, step = .admitChild s m unwind →
        (output = .outcome .admitted → ∃ id, new = [.added id m]) ∧
        (output ≠ .outcome .admitted → new = []) := by
  by_cases hquiet : step.isQuiet = true
  · have hsame := (hquiet ▸ GateMoves.of_apply hf h).sameResidency hf
    refine ⟨[], ⟨?_, ?_, ?_, hsame.entered⟩, ?_⟩
    · rw [hsame.announced]
      exact .kept
    · rw [hsame.events, List.append_nil]
    · rintro m ⟨⟩
    · rintro m unwind rfl
      cases hquiet
  · cases step with
    | admitChild x m unwind =>
      simp only [TreeStep.apply, Option.map_eq_some_iff] at h
      obtain ⟨⟨g₁, answer⟩, hlocked, heq⟩ := h
      cases heq
      obtain ⟨hs, hallowed, -, rfl, rfl⟩ := GateMoves.locked hlocked
      obtain ⟨hm, hforest⟩ := TreeStep.admitChild_allowed hallowed
      obtain ⟨new, hchange, hcases⟩ := admitChildLocked_residency hf hs hm hforest unwind
      refine ⟨if s = x then new else [], ResidencyChange.edge hchange ?_ s, ?_⟩
      · intro c hc
        rcases hcases with ⟨-, ⟨id, rfl⟩, hstage, hentered⟩ | ⟨-, rfl⟩
        · have hcm : c = m := by simpa [added?] using hc
          subst hcm
          exact ⟨fun he => he.elim (fun hne => hne hstage) hm, hentered⟩
        · cases hc
      · rintro c u ⟨⟩
        rw [if_pos rfl]
        rcases hcases with ⟨hout, hnew, -, -⟩ | ⟨hout, hnew⟩
        · exact ⟨fun _ => hnew, fun hne => absurd (congrArg TreeOutput.outcome hout) hne⟩
        · exact ⟨fun heq => absurd (TreeOutput.outcome.inj heq) hout, fun _ => hnew⟩
    | pruneChild x m =>
      simp only [TreeStep.apply] at h
      obtain ⟨hs, -, -, rfl, -⟩ := GateMoves.locked h
      obtain ⟨new, hchange, hadded⟩ := pruneChildLocked_residency hf x m
      refine ⟨_, ResidencyChange.edge hchange ?_ s, by rintro c u ⟨⟩⟩
      intro c hc
      rw [hadded] at hc
      cases hc
    | clearResidents x =>
      simp only [TreeStep.apply] at h
      obtain ⟨hs, -, -, rfl, -⟩ := GateMoves.locked h
      obtain ⟨new, hchange, hadded⟩ := clearResidentsLocked_residency hf x
      refine ⟨_, ResidencyChange.edge hchange ?_ s, by rintro c u ⟨⟩⟩
      intro c hc
      rw [hadded] at hc
      cases hc
    | _ => exact absurd rfl hquiet

/-- Over a run the events of every scope pair, and every membership with an event
has left `reserved`. -/
theorem TreeRun.paired {f : Forest} (hnew : f.IsNew) {tr : List TreeEdge} {g : GateState}
    (hrun : TreeRun f tr g) (s : Membership) :
    Paired (g.txn.forest.residencyEvents s) (g.txn.forest.announcedChildren s) ∧
      ∀ m, (g.txn.forest.residencyEvents s).filter (concerns · m) ≠ [] →
        g.txn.forest.Entered m := by
  refine Run.history hrun ?_ ?_
  · have hevents : f.residencyEvents s = [] := by
      simp [Forest.residencyEvents, hnew.emitted]
    have hannounced : f.announcedChildren s = [] := by
      obtain ⟨id, options, flavor, intensity, hcell⟩ := hnew.cells s
      simp [Forest.announcedChildren, hcell, TreeCell.new]
    rw [hevents, hannounced]
    exact ⟨.nil, fun m hm => absurd rfl hm⟩
  · intro pre e hpre he _ ih
    have hbefore := TreeRun.coherent hnew hpre
    obtain ⟨new, hedge, -⟩ := edgeResidency_of_apply hbefore.wellLinked he s
    obtain ⟨hpaired, hentered⟩ := ih
    rw [hedge.events]
    refine ⟨hedge.step.paired (announcedChildren_nodup hbefore.wellLinked s) hpaired ?_, ?_⟩
    · intro m hm
      by_contra habout
      exact (hedge.fresh m hm).1 (hentered m habout)
    · intro m habout
      rw [List.filter_append] at habout
      by_cases hold : (e.before.txn.forest.residencyEvents s).filter (concerns · m) = []
      · -- a new event is an `Added`, or the `Removed` of an announced child
        rw [hold, List.nil_append] at habout
        obtain ⟨kind, hkind⟩ := List.exists_mem_of_ne_nil _ habout
        obtain ⟨hmem, hconcerns⟩ := List.mem_filter.1 hkind
        simp only [concerns, Bool.or_eq_true, decide_eq_true_eq] at hconcerns
        rcases hconcerns with hadded | hremoved
        · exact (hedge.fresh m (List.mem_filterMap.2 ⟨kind, hmem, hadded⟩)).2
        · have hgone : m ∈ new.filterMap removed? := List.mem_filterMap.2 ⟨kind, hmem, hremoved⟩
          rw [hedge.step.removed_eq] at hgone
          obtain ⟨id, hone⟩ := hpaired.of_announced (List.mem_filter.1 hgone).1
          rw [hold] at hone
          cases hone
      · exact hedge.entered m (hentered m hold)

theorem projectLocked_children (f : Forest) (s : Membership) :
    (f.projectLocked s).children.map ChildSnapshot.membership = f.announcedChildren s := by
  have hlevel : ∀ nested, (f.projectWith nested s).children.map ChildSnapshot.membership =
      f.announcedChildren s := by
    intro nested
    simp only [Forest.projectWith, ScopeSnapshot.children, List.map_map]
    exact List.map_id' _
  unfold Forest.projectLocked
  cases f.arena.length with
  | zero | succ => exact hlevel _

/-- For each scope: the events of each membership are an `Added` followed by at
most one `Removed`; the residents are distinct; the projected children are those
with an `Added` and no `Removed`, in the order of their `Added` events; and each
step emits a `Removed` for exactly the announced residents it withdraws, an
`Added` for exactly the residents it announces, and neither for an admission that
was refused or unwound. -/
theorem residency_pairs {f : Forest} (hnew : f.IsNew) {tr : List TreeEdge} {g : GateState}
    (hrun : TreeRun f tr g) (s : Membership) :
    (∀ m, AddedThenRemoved m ((g.txn.forest.residencyEvents s).filter (concerns · m))) ∧
    ((g.txn.forest.cells s).currentChildren.map ResidentChild.member).Nodup ∧
    (g.txn.forest.projectLocked s).children.map ChildSnapshot.membership =
      ((g.txn.forest.residencyEvents s).filterMap added?).filter
        (· ∉ (g.txn.forest.residencyEvents s).filterMap removed?) ∧
    ∀ e ∈ tr, ∃ new,
      e.after.txn.forest.residencyEvents s = e.before.txn.forest.residencyEvents s ++ new ∧
      new.filterMap removed? = (e.before.txn.forest.announcedChildren s).filter
        (· ∉ e.after.txn.forest.announcedChildren s) ∧
      new.filterMap added? = (e.after.txn.forest.announcedChildren s).filter
        (· ∉ e.before.txn.forest.announcedChildren s) ∧
      ∀ m unwind, e.input = .admitChild s m unwind →
        (e.output = .outcome .admitted → ∃ id, new = [.added id m]) ∧
        (e.output ≠ .outcome .admitted → new = []) := by
  have hwell := (TreeRun.coherent hnew hrun).wellLinked
  obtain ⟨hpaired, -⟩ := TreeRun.paired hnew hrun s
  refine ⟨hpaired.pairs, hwell.nodup s, ?_, ?_⟩
  · rw [projectLocked_children]
    exact hpaired.announced_eq
  · intro e he
    obtain ⟨pre, post, -, hpre, hedge, -⟩ := Run.mem_split hrun he
    have hbefore := TreeRun.coherent hnew hpre
    obtain ⟨new, hres, hadmit⟩ := edgeResidency_of_apply hbefore.wellLinked hedge s
    exact ⟨new, hres.events, hres.step.removed_eq, hres.step.added_eq, hadmit⟩

end Trees

attribute [local instance] Broadcast.tokio in
/-- Two initial children; a resident admitted again and an admission that unwinds;
a prune from the front, a clear and one more admission. -/
theorem residency_pairs_cleared :
    ∃ tr g, TreeRun
        (.new [⟨0, 0⟩] (fun _ => ⟨"scope"⟩)
          ⟨.never, .abort, .immediate, none, .retain⟩ .dynamic ⟨1, ⟨1, Nat.one_ne_zero⟩⟩) tr g ∧
      (g.txn.forest.residencyEvents ⟨0, 0⟩).filterMap added? = [⟨1, 0⟩, ⟨2, 0⟩, ⟨4, 0⟩] ∧
      (g.txn.forest.residencyEvents ⟨0, 0⟩).filterMap removed? = [⟨1, 0⟩, ⟨2, 0⟩] ∧
      (g.txn.forest.projectLocked ⟨0, 0⟩).children.map ChildSnapshot.membership = [⟨4, 0⟩] := by
  have hexec : ∃ tr g, exec (fun g step => TreeStep.apply g step)
      ⟨⟨.new [⟨0, 0⟩] (fun _ => ⟨"scope"⟩)
          ⟨.never, .abort, .immediate, none, .retain⟩ .dynamic ⟨1, ⟨1, Nat.one_ne_zero⟩⟩,
          []⟩, .idle⟩
      (TreeStep.setAdmittedChildren ⟨0, 0⟩ [⟨1, 0⟩, ⟨2, 0⟩] ++
        [.openTxn, .admitChild ⟨0, 0⟩ ⟨1, 0⟩ none, .admitChild ⟨0, 0⟩ ⟨3, 0⟩ (some .admitted),
          .commit, .openTxn, .pruneChild ⟨0, 0⟩ ⟨1, 0⟩, .clearResidents ⟨0, 0⟩,
          .admitChild ⟨0, 0⟩ ⟨4, 0⟩ none, .commit]) =
        some (tr, g) ∧
      (g.txn.forest.residencyEvents ⟨0, 0⟩).filterMap added? = [⟨1, 0⟩, ⟨2, 0⟩, ⟨4, 0⟩] ∧
      (g.txn.forest.residencyEvents ⟨0, 0⟩).filterMap removed? = [⟨1, 0⟩, ⟨2, 0⟩] :=
    ⟨_, _, rfl, by decide, by decide⟩
  obtain ⟨tr, g, hexec, hadded, hremoved⟩ := hexec
  have hrun := run_of_exec _ hexec
  obtain ⟨-, -, hchildren, -⟩ := residency_pairs (Forest.new_isNew ..) hrun ⟨0, 0⟩
  refine ⟨tr, g, hrun, hadded, hremoved, ?_⟩
  rw [hchildren, hadded, hremoved]
  decide

end Shelterwood
