/-
Shelterwood/SnapshotCoherence.lean

Snapshot hubs agree with the tree.

Within a transaction the invariant is that every open hub with a receiver either
stores the projection of its scope, or has a publication staged, or its scope owes
one (`Settled`).  Edits add debts and publications pay them.  At the commit no
debt is left, so what is stored afterwards is the projection.

What one step does to one hub is said once (`HubStep`): nothing but its receivers
changes, or a cut of the state after the step is installed, into a hub that was
open or did not exist.  A closed hub therefore keeps its cut, and a step advances
a generation by one at most.
-/
import Shelterwood.TreeRuns

namespace Shelterwood

section Trees

variable [TokioBroadcast LifecycleEvent]

/-! ### Staged publications -/

omit [TokioBroadcast LifecycleEvent] in
theorem map_hub_stageInto (p : SnapshotPublication) (l : List SnapshotPublication) :
    (stageInto p l).map SnapshotPublication.hub =
      if p.hub ∈ l.map SnapshotPublication.hub then l.map SnapshotPublication.hub
      else l.map SnapshotPublication.hub ++ [p.hub] := by
  induction l with
  | nil => rfl
  | cons q l ih =>
    by_cases hq : q.hub = p.hub
    · simp [stageInto, hq, SnapshotPublication.coalesce]
    · simp only [stageInto, if_neg hq, List.map_cons, ih, List.mem_cons, Ne.symm hq, false_or]
      split_ifs <;> rfl

/-- A publication is staged for the hub of a scope. -/
def ObservationTxn.Staged (txn : ObservationTxn) (s : Membership) : Prop :=
  s ∈ txn.snapshots.map SnapshotPublication.hub

/-- At most one publication is staged for each hub. -/
def ObservationTxn.StagedOnce (txn : ObservationTxn) : Prop :=
  (txn.snapshots.map SnapshotPublication.hub).Nodup

namespace ObservationTxn

theorem staged_stageSnapshot (txn : ObservationTxn) (p : SnapshotPublication) (x : Membership) :
    (txn.stageSnapshot p).Staged x ↔ x = p.hub ∨ txn.Staged x := by
  simp only [Staged, stageSnapshot, map_hub_stageInto]
  split_ifs with h
  · exact ⟨.inr, fun hx => hx.elim (fun heq => heq ▸ h) id⟩
  · simp only [List.mem_append, List.mem_singleton]
    exact or_comm

variable {txn : ObservationTxn}

theorem stagedOnce_stageSnapshot (h : txn.StagedOnce) (p : SnapshotPublication) :
    (txn.stageSnapshot p).StagedOnce := by
  simp only [StagedOnce, stageSnapshot, map_hub_stageInto]
  split_ifs with hmem
  · exact h
  · refine List.nodup_append.2 ⟨h, List.nodup_singleton _, ?_⟩
    intro a ha b hb hab
    rw [List.mem_singleton.1 hb] at hab
    exact hmem (hab ▸ ha)

variable {s : Membership}

theorem staged_of_snapshotHubWillClose (h : txn.snapshotHubWillClose s = true) : txn.Staged s := by
  obtain ⟨p, hp, hcloses⟩ := List.any_eq_true.1 h
  simp only [Bool.and_eq_true, decide_eq_true_eq] at hcloses
  exact List.mem_map.2 ⟨p, hp, hcloses.2⟩

theorem staged_publishSnapshot_of (s : Membership) {x : Membership} (h : txn.Staged x) :
    (txn.publishSnapshot s).Staged x := by
  unfold publishSnapshot
  split
  · exact h
  · split_ifs
    · exact h
    · exact h
    · exact (staged_stageSnapshot _ _ _).2 (.inr h)

theorem stagedOnce_publishSnapshot (h : txn.StagedOnce) (s : Membership) :
    (txn.publishSnapshot s).StagedOnce := by
  unfold publishSnapshot
  split
  · exact h
  · split_ifs
    · exact h
    · exact h
    · exact stagedOnce_stageSnapshot h _

/-- After a publication, an open hub with a receiver is staged. -/
theorem staged_publishSnapshot {hub : SnapshotHubState}
    (hhub : (txn.forest.cells s).snapshots = some hub) (hopen : hub.closed = false)
    (hreceivers : hub.receivers ≠ 0) : (txn.publishSnapshot s).Staged s := by
  simp only [publishSnapshot, hhub, if_neg hreceivers, hopen, Bool.or_false]
  split_ifs with hclose
  · exact staged_of_snapshotHubWillClose hclose
  · exact (staged_stageSnapshot _ _ _).2 (.inl rfl)

theorem staged_publishAll_of (l : List Membership) {x : Membership} (h : txn.Staged x) :
    (l.foldl publishSnapshot txn).Staged x := by
  induction l generalizing txn with
  | nil => exact h
  | cons s l ih => exact ih (staged_publishSnapshot_of s h)

theorem stagedOnce_publishAll (l : List Membership) (h : txn.StagedOnce) :
    (l.foldl publishSnapshot txn).StagedOnce := by
  induction l generalizing txn with
  | nil => exact h
  | cons s l ih => exact ih (stagedOnce_publishSnapshot h s)

theorem staged_publishAll {l : List Membership} (hs : s ∈ l) {hub : SnapshotHubState}
    (hhub : (txn.forest.cells s).snapshots = some hub) (hopen : hub.closed = false)
    (hreceivers : hub.receivers ≠ 0) : (l.foldl publishSnapshot txn).Staged s := by
  induction l generalizing txn with
  | nil => cases hs
  | cons x l ih =>
    rcases List.mem_cons.1 hs with rfl | hs
    · exact staged_publishAll_of l (staged_publishSnapshot hhub hopen hreceivers)
    · exact ih hs (by rwa [publishSnapshot_forest])

/-! ### Debts -/

/-- Every open hub with a receiver stores its projection or is staged, unless its
scope owes a publication. -/
def Settled (D : Membership → Prop) (txn : ObservationTxn) : Prop :=
  ∀ s hub, (txn.forest.cells s).snapshots = some hub → hub.closed = false → hub.receivers ≠ 0 →
    ¬ D s → hub.snapshot = txn.forest.projectLocked s ∨ txn.Staged s

end ObservationTxn

open ObservationTxn

namespace TreeMoves

variable {quiet : Bool} {txn t : ObservationTxn} {D : Membership → Prop}

/-- Moves do not touch the hubs. -/
theorem snapshots (hf : txn.forest.WellLinked) (h : TreeMoves quiet txn D t) (x : Membership) :
    (t.forest.cells x).snapshots = (txn.forest.cells x).snapshots := by
  induction h with
  | start => rfl
  | edit forest R _ hlog _ _ _ _ _ ih =>
    exact (congrArg (fun view => view.2.2.2.1) (hlog.log x)).trans ih
  | publish s _ _ ih => rwa [publishSnapshot_forest]
  | emit s kind h _ _ _ ih => rw [emit_cells (h.wellLinked hf)]; exact ih

theorem stagedOnce (h : TreeMoves quiet txn D t) (hstaged : txn.StagedOnce) : t.StagedOnce := by
  induction h with
  | start => exact hstaged
  | edit forest R _ _ _ _ _ _ _ ih => exact ih
  | publish s _ _ ih => exact stagedOnce_publishSnapshot ih s
  | @emit _ _ txn' s kind _ _ _ _ ih =>
    have hminted : (txn'.modify s fun cell =>
        { cell with lifecycleSeq := (txn'.forest.cells s).lifecycleSeq + 1 }).StagedOnce := ih
    exact stagedOnce_publishAll (txn'.forest.chain s) hminted

theorem settled (hf : txn.forest.WellLinked) (hsettled : Settled (fun _ => False) txn)
    (h : TreeMoves quiet txn D t) : Settled D t := by
  induction h with
  | start => exact fun s hub hhub hopen hreceivers _ => hsettled s hub hhub hopen hreceivers id
  | @edit D D' txn' forest R h hlog hforest hup hrows _ hdebt ih =>
    intro s hub hhub hopen hreceivers hs
    have hsnapshots : (forest.cells s).snapshots = (txn'.forest.cells s).snapshots :=
      congrArg (fun view => view.2.2.2.1) (hlog.log s)
    have hproject : forest.projectLocked s = txn'.forest.projectLocked s :=
      Forest.projectLocked_congr hlog.arena hup hrows fun hR => hs (hdebt s (.inr hR))
    rcases ih s hub (hsnapshots ▸ hhub) hopen hreceivers fun hD => hs (hdebt s (.inl hD)) with
      hstored | hstaged
    · exact .inl (hstored.trans hproject.symm)
    · exact .inr hstaged
  | @publish D D' txn' s h hdebt ih =>
    intro x hub hhub hopen hreceivers hx
    rw [publishSnapshot_forest] at hhub ⊢
    by_cases hxs : x = s
    · subst hxs
      exact .inr (staged_publishSnapshot hhub hopen hreceivers)
    · exact (ih x hub hhub hopen hreceivers fun hD => hx (hdebt x hD hxs)).imp id
        (staged_publishSnapshot_of s)
  | @emit D D' txn' s kind h hscope _ hdebt ih =>
    have hf' := h.wellLinked hf
    intro x hub hhub hopen hreceivers hx
    have hcell : (txn'.forest.cells x).snapshots = some hub := by
      rw [emit_cells hf'] at hhub
      exact hhub
    by_cases hchain : x ∈ txn'.forest.chain s
    · -- the chain was published after the counter moved
      refine .inr ?_
      have hminted : ((txn'.modify s fun cell => { cell with
          lifecycleSeq := (txn'.forest.cells s).lifecycleSeq + 1 }).forest.cells x).snapshots =
          some hub :=
        (txn'.forest.view_modify TreeCell.snapshots s (fun cell => { cell with
          lifecycleSeq := (txn'.forest.cells s).lifecycleSeq + 1 }) rfl x).trans hcell
      exact staged_publishAll hchain hminted hopen hreceivers
    · rcases ih x hub hcell hopen hreceivers fun hD => hx (hdebt x hD hchain) with
        hstored | hstaged
      · refine .inl (hstored.trans ?_)
        exact (Forest.projectLocked_congr (emit_arena txn' s kind) (hf'.upClosed_chain s)
          (fun y hy => emit_sameRow hf' hscope kind hy) hchain).symm
      · have hminted : (txn'.modify s fun cell => { cell with
            lifecycleSeq := (txn'.forest.cells s).lifecycleSeq + 1 }).Staged x := hstaged
        exact .inr (staged_publishAll_of (txn'.forest.chain s) hminted)

end TreeMoves

/-! ### Commit -/

namespace ObservationTxn

/-- Where every row and face is kept, so is every projection. -/
theorem projectLocked_of_views {f f' : Forest} (harena : f'.arena = f.arena)
    (hrow : ∀ x, (f'.cells x).row = (f.cells x).row)
    (hface : ∀ x, (f'.cells x).face = (f.cells x).face) (s : Membership) :
    f'.projectLocked s = f.projectLocked s :=
  Forest.projectLocked_congr_all harena
    (fun x => Forest.sameRow_of harena (hrow x) fun m _ => hface m) s

theorem install_projectLocked (f : Forest) (p : SnapshotPublication) (s : Membership) :
    (f.install p).projectLocked s = f.projectLocked s :=
  projectLocked_of_views (f.modify_arena _ _) (f.install_view TreeCell.row (fun _ _ => rfl) p)
    (f.install_view TreeCell.face (fun _ _ => rfl) p) s

theorem commit_projectLocked (txn : ObservationTxn) (s : Membership) :
    txn.commit.projectLocked s = txn.forest.projectLocked s :=
  projectLocked_of_views txn.commit_arena (txn.commit_view TreeCell.row fun _ _ => rfl)
    (txn.commit_view TreeCell.face fun _ _ => rfl) s

/-- The publication staged for a hub. -/
def publicationFor (txn : ObservationTxn) (s : Membership) : Option SnapshotPublication :=
  txn.snapshots.find? fun p => p.hub = s

variable {txn : ObservationTxn}

theorem isSome_publicationFor {s : Membership} (h : txn.Staged s) :
    ∃ p, txn.publicationFor s = some p := by
  obtain ⟨p, hp, hhub⟩ := List.mem_map.1 h
  refine Option.isSome_iff_exists.1 (List.find?_isSome.2 ⟨p, hp, ?_⟩)
  simpa using hhub

theorem install_cells_self (f : Forest) (p : SnapshotPublication) :
    ((f.install p).cells p.hub).snapshots =
      (f.cells p.hub).snapshots.map fun hub => hub.install (f.projectLocked p.hub) p := by
  simp only [Forest.install, Forest.modify_cells_self]

theorem install_cells_of_ne (f : Forest) (p : SnapshotPublication) {x : Membership}
    (hx : x ≠ p.hub) : ((f.install p).cells x).snapshots = (f.cells x).snapshots := by
  simp only [Forest.install, Forest.modify_cells_of_ne f _ hx]

/-- Each staged hub installs the projection of the committed state, once. -/
theorem commit_hub (h : txn.StagedOnce) (x : Membership) :
    (txn.commit.cells x).snapshots =
      (txn.forest.cells x).snapshots.map fun hub =>
        (txn.publicationFor x).elim hub (hub.install (txn.forest.projectLocked x)) := by
  obtain ⟨forest, snapshots⟩ := txn
  show ((snapshots.foldl Forest.install forest).cells x).snapshots =
    (forest.cells x).snapshots.map fun hub =>
      (snapshots.find? fun p => p.hub = x).elim hub (hub.install (forest.projectLocked x))
  replace h : (snapshots.map SnapshotPublication.hub).Nodup := h
  induction snapshots generalizing forest with
  | nil => simp
  | cons p rest ih =>
    obtain ⟨hp, hrest⟩ := List.nodup_cons.1 h
    rw [List.foldl_cons, ih _ hrest, install_projectLocked]
    by_cases hx : x = p.hub
    · subst hx
      -- the rest stages nothing for this hub
      have hnone : (rest.find? fun q => q.hub = p.hub) = none := by
        refine List.find?_eq_none.2 fun q hq heq => hp ?_
        rw [← show q.hub = p.hub by simpa using heq]
        exact List.mem_map_of_mem hq
      rw [install_cells_self, hnone]
      simp [Function.comp_def]
    · rw [install_cells_of_ne _ _ hx,
        List.find?_cons_of_neg (by simpa using fun heq => hx heq.symm)]

/-- After a commit without debt, what is stored is the projection. -/
theorem commit_stores (hstaged : txn.StagedOnce) (hsettled : Settled (fun _ => False) txn)
    {x : Membership} {hub : SnapshotHubState} (hhub : (txn.commit.cells x).snapshots = some hub)
    (hopen : hub.closed = false) (hreceivers : hub.receivers ≠ 0) :
    hub.snapshot = txn.commit.projectLocked x := by
  rw [commit_hub hstaged, Option.map_eq_some_iff] at hhub
  obtain ⟨before, hbefore, rfl⟩ := hhub
  rw [commit_projectLocked]
  cases hfor : txn.publicationFor x with
  | none =>
    simp only [hfor, Option.elim] at hopen hreceivers ⊢
    rcases hsettled x before hbefore hopen hreceivers id with hstored | hstaged
    · exact hstored
    · obtain ⟨p, hp⟩ := isSome_publicationFor hstaged
      rw [hfor] at hp
      cases hp
  | some p =>
    simp only [hfor, Option.elim, SnapshotHubState.install] at hopen ⊢
    by_cases hclosed : before.closed = true
    · rw [if_pos hclosed, hclosed] at hopen
      cases hopen
    · rw [if_neg hclosed]

/-! ### Closure -/

theorem closeObservation_projectLocked (txn : ObservationTxn) (s x : Membership) :
    (txn.closeObservation s).forest.projectLocked x = txn.forest.projectLocked x :=
  projectLocked_of_views (txn.closeObservation_forest s).1
    (txn.closeObservation_view TreeCell.row (fun _ _ _ => rfl) s)
    (txn.closeObservation_view TreeCell.face (fun _ _ _ => rfl) s) x

/-- Closing creates a closed hub with the current projection, or stages. -/
theorem closeObservation_hub (txn : ObservationTxn) (s x : Membership) :
    ((txn.closeObservation s).forest.cells x).snapshots = (txn.forest.cells x).snapshots ∨
      (txn.forest.cells x).snapshots = none ∧
        ((txn.closeObservation s).forest.cells x).snapshots =
          some ⟨txn.forest.projectLocked x, 0, true, 0⟩ := by
  unfold closeObservation
  split_ifs
  · exact .inl rfl
  · have hflag : (((txn.closeSnapshot s).modify s fun cell =>
        { cell with scope := cell.scope.closeObservationLocked }).forest.cells x).snapshots =
        ((txn.closeSnapshot s).forest.cells x).snapshots :=
      (txn.closeSnapshot s).forest.view_modify TreeCell.snapshots s
        (fun cell => { cell with scope := cell.scope.closeObservationLocked }) rfl x
    rw [hflag]
    unfold closeSnapshot
    split
    · next hnone =>
        by_cases hx : x = s
        · subst hx
          refine .inr ⟨hnone, ?_⟩
          simp only [ObservationTxn.modify, Forest.modify_cells_self]
        · refine .inl ?_
          simp only [ObservationTxn.modify, Forest.modify_cells_of_ne _ _ hx]
    · split_ifs <;> exact .inl rfl

theorem closeObservation_staged (txn : ObservationTxn) (s : Membership) :
    (txn.StagedOnce → (txn.closeObservation s).StagedOnce) ∧
      ∀ x, txn.Staged x → (txn.closeObservation s).Staged x := by
  have hclose : (txn.StagedOnce → (txn.closeSnapshot s).StagedOnce) ∧
      ∀ x, txn.Staged x → (txn.closeSnapshot s).Staged x := by
    unfold closeSnapshot
    split
    · exact ⟨id, fun _ => id⟩
    · split_ifs
      · exact ⟨id, fun _ => id⟩
      · exact ⟨fun h => stagedOnce_stageSnapshot h _,
          fun x h => (staged_stageSnapshot _ _ _).2 (.inr h)⟩
  unfold closeObservation
  split_ifs
  · exact ⟨id, fun _ => id⟩
  · exact hclose

theorem closeObservation_settled (h : Settled (fun _ => False) txn) (s : Membership) :
    Settled (fun _ => False) (txn.closeObservation s) := by
  intro x hub hhub hopen hreceivers _
  rw [closeObservation_projectLocked]
  rcases txn.closeObservation_hub s x with hsame | ⟨-, hcreated⟩
  · rw [hsame] at hhub
    exact (h x hub hhub hopen hreceivers id).imp id ((txn.closeObservation_staged s).2 x)
  · rw [hcreated] at hhub
    cases hhub
    cases hopen

end ObservationTxn

/-! ### One hub, one step -/

/-- What a step does to one hub.  `cut` is the projection after the step, and
`settles` whether the step ends a transaction. -/
inductive HubStep (settles : Prop) (cut : ScopeSnapshot) :
    Option SnapshotHubState → Option SnapshotHubState → Prop
  | absent : HubStep settles cut none none
  | kept {hub : SnapshotHubState} (n : ℕ) :
      HubStep settles cut (some hub) (some { hub with receivers := n })
  | created (closed : Bool) (n : ℕ) : settles →
      HubStep settles cut none (some ⟨cut, 0, closed, n⟩)
  | installed {hub : SnapshotHubState} (published closed : Bool) (n : ℕ) : settles →
      hub.closed = false →
      HubStep settles cut (some hub)
        (some ⟨cut, if published then hub.generation + 1 else hub.generation, closed, n⟩)

namespace HubStep

omit [TokioBroadcast LifecycleEvent]

variable {settles : Prop} {cut : ScopeSnapshot} {before after : Option SnapshotHubState}

theorem refl (settles : Prop) (cut : ScopeSnapshot) (hub : Option SnapshotHubState) :
    HubStep settles cut hub hub := by
  cases hub with
  | none => exact .absent
  | some hub => exact .kept hub.receivers

/-- The generation of a hub; a hub not yet made has none. -/
def generation (hub : Option SnapshotHubState) : ℕ := hub.elim 0 SnapshotHubState.generation

theorem generation_le (h : HubStep settles cut before after) :
    generation after ≤ generation before + 1 := by
  cases h with
  | absent | created _ _ _ => exact Nat.zero_le _
  | kept n => exact Nat.le_succ _
  | installed published closed n _ _ =>
    simp only [generation, Option.elim]
    split_ifs <;> omega

theorem generation_eq (h : HubStep settles cut before after) (hsettles : ¬ settles) :
    generation after = generation before := by
  cases h with
  | absent | kept => rfl
  | created _ _ hs | installed _ _ _ hs => exact absurd hs hsettles

/-- A closed hub keeps its cut. -/
theorem of_closed {hub : SnapshotHubState} (h : HubStep settles cut (some hub) after)
    (hclosed : hub.closed = true) :
    ∃ hub', after = some hub' ∧ hub'.snapshot = hub.snapshot ∧
      hub'.generation = hub.generation ∧ hub'.closed = true := by
  cases h with
  | kept n => exact ⟨_, rfl, rfl, rfl, hclosed⟩
  | installed published closed n _ hopen =>
    rw [hclosed] at hopen
    cases hopen

/-- A hub that closes does so with the cut of a settling step. -/
theorem closes {hub' : SnapshotHubState} (h : HubStep settles cut before (some hub'))
    (hbefore : ∀ hub, before = some hub → hub.closed = false) (hclosed : hub'.closed = true) :
    settles ∧ hub'.snapshot = cut := by
  cases h with
  | @kept hub n =>
    have hopen := hbefore hub rfl
    rw [show hub.closed = true from hclosed] at hopen
    cases hopen
  | created _ _ hs | installed _ _ _ hs => exact ⟨hs, rfl⟩

/-- What is stored was stored before, or is the cut of a settling step. -/
theorem stored {hub' : SnapshotHubState} (h : HubStep settles cut before (some hub')) :
    (∃ hub, before = some hub ∧ hub'.snapshot = hub.snapshot) ∨ settles ∧ hub'.snapshot = cut := by
  cases h with
  | @kept hub n => exact .inl ⟨hub, rfl, rfl⟩
  | created _ _ hs | installed _ _ _ hs => exact .inr ⟨hs, rfl⟩

end HubStep

/-- A commit, as a step of one hub. -/
theorem ObservationTxn.commit_hubStep {txn : ObservationTxn} (h : txn.StagedOnce) {settles : Prop}
    (hsettles : settles) (x : Membership) :
    HubStep settles (txn.commit.projectLocked x) (txn.forest.cells x).snapshots
      (txn.commit.cells x).snapshots := by
  rw [commit_hub h, commit_projectLocked]
  cases hhub : (txn.forest.cells x).snapshots with
  | none => exact .absent
  | some hub =>
    cases hfor : txn.publicationFor x with
    | none => exact .kept hub.receivers
    | some p =>
      simp only [Option.map_some, Option.elim, SnapshotHubState.install]
      by_cases hclosed : hub.closed = true
      · rw [if_pos hclosed]
        exact .kept hub.receivers
      · rw [if_neg hclosed]
        exact .installed p.published p.closed hub.receivers hsettles (by simpa using hclosed)

/-! ### Coherent states -/

/-- The invariant of runs. -/
structure GateState.Coherent (g : GateState) : Prop where
  wellLinked : g.txn.forest.WellLinked
  settled : Settled (fun _ => False) g.txn
  stagedOnce : g.txn.StagedOnce
  /-- Outside a transaction nothing is staged. -/
  committed : g.status = .idle → g.txn.snapshots = []

namespace GateState.Coherent

theorem new {f : Forest} (h : f.IsNew) : GateState.Coherent ⟨⟨f, []⟩, .idle⟩ where
  wellLinked := h.wellLinked
  settled := fun s hub hhub => by
    obtain ⟨id, options, flavor, intensity, hcell⟩ := h.cells s
    rw [hcell] at hhub
    cases hhub
  stagedOnce := List.nodup_nil
  committed := fun _ => rfl

variable {g g' : GateState}

/-- Outside a transaction an open hub with a receiver stores the projection. -/
theorem stores (h : g.Coherent) (hidle : g.status = .idle) {s : Membership}
    {hub : SnapshotHubState} (hhub : (g.txn.forest.cells s).snapshots = some hub)
    (hopen : hub.closed = false) (hreceivers : hub.receivers ≠ 0) :
    hub.snapshot = g.txn.forest.projectLocked s := by
  rcases h.settled s hub hhub hopen hreceivers id with hstored | hstaged
  · exact hstored
  · unfold ObservationTxn.Staged at hstaged
    rw [h.committed hidle] at hstaged
    cases hstaged

/-- The state after a commit without debt. -/
theorem of_commit {txn : ObservationTxn} (hf : txn.forest.WellLinked)
    (hsettled : Settled (fun _ => False) txn) (hstaged : txn.StagedOnce) :
    GateState.Coherent ⟨⟨txn.commit, []⟩, .idle⟩ where
  wellLinked := txn.commit_sameShape.wellLinked hf
  settled := fun _ _ hhub hopen hreceivers _ =>
    .inl (commit_stores hstaged hsettled hhub hopen hreceivers)
  stagedOnce := List.nodup_nil
  committed := fun _ => rfl

end GateState.Coherent

/-- Changing hubs or event receivers of one cell changes no projection and no
edge. -/
theorem Forest.modify_hubs (f : Forest) (s : Membership) (g : TreeCell → TreeCell)
    (hg : ∀ cell, ∃ lifecycle snapshots, g cell = { cell with lifecycle, snapshots }) :
    f.SameShape (f.modify s g) ∧ ∀ x, (f.modify s g).projectLocked x = f.projectLocked x := by
  obtain ⟨lifecycle, snapshots, hcell⟩ := hg (f.cells s)
  refine ⟨f.sameShape_modify s g (by rw [hcell]; rfl) (by rw [hcell]; exact id), ?_⟩
  exact projectLocked_of_views (f.modify_arena s g)
    (f.view_modify TreeCell.row s g (by rw [hcell]; rfl))
    (f.view_modify TreeCell.face s g (by rw [hcell]; rfl))

theorem Forest.setLifecycle_snapshots (f : Forest) (s x : Membership) (lifecycle : LifecycleHub) :
    ((f.setLifecycle s lifecycle).cells x).snapshots = (f.cells x).snapshots :=
  f.view_modify TreeCell.snapshots s (fun cell => { cell with lifecycle }) rfl x

namespace GateMoves

variable {quiet reads : Bool} {g g' : GateState}

/-- The invariant is kept by every step. -/
theorem coherent (h : GateMoves quiet reads g g') (hg : g.Coherent) : g'.Coherent := by
  cases h with
  | writes hstatus hstatus' hmoves =>
    exact
      { wellLinked := hmoves.wellLinked hg.wellLinked
        settled := hmoves.settled hg.wellLinked hg.settled
        stagedOnce := hmoves.stagedOnce hg.stagedOnce
        committed := fun hidle => absurd hidle hstatus' }
  | wrote hwrote =>
    obtain ⟨t, hmoves, rfl | ⟨s, -, rfl⟩⟩ := hwrote
    · exact .of_commit (hmoves.wellLinked hg.wellLinked)
        (hmoves.settled hg.wellLinked hg.settled) (hmoves.stagedOnce hg.stagedOnce)
    · exact .of_commit
        ((t.closeObservation_sameShape s).wellLinked (hmoves.wellLinked hg.wellLinked))
        (closeObservation_settled (hmoves.settled hg.wellLinked hg.settled) s)
        ((t.closeObservation_staged s).1 (hmoves.stagedOnce hg.stagedOnce))
  | commit _ => exact .of_commit hg.wellLinked hg.settled hg.stagedOnce
  | opened => exact ⟨hg.wellLinked, hg.settled, hg.stagedOnce, by rintro ⟨⟩⟩
  | panicked => exact hg
  | @subscribed txn s hscope =>
    obtain ⟨hshape, hproject⟩ := txn.forest.modify_hubs s (fun cell => { cell with
      snapshots := some (subscribedHub (txn.forest.projectLocked s) cell.snapshots) })
      fun cell => ⟨_, _, rfl⟩
    refine ⟨hshape.wellLinked hg.wellLinked, ?_, hg.stagedOnce, fun _ => hg.committed rfl⟩
    intro x hub hhub hopen hreceivers _
    refine .inl ?_
    show hub.snapshot = (txn.forest.subscribeSnapshots s).projectLocked x
    rw [show (txn.forest.subscribeSnapshots s).projectLocked x = txn.forest.projectLocked x from
      hproject x]
    by_cases hx : x = s
    · subst hx
      simp only [Forest.subscribeSnapshots, Forest.modify_cells_self] at hhub
      cases hhub
      cases hbefore : (txn.forest.cells x).snapshots with
      | none => rfl
      | some before =>
        simp only [hbefore, subscribedHub] at hopen ⊢
        split_ifs with hquiet
        · rfl
        · -- the hub had a receiver, so it was coherent before
          simp only [hquiet, Bool.false_eq_true, if_false] at hopen
          simp only [Bool.and_eq_true, decide_eq_true_eq, Bool.not_eq_true', hopen, and_true]
            at hquiet
          have hstored : before.snapshot = txn.forest.projectLocked x :=
            hg.stores rfl hbefore hopen hquiet
          exact hstored
    · simp only [Forest.subscribeSnapshots, Forest.modify_cells_of_ne _ _ hx] at hhub
      exact hg.stores rfl hhub hopen hreceivers
  | @receivers _ s hub n hhub hn =>
    obtain ⟨hshape, hproject⟩ := g.txn.forest.modify_hubs s (fun cell => { cell with
      snapshots := some { hub with receivers := n } }) fun cell => ⟨_, _, rfl⟩
    refine ⟨hshape.wellLinked hg.wellLinked, ?_, hg.stagedOnce, hg.committed⟩
    intro x hub' hhub' hopen hreceivers _
    rw [hproject]
    by_cases hx : x = s
    · subst hx
      simp only [Forest.modify_cells_self, Option.some.injEq] at hhub'
      subst hhub'
      exact hg.settled x hub hhub hopen hn id
    · simp only [Forest.modify_cells_of_ne _ _ hx] at hhub'
      exact hg.settled x hub' hhub' hopen hreceivers id
  | @lifecycle _ s lifecycle _ _ =>
    obtain ⟨hshape, hproject⟩ := g.txn.forest.modify_hubs s (fun cell => { cell with lifecycle })
      fun cell => ⟨_, _, rfl⟩
    refine ⟨hshape.wellLinked hg.wellLinked, ?_, hg.stagedOnce, hg.committed⟩
    intro x hub hhub hopen hreceivers _
    rw [Forest.setLifecycle_snapshots] at hhub
    rw [show (g.txn.forest.setLifecycle s lifecycle).projectLocked x =
      g.txn.forest.projectLocked x from hproject x]
    exact hg.settled x hub hhub hopen hreceivers id

theorem hubStep (h : GateMoves quiet reads g g') (hg : g.Coherent) (x : Membership) :
    HubStep (g'.status = .idle) (g'.txn.forest.projectLocked x) (g.txn.forest.cells x).snapshots
      (g'.txn.forest.cells x).snapshots := by
  cases h with
  | writes _ _ hmoves =>
    rw [hmoves.snapshots hg.wellLinked]
    exact .refl _ _ _
  | wrote hwrote =>
    obtain ⟨t, hmoves, rfl | ⟨s, -, rfl⟩⟩ := hwrote
    · rw [← hmoves.snapshots hg.wellLinked]
      exact commit_hubStep (hmoves.stagedOnce hg.stagedOnce) rfl x
    · have hcommit : HubStep (TxnStatus.idle = .idle)
          ((t.closeObservation s).commit.projectLocked x)
          ((t.closeObservation s).forest.cells x).snapshots
          ((t.closeObservation s).commit.cells x).snapshots :=
        commit_hubStep ((t.closeObservation_staged s).1 (hmoves.stagedOnce hg.stagedOnce)) rfl x
      rw [← hmoves.snapshots hg.wellLinked]
      rcases t.closeObservation_hub s x with hsame | ⟨hnone, hcreated⟩
      · rwa [hsame] at hcommit
      · -- made closed inside the transaction, so the commit leaves it alone
        rw [hcreated] at hcommit
        obtain ⟨hub', hafter, hsnapshot, hgeneration, hclosed⟩ := hcommit.of_closed rfl
        rw [hnone, hafter]
        obtain ⟨snapshot, generation, closed, receivers⟩ := hub'
        replace hsnapshot : snapshot = t.forest.projectLocked x := hsnapshot
        replace hgeneration : generation = 0 := hgeneration
        subst hsnapshot hgeneration
        have hcut : (t.closeObservation s).commit.projectLocked x = t.forest.projectLocked x :=
          (commit_projectLocked _ x).trans (closeObservation_projectLocked t s x)
        rw [← hcut]
        exact .created closed receivers rfl
  | commit _ => exact commit_hubStep hg.stagedOnce rfl x
  | opened | panicked => exact .refl _ _ _
  | @subscribed txn s _ =>
    obtain ⟨-, hproject⟩ := txn.forest.modify_hubs s (fun cell => { cell with
      snapshots := some (subscribedHub (txn.forest.projectLocked s) cell.snapshots) })
      fun cell => ⟨_, _, rfl⟩
    replace hproject : (txn.forest.subscribeSnapshots s).projectLocked x =
      txn.forest.projectLocked x := hproject x
    by_cases hx : x = s
    · subst hx
      show HubStep _ ((txn.forest.subscribeSnapshots x).projectLocked x) _ _
      rw [hproject]
      simp only [Forest.subscribeSnapshots, Forest.modify_cells_self]
      cases hbefore : (txn.forest.cells x).snapshots with
      | none => exact .created false 1 trivial
      | some before =>
        simp only [subscribedHub]
        split_ifs with hquiet
        · simp only [Bool.and_eq_true, Bool.not_eq_true'] at hquiet
          exact .installed true false 1 trivial hquiet.2
        · exact .kept _
    · simp only [Forest.subscribeSnapshots, Forest.modify_cells_of_ne _ _ hx]
      exact .refl _ _ _
  | @receivers _ s hub n hhub _ =>
    by_cases hx : x = s
    · subst hx
      simp only [Forest.modify_cells_self, hhub]
      exact .kept n
    · simp only [Forest.modify_cells_of_ne _ _ hx]
      exact .refl _ _ _
  | @lifecycle _ s lifecycle _ _ =>
    rw [Forest.setLifecycle_snapshots]
    exact .refl _ _ _

end GateMoves

/-! ### Runs -/

namespace TreeRun

variable {f : Forest} {tr : List TreeEdge} {g : GateState}

theorem coherent (hnew : f.IsNew) (hrun : TreeRun f tr g) : g.Coherent :=
  Run.invariant hrun (GateState.Coherent.new hnew) fun _ he _ hbefore =>
    (GateMoves.of_apply hbefore.wellLinked he).coherent hbefore

/-- A closed hub stores the cut of the step that closed it, unchanged since. -/
theorem closed_hub (hnew : f.IsNew) (hrun : TreeRun f tr g) (s : Membership) :
    ∀ hub, (g.txn.forest.cells s).snapshots = some hub → hub.closed = true →
      ∃ pre e post, tr = pre ++ e :: post ∧ e.after.status = .idle ∧
        (∀ before, (e.before.txn.forest.cells s).snapshots = some before → before.closed = false) ∧
        hub.snapshot = e.after.txn.forest.projectLocked s ∧
        ∀ e' ∈ e :: post, ∃ hub', (e'.after.txn.forest.cells s).snapshots = some hub' ∧
          hub'.snapshot = hub.snapshot ∧ hub'.generation = hub.generation ∧
          hub'.closed = true := by
  refine Run.history hrun ?_ ?_
  · intro hub hhub
    obtain ⟨id, options, flavor, intensity, hcell⟩ := hnew.cells s
    rw [hcell] at hhub
    cases hhub
  · intro pre e hpre he _ ih hub hhub hclosed
    have hbefore := TreeRun.coherent hnew hpre
    have hstep := (GateMoves.of_apply hbefore.wellLinked he).hubStep hbefore s
    by_cases halready : ∃ hub₀, (e.before.txn.forest.cells s).snapshots = some hub₀ ∧
        hub₀.closed = true
    · -- closed before this step
      obtain ⟨hub₀, hhub₀, hclosed₀⟩ := halready
      obtain ⟨pre', e₀, post, rfl, hidle, hopen, hcut, hkept⟩ := ih hub₀ hhub₀ hclosed₀
      rw [hhub₀] at hstep
      obtain ⟨hub', hafter, hsnapshot, hgeneration, hclosed'⟩ := hstep.of_closed hclosed₀
      rw [hhub] at hafter
      cases hafter
      refine ⟨pre', e₀, post ++ [e], by simp, hidle, hopen, hsnapshot.trans hcut, ?_⟩
      intro e' he'
      rcases List.mem_append.1 (show e' ∈ (e₀ :: post) ++ [e] from he') with hmem | hmem
      · obtain ⟨hub₁, hhub₁, hsnapshot₁, hgeneration₁, hclosed₁⟩ := hkept e' hmem
        exact ⟨hub₁, hhub₁, hsnapshot₁.trans hsnapshot.symm, hgeneration₁.trans hgeneration.symm,
          hclosed₁⟩
      · rw [List.mem_singleton.1 hmem]
        exact ⟨hub, hhub, rfl, rfl, hclosed⟩
    · -- closed by this step
      have hopen : ∀ before, (e.before.txn.forest.cells s).snapshots = some before →
          before.closed = false := by
        intro before hb
        cases hc : before.closed with
        | false => rfl
        | true => exact absurd ⟨before, hb, hc⟩ halready
      rw [hhub] at hstep
      obtain ⟨hidle, hcut⟩ := hstep.closes hopen hclosed
      refine ⟨pre, e, [], rfl, hidle, hopen, hcut, ?_⟩
      intro e' he'
      rw [List.mem_singleton.1 he']
      exact ⟨hub, hhub, rfl, rfl, hclosed⟩

/-- Steps that do not end a transaction leave the generations alone, and the one
that does advances a hub by one at most. -/
theorem generation_le {g' : GateState} {seg : List TreeEdge} (hg : g.Coherent)
    (hseg : Run (stepEdge TreeStep.apply) g seg g')
    (hinside : ∀ e ∈ seg.dropLast, e.after.status ≠ .idle) (s : Membership) :
    HubStep.generation (g'.txn.forest.cells s).snapshots ≤
      HubStep.generation (g.txn.forest.cells s).snapshots + 1 := by
  induction hseg with
  | nil g => exact Nat.le_succ _
  | @cons e rest t he hrest ih =>
    have hmoves := GateMoves.of_apply hg.wellLinked he
    have hstep := hmoves.hubStep hg s
    cases rest with
    | nil =>
      rw [hrest.eq_of_nil]
      exact hstep.generation_le
    | cons e₁ rest =>
      have hsame := hstep.generation_eq (hinside e (by simp))
      rw [← hsame]
      exact ih (hmoves.coherent hg) fun e' he' => hinside e' (List.mem_cons_of_mem _ he')

end TreeRun

/-- After every commit each open hub with a receiver stores the recursive
projection of its scope; a closed hub stores the projection at the commit of the
transaction that closed it, and never changes again; and one transaction advances
a generation by one at most. -/
theorem snapshot_coherence {f : Forest} (hnew : f.IsNew) {tr : List TreeEdge} {g : GateState}
    (hrun : TreeRun f tr g) :
    (g.status = .idle → ∀ s hub, (g.txn.forest.cells s).snapshots = some hub →
      hub.closed = false → 0 < hub.receivers → hub.snapshot = g.txn.forest.projectLocked s) ∧
    (∀ s, g.txn.forest.projectLocked s =
      g.txn.forest.projectWith (fun c => some (g.txn.forest.projectLocked c)) s) ∧
    (∀ s hub, (g.txn.forest.cells s).snapshots = some hub → hub.closed = true →
      ∃ pre e post, tr = pre ++ e :: post ∧ e.after.status = .idle ∧
        (∀ before, (e.before.txn.forest.cells s).snapshots = some before → before.closed = false) ∧
        hub.snapshot = e.after.txn.forest.projectLocked s ∧
        ∀ e' ∈ e :: post, ∃ hub', (e'.after.txn.forest.cells s).snapshots = some hub' ∧
          hub'.snapshot = hub.snapshot ∧ hub'.generation = hub.generation ∧
          hub'.closed = true) ∧
    (∀ seg g', Run (stepEdge fun g step => TreeStep.apply g step) g seg g' →
      (∀ e ∈ seg.dropLast, e.after.status ≠ .idle) →
      ∀ s, HubStep.generation (g'.txn.forest.cells s).snapshots ≤
        HubStep.generation (g.txn.forest.cells s).snapshots + 1) := by
  have hcoherent := TreeRun.coherent hnew hrun
  refine ⟨?_, Forest.projectLocked_eq hcoherent.wellLinked, TreeRun.closed_hub hnew hrun, ?_⟩
  · intro hidle s hub hhub hopen hreceivers
    exact hcoherent.stores hidle hhub hopen (Nat.pos_iff_ne_zero.1 hreceivers)
  · intro seg g' hseg hinside s
    exact TreeRun.generation_le hcoherent hseg hinside s

end Trees

attribute [local instance] Broadcast.tokio in
/-- A child scope is admitted, run, stopped and terminalized under two
subscribers: the root's hub follows, the child's is closed with its last cut. -/
theorem snapshot_coherence_closed :
    ∃ tr g, TreeRun
        (.new [⟨0, 0⟩, ⟨1, 0⟩] (fun _ => ⟨"scope"⟩)
          ⟨.never, .abort, .immediate, none, .retain⟩ .ordered ⟨1, ⟨1, Nat.one_ne_zero⟩⟩) tr g ∧
      (∃ hub, (g.txn.forest.cells ⟨0, 0⟩).snapshots = some hub ∧ hub.generation = 5 ∧
        hub.snapshot = g.txn.forest.projectLocked ⟨0, 0⟩) ∧
      ∃ hub, (g.txn.forest.cells ⟨1, 0⟩).snapshots = some hub ∧ hub.closed = true ∧
        ∃ e ∈ tr, hub.snapshot = e.after.txn.forest.projectLocked ⟨1, 0⟩ := by
  have hexec : ∃ tr g, exec (fun g step => TreeStep.apply g step)
      ⟨⟨.new [⟨0, 0⟩, ⟨1, 0⟩] (fun _ => ⟨"scope"⟩)
          ⟨.never, .abort, .immediate, none, .retain⟩ .ordered ⟨1, ⟨1, Nat.one_ne_zero⟩⟩,
          []⟩, .idle⟩
      [.subscribeSnapshots ⟨0, 0⟩, .openTxn, .admitChild ⟨0, 0⟩ ⟨1, 0⟩ none,
        .admitChild ⟨0, 0⟩ ⟨2, 0⟩ none, .commit, .subscribeSnapshots ⟨1, 0⟩,
        .startScopeChild ⟨0, 0⟩ ⟨1, 0⟩ ⟨⟨1, 0⟩, 0⟩ false,
        .setIntensity ⟨1, 0⟩ ⟨2, ⟨1, Nat.one_ne_zero⟩⟩,
        .closeNeverStartedBody ⟨1, 0⟩,
        .terminalizeChild ⟨0, 0⟩ ⟨1, 0⟩ .neverStarted none .unchanged] = some (tr, g) ∧
      g.status = .idle ∧
      ((g.txn.forest.cells ⟨0, 0⟩).snapshots.map fun hub =>
        (hub.generation, hub.closed, hub.receivers)) = some (5, false, 1) ∧
      ((g.txn.forest.cells ⟨1, 0⟩).snapshots.map fun hub => hub.closed) = some true :=
    ⟨_, _, rfl, by decide, by decide, by decide⟩
  obtain ⟨tr, g, hexec, hidle, hroot, hchild⟩ := hexec
  have hrun := run_of_exec _ hexec
  obtain ⟨hopen, -, hclosed, -⟩ := snapshot_coherence (Forest.new_isNew ..) hrun
  refine ⟨tr, g, hrun, ?_, ?_⟩
  · obtain ⟨hub, hhub, heq⟩ := Option.map_eq_some_iff.1 hroot
    simp only [Prod.mk.injEq] at heq
    obtain ⟨hgeneration, hnot, hreceivers⟩ := heq
    exact ⟨hub, hhub, hgeneration, hopen hidle _ hub hhub hnot (by omega)⟩
  · obtain ⟨hub, hhub, hshut⟩ := Option.map_eq_some_iff.1 hchild
    obtain ⟨pre, e, post, rfl, -, -, hcut, -⟩ := hclosed _ hub hhub hshut
    exact ⟨hub, hhub, hshut, e, by simp, hcut⟩

end Shelterwood
