/-
Shelterwood/TreeRuns.lean

Runs of the observation tree.

`GateMoves` lists what one step can do: moves inside an open transaction, a whole
transaction, a commit, opening one, or a change of the receivers of one hub.
Everything that is said about runs is shown for these.
-/
import Shelterwood.TreeWriters
import Shelterwood.TreeResidency

namespace Shelterwood

variable [TokioBroadcast LifecycleEvent]

/-! ### Commit and closure -/

/-- A view that ignores the snapshot hub is kept by the installation of a cut. -/
theorem Forest.install_view {β : Type} (view : TreeCell → β)
    (hview : ∀ cell snapshots, view { cell with snapshots } = view cell) (f : Forest)
    (publication : SnapshotPublication) (x : Membership) :
    view ((f.install publication).cells x) = view (f.cells x) :=
  f.view_modify view _ _ (hview _ _) x

namespace ObservationTxn

/-- Installing a publication touches one cell. -/
theorem commit_install {β : Type} (view : Forest → β)
    (hview : ∀ f publication, view (Forest.install f publication) = view f)
    (txn : ObservationTxn) : view txn.commit = view txn.forest := by
  obtain ⟨forest, snapshots⟩ := txn
  show view (snapshots.foldl Forest.install forest) = view forest
  induction snapshots generalizing forest with
  | nil => rfl
  | cons publication rest ih => rw [List.foldl_cons, ih, hview]

theorem commit_view {β : Type} (view : TreeCell → β)
    (hview : ∀ cell snapshots, view { cell with snapshots } = view cell) (txn : ObservationTxn)
    (x : Membership) : view (txn.commit.cells x) = view (txn.forest.cells x) :=
  commit_install (fun f => view (f.cells x)) (fun f _ => f.install_view view hview _ x) txn

theorem commit_arena (txn : ObservationTxn) : txn.commit.arena = txn.forest.arena :=
  commit_install Forest.arena (fun _ _ => rfl) txn

theorem commit_emitted (txn : ObservationTxn) : txn.commit.emitted = txn.forest.emitted :=
  commit_install Forest.emitted (fun _ _ => rfl) txn

theorem commit_unwound (txn : ObservationTxn) : txn.commit.unwound = txn.forest.unwound :=
  commit_install Forest.unwound (fun _ _ => rfl) txn

theorem commit_sameShape (txn : ObservationTxn) : txn.forest.SameShape txn.commit where
  arena := txn.commit_arena
  unwound := txn.commit_unwound
  shape := txn.commit_view TreeCell.shape fun _ _ => rfl
  entered := fun m hm => by
    have hmember := txn.commit_view (fun cell => cell.scope.member) (fun _ _ => rfl) m
    simp only [Forest.member, hmember]
    exact hm

/-- Closing touches the closed flag and the hub of its scope, and stages at most
a closing publication. -/
theorem closeSnapshot_view {β : Type} (view : TreeCell → β)
    (hview : ∀ cell snapshots, view { cell with snapshots } = view cell) (txn : ObservationTxn)
    (s x : Membership) :
    view ((txn.closeSnapshot s).forest.cells x) = view (txn.forest.cells x) := by
  unfold closeSnapshot
  split
  · exact txn.forest.view_modify view s (fun cell =>
      { cell with snapshots := some ⟨txn.forest.projectLocked s, 0, true, 0⟩ }) (hview _ _) x
  · split_ifs <;> rfl

theorem closeSnapshot_forest (txn : ObservationTxn) (s : Membership) :
    (txn.closeSnapshot s).forest.arena = txn.forest.arena ∧
      (txn.closeSnapshot s).forest.emitted = txn.forest.emitted ∧
      (txn.closeSnapshot s).forest.unwound = txn.forest.unwound := by
  unfold closeSnapshot
  split
  · exact ⟨rfl, rfl, rfl⟩
  · split_ifs <;> exact ⟨rfl, rfl, rfl⟩

theorem closeObservation_view {β : Type} (view : TreeCell → β)
    (hview : ∀ cell snapshots closed,
      view { cell with snapshots, scope := { cell.scope with closed } } = view cell)
    (txn : ObservationTxn) (s x : Membership) :
    view ((txn.closeObservation s).forest.cells x) = view (txn.forest.cells x) := by
  have hsnapshots : ∀ cell snapshots, view { cell with snapshots } = view cell :=
    fun cell snapshots => hview cell snapshots cell.scope.closed
  unfold closeObservation
  split_ifs
  · rfl
  · refine ((txn.closeSnapshot s).forest.view_modify view s
      (fun cell => { cell with scope := cell.scope.closeObservationLocked }) ?_ x).trans
      (txn.closeSnapshot_view view hsnapshots s x)
    exact hview _ _ true

theorem closeObservation_forest (txn : ObservationTxn) (s : Membership) :
    (txn.closeObservation s).forest.arena = txn.forest.arena ∧
      (txn.closeObservation s).forest.emitted = txn.forest.emitted ∧
      (txn.closeObservation s).forest.unwound = txn.forest.unwound := by
  unfold closeObservation
  split_ifs
  · exact ⟨rfl, rfl, rfl⟩
  · exact txn.closeSnapshot_forest s

theorem closeObservation_sameShape (txn : ObservationTxn) (s : Membership) :
    txn.forest.SameShape (txn.closeObservation s).forest where
  arena := (txn.closeObservation_forest s).1
  unwound := (txn.closeObservation_forest s).2.2
  shape := txn.closeObservation_view TreeCell.shape (fun _ _ _ => rfl) s
  entered := fun m hm => by
    have hmember := txn.closeObservation_view (fun cell => cell.scope.member) (fun _ _ _ => rfl) s m
    simp only [Forest.member, hmember]
    exact hm

end ObservationTxn

/-! ### Steps -/

/-- The step is neither an admission nor a withdrawal. -/
def TreeStep.isQuiet : TreeStep → Bool
  | .admitChild .. | .pruneChild .. | .clearResidents _ => false
  | _ => true

/-- The step changes the subscriptions of a lifecycle hub. -/
def TreeStep.isReader : TreeStep → Bool
  | .subscribeLifecycle _ | .readSignal .. | .tryRecv .. | .dropLifecycle .. => true
  | _ => false

/-- What one step can do: a quiet one or any, a reader's or a writer's. -/
inductive GateMoves (quiet reads : Bool) : GateState → GateState → Prop
  | writes {txn t : ObservationTxn} {status status' : TxnStatus} : status ≠ .idle →
      status' ≠ .idle → TreeMoves quiet txn (fun _ => False) t →
      GateMoves quiet reads ⟨txn, status⟩ ⟨t, status'⟩
  | wrote {txn t : ObservationTxn} : Wrote txn t →
      GateMoves quiet reads ⟨txn, .idle⟩ ⟨⟨t.commit, []⟩, .idle⟩
  | commit {txn : ObservationTxn} {status : TxnStatus} : status ≠ .idle →
      GateMoves quiet reads ⟨txn, status⟩ ⟨⟨txn.commit, []⟩, .idle⟩
  | opened {txn : ObservationTxn} : GateMoves quiet reads ⟨txn, .idle⟩ ⟨txn, .opened⟩
  | panicked {g : GateState} : GateMoves quiet reads g g
  | subscribed {txn : ObservationTxn} {s : Membership} : s ∈ txn.forest.arena →
      GateMoves quiet reads ⟨txn, .idle⟩
        ⟨{ txn with forest := txn.forest.subscribeSnapshots s }, .idle⟩
  | receivers {g : GateState} {s : Membership} {hub : SnapshotHubState} (n : ℕ) :
      (g.txn.forest.cells s).snapshots = some hub → hub.receivers ≠ 0 →
      GateMoves quiet reads g { g with txn := { g.txn with
        forest := g.txn.forest.modify s fun cell =>
          { cell with snapshots := some { hub with receivers := n } } } }
  | lifecycle {g : GateState} {s : Membership} {lifecycle : LifecycleHub} : reads = true →
      lifecycle.sent = (g.txn.forest.cells s).lifecycle.sent →
      GateMoves quiet reads g
        { g with txn := { g.txn with forest := g.txn.forest.setLifecycle s lifecycle } }

/-- The guard of an admission: the membership was not left by an unwound one, and
is not an ancestor of the scope. -/
theorem TreeStep.admitChild_allowed {f : Forest} {s m : Membership}
    (h : (decide (m ∉ f.unwound) && !(f.isScope m && (f.ancestors s).contains m)) = true) :
    m ∉ f.unwound ∧ (m ∈ f.arena → m ∉ f.ancestors s) := by
  simp only [Bool.and_eq_true, decide_eq_true_eq, Bool.not_eq_true', Bool.and_eq_false_iff,
    Forest.isScope, decide_eq_false_iff_not, List.contains_eq_mem] at h
  exact ⟨h.1, fun hscope => h.2.resolve_left fun hnot => hnot hscope⟩

namespace GateMoves

variable {allowed : Bool} {g g' : GateState} {s : Membership}
variable {body : ObservationTxn → TreeOutput × ObservationTxn} {output : TreeOutput}

theorem locked (h : g.locked s allowed body = some (g', output)) :
    s ∈ g.txn.forest.arena ∧ allowed = true ∧ g.status = .opened ∧
      g' = ⟨(body g.txn).2, .opened⟩ ∧ output = (body g.txn).1 := by
  unfold GateState.locked at h
  split_ifs at h with hguard
  simp only [Bool.and_eq_true, decide_eq_true_eq, Forest.isScope] at hguard
  obtain ⟨⟨hopened, hscope⟩, hallowed⟩ := hguard
  cases h
  exact ⟨hscope, hallowed, hopened, by rw [hopened], rfl⟩

theorem of_locked {quiet reads : Bool} (h : g.locked s allowed body = some (g', output))
    (hbody : s ∈ g.txn.forest.arena → allowed = true →
      TreeMoves quiet g.txn (fun _ => False) (body g.txn).2) :
    GateMoves quiet reads g g' := by
  obtain ⟨hs, hallowed, hstatus, rfl, -⟩ := locked h
  obtain ⟨txn, status⟩ := g
  replace hstatus : status = .opened := hstatus
  subst hstatus
  exact .writes (by rintro ⟨⟩) (by rintro ⟨⟩) (hbody hs hallowed)

theorem of_whole {quiet reads : Bool}
    {body : ObservationTxn → Except Fault (TreeOutput × ObservationTxn)}
    (h : g.whole s allowed body = some (g', output))
    (hbody : s ∈ g.txn.forest.arena → allowed = true →
      ∀ answer t, body g.txn = .ok (answer, t) → Wrote g.txn t) :
    GateMoves quiet reads g g' := by
  unfold GateState.whole at h
  split_ifs at h with hguard
  simp only [Bool.and_eq_true, decide_eq_true_eq, Forest.isScope] at hguard
  obtain ⟨⟨hidle, hscope⟩, hallowed⟩ := hguard
  obtain ⟨txn, status⟩ := g
  replace hidle : status = .idle := hidle
  subst hidle
  cases hok : body txn with
  | error fault =>
    simp only [hok] at h
    cases fault with
    | exhausted => cases h
    | panicked message =>
      cases h
      exact .panicked
  | ok result =>
    simp only [hok] at h
    cases h
    exact .wrote (hbody hscope hallowed result.1 result.2 hok)

/-- A body that cannot fail. -/
theorem of_total {quiet reads : Bool} {answer : ObservationTxn → TreeOutput}
    {next : ObservationTxn → ObservationTxn}
    (h : g.whole s allowed (fun txn => .ok (answer txn, next txn)) = some (g', output))
    (hnext : s ∈ g.txn.forest.arena → allowed = true → Wrote g.txn (next g.txn)) :
    GateMoves quiet reads g g' := by
  refine of_whole h fun hs hallowed answer t hok => ?_
  cases hok
  exact hnext hs hallowed

/-- A body that fails with a function it calls. -/
theorem of_map {quiet reads : Bool} {α : Type} {call : ObservationTxn → Except Fault α}
    {result : α → TreeOutput × ObservationTxn}
    (h : g.whole s allowed (fun txn => (call txn).map result) = some (g', output))
    (hcall : s ∈ g.txn.forest.arena → allowed = true → ∀ a, call g.txn = .ok a →
      Wrote g.txn (result a).2) : GateMoves quiet reads g g' := by
  refine of_whole h fun hs hallowed answer t hok => ?_
  cases hresult : call g.txn with
  | error fault => rw [hresult] at hok; cases hok
  | ok a =>
    rw [hresult] at hok
    obtain rfl : t = (result a).2 := congrArg Prod.snd (Except.ok.inj hok.symm)
    exact hcall hs hallowed a hresult

/-- Every step is one of these. -/
theorem of_apply {step : TreeStep} (hf : g.txn.forest.WellLinked)
    (h : TreeStep.apply g step = some (g', output)) :
    GateMoves step.isQuiet step.isReader g g' := by
  unfold TreeStep.apply at h
  cases step with
  | openTxn =>
    dsimp only at h
    split_ifs at h with hidle
    cases h
    obtain ⟨txn, status⟩ := g
    replace hidle : status = .idle := hidle
    subst hidle
    exact .opened
  | commit =>
    dsimp only at h
    split_ifs at h with hidle
    cases h
    exact .commit hidle
  | admitChild s m unwind =>
    simp only [Option.map_eq_some_iff] at h
    obtain ⟨⟨g₁, answer⟩, hlocked, heq⟩ := h
    cases heq
    obtain ⟨hs, hallowed, hstatus, rfl, -⟩ := locked hlocked
    obtain ⟨hm, hforest⟩ := TreeStep.admitChild_allowed hallowed
    obtain ⟨txn, status⟩ := g
    replace hstatus : status = .opened := hstatus
    subst hstatus
    refine .writes (by rintro ⟨⟩) ?_ (ObservationTxn.admitChildLocked_moves hf hs hm hforest unwind)
    unfold TreeStep.settleStatus
    split <;> rintro ⟨⟩
  | pruneChild s m => exact of_locked h fun hs _ => ObservationTxn.pruneChildLocked_moves hf hs
  | clearResidents s =>
    exact of_locked h fun hs _ => ObservationTxn.clearResidentsLocked_moves hf hs
  | setChildRemoving s m =>
    exact of_locked h fun _ hchild => ObservationTxn.setChildRemovingLocked_moves hf
      fun p hp => hf.eq_of_childOf hchild hp
  | transitionChildStage s m transition event =>
    refine of_total h fun hs hallowed => ?_
    simp only [Bool.and_eq_true] at hallowed
    refine (ObservationTxn.transitionChildStage_moves hf hs
      (fun p hp => hf.eq_of_childOf hallowed.1 hp) transition ?_).wrote
    rintro kind ⟨⟩
    simpa using hallowed.2
  | startScopeChild s c incarnation restartStopped =>
    refine of_map h fun hs hallowed _ hstart => ?_
    simp only [Bool.and_eq_true] at hallowed
    exact (ObservationTxn.startScopeChild_moves hf hs
      (fun p hp => hf.eq_of_childOf hallowed.1 hp) hstart).wrote
  | publishChildRestart s m totalRestarts transition exited scheduled =>
    refine of_total h fun hs hallowed => ?_
    simp only [Bool.and_eq_true, Bool.not_eq_true'] at hallowed
    exact (ObservationTxn.publishChildRestart_moves hf hs
      (fun p hp => hf.eq_of_childOf hallowed.1.1 hp) totalRestarts transition hallowed.1.2
      hallowed.2).wrote
  | terminalizeChild s m exit exitedIncarnation startup =>
    exact of_map h fun hs _ _ hterminal => ObservationTxn.terminalizeChild_wrote hf hs hterminal
  | setStateAndStartup s state startup =>
    exact of_map h fun hs _ _ hset => (ObservationTxn.setStateAndStartup_moves hf hs hset).wrote
  | publishDrain s startup =>
    exact of_map h fun hs _ _ hset => (ObservationTxn.publishDrain_moves hf hs hset).wrote
  | beginIncarnation s =>
    exact of_map h fun hs _ _ hbegin =>
      (ObservationTxn.beginIncarnationInto_moves hf hs hbegin).wrote
  | finishIncarnation s epoch reason terminalExit =>
    refine of_total h fun hs hallowed => ?_
    refine ObservationTxn.finishIncarnationWithTerminal_wrote hf hs epoch reason ?_
    simp only [Bool.or_eq_true, Option.isNone_iff_eq_none] at hallowed
    exact hallowed.imp id fun hroot => hf.not_announced_of_isRoot hroot
  | publishRootStopped s reason exit =>
    exact of_total h fun hs hallowed =>
      ObservationTxn.publishRootStopped_wrote hf hs (hf.not_announced_of_isRoot hallowed)
        reason exit
  | terminalizeNeverStarted s =>
    exact of_total h fun hs hallowed =>
      ObservationTxn.terminalizeNeverStarted_wrote hf hs (hf.not_announced_of_isRoot hallowed)
  | closeNeverStartedBody s =>
    exact of_total h fun hs _ => ObservationTxn.closeNeverStartedBody_wrote hf hs
  | setIntensity s intensity =>
    exact of_total h fun hs _ => (ObservationTxn.setIntensity_moves hf hs intensity).wrote
  | requestShutdown s =>
    exact of_map h fun _ _ _ hrequest => (ObservationTxn.requestShutdown_moves hf hrequest).wrote
  | subscribeSnapshots s =>
    dsimp only at h
    split_ifs at h with hguard
    simp only [Bool.and_eq_true, decide_eq_true_eq, Forest.isScope] at hguard
    obtain ⟨hidle, hscope⟩ := hguard
    cases h
    obtain ⟨txn, status⟩ := g
    replace hidle : status = .idle := hidle
    subst hidle
    exact .subscribed hscope
  | cloneSnapshotReceiver s =>
    simp only [GateState.apart, Option.map_eq_some_iff] at h
    obtain ⟨forest, hclone, heq⟩ := h
    cases heq
    unfold Forest.cloneSnapshotReceiver at hclone
    split at hclone
    · cases hclone
    · next hub hhub =>
        split_ifs at hclone with hreceivers
        cases hclone
        exact .receivers _ hhub hreceivers
  | dropSnapshotReceiver s =>
    simp only [GateState.apart, Option.map_eq_some_iff] at h
    obtain ⟨forest, hdrop, heq⟩ := h
    cases heq
    unfold Forest.dropSnapshotReceiver at hdrop
    split at hdrop
    · cases hdrop
    · next hub hhub =>
        split_ifs at hdrop with hreceivers
        cases hdrop
        exact .receivers _ hhub hreceivers
  | subscribeLifecycle s =>
    dsimp only at h
    split_ifs at h
    cases h
    exact .lifecycle rfl (LifecycleHub.sent_subscribe _)
  | readSignal s k =>
    simp only [GateState.apart, Option.map_eq_some_iff] at h
    obtain ⟨forest, ⟨lifecycle, hread, rfl⟩, heq⟩ := h
    cases heq
    exact .lifecycle rfl (LifecycleHub.sent_readSignal hread)
  | tryRecv s k =>
    dsimp only at h
    split at h
    · cases h
    · next received lifecycle hrecv =>
        cases h
        exact .lifecycle rfl (LifecycleHub.sent_tryRecv hrecv)
  | dropLifecycle s k =>
    simp only [GateState.apart, Option.map_eq_some_iff] at h
    obtain ⟨forest, ⟨lifecycle, hdrop, rfl⟩, heq⟩ := h
    cases heq
    exact .lifecycle rfl (LifecycleHub.sent_drop hdrop)

end GateMoves

end Shelterwood
