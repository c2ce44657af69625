/-
Shelterwood/SpawnChild.lean

Answering a start request.

The settle loop ends because the shell takes up, or refuses for good, every
start it is asked for.  `spawnChild` returns on five paths: a latched removal,
a child gone from the arena, one that cannot be spawned now, a nested scope
whose start a pending stop prevents, and the launch.  On each of them the scope
has left `Starting` or the child is no longer resident and unstarted, provided
that the arena has the reducer's keys and only an active or stopping child has
a live incarnation (`spawnChild_settles`).

Only the second and third path need those two facts.  The others leave the
child marked, disposing or active by a call of the reducer, and nothing a driver
does afterwards takes that back.
-/
import Shelterwood.DriverAnswers
import Shelterwood.SettleLoop

namespace Shelterwood

/-! ### What settles a start request -/

namespace SupervisorState

variable {s : SupervisorState} {key : ChildKey}

theorem not_startPending_of_draining (h : s.lifecycle.isDraining = true) :
    ¬ s.StartPending key := by
  rintro ⟨hst, -⟩
  rw [ScopeLifecycle.not_isStarting_of_isDraining h] at hst
  cases hst

theorem not_startPending_of_isDisposing (h : s.isDisposing key = true) :
    ¬ s.StartPending key := by
  rintro ⟨-, hstate⟩
  simp [isDisposing, hstate, ChildState.incarnation] at h

theorem not_startPending_of_joined (h : s.joined key = true) : ¬ s.StartPending key := by
  rintro ⟨-, hstate⟩
  simp [joined, hstate, ChildState.joined, ChildState.incarnation] at h

theorem not_startPending_of_live {state : ChildState} (h : s.childState key = some state)
    (hlive : state.incarnation = .active ∨ state.incarnation = .stopping) :
    ¬ s.StartPending key := by
  rintro ⟨-, hstate⟩
  obtain rfl := Option.some.inj (h.symm.trans hstate)
  simp [ChildState.incarnation] at hlive

theorem not_startPending_of_missing (h : s.contains key = false) : ¬ s.StartPending key := by
  rintro ⟨-, hstate⟩
  obtain ⟨r, hr, -⟩ := Option.map_eq_some_iff.mp hstate
  simp [contains, hr] at h

/-- The state of the named child after an event comes from its record. -/
theorem step_of_childState {event : Event} {state : ChildState} (ht : event.target = some key)
    (h : (s.apply event).1.childState key = some state) :
    ∃ r r' : ChildRecord, r.step s.lifecycle.isStarting event = some r' ∧ r'.state = state := by
  obtain ⟨r', hr', hstate⟩ := Option.map_eq_some_iff.mp h
  have hne : event ≠ .settle := by
    rintro rfl
    cases ht
  rw [s.get?_apply_of_ne_settle hne, if_pos ht] at hr'
  obtain ⟨r, -, hstep⟩ := Option.bind_eq_some_iff.mp hr'
  exact ⟨r, r', hstep, hstate⟩

/-- A sampled removal marks the child. -/
theorem not_startPending_removalSampled (s : SupervisorState) (key : ChildKey) :
    ¬ (s.apply (.removalSampled key)).1.StartPending key := by
  rintro ⟨-, hstate⟩
  obtain ⟨r, r', hstep, hun⟩ := step_of_childState rfl hstate
  cases hstep
  cases hr : r.state <;> simp [hr, ChildState.sampleRemoval] at hun

/-- A spawn makes an unstarted child active. -/
theorem not_startPending_spawned (s : SupervisorState) (key : ChildKey) :
    ¬ (s.apply (.spawned key)).1.StartPending key := by
  rintro ⟨-, hstate⟩
  obtain ⟨r, r', hstep, hun⟩ := step_of_childState rfl hstate
  cases hstep
  by_cases hst : r.startable = true
  · rw [if_pos hst] at hun
    have hactive : (r.state.withIncarnation .active).incarnation = .unstarted :=
      congrArg ChildState.incarnation hun
    simp at hactive
  · rw [if_neg hst] at hun
    exact hst (ChildRecord.startable_iff.mpr (.inl hun))

end SupervisorState

namespace ScopeRuntime

/-- The start request for the child is settled. -/
def StartSettled (key : ChildKey) (rt : ScopeRuntime) : Prop := ¬ rt.supervisor.StartPending key

theorem StartSettled.kept {key : ChildKey} {rt rt' : ScopeRuntime} (h : Answered rt rt')
    (hs : StartSettled key rt) : StartSettled key rt' :=
  fun hpending => hs (h.descends.startPending hpending)

/-- The arena has the reducer's keys, and only an active or stopping child has
a live incarnation. -/
structure Coherent (rt : ScopeRuntime) : Prop where
  keys : ∀ k, (rt.children.get? k).isSome = rt.supervisor.contains k
  live : ∀ k, (rt.active? k).isSome = true → ∃ state, rt.supervisor.childState k = some state ∧
    (state.incarnation = .active ∨ state.incarnation = .stopping)

theorem Coherent.kept {rt rt' : ScopeRuntime} (h : Quiet rt rt') (hrt : rt.Coherent) :
    rt'.Coherent := by
  refine ⟨?_, ?_⟩
  · intro k
    rw [h.keys, h.supervisor, hrt.keys]
  · intro k hk
    rw [h.live] at hk
    rw [h.supervisor]
    exact hrt.live k hk

end ScopeRuntime

namespace Driver

open Program ScopeRuntime

variable {world : World} {re : Reentry} {key : ChildKey}

/-- The child is in the arena. -/
def Present (key : ChildKey) (rt : ScopeRuntime) : Prop := (rt.children.get? key).isSome = true

theorem Present.kept {rt rt' : ScopeRuntime} (h : Quiet rt rt') (hrt : Present key rt) :
    Present key rt' := (h.keys key).trans hrt

theorem Keeps.present {α : Type} {m : Driver α} (hm : Keeps Quiet m) :
    Ensures (Present key) m fun _ => Present key :=
  hm.ensures fun _ _ => Present.kept

theorem KeepsAnswers.startSettled {α : Type} {m : Driver α} (hm : KeepsAnswers m) :
    Ensures (StartSettled key) m fun _ => StartSettled key :=
  hm.ensures fun _ _ => StartSettled.kept

/-! ### The return paths -/

section Paths

variable (hre : re.KeepsAnswers)

include hre

/-- The terminal funnel leaves the child disposing, or finds it so. -/
theorem beginTerminalDisposal_settles (exit : Exit) (exitedIncarnation : Option Incarnation)
    (startup : StartupDisposition) :
    Ensures (Present key) (beginTerminalDisposal world re key exit exitedIncarnation startup)
      fun _ => StartSettled key := by
  refine .bind (Q := fun rt s => rt = s ∧ Present key s) (.get fun s hs => ⟨rfl, hs⟩) fun rt => ?_
  refine .ite ?_ ?_
  · intro hrefused
    refine .pure ?_
    rintro s ⟨rfl, hpresent⟩
    simp only [Bool.or_eq_true, Bool.not_eq_true', Option.isNone_iff_eq_none] at hrefused
    rcases hrefused with ((hmissing | hdisposing) | hjoined) | hgone
    · exact SupervisorState.not_startPending_of_missing hmissing
    · exact SupervisorState.not_startPending_of_isDisposing hdisposing
    · exact SupervisorState.not_startPending_of_joined hjoined
    · simp [Present, hgone] at hpresent
  · intro _
    refine .bind .any fun _ => ?_
    -- from here on the assertion speaks for the reducer
    refine .bind (Q := fun rt s => rt = s) (.get fun s _ => rfl) fun rt => ?_
    refine .bind (Q := fun _ => StartSettled key) (.ensure ?_) fun _ => ?_
    · rintro s rfl hdisposing
      exact SupervisorState.not_startPending_of_isDisposing hdisposing
    · refine KeepsAnswers.startSettled ?_
      refine .bind (keeps_publishTerminal exit _) fun _ => .bind .get fun _ => ?_
      exact .bind (.when (keeps_failStartup hre exit)) fun _ => keeps_releaseConstruction hre

theorem terminateInactive_settles (startup : StartupDisposition) :
    Ensures (Present key) (terminateInactive world re key startup) fun _ => StartSettled key := by
  refine .bind (Q := fun rt s => rt = s ∧ Present key s) (.get fun s hs => ⟨rfl, hs⟩) fun rt => ?_
  cases hchild : rt.children.get? key with
  | none =>
    refine .pure ?_
    rintro s ⟨rfl, hpresent⟩
    simp [Present, hchild] at hpresent
  | some child =>
    refine Ensures.weaken (P := Present key) ?_ fun s hs => hs.2
    refine .bind (Keeps.present (quiet_cancelDeadline _)) fun _ => ?_
    refine .bind (Keeps.present (quiet_updateChild fun _ => rfl)) fun _ => ?_
    refine .bind (Keeps.present quiet_interleave) fun _ => ?_
    refine .bind (Q := fun _ => Present key) (.get fun s hs => hs) fun rt => ?_
    exact beginTerminalDisposal_settles hre _ none startup

/-- A launch makes the child active. -/
theorem launchChild_settles (nested : Bool) (incarnation : Incarnation) {P : ScopeRuntime → Prop} :
    Ensures P (launchChild world re key nested incarnation) fun _ => StartSettled key := by
  -- what happens before the spawn edge does not matter
  refine .bind .any fun rt => .bind .any fun child => .bind .any fun _ => ?_
  refine .bind .any fun result => .bind .any fun _ => .bind .any fun _ => .bind .any fun now => ?_
  refine .bind .any fun _ => .bind .any fun _ => .bind .any fun _ => .bind .any fun _ => ?_
  refine .bind .any fun _ => ?_
  refine .bind (Q := fun _ => StartSettled key) (.modify ?_) fun _ => ?_
  · intro s _
    exact s.supervisor.not_startPending_spawned key
  · refine KeepsAnswers.startSettled ?_
    split
    · exact .bind (keeps_applyReadinessEffect hre _ _) fun _ => .pure ()
    · exact .pure ()

/-- **Every return path of `spawnChild` settles the start request.** -/
theorem spawnChild_settles :
    Ensures Coherent (spawnChild world re key) fun _ => StartSettled key := by
  have hsample : Ensures Coherent (removalLatched world key) fun _ => Coherent :=
    quiet_removalLatched.ensures fun _ _ => Coherent.kept
  refine .bind hsample fun latched => .ite (fun _ => ?_) fun _ => ?_
  · -- a latched removal
    refine .modify fun s _ => ?_
    exact s.supervisor.not_startPending_removalSampled key
  · refine .bind (Q := fun rt s => rt = s ∧ s.Coherent) (.get fun s hs => ⟨rfl, hs⟩) fun rt => ?_
    cases hchild : rt.children.get? key with
    | none =>
      -- gone from the arena, hence from the reducer
      refine .pure ?_
      rintro s ⟨rfl, hcoherent⟩
      apply SupervisorState.not_startPending_of_missing
      rw [← hcoherent.keys key, hchild]
      rfl
    | some child =>
      refine .ite ?_ fun _ => ?_
      · -- cannot be spawned now
        intro hidle
        refine .pure ?_
        rintro s ⟨rfl, hcoherent⟩
        simp only [Bool.or_eq_true] at hidle
        rcases hidle with ((hdraining | hactive) | hjoined) | hdisposing
        · exact SupervisorState.not_startPending_of_draining hdraining
        · have hactive : (rt.active? key).isSome = true := by
            simpa [active?, hchild] using hactive
          obtain ⟨state, hstate, hlive⟩ := hcoherent.live key hactive
          exact SupervisorState.not_startPending_of_live hstate hlive
        · exact SupervisorState.not_startPending_of_joined hjoined
        · exact SupervisorState.not_startPending_of_isDisposing hdisposing
      · -- launched, or refused by a pending stop and then retired
        refine Ensures.weaken (P := Present key) ?_ ?_
        · refine .bind (Keeps.present quiet_restartsAStoppedIncarnation) fun restartStopped => ?_
          refine .bind (Keeps.present quiet_mintIncarnation) fun incarnation => ?_
          refine .ite (fun _ => ?_) fun _ => launchChild_settles hre false incarnation
          refine .bind (Keeps.present (quiet_startScopeChild incarnation restartStopped))
            fun started => ?_
          refine .ite (fun _ => launchChild_settles hre true incarnation) fun _ => ?_
          refine .bind (Q := fun _ => Present key) (.get fun s hs => hs) fun rt => ?_
          exact terminateInactive_settles hre _
        · rintro s ⟨rfl, -⟩
          simp [Present, hchild]

end Paths

end Driver

/-! ### The settle loop terminates -/

open Driver ScopeRuntime in
/-- **The settle loop terminates.**  On a shell that answers every effect by
finitely many calls of the reducer, none of them an admission or a force, and
every start request so that the scope leaves `Starting` or the child is no
longer resident and unstarted, the driver's loop stops from every reachable
reducer state and every queue of effects; if no answer unwinds it returns.  And
`spawnChild` answers start requests that way on every return path, whatever the
other threads do meanwhile, if the arena has the reducer's keys and only active
or stopping children have a live incarnation. -/
theorem settle_loop_terminates :
    (∀ {σ : Type} (shell : Shell σ) (Valid : σ → SupervisorState → Prop),
      shell.Obliging Valid →
      ∀ {flavor : ScopeFlavor} {tr : List SupervisorEdge} (c : SettleState σ),
        SupervisorRun flavor tr c.supervisor → Valid c.shell c.supervisor →
        ∃ bound, ∀ queue fuel, bound ≤ fuel →
          shell.settleSupervisor fuel c queue ≠ .exhausted ∧
          ((∀ x s effect, Valid x s → exec Input.apply s (shell.answer x s effect).1 ≠ none) →
            ∃ c', shell.settleSupervisor fuel c queue = .done c')) ∧
    ∀ (world : World) (fuel : ℕ) (key : ChildKey) (rt rt' : ScopeRuntime), rt.Coherent →
      (spawnChild world (reentry world fuel) key).runFrom rt = (.ok (), rt') →
      rt.Answered rt' ∧
      (rt'.supervisor.lifecycle.isStarting = false ∨
        rt'.supervisor.childState key ≠ some (.resident .unstarted)) := by
  refine ⟨?_, ?_⟩
  · intro σ shell Valid hshell flavor tr c hrun hx
    refine ⟨2 * c.supervisor.potential + 4, ?_⟩
    intro queue fuel hfuel
    exact hshell.settleSupervisor_ends hx (wf_of_run hrun) queue hfuel
  · intro world fuel key rt rt' hcoherent hreturns
    have hre := reentry_keeps world fuel
    have hanswered : rt.Answered ((spawnChild world (reentry world fuel) key).runFrom rt).2 :=
      keeps_spawnChild hre rt
    rw [hreturns] at hanswered
    refine ⟨hanswered, ?_⟩
    have hsettled : StartSettled key rt' := spawnChild_settles hre rt () rt' hcoherent hreturns
    exact SupervisorState.not_startPending_iff.mp hsettled

/-- Launches every child it is asked to start, and does nothing else. -/
def launchingShell : Shell Unit where
  answer _ _ effect :=
    match effect with
    | .startChild child => ([.step (.spawned child)], ())
    | _ => ([], ())

theorem launchingShell_obliging : launchingShell.Obliging fun _ _ => True where
  isAnswer := by
    intro x s effect input _ hmem
    cases effect <;> simp [launchingShell] at hmem
    rw [hmem]
    rfl
  started := by
    rintro x s c tr s' - hexec
    cases hexec
    exact SupervisorState.not_startPending_iff.mp (s.not_startPending_spawned c)
  answered _ _ := trivial
  settled _ := trivial

/-- Nobody else runs, and the clock stands still. -/
def stillWorld : World where
  now _ := 0
  ceiling := 0
  delay _ _ _ := 0
  ancestorStop _ := false
  fusedCancel _ _ := false
  root _ cell := cell
  member _ _ cell := cell
  scope _ _ cell := cell
  latches _ _ latches := latches
  dynamic _ state := state

/-- A scope that starts one task. -/
def oneTaskScope (supervisor : SupervisorState) : ScopeRuntime where
  root := .new (.new ⟨"root"⟩ ⟨0, 1⟩) false
  flavor := .ordered
  epoch := .first
  intensityPolicy := ⟨5, ⟨1, Nat.one_ne_zero⟩⟩
  intensity := .new
  residents := [⟨1, 1⟩]
  children := OrdMap.empty.insert 1 {
    slot := .leaf { MemberCell.new ⟨"task"⟩ ⟨1, 1⟩ with
      record := { MemberRecord.new with stage := .admitted } }
    mailbox := false
    mailboxBind := false
    mailboxBinding := none
    terminality := true
    construction := some ⟨.task, .restartable⟩
    options := ⟨.never, .abort, .afterInit, none, .retain⟩
    incarnations := ⟨⟨1, 1⟩, .new⟩
    restarts := .new
    restartDeadline := none
    active := none }
  supervisor := supervisor
  supervisorEffects := []
  deadlines := .new
  role := .root
  dynamic := none
  pendingStartupRemovals := []
  finished := none
  completion := none
  disposals := []
  tick := 0
  log := []

open Driver in
theorem settle_loop_terminates_one_task :
    ∃ tr s, SupervisorRun .ordered tr s ∧ s.settle.2 = [.startChild 1] ∧
      (∃ bound, ∀ fuel, bound ≤ fuel →
        ∃ c', launchingShell.settleSupervisor fuel ⟨(), s, none⟩ [] = .done c') ∧
      ∃ rt', (spawnChild stillWorld (reentry stillWorld 0) 1).runFrom (oneTaskScope s) =
          (.ok (), rt') ∧
        (rt'.supervisor.lifecycle.isStarting = false ∨
          rt'.supervisor.childState 1 ≠ some (.resident .unstarted)) := by
  have hexec : ∃ tr s, exec Input.apply (.new .ordered .starting) [.admitChild ⟨1, 1⟩ true] =
      some (tr, s) ∧ s.settle.2 = [.startChild 1] ∧ (oneTaskScope s).Coherent ∧
      ∃ rt', (spawnChild stillWorld (reentry stillWorld 0) 1).runFrom (oneTaskScope s) =
        (.ok (), rt') := by
    refine ⟨_, _, rfl, by decide, ⟨?_, ?_⟩, _, rfl⟩
    · intro k
      show ((OrdMap.empty.insert 1 _).get? k).isSome = ((OrdMap.empty.insert 1 _).get? k).isSome
      rw [OrdMap.get?_insert, OrdMap.get?_insert]
      split_ifs <;> rfl
    · intro k hk
      replace hk : (((OrdMap.empty.insert 1 _).get? k).bind _).isSome = true := hk
      rw [OrdMap.get?_insert] at hk
      split_ifs at hk <;> cases hk
  obtain ⟨tr, s, hrun, hstart, hcoherent, rt', hreturns⟩ := hexec
  obtain ⟨hloop, hspawn⟩ := settle_loop_terminates
  refine ⟨tr, s, run_of_exec _ hrun, hstart, ?_, rt', hreturns, ?_⟩
  · obtain ⟨bound, hbound⟩ :=
      hloop launchingShell _ launchingShell_obliging ⟨(), s, none⟩ (run_of_exec _ hrun) trivial
    refine ⟨bound, fun fuel hfuel => (hbound [] fuel hfuel).2 ?_⟩
    intro x s effect _
    cases effect <;> exact nofun
  · exact (hspawn stillWorld 0 1 _ rt' hcoherent hreturns).2

end Shelterwood
