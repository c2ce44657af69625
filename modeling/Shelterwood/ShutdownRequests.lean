/-
Shelterwood/ShutdownRequests.lean

No shutdown request is lost, and none leaks to a later incarnation.

A request addresses an epoch that may not exist yet, and four operations can
clear or spend it while stale finishers race: the finish of its epoch, the
driver that takes it, the parent that vacates its epoch, and a start that
restart policy lets through.  What keeps them apart is one invariant
(`ScopeControl.Inv`): a latched request always addresses the epoch after those
that ended.  Ending that epoch is then the only way to clear the latch, and an
ended epoch is never minted, requested or vacated again.

The history of a run is kept as four lists of epochs, one for each way a step
can speak about an epoch.
-/
import Shelterwood.ScopeRun

namespace Shelterwood

/-! ### One move -/

variable {events : EpochEvents} {c c' : ScopeControl}

theorem ControlMove.ended_le (m : ControlMove c events c') (hinv : c.Inv) :
    c.epochs.ended ≤ c'.epochs.ended := by
  cases m with
  | kept _ | tookShutdown _ | tookForce _ | forced _ | requested _ _ => exact le_rfl
  | begun _ _ _ ended => exact ended.ge
  | finished live =>
    have := hinv.plane _ live
    simp only [ScopeEpochs.ended_idle_some]
    omega
  | vacated _ next _ =>
    simp only [ScopeEpochs.ended_idle_some]
    omega

theorem clearThrough_eq_none {epoch : Epoch} {latch : Option ScopeRequest}
    (h : ∀ request, latch = some request → request.epoch.value = epoch.value) :
    ScopeCell.clearThrough epoch latch = none := by
  cases latch with
  | none => rfl
  | some request =>
    have hle : request.epoch ≤ epoch := Epoch.le_iff.mpr (h request rfl).le
    simp [ScopeCell.clearThrough, hle]

/-- Finishing the live epoch clears both latches. -/
theorem ScopeControl.Inv.cleared {epoch : Epoch} (hinv : c.Inv)
    (live : c.epochs.liveEpoch = some epoch) :
    ScopeCell.clearThrough epoch c.shutdown = none ∧
      ScopeCell.clearThrough epoch c.force = none := by
  have hcurrent := hinv.plane epoch live
  constructor
  · refine clearThrough_eq_none fun request hlatch => ?_
    rw [hinv.shutdown request hlatch, hcurrent]
  · refine clearThrough_eq_none fun request hlatch => ?_
    rw [hinv.force request hlatch] at live
    rw [Option.some.inj live]

/-- A request, once addressed, is the plane's target. -/
theorem ScopeControl.Inv.target {target : RequestTarget} (hinv : c.Inv)
    (addressed : c.epochs.requestTarget = .ok target) : target.epoch.value = c.epochs.ended + 1 :=
  (ScopeEpochs.requestTarget_eq_ok hinv.plane addressed).1

theorem ScopeControl.Inv.move (hinv : c.Inv) (m : ControlMove c events c') : c'.Inv := by
  cases m with
  | kept _ => exact ⟨hinv.plane, hinv.shutdown, hinv.force⟩
  | begun idle next live ended =>
    refine ⟨?_, ?_, ?_⟩
    · intro current hcurrent
      rw [live] at hcurrent
      rw [← Option.some.inj hcurrent, next, ended]
    · intro request hlatch
      rw [hinv.shutdown request hlatch, ended]
    · intro request hlatch
      -- the force latch is empty on an idle plane
      have hforce := hinv.force request hlatch
      rw [idle] at hforce
      cases hforce
  | finished live =>
    -- both latches addressed the epoch that ends, so both are empty now
    obtain ⟨hshutdown, hforce⟩ := hinv.cleared live
    rw [hshutdown, hforce]
    exact ⟨by rintro _ ⟨⟩, by rintro _ ⟨⟩, by rintro _ ⟨⟩⟩
  | requested addressed latched =>
    refine ⟨hinv.plane, ?_, hinv.force⟩
    intro request hlatch
    rcases latched with ⟨rfl, -⟩ | ⟨rfl, -⟩
    · cases hlatch
      exact hinv.target addressed
    · exact hinv.shutdown request hlatch
  | tookShutdown latched =>
    refine ⟨hinv.plane, ?_, hinv.force⟩
    rintro request ⟨⟩
    exact hinv.shutdown ⟨_, false⟩ latched
  | tookForce latched =>
    refine ⟨hinv.plane, hinv.shutdown, ?_⟩
    rintro request ⟨⟩
    exact hinv.force ⟨_, false⟩ latched
  | forced live =>
    refine ⟨hinv.plane, hinv.shutdown, ?_⟩
    rintro request ⟨⟩
    exact live
  | vacated idle next latched =>
    refine ⟨by rintro _ ⟨⟩, by rintro _ ⟨⟩, ?_⟩
    intro request hlatch
    have hforce := hinv.force request hlatch
    rw [idle] at hforce
    cases hforce

/-! ### The mints of a run -/

theorem filterMap_snoc {α β : Type*} (f : α → Option β) (l : List α) (x : α) :
    (l ++ [x]).filterMap f = l.filterMap f ++ (f x).toList := by
  rw [List.filterMap_append]
  cases h : f x <;> simp [h]

/-- What began or was vacated has ended or is live, and no epoch is used
twice. -/
structure Mints (begun vacated : List Epoch) (epochs : ScopeEpochs) : Prop where
  begun_ended : ∀ T ∈ begun, T.value ≤ epochs.ended ∨ epochs.liveEpoch = some T
  increasing : begun.Pairwise (· < ·)
  vacated_ended : ∀ T ∈ vacated, T.value ≤ epochs.ended
  disjoint : ∀ T ∈ begun, T ∉ vacated

namespace Mints

variable {begun vacated : List Epoch} {c c' : ScopeControl} {events : EpochEvents}

/-- On an idle plane every epoch begun has ended. -/
theorem ended_of_idle (h : Mints begun vacated c.epochs) (idle : c.epochs.liveEpoch = none) :
    ∀ T ∈ begun, T.value ≤ c.epochs.ended := by
  intro T hT
  rcases h.begun_ended T hT with hended | hlive
  · exact hended
  · rw [idle] at hlive
    cases hlive

theorem begin {epoch : Epoch} {epochs : ScopeEpochs} (h : Mints begun vacated c.epochs)
    (idle : c.epochs.liveEpoch = none) (next : epoch.value = c.epochs.ended + 1)
    (live : epochs.liveEpoch = some epoch) (ended : epochs.ended = c.epochs.ended) :
    Mints (begun ++ [epoch]) vacated epochs := by
  have hbegun := h.ended_of_idle idle
  refine ⟨?_, ?_, ?_, ?_⟩
  · intro T hT
    rcases List.mem_append.mp hT with hold | hnew
    · exact .inl (ended ▸ hbegun T hold)
    · rw [List.mem_singleton.mp hnew]
      exact .inr live
  · refine List.pairwise_append.mpr ⟨h.increasing, List.pairwise_singleton _ _, ?_⟩
    intro T hT T' hT'
    rw [List.mem_singleton.mp hT', Epoch.lt_iff, next]
    exact Nat.lt_succ_of_le (hbegun T hT)
  · rw [ended]
    exact h.vacated_ended
  · intro T hT hvacated
    rcases List.mem_append.mp hT with hold | hnew
    · exact h.disjoint T hold hvacated
    · -- what was vacated has ended, the new epoch has not
      have hended := h.vacated_ended T hvacated
      rw [List.mem_singleton.mp hnew] at hended
      omega

/-- Ending the plane's next epoch, whether or not it ran. -/
theorem finish {epoch : Epoch} (h : Mints begun vacated c.epochs)
    (next : epoch.value = c.epochs.ended + 1)
    (live : ∀ T, c.epochs.liveEpoch = some T → T = epoch) :
    Mints begun vacated (.idle (some epoch)) := by
  refine ⟨?_, h.increasing, ?_, h.disjoint⟩
  · intro T hT
    rw [ScopeEpochs.ended_idle_some]
    rcases h.begun_ended T hT with hended | hlive
    · exact .inl (by omega)
    · rw [live T hlive]
      exact .inl le_rfl
  · intro T hT
    have := h.vacated_ended T hT
    rw [ScopeEpochs.ended_idle_some]
    omega

theorem vacate {target : Epoch} (h : Mints begun vacated c.epochs)
    (idle : c.epochs.liveEpoch = none) (next : target.value = c.epochs.ended + 1) :
    Mints begun (vacated ++ [target]) (.idle (some target)) := by
  have hfinish := h.finish next fun T hT => by rw [idle] at hT; cases hT
  refine ⟨hfinish.begun_ended, hfinish.increasing, ?_, ?_⟩
  · intro T hT
    rcases List.mem_append.mp hT with hold | hnew
    · exact hfinish.vacated_ended T hold
    · rw [List.mem_singleton.mp hnew]
      exact le_rfl
  · intro T hT hvacated
    rcases List.mem_append.mp hvacated with hold | hnew
    · exact h.disjoint T hT hold
    · have hended := h.ended_of_idle idle T hT
      rw [List.mem_singleton.mp hnew] at hended
      omega

theorem move (h : Mints begun vacated c.epochs) (hinv : c.Inv) (m : ControlMove c events c') :
    Mints (begun ++ events.begun.toList) (vacated ++ events.vacated.toList) c'.epochs := by
  cases m with
  | kept _ | tookForce _ | forced _ | requested _ _ | tookShutdown _ =>
    simpa [EpochEvents.none] using h
  | begun idle next live ended =>
    simpa [EpochEvents.none] using h.begin idle next live ended
  | finished live =>
    have hlive := fun T hT => Option.some.inj ((hT : c.epochs.liveEpoch = some T).symm.trans live)
    simpa [EpochEvents.none] using h.finish (hinv.plane _ live) hlive
  | vacated idle next _ =>
    simpa [EpochEvents.none] using h.vacate idle next

end Mints

/-! ### The requests of a run -/

/-- An epoch requested has ended or is latched, and the one taken stays latched
as consumed until it ends. -/
structure Requests (requested taken : List Epoch) (c : ScopeControl) : Prop where
  held : ∀ T ∈ requested, T.value ≤ c.epochs.ended ∨
    ∃ request, c.shutdown = some request ∧ request.epoch = T
  latch_requested : ∀ request, c.shutdown = some request → request.epoch ∈ requested
  consumed : ∀ T ∈ taken, T.value ≤ c.epochs.ended ∨ c.shutdown = some ⟨T, true⟩
  taken_once : taken.Nodup
  taken_requested : ∀ T ∈ taken, T ∈ requested

namespace Requests

variable {requested taken : List Epoch} {c c' : ScopeControl} {events : EpochEvents}

/-- A move that ends no epoch and leaves the latch alone. -/
theorem of_same (h : Requests requested taken c) (hended : c'.epochs.ended = c.epochs.ended)
    (hlatch : c'.shutdown = c.shutdown) : Requests requested taken c' := by
  refine ⟨?_, ?_, ?_, h.taken_once, h.taken_requested⟩
  · rw [hended, hlatch]
    exact h.held
  · rw [hlatch]
    exact h.latch_requested
  · rw [hended, hlatch]
    exact h.consumed

/-- Ending the plane's next epoch: whatever was latched addressed it. -/
theorem finish {epoch : Epoch} {force : Option ScopeRequest} (h : Requests requested taken c)
    (hinv : c.Inv) (next : epoch.value = c.epochs.ended + 1) :
    Requests requested taken
      { c with epochs := .idle (some epoch), shutdown := none, force } := by
  -- the latch and the ending epoch are both the plane's target
  have hlatched : ∀ request, c.shutdown = some request → request.epoch = epoch := by
    intro request hlatch
    rw [Epoch.eq_iff, hinv.shutdown request hlatch, next]
  refine ⟨?_, by rintro _ ⟨⟩, ?_, h.taken_once, h.taken_requested⟩
  · intro T hT
    rw [ScopeEpochs.ended_idle_some]
    rcases h.held T hT with hended | ⟨request, hlatch, rfl⟩
    · exact .inl (by omega)
    · exact .inl (by rw [hlatched request hlatch])
  · intro T hT
    rw [ScopeEpochs.ended_idle_some]
    rcases h.consumed T hT with hended | hlatch
    · exact .inl (by omega)
    · exact .inl (by rw [← hlatched _ hlatch])

/-- A request that finds its target latched already. -/
theorem request_again {request : ScopeRequest} (h : Requests requested taken c)
    (hlatch : c.shutdown = some request) :
    Requests (requested ++ [request.epoch]) taken c := by
  refine ⟨?_, ?_, h.consumed, h.taken_once, ?_⟩
  · intro T hT
    rcases List.mem_append.mp hT with hold | hnew
    · exact h.held T hold
    · exact .inr ⟨request, hlatch, (List.mem_singleton.mp hnew).symm⟩
  · intro request' hlatch'
    exact List.mem_append_left _ (h.latch_requested request' hlatch')
  · intro T hT
    exact List.mem_append_left _ (h.taken_requested T hT)

/-- A request that finds the latch empty. -/
theorem request_fresh {target : Epoch} (h : Requests requested taken c)
    (hlatch : c.shutdown = none) :
    Requests (requested ++ [target]) taken { c with shutdown := some ⟨target, false⟩ } := by
  refine ⟨?_, ?_, ?_, h.taken_once, ?_⟩
  · intro T hT
    rcases List.mem_append.mp hT with hold | hnew
    · rcases h.held T hold with hended | ⟨request, hheld, -⟩
      · exact .inl hended
      · rw [hlatch] at hheld
        cases hheld
    · exact .inr ⟨_, rfl, (List.mem_singleton.mp hnew).symm⟩
  · rintro request ⟨⟩
    exact List.mem_append_right _ (List.mem_singleton_self _)
  · intro T hT
    rcases h.consumed T hT with hended | hheld
    · exact .inl hended
    · rw [hlatch] at hheld
      cases hheld
  · intro T hT
    exact List.mem_append_left _ (h.taken_requested T hT)

theorem take {epoch : Epoch} (h : Requests requested taken c) (hinv : c.Inv)
    (hlatch : c.shutdown = some ⟨epoch, false⟩) :
    Requests requested (taken ++ [epoch]) { c with shutdown := some ⟨epoch, true⟩ } := by
  have hnext := hinv.shutdown _ hlatch
  -- an epoch taken before has ended, or its latch is consumed
  have hfresh : ∀ T ∈ taken, T.value ≤ c.epochs.ended := by
    intro T hT
    rcases h.consumed T hT with hended | hheld
    · exact hended
    · rw [hlatch] at hheld
      cases hheld
  refine ⟨?_, ?_, ?_, ?_, ?_⟩
  · intro T hT
    rcases h.held T hT with hended | ⟨request, hheld, rfl⟩
    · exact .inl hended
    · rw [hlatch] at hheld
      cases hheld
      exact .inr ⟨_, rfl, rfl⟩
  · rintro request ⟨⟩
    exact h.latch_requested ⟨epoch, false⟩ hlatch
  · intro T hT
    rcases List.mem_append.mp hT with hold | hnew
    · exact .inl (hfresh T hold)
    · rw [List.mem_singleton.mp hnew]
      exact .inr rfl
  · -- taking it twice would need it to have ended while latched
    rw [List.nodup_append]
    refine ⟨h.taken_once, by simp, ?_⟩
    intro T hT T' hT' heq
    have hended := hfresh T hT
    rw [heq, List.mem_singleton.mp hT', hnext] at hended
    omega
  · intro T hT
    rcases List.mem_append.mp hT with hold | hnew
    · exact h.taken_requested T hold
    · rw [List.mem_singleton.mp hnew]
      exact h.latch_requested _ hlatch

theorem move (h : Requests requested taken c) (hinv : c.Inv) (m : ControlMove c events c') :
    Requests (requested ++ events.requested.toList) (taken ++ events.taken.toList) c' := by
  cases m with
  | kept _ | tookForce _ | forced _ =>
    simp only [EpochEvents.none, Option.toList_none, List.append_nil]
    exact h.of_same rfl rfl
  | begun _ _ _ ended =>
    simp only [EpochEvents.none, Option.toList_none, List.append_nil]
    exact h.of_same ended rfl
  | finished live =>
    simp only [EpochEvents.none, Option.toList_none, List.append_nil, (hinv.cleared live).1]
    exact h.finish hinv (hinv.plane _ live)
  | @requested target latch addressed latched =>
    simp only [EpochEvents.none, Option.toList_none, Option.toList_some, List.append_nil]
    have hnext := hinv.target addressed
    rcases latched with ⟨rfl, hnewer⟩ | ⟨rfl, request, hlatch, -⟩
    · refine h.request_fresh ?_
      -- a latched request addresses the target, so it is not older
      cases hlatch : c.shutdown with
      | none => rfl
      | some request =>
        have hlt := Epoch.lt_iff.mp (hnewer request hlatch)
        rw [hinv.shutdown request hlatch, hnext] at hlt
        exact absurd hlt (lt_irrefl _)
    · -- the latch holds the target already
      have htarget : target.epoch = request.epoch := by
        rw [Epoch.eq_iff, hinv.shutdown request hlatch, hnext]
      rw [htarget]
      exact h.request_again hlatch
  | tookShutdown latched =>
    simp only [EpochEvents.none, Option.toList_none, Option.toList_some, List.append_nil]
    exact h.take hinv latched
  | vacated _ next _ =>
    simp only [EpochEvents.none, Option.toList_none, List.append_nil]
    exact h.finish hinv next

end Requests

/-! ### Runs -/

variable {member : MemberCell} {parent : Bool} {tr : List ScopeEdge} {s : ScopeCell}

theorem inv_of_run (hrun : ScopeRun member parent tr s) : s.control.Inv := by
  refine hrun.invariant .new ?_
  intro e he _ hinv
  exact hinv.move (controlMove_of_edge he hinv)

theorem mints_of_run (hrun : ScopeRun member parent tr s) :
    Mints (begunEpochs tr) (vacatedEpochs tr) s.control.epochs := by
  refine hrun.history ?_ ?_
  · exact ⟨by simp [begunEpochs], .nil, by simp [vacatedEpochs], by simp [begunEpochs]⟩
  · intro pre e hpre he _ hmints
    have hinv := inv_of_run hpre
    rw [begunEpochs, vacatedEpochs, filterMap_snoc, filterMap_snoc]
    exact hmints.move hinv (controlMove_of_edge he hinv)

theorem requests_of_run (hrun : ScopeRun member parent tr s) :
    Requests (requestedEpochs tr) (takenEpochs tr) s.control := by
  refine hrun.history ?_ ?_
  · refine ⟨by simp [requestedEpochs], by rintro _ ⟨⟩, by simp [takenEpochs], ?_, ?_⟩
    · exact List.nodup_nil
    · simp [takenEpochs]
  · intro pre e hpre he _ hrequests
    have hinv := inv_of_run hpre
    rw [requestedEpochs, takenEpochs, filterMap_snoc, filterMap_snoc]
    exact hrequests.move hinv (controlMove_of_edge he hinv)

/-- Epochs end for good, from any control plane that keeps the invariant. -/
theorem ended_le_of_run {s₀ : ScopeCell} (hinv : s₀.control.Inv)
    (hrun : Run (stepEdge ScopeStep.apply) s₀ tr s) :
    s₀.control.epochs.ended ≤ s.control.epochs.ended := by
  have hkept : s.control.Inv ∧ s₀.control.epochs.ended ≤ s.control.epochs.ended := by
    refine hrun.invariant ⟨hinv, le_rfl⟩ ?_
    rintro e he _ ⟨hbefore, hle⟩
    have hmove := controlMove_of_edge he hbefore
    exact ⟨hbefore.move hmove, hle.trans (hmove.ended_le hbefore)⟩
  exact hkept.2

/-- A begin mints the epoch after those that ended, and ends none. -/
theorem begun_unfinished {T : Epoch} (m : ControlMove c events c')
    (hbegun : events.begun = some T) :
    c.epochs.finished T = false ∧ c'.epochs.finished T = false := by
  cases m with
  | begun idle next live ended =>
    cases hbegun
    simp only [← Bool.not_eq_true, ScopeEpochs.finished_iff, ended]
    omega
  | kept _ | finished _ | requested _ _ | tookShutdown _ | tookForce _ | forced _ | vacated _ _ _ =>
    cases hbegun

/-- **The construction boundary.**  A pending request refuses the start and
stays, or restart policy spends it and the start goes on; a start that went
through leaves no request for the incarnation it begins. -/
theorem start_boundary {e : ScopeEdge} {incarnation : Incarnation} {restartStopped : Bool}
    (he : stepEdge ScopeStep.apply e) (hinv : e.before.control.Inv)
    (hstart : e.input = .startScopeChild incarnation restartStopped) :
    (e.before.pendingIncarnationShutdown = none → e.after.control = e.before.control) ∧
      (∀ T, e.before.pendingIncarnationShutdown = some T → restartStopped = false →
        e.output = .flag false ∧ e.after = e.before) ∧
      (∀ T, e.before.pendingIncarnationShutdown = some T → restartStopped = true →
        e.after.control =
          { e.before.control with epochs := .idle (some T), shutdown := none }) ∧
      (e.output = .flag true → e.after.pendingIncarnationShutdown = none) := by
  obtain ⟨s, step, output, s'⟩ := e
  subst hstart
  replace he : ScopeStep.apply s (.startScopeChild incarnation restartStopped) =
    some (s', output) := he
  obtain ⟨started, s'', hok, -, -, hcases⟩ := hinv.start incarnation restartStopped
  simp only [ScopeStep.apply, hok, Option.some.injEq, Prod.mk.injEq] at he
  obtain ⟨rfl, rfl⟩ := he
  rcases hcases with ⟨hpending, hcontrol⟩ | ⟨target, hpending, ⟨rfl, rfl, rfl⟩ | ⟨rfl, hcontrol⟩⟩
  · have hpending' : s''.pendingIncarnationShutdown = none := by
      rw [← hpending, ScopeCell.pendingIncarnationShutdown, hcontrol]
      rfl
    simp [hpending, hcontrol, hpending']
  · simp [hpending]
  · have hpending' : s''.pendingIncarnationShutdown = none := by
      rw [ScopeCell.pendingIncarnationShutdown, hcontrol]
      rfl
    simp [hpending, hcontrol, hpending']

/-- **No shutdown request is lost or leaks to a later incarnation.** -/
theorem shutdown_requests_kept (hrun : ScopeRun member parent tr s) :
    (∀ request, s.control.shutdown = some request →
        ∃ pending, s.control.epochs.requestTarget = .ok ⟨request.epoch, pending⟩) ∧
      (∀ request, s.control.force = some request →
        s.control.epochs.liveEpoch = some request.epoch) ∧
      (∀ T ∈ requestedEpochs tr, s.control.epochs.finished T = true ∨
        ∃ request, s.control.shutdown = some request ∧ request.epoch = T) ∧
      (takenEpochs tr).Nodup ∧ (∀ T ∈ takenEpochs tr, T ∈ requestedEpochs tr) ∧
      (∀ e ∈ tr, ∀ T, e.before.control.epochs.finished T = true →
        e.after.control.epochs.finished T = true ∧ s.control.epochs.finished T = true) ∧
      (begunEpochs tr).Pairwise (· < ·) ∧
      (∀ e ∈ tr, ∀ T, (epochEvents e).begun = some T →
        e.before.control.epochs.finished T = false ∧ e.after.control.epochs.finished T = false) ∧
      (∀ T ∈ begunEpochs tr, T ∉ vacatedEpochs tr) ∧
      ∀ e ∈ tr, ∀ incarnation restartStopped,
        e.input = .startScopeChild incarnation restartStopped →
        (e.before.pendingIncarnationShutdown = none → e.after.control = e.before.control) ∧
          (∀ T, e.before.pendingIncarnationShutdown = some T → restartStopped = false →
            e.output = .flag false ∧ e.after = e.before) ∧
          (∀ T, e.before.pendingIncarnationShutdown = some T → restartStopped = true →
            e.after.control =
              { e.before.control with epochs := .idle (some T), shutdown := none }) ∧
          (e.output = .flag true → e.after.pendingIncarnationShutdown = none) := by
  have hinv := inv_of_run hrun
  have hmints := mints_of_run hrun
  have hrequests := requests_of_run hrun
  refine ⟨?_, hinv.force, ?_, hrequests.taken_once, hrequests.taken_requested, ?_,
    hmints.increasing, ?_, hmints.disjoint, ?_⟩
  · intro request hlatch
    exact ⟨_, ScopeEpochs.requestTarget_of_value hinv.plane (hinv.shutdown request hlatch)⟩
  · intro T hT
    rw [ScopeEpochs.finished_iff]
    exact hrequests.held T hT
  · intro e he T hT
    obtain ⟨pre, post, -, hpre, hedge, hpost⟩ := hrun.mem_split he
    have hbefore := inv_of_run hpre
    have hmove := controlMove_of_edge hedge hbefore
    have hle := hmove.ended_le hbefore
    have hle' := ended_le_of_run (hbefore.move hmove) hpost
    rw [ScopeEpochs.finished_iff] at hT ⊢
    rw [ScopeEpochs.finished_iff]
    omega
  · intro e he T hT
    obtain ⟨pre, post, -, hpre, hedge, -⟩ := hrun.mem_split he
    exact begun_unfinished (controlMove_of_edge hedge (inv_of_run hpre)) hT
  · intro e he incarnation restartStopped hstart
    obtain ⟨pre, post, -, hpre, hedge, -⟩ := hrun.mem_split he
    exact start_boundary hedge (inv_of_run hpre) hstart

/-- A request meets the restart window of a nested scope and is spent; the next
incarnation is requested, taken and forced, and a stale driver finishes late. -/
def windowSteps : List ScopeStep :=
  [.requestShutdown, .startScopeChild ⟨⟨1, 1⟩, 1⟩ false, .startScopeChild ⟨⟨1, 1⟩, 1⟩ true,
    .beginIncarnation, .requestShutdown, .takeShutdownRequest ⟨2, by decide, by decide⟩,
    .takeShutdownRequest ⟨2, by decide, by decide⟩, .forceShutdown ⟨2, by decide, by decide⟩,
    .finishIncarnation .first .shutdownRequested none,
    .finishIncarnation ⟨2, by decide, by decide⟩ .shutdownRequested none, .requestShutdown]

def windowMember : MemberCell :=
  { MemberCell.new ⟨"nested"⟩ ⟨1, 1⟩ with record := { MemberRecord.new with stage := .admitted } }

theorem shutdown_requests_kept_window :
    ∃ tr s, ScopeRun windowMember true tr s ∧
      (requestedEpochs tr).map Epoch.value = [1, 2, 3] ∧
      (vacatedEpochs tr).map Epoch.value = [1] ∧ (begunEpochs tr).map Epoch.value = [2] ∧
      (takenEpochs tr).map Epoch.value = [2] ∧ (takenEpochs tr).Nodup ∧
      ∀ T ∈ requestedEpochs tr, s.control.epochs.finished T = true ∨
        ∃ request, s.control.shutdown = some request ∧ request.epoch = T := by
  have hexec : ∃ tr s,
      exec (fun s step => ScopeStep.apply s step) (.new windowMember true) windowSteps =
        some (tr, s) ∧
      (requestedEpochs tr).map Epoch.value = [1, 2, 3] ∧
      (vacatedEpochs tr).map Epoch.value = [1] ∧ (begunEpochs tr).map Epoch.value = [2] ∧
      (takenEpochs tr).map Epoch.value = [2] :=
    ⟨_, _, rfl, by decide, by decide, by decide, by decide⟩
  obtain ⟨tr, s, hrun, hrequested, hvacated, hbegun, htaken⟩ := hexec
  have hkept := shutdown_requests_kept (run_of_exec _ hrun)
  exact ⟨tr, s, run_of_exec _ hrun, hrequested, hvacated, hbegun, htaken, hkept.2.2.2.1,
    hkept.2.2.1⟩

end Shelterwood
