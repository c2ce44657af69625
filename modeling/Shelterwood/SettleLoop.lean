/-
Shelterwood/SettleLoop.lean

The settle loop and the shells it may run on.

The driver alternates settlements with the execution of the effects they
queue, until a settlement queues nothing or the scope has finished.  What an
effect's execution does to the reducer is up to the shell: a `Shell` answers an
effect with a list of reducer calls, out of a state of its own.  The loop is an
instance of `Worklist.drive`, and a shell that answers without admission and
force, and that takes up or refuses for good every start it is asked for, makes
it end (`Shell.Obliging.settleSupervisor_ends`).
-/
import Shelterwood.Descent
import Shelterwood.Worklist

namespace Shelterwood

/-- A runtime shell, seen from the reducer: how it answers an effect. -/
structure Shell (σ : Type*) where
  answer : σ → SupervisorState → Effect → List Input × σ

/-- The state of the loop. -/
structure SettleState (σ : Type*) where
  shell : σ
  supervisor : SupervisorState
  finished : Option StopReason

/-- Executing `finished` keeps the first reason. -/
def Effect.recordFinished (finished : Option StopReason) : Effect → Option StopReason
  | .finished reason => finished <|> some reason
  | _ => finished

namespace Shell

variable {σ : Type*} (shell : Shell σ)

/-- Executes one effect; the calls of the answer queue theirs. -/
def execute (c : SettleState σ) (effect : Effect) : Option (SettleState σ × List Effect) :=
  match exec Input.apply c.supervisor (shell.answer c.shell c.supervisor effect).1 with
  | none => none
  | some (tr, supervisor) =>
    some ({
      shell := (shell.answer c.shell c.supervisor effect).2
      supervisor := supervisor
      finished := effect.recordFinished c.finished }, runEffects tr)

/-- Applies `settle` to the reducer. -/
def reduceSettle (c : SettleState σ) : SettleState σ × List Effect :=
  ({ c with supervisor := (c.supervisor.apply .settle).1 }, (c.supervisor.apply .settle).2)

/-- The driver loop. -/
def settleSupervisor : ℕ → SettleState σ → List Effect → Worklist.Outcome (SettleState σ) :=
  Worklist.drive shell.execute reduceSettle fun c => c.finished.isSome

/-- What a shell owes the loop, in the shell states that are `Valid` for the
reducer's. -/
structure Obliging (Valid : σ → SupervisorState → Prop) : Prop where
  /-- It neither admits nor forces. -/
  isAnswer : ∀ {x s effect input}, Valid x s → input ∈ (shell.answer x s effect).1 →
    input.isAnswer = true
  /-- It starts the child, or sees to it that startup does not wait for it. -/
  started : ∀ {x s c tr s'}, Valid x s →
    exec Input.apply s (shell.answer x s (.startChild c)).1 = some (tr, s') →
    s'.lifecycle.isStarting = false ∨ s'.childState c ≠ some (.resident .unstarted)
  /-- Its answers and settlements lead to valid states. -/
  answered : ∀ {x s effect tr s'}, Valid x s →
    exec Input.apply s (shell.answer x s effect).1 = some (tr, s') →
    Valid (shell.answer x s effect).2 s'
  settled : ∀ {x s}, Valid x s → Valid x (s.apply .settle).1

variable {shell}

/-- What one execution amounts to. -/
theorem execute_eq_some {c c' : SettleState σ} {effect : Effect} {queued : List Effect}
    (h : shell.execute c effect = some (c', queued)) :
    ∃ tr, exec Input.apply c.supervisor (shell.answer c.shell c.supervisor effect).1 =
        some (tr, c'.supervisor) ∧
      c'.shell = (shell.answer c.shell c.supervisor effect).2 ∧ queued = runEffects tr := by
  rw [execute] at h
  cases hexec : exec Input.apply c.supervisor (shell.answer c.shell c.supervisor effect).1 with
  | none => simp [hexec] at h
  | some result =>
    obtain ⟨tr, s'⟩ := result
    simp only [hexec] at h
    cases h
    exact ⟨tr, rfl, rfl, rfl⟩

variable {Valid : σ → SupervisorState → Prop}

/-- An obliging answer runs through the reducer without admission and force. -/
theorem Obliging.answers (h : shell.Obliging Valid) {x : σ} {s s' : SupervisorState}
    {effect : Effect} {tr : List SupervisorEdge} (hx : Valid x s)
    (hexec : exec Input.apply s (shell.answer x s effect).1 = some (tr, s')) :
    Run (stepEdge Input.apply) s tr s' ∧ Answers tr := by
  refine ⟨run_of_exec _ hexec, ?_⟩
  intro e he
  -- the trace has the inputs of the answer, none of them excluded
  have hmem : e.input ∈ tr.map Edge.input := List.mem_map_of_mem he
  rw [exec_inputs _ hexec] at hmem
  exact h.isAnswer hx hmem

/-- **The loop on an obliging shell is bounded** by the reducer's potential,
with the open start requests as the fresh items. -/
theorem Obliging.bounded (h : shell.Obliging Valid) :
    Worklist.Bounded shell.execute reduceSettle
      (fun c => Valid c.shell c.supervisor ∧ c.supervisor.RecordsWf)
      (fun c => c.supervisor.potential)
      (fun c effect => ∃ k, effect = .startChild k ∧ c.supervisor.StartPending k) where
  valid_execute := by
    rintro c effect c' queued ⟨hx, hwf⟩ hrun
    obtain ⟨tr, hexec, hshell, -⟩ := execute_eq_some hrun
    refine ⟨?_, hwf.run (h.answers hx hexec).1⟩
    rw [hshell]
    exact h.answered hx hexec
  potential_le := by
    rintro c effect c' queued ⟨hx, -⟩ hrun
    obtain ⟨tr, hexec, -, -⟩ := execute_eq_some hrun
    obtain ⟨htr, hanswers⟩ := h.answers hx hexec
    exact (descends_of_run htr hanswers).potential_le
  fresh_queued := by
    rintro c effect c' queued ⟨hx, hwf⟩ hrun hpot x hmem
    obtain ⟨tr, hexec, -, rfl⟩ := execute_eq_some hrun
    obtain ⟨htr, hanswers⟩ := h.answers hx hexec
    exact pending_of_run htr hanswers hwf hpot hmem
  fresh_kept := by
    rintro c effect c' queued _ ⟨hx, -⟩ hrun hpot ⟨k, rfl, hk⟩
    obtain ⟨tr, hexec, -, -⟩ := execute_eq_some hrun
    obtain ⟨htr, hanswers⟩ := h.answers hx hexec
    refine ⟨k, rfl, ?_⟩
    by_contra hclosed
    have hlt := (descends_of_run htr hanswers).potential_lt_of_startPending hk hclosed
    omega
  fresh_spent := by
    rintro c _ c' queued ⟨hx, -⟩ hrun ⟨k, rfl, hk⟩
    obtain ⟨tr, hexec, -, -⟩ := execute_eq_some hrun
    obtain ⟨htr, hanswers⟩ := h.answers hx hexec
    apply (descends_of_run htr hanswers).potential_lt_of_startPending hk
    exact SupervisorState.not_startPending_iff.mpr (h.started hx hexec)
  valid_poll := by
    rintro c ⟨hx, hwf⟩
    exact ⟨h.settled hx, hwf.after (.step c.supervisor .settle)⟩
  poll_le := fun {c} _ => c.supervisor.settle_descends.potential_le
  fresh_polled := by
    rintro c ⟨-, hwf⟩ hpot x hmem
    rcases SupervisorState.settle_paid_or_pending hwf hmem with hlt | hpending
    · exact absurd hpot (Nat.ne_of_lt hlt)
    · exact hpending

/-- **The settle loop ends** on an obliging shell, from every well-formed
reducer state and every queue.  If no answer unwinds, it returns. -/
theorem Obliging.settleSupervisor_ends (h : shell.Obliging Valid) {c : SettleState σ}
    (hx : Valid c.shell c.supervisor) (hwf : c.supervisor.RecordsWf) (queue : List Effect)
    {fuel : ℕ} (hfuel : 2 * c.supervisor.potential + 4 ≤ fuel) :
    shell.settleSupervisor fuel c queue ≠ .exhausted ∧
      ((∀ x s effect, Valid x s → exec Input.apply s (shell.answer x s effect).1 ≠ none) →
        ∃ c', shell.settleSupervisor fuel c queue = .done c') := by
  have hends : shell.settleSupervisor fuel c queue ≠ .exhausted :=
    h.bounded.drive_ne_exhausted _ ⟨hx, hwf⟩ (.inl hfuel)
  refine ⟨hends, ?_⟩
  intro hruns
  have hreturns : shell.settleSupervisor fuel c queue ≠ .unwound := by
    refine Worklist.drive_ne_unwound h.bounded.valid_execute ?_ h.bounded.valid_poll _ ⟨hx, hwf⟩
    rintro c effect ⟨hx, -⟩ hnone
    rw [execute] at hnone
    cases hexec : exec Input.apply c.supervisor (shell.answer c.shell c.supervisor effect).1 with
    | none => exact hruns _ _ _ hx hexec
    | some result => simp [hexec] at hnone
  cases hrun : shell.settleSupervisor fuel c queue with
  | exhausted => exact absurd hrun hends
  | unwound => exact absurd hrun hreturns
  | done c' => exact ⟨c', rfl⟩

end Shell

end Shelterwood
