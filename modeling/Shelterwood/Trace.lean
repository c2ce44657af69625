/-
Shelterwood/Trace.lean

Finite runs of a labelled transition system, with their whole history.

An `Edge` is one step: the state before it, the input that caused it, what it
returned and the state after it.  A system is a predicate `E` on edges, and
`Run E s tr t` says that `tr` is a chain of edges of `E` from `s` to `t`.  The
trace is kept, not only the end points, because temporal properties ("emitted
at most once", "only after", "never again") speak about it.

The rules below are the only inductions over runs a development needs:

* `Run.invariant`  a state property every edge keeps holds at the end;
* `Run.history`    the same for a property of trace and state together;
* `Run.weight_le`  a weight every edge pays for out of a potential is bounded
  by the initial potential;
* `Run.split`, `Run.mem_split`  cutting a run at an edge;
* `Run.simulate`  matching a run step by step in another system.
-/
import Mathlib.Data.List.Basic
import Mathlib.Algebra.BigOperators.Group.List.Basic
import Mathlib.Algebra.GroupWithZero.Nat

/-- One step of a labelled transition system. -/
structure Edge (σ ι ο : Type*) where
  /-- The state the step starts from. -/
  before : σ
  /-- What caused the step. -/
  input : ι
  /-- What the step returned. -/
  output : ο
  /-- The state the step leaves. -/
  after : σ

/-- `Run E s tr t`: the edges `tr`, all of the system `E`, lead from `s` to
`t`. -/
inductive Run {σ ι ο : Type*} (E : Edge σ ι ο → Prop) :
    σ → List (Edge σ ι ο) → σ → Prop
  | nil (s : σ) : Run E s [] s
  | cons {e : Edge σ ι ο} {tr : List (Edge σ ι ο)} {t : σ} :
      E e → Run E e.after tr t → Run E e.before (e :: tr) t

namespace Run

variable {σ ι ο : Type*} {E : Edge σ ι ο → Prop}
variable {s t : σ} {tr tr₁ tr₂ : List (Edge σ ι ο)} {e : Edge σ ι ο}

/-! ### Composition -/

theorem append {m : σ} (h₁ : Run E s tr₁ m) (h₂ : Run E m tr₂ t) :
    Run E s (tr₁ ++ tr₂) t := by
  induction h₁ with
  | nil _ => exact h₂
  | cons he _ ih => exact .cons he (ih h₂)

theorem single (he : E e) : Run E e.before [e] e.after := .cons he (.nil _)

theorem snoc (h : Run E s tr e.before) (he : E e) : Run E s (tr ++ [e]) e.after :=
  h.append (single he)

theorem eq_of_nil (h : Run E s [] t) : t = s := by
  cases h
  rfl

/-- A run over an appended trace passes through a middle state. -/
theorem split (h : Run E s (tr₁ ++ tr₂) t) : ∃ m, Run E s tr₁ m ∧ Run E m tr₂ t := by
  induction tr₁ generalizing s with
  | nil => exact ⟨s, .nil s, h⟩
  | cons a rest ih =>
    cases h with
    | cons ha hrest =>
      obtain ⟨m, h₁, h₂⟩ := ih hrest
      exact ⟨m, .cons ha h₁, h₂⟩

/-- Cutting a run at an edge. -/
theorem split_at (h : Run E s (tr₁ ++ e :: tr₂) t) :
    Run E s tr₁ e.before ∧ E e ∧ Run E e.after tr₂ t := by
  obtain ⟨m, h₁, h₂⟩ := h.split
  cases h₂ with
  | cons he hrest => exact ⟨h₁, he, hrest⟩

/-- Cutting a run where a reading of its trace shows an entry. -/
theorem split_map {β : Type*} {f : Edge σ ι ο → β} {pre post : List β} {x : β}
    (h : Run E s tr t) (hmap : tr.map f = pre ++ x :: post) :
    ∃ before e after, tr = before ++ e :: after ∧ before.map f = pre ∧ f e = x ∧
      after.map f = post ∧ Run E s before e.before ∧ E e ∧ Run E e.after after t := by
  obtain ⟨before, rest, rfl, hpre, hrest⟩ := List.map_eq_append_iff.1 hmap
  obtain ⟨e, after, rfl, hx, hpost⟩ := List.map_eq_cons_iff.1 hrest
  exact ⟨before, e, after, rfl, hpre, hx, hpost, h.split_at⟩

theorem mem_split (h : Run E s tr t) (he : e ∈ tr) :
    ∃ pre post, tr = pre ++ e :: post ∧
      Run E s pre e.before ∧ E e ∧ Run E e.after post t := by
  obtain ⟨pre, post, rfl⟩ := List.append_of_mem he
  exact ⟨pre, post, rfl, h.split_at⟩

theorem edge_of_mem (h : Run E s tr t) (he : e ∈ tr) : E e := by
  obtain ⟨_, _, -, -, hE, -⟩ := h.mem_split he
  exact hE

/-! ### Induction rules -/

/-- Induction along a run from its start, with the history so far. -/
@[elab_as_elim]
theorem history {P : List (Edge σ ι ο) → σ → Prop} (h : Run E s tr t)
    (start : P [] s)
    (step : ∀ pre e, Run E s pre e.before → E e → e ∈ tr → P pre e.before →
      P (pre ++ [e]) e.after) : P tr t := by
  -- generalise over the part of the trace already walked
  suffices key : ∀ {m : σ} {rest done : List (Edge σ ι ο)}, Run E m rest t →
      tr = done ++ rest → Run E s done m → P done m → P tr t by
    exact key h (List.nil_append tr).symm (.nil s) start
  intro m rest done hrest
  induction hrest generalizing done with
  | nil m =>
    intro heq _ hP
    rw [heq, List.append_nil]
    exact hP
  | @cons e rest t he _ ih =>
    intro heq hdone hP
    refine ih h (by simp [heq]) (hdone.snoc he) ?_
    exact step done e hdone he (by simp [heq]) hP

/-- A state property kept by every edge of the run holds at its end. -/
@[elab_as_elim]
theorem invariant {P : σ → Prop} (h : Run E s tr t) (start : P s)
    (step : ∀ e, E e → e ∈ tr → P e.before → P e.after) : P t :=
  h.history (P := fun _ s => P s) start fun _ e _ he hmem => step e he hmem

/-- A weight that every edge pays for out of a potential is bounded. -/
theorem weight_le {w : Edge σ ι ο → ℕ} {f : σ → ℕ} (h : Run E s tr t)
    (step : ∀ e, E e → e ∈ tr → w e + f e.after ≤ f e.before) :
    (tr.map w).sum + f t ≤ f s := by
  induction h with
  | nil s => simp
  | cons he _ ih =>
    have h₁ := step _ he List.mem_cons_self
    have h₂ := ih fun a ha hmem => step a ha (List.mem_cons_of_mem _ hmem)
    simp only [List.map_cons, List.sum_cons]
    omega

/-- Forward simulation: if every edge is matched by an edge of another system with
the same input and output, every run is matched by a run. -/
theorem simulate {σ' : Type*} {E' : Edge σ' ι ο → Prop} {R : σ → σ' → Prop} {s' : σ'}
    (h : Run E s tr t) (start : R s s')
    (step : ∀ e a, E e → R e.before a → ∃ b, E' ⟨a, e.input, e.output, b⟩ ∧ R e.after b) :
    ∃ tr' t', Run E' s' tr' t' ∧ R t t' ∧
      tr'.map (fun e => (e.input, e.output)) = tr.map fun e => (e.input, e.output) := by
  induction h generalizing s' with
  | nil s => exact ⟨[], s', .nil s', start, rfl⟩
  | @cons e rest t he _ ih =>
    obtain ⟨b, hb, hafter⟩ := step e s' he start
    obtain ⟨rest', t', hrun, hend, hsame⟩ := ih hafter
    refine ⟨⟨s', e.input, e.output, b⟩ :: rest', t', .cons hb hrun, hend, ?_⟩
    simp only [List.map_cons, hsame]

end Run

/-! ### The latest entry of a kind -/

/-- `x` is the latest entry of the list with `p`, and `post` came after it. -/
def Latest {α : Type*} (p : α → Prop) (l : List α) (x : α) (post : List α) : Prop :=
  ∃ pre, l = pre ++ x :: post ∧ p x ∧ ∀ y ∈ post, ¬ p y

namespace Latest

variable {α : Type*} {p : α → Prop} {l post : List α} {x y : α}

theorem self (hx : p x) : Latest p (l ++ [x]) x [] := ⟨l, rfl, hx, by rintro y ⟨⟩⟩

theorem snoc (h : Latest p l x post) (hy : ¬ p y) : Latest p (l ++ [y]) x (post ++ [y]) := by
  obtain ⟨pre, rfl, hx, hpost⟩ := h
  refine ⟨pre, by simp, hx, ?_⟩
  intro z hz
  rcases List.mem_append.1 hz with hz | hz
  · exact hpost z hz
  · rwa [List.mem_singleton.1 hz]

end Latest

theorem sum_map_toNat {α : Type*} (l : List α) (p : α → Bool) :
    (l.map fun x => (p x).toNat).sum = l.countP p := by
  induction l with
  | nil => rfl
  | cons x rest ih =>
    rw [List.map_cons, List.sum_cons, ih, List.countP_cons]
    cases p x <;> simp [Nat.add_comm]

/-! ### Runs of a partial function -/

section Exec

variable {σ ι ο : Type*} (step : σ → ι → Option (σ × ο))

/-- The edges of a partial step function. -/
def stepEdge (e : Edge σ ι ο) : Prop := step e.before e.input = some (e.after, e.output)

/-- Feeds a list of inputs to a partial step function, keeping the trace. -/
def exec (s : σ) : List ι → Option (List (Edge σ ι ο) × σ)
  | [] => some ([], s)
  | i :: rest =>
    match step s i with
    | none => none
    | some (s', o) =>
      match exec s' rest with
      | none => none
      | some (tr, t) => some (⟨s, i, o, s'⟩ :: tr, t)

/-- A run that consumes an input is a step and the rest of the run. -/
theorem exec_cons_eq_some {s t : σ} {i : ι} {rest : List ι} {tr : List (Edge σ ι ο)}
    (h : exec step s (i :: rest) = some (tr, t)) :
    ∃ s' o tr', step s i = some (s', o) ∧ exec step s' rest = some (tr', t) ∧
      tr = ⟨s, i, o, s'⟩ :: tr' := by
  rw [exec] at h
  cases hstep : step s i with
  | none => simp [hstep] at h
  | some r =>
    obtain ⟨s', o⟩ := r
    cases hrest : exec step s' rest with
    | none => simp [hstep, hrest] at h
    | some r =>
      obtain ⟨tr', t'⟩ := r
      simp only [hstep, hrest] at h
      cases h
      exact ⟨s', o, tr', rfl, hrest, rfl⟩

theorem run_of_exec {s t : σ} {is : List ι} {tr : List (Edge σ ι ο)}
    (h : exec step s is = some (tr, t)) : Run (stepEdge step) s tr t := by
  induction is generalizing s tr with
  | nil =>
    obtain ⟨rfl, rfl⟩ := Prod.mk.inj (Option.some.inj h)
    exact .nil s
  | cons i rest ih =>
    obtain ⟨s', o, tr', hstep, hrest, rfl⟩ := exec_cons_eq_some step h
    exact .cons (e := ⟨s, i, o, s'⟩) hstep (ih hrest)

/-- The trace has the inputs it was fed. -/
theorem exec_inputs {s t : σ} {is : List ι} {tr : List (Edge σ ι ο)}
    (h : exec step s is = some (tr, t)) : tr.map Edge.input = is := by
  induction is generalizing s tr with
  | nil =>
    cases h
    rfl
  | cons i rest ih =>
    obtain ⟨s', o, tr', -, hrest, rfl⟩ := exec_cons_eq_some step h
    rw [List.map_cons, ih hrest]

end Exec
