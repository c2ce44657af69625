/-
Shelterwood/Routine.lean

Threads on a shared state, and rely reasoning about one of them.

A `Routine` is the rest of a thread's work: a value, or one atomic section on
the shared state and what to do with its answer.  A `Thread` adds private state
and failures that keep it, so code with locals and panics is written as such.

The other threads are a relation.  `Routine.Safe W Q t s` says that `t`, started
in `s`, only ever returns with `Q`, whatever the others do before each of its
sections.  Assertions in front of a section have to be `Stable`; between two
sections nothing has to be.  `Thread.Triple` is the Hoare judgement over it, with
one postcondition for a return and one for a failure.  What the others keep and
every section of a thread keeps can be framed around its triple.
-/
import Mathlib.Logic.Relation

/-- The rest of a thread's work.  A section `i` answers with an `ο i`. -/
inductive Routine (ι : Type) (ο : ι → Type) (α : Type)
  | pure (a : α)
  | call (i : ι) (k : ο i → Routine ι ο α)

/-- What the sections of a thread do to the shared state, and what the other
threads may do to it between two of them. -/
structure Sharing (σ : Type*) (ι : Type) (ο : ι → Type) where
  others : σ → σ → Prop
  perform : σ → (i : ι) → ο i → σ → Prop

namespace Sharing

variable {σ : Type*} {ι : Type} {ο : ι → Type} (W : Sharing σ ι ο)

/-- The other threads cannot undo the assertion. -/
def Stable (P : σ → Prop) : Prop := ∀ s s', W.others s s' → P s → P s'

variable {W}

theorem Stable.star {P : σ → Prop} {s s' : σ} (h : W.Stable P)
    (hothers : Relation.ReflTransGen W.others s s') (hs : P s) : P s' := by
  induction hothers with
  | refl => exact hs
  | tail _ hstep ih => exact h _ _ hstep ih

theorem Stable.and {P P' : σ → Prop} (h : W.Stable P) (h' : W.Stable P') :
    W.Stable fun s => P s ∧ P' s :=
  fun s s' hothers hs => ⟨h s s' hothers hs.1, h' s s' hothers hs.2⟩

theorem Stable.const (p : Prop) : W.Stable fun _ => p := fun _ _ _ h => h

end Sharing

namespace Routine

variable {σ : Type*} {ι : Type} {ο : ι → Type} {α β : Type}

def bind : Routine ι ο α → (α → Routine ι ο β) → Routine ι ο β
  | .pure a, f => f a
  | .call i k, f => .call i fun o => (k o).bind f

instance : Monad (Routine ι ο) where
  pure := .pure
  bind := bind

/-- Whatever the others do before each section, the routine returns with `Q`. -/
def Safe (W : Sharing σ ι ο) (Q : α → σ → Prop) : Routine ι ο α → σ → Prop
  | .pure a, s => Q a s
  | .call i k, s => ∀ s', Relation.ReflTransGen W.others s s' → ∀ o s'', W.perform s' i o s'' →
      Safe W Q (k o) s''

namespace Safe

variable {W : Sharing σ ι ο} {Q Q' : α → σ → Prop} {R : β → σ → Prop}
variable {t : Routine ι ο α} {s s' : σ}

/-- The others have already been reckoned with. -/
theorem interfere (h : Safe W Q t s) (hothers : W.others s s')
    (hQ : ∀ a, W.Stable (Q a)) : Safe W Q t s' := by
  cases t with
  | pure a => exact hQ a s s' hothers h
  | call i k =>
    intro s₁ hstar o s₂ hperform
    exact h s₁ (.head hothers hstar) o s₂ hperform

theorem step {i : ι} {k : ο i → Routine ι ο α} {o : ο i} (h : Safe W Q (.call i k) s)
    (hperform : W.perform s i o s') : Safe W Q (k o) s' :=
  h s .refl o s' hperform

theorem bind {f : α → Routine ι ο β} (h : Safe W Q t s)
    (hf : ∀ a s, Q a s → Safe W R (f a) s) : Safe W R (t.bind f) s := by
  induction t generalizing s with
  | pure a => exact hf a s h
  | call i k ih =>
    intro s₁ hstar o s₂ hperform
    exact ih o (h s₁ hstar o s₂ hperform)

theorem mono (h : Safe W Q t s) (hQ : ∀ a s, Q a s → Q' a s) : Safe W Q' t s := by
  induction t generalizing s with
  | pure a => exact hQ a s h
  | call i k ih =>
    intro s₁ hstar o s₂ hperform
    exact ih o (h s₁ hstar o s₂ hperform)

end Safe

/-! ### Frames -/

/-- Every section of the routine is one of `C`. -/
def Only (C : ι → Prop) : Routine ι ο α → Prop
  | .pure _ => True
  | .call i k => C i ∧ ∀ o, Only C (k o)

theorem Only.bind {C : ι → Prop} {t : Routine ι ο α} {f : α → Routine ι ο β} (h : t.Only C)
    (hf : ∀ a, (f a).Only C) : (t.bind f).Only C := by
  induction t with
  | pure a => exact hf a
  | call i k ih => exact ⟨h.1, fun o => ih o (h.2 o)⟩

/-- What the others and the routine's sections keep, the routine keeps. -/
theorem Safe.frame {W : Sharing σ ι ο} {Q : α → σ → Prop} {C : ι → Prop} {I : σ → Prop}
    {t : Routine ι ο α} {s : σ} (h : Safe W Q t s) (hs : I s) (honly : t.Only C)
    (hI : W.Stable I) (hC : ∀ i, C i → ∀ s o s', I s → W.perform s i o s' → I s') :
    Safe W (fun a s => Q a s ∧ I s) t s := by
  induction t generalizing s with
  | pure a => exact ⟨h, hs⟩
  | call i k ih =>
    intro s₁ hstar o s₂ hperform
    exact ih o (h s₁ hstar o s₂ hperform)
      (hC i honly.1 s₁ o s₂ (hI.star hstar hs) hperform) (honly.2 o)

end Routine

/-! ### Threads -/

/-- A routine with private state `φ` and failures `ε`. -/
abbrev Thread (ι : Type) (ο : ι → Type) (φ ε α : Type) := ExceptT ε (StateT φ (Routine ι ο)) α

namespace Thread

variable {σ : Type*} {ι : Type} {ο : ι → Type} {φ ψ ε α β : Type}

/-- The routine of a thread that starts with private state `f`. -/
def runFrom (m : Thread ι ο φ ε α) (f : φ) : Routine ι ο (Except ε α × φ) := m.run.run f

/-- One section on the shared state. -/
def call (i : ι) : Thread ι ο φ ε (ο i) := fun f => .call i fun o => .pure (.ok o, f)

/-- Runs a thread on a part of the private state. -/
def focus (part : φ → ψ) (put : φ → ψ → φ) (m : Thread ι ο ψ ε α) : Thread ι ο φ ε α :=
  fun f => (m.runFrom (part f)).bind fun r => .pure (r.1, put f r.2)

/-- The value of an option, or a failure. -/
def expect (x : Option α) (failure : ε) : Thread ι ο φ ε α :=
  match x with
  | some a => pure a
  | none => throw failure

theorem runFrom_get_bind (k : φ → Thread ι ο φ ε α) (f : φ) :
    (get >>= k).runFrom f = (k f).runFrom f := rfl

theorem runFrom_expect_bind (a : α) (failure : ε) (k : α → Thread ι ο φ ε β) (f : φ) :
    (expect (some a) failure >>= k).runFrom f = (k a).runFrom f := rfl

/-- A sequence whose first part fails at once fails at once. -/
theorem runFrom_bind_of_error {m : Thread ι ο φ ε α} {k : α → Thread ι ο φ ε β} {f f' : φ}
    {failure : ε} (h : m.runFrom f = .pure (.error failure, f')) :
    (m >>= k).runFrom f = .pure (.error failure, f') := by
  show Routine.bind (m.runFrom f) _ = _
  rw [h]
  rfl

theorem runFrom_bind_of_ok {m : Thread ι ο φ ε α} {k : α → Thread ι ο φ ε β} {f f' : φ} {a : α}
    (h : m.runFrom f = .pure (.ok a, f')) : (m >>= k).runFrom f = (k a).runFrom f' := by
  show Routine.bind (m.runFrom f) _ = _
  rw [h]
  rfl

theorem runFrom_focus {part : φ → ψ} {put : φ → ψ → φ} {m : Thread ι ο ψ ε α} {f : φ}
    {r : Except ε α} {p : ψ} (h : m.runFrom (part f) = .pure (r, p)) :
    (focus part put m).runFrom f = .pure (r, put f p) := by
  show Routine.bind (m.runFrom (part f)) _ = _
  rw [h]
  rfl

/-- From private and shared states with `P` the thread only returns with `Q` and
only fails with `E`. -/
def Triple (W : Sharing σ ι ο) (P : φ → σ → Prop) (m : Thread ι ο φ ε α)
    (Q : α → φ → σ → Prop) (E : ε → φ → σ → Prop) : Prop :=
  ∀ f s, P f s → (m.runFrom f).Safe W (fun r s =>
    match r with
    | (.ok a, f) => Q a f s
    | (.error failure, f) => E failure f s) s

/-- The private state is `g`, and `P` holds of the shared one. -/
def At (g : φ) (P : σ → Prop) (f : φ) (s : σ) : Prop := f = g ∧ P s

namespace Triple

variable {W : Sharing σ ι ο} {P : φ → σ → Prop} {E : ε → φ → σ → Prop}
variable {m : Thread ι ο φ ε α} {k : α → Thread ι ο φ ε β}
variable {Q : α → φ → σ → Prop} {R : β → φ → σ → Prop}
variable {g : φ} {A : σ → Prop}

/-! ### Structural rules -/

/-- The private state a thread starts with may be fixed. -/
theorem fix (h : ∀ g, Triple W (At g (P g)) m Q E) : Triple W P m Q E :=
  fun f s hs => h f f s ⟨rfl, hs⟩

theorem weaken {P' : φ → σ → Prop} {Q' : α → φ → σ → Prop} {E' : ε → φ → σ → Prop}
    (h : Triple W P m Q E) (hP : ∀ f s, P' f s → P f s)
    (hQ : ∀ a f s, Q a f s → Q' a f s) (hE : ∀ e f s, E e f s → E' e f s) :
    Triple W P' m Q' E' := by
  intro f s hs
  refine (h f s (hP f s hs)).mono ?_
  rintro ⟨failure | a, f'⟩ s' hr
  · exact hE failure f' s' hr
  · exact hQ a f' s' hr

theorem pre {P' : φ → σ → Prop} (h : Triple W P m Q E) (hP : ∀ f s, P' f s → P f s) :
    Triple W P' m Q E :=
  h.weaken hP (fun _ _ _ hq => hq) fun _ _ _ he => he

theorem bind (hm : Triple W P m Q E) (hk : ∀ a, Triple W (Q a) (k a) R E) :
    Triple W P (m >>= k) R E := by
  intro f s hs
  refine Routine.Safe.bind (hm f s hs) ?_
  -- a failure of the first part is the failure of the sequence
  rintro ⟨failure | a, f'⟩ s' hr
  · exact hr
  · exact hk a f' s' hr

/-- A thread on a part of the private state. -/
theorem focus_at {part : φ → ψ} {put : φ → ψ → φ} {m : Thread ι ο ψ ε α} {P' : ψ → σ → Prop}
    {Q' : α → ψ → σ → Prop} {E' : ε → ψ → σ → Prop} (h : Triple W P' m Q' E')
    (hP : ∀ s, A s → P' (part g) s) (hQ : ∀ a p s, Q' a p s → Q a (put g p) s)
    (hE : ∀ e p s, E' e p s → E e (put g p) s) :
    Triple W (At g A) (focus part put m) Q E := by
  rintro f s ⟨rfl, hs⟩
  refine Routine.Safe.bind (h _ s (hP s hs)) ?_
  rintro ⟨failure | a, p⟩ s' hr
  · exact hE failure p s' hr
  · exact hQ a p s' hr

/-! ### Commands, with the private state fixed -/

theorem pure_at {a : α} (h : ∀ s, A s → Q a g s) :
    Triple W (At g A) (pure a : Thread ι ο φ ε α) Q E := by
  rintro f s ⟨rfl, hs⟩
  exact h s hs

theorem throw_at {failure : ε} (h : ∀ s, A s → E failure g s) :
    Triple W (At g A) (throw failure : Thread ι ο φ ε α) Q E := by
  rintro f s ⟨rfl, hs⟩
  exact h s hs

theorem modify_at {u : φ → φ} {Q : PUnit → φ → σ → Prop} (h : ∀ s, A s → Q ⟨⟩ (u g) s) :
    Triple W (At g A) (modify u : Thread ι ο φ ε PUnit) Q E := by
  rintro f s ⟨rfl, hs⟩
  exact h s hs

/-- In front of a section the assertion has to be stable. -/
theorem call_at {i : ι} {Q : ο i → φ → σ → Prop} (hA : W.Stable A)
    (h : ∀ s o s', A s → W.perform s i o s' → Q o g s') :
    Triple W (At g A) (call i : Thread ι ο φ ε (ο i)) Q E := by
  rintro f s ⟨rfl, hs⟩ s' hstar o s'' hperform
  exact h s' o s'' (hA.star hstar hs) hperform

theorem get_bind {k : φ → Thread ι ο φ ε β} (h : Triple W (At g A) (k g) R E) :
    Triple W (At g A) (get >>= k) R E := by
  rintro f s ⟨rfl, hs⟩
  exact h f s ⟨rfl, hs⟩

theorem modify_bind {u : φ → φ} {k : PUnit → Thread ι ο φ ε β}
    (h : Triple W (At (u g) A) (k ⟨⟩) R E) : Triple W (At g A) (modify u >>= k) R E := by
  rintro f s ⟨rfl, hs⟩
  exact h (u f) s ⟨rfl, hs⟩

theorem call_bind {i : ι} {B : ο i → σ → Prop} {k : ο i → Thread ι ο φ ε β} (hA : W.Stable A)
    (hB : ∀ s o s', A s → W.perform s i o s' → B o s')
    (h : ∀ o, Triple W (At g (B o)) (k o) R E) : Triple W (At g A) (call i >>= k) R E :=
  bind (Q := fun o => At g (B o))
    (call_at hA fun s o s' hs hperform => ⟨rfl, hB s o s' hs hperform⟩) h

theorem expect_bind {a : α} {failure : ε} (h : Triple W (At g A) (k a) R E) :
    Triple W (At g A) (expect (some a) failure >>= k) R E := by
  rintro f s ⟨rfl, hs⟩
  exact h f s ⟨rfl, hs⟩

theorem focus_bind {part : φ → ψ} {put : φ → ψ → φ} {m : Thread ι ο ψ ε α} {P' : ψ → σ → Prop}
    {Q' : α → ψ → σ → Prop} {E' : ε → ψ → σ → Prop} (h : Triple W P' m Q' E')
    (hP : ∀ s, A s → P' (part g) s) (hE : ∀ e p s, E' e p s → E e (put g p) s)
    (hk : ∀ a p, Triple W (At (put g p) (Q' a p)) (k a) R E) :
    Triple W (At g A) (focus part put m >>= k) R E := by
  refine bind (Q := fun a f s => ∃ p, f = put g p ∧ Q' a p s)
    (focus_at h hP (fun a p s hq => ⟨p, rfl, hq⟩) hE) fun a => ?_
  rintro f s ⟨p, rfl, hq⟩
  exact hk a p _ s ⟨rfl, hq⟩

end Triple

/-! ### Frames of threads -/

/-- Every section of the thread is one of `C`. -/
def Only (C : ι → Prop) (m : Thread ι ο φ ε α) : Prop := ∀ f, (m.runFrom f).Only C

namespace Only

variable {C : ι → Prop} {m : Thread ι ο φ ε α} {k : α → Thread ι ο φ ε β}

theorem pure_only (a : α) : Only C (pure a : Thread ι ο φ ε α) := fun _ => trivial

theorem throw_only (failure : ε) : Only C (throw failure : Thread ι ο φ ε α) := fun _ => trivial

theorem get_only : Only C (get : Thread ι ο φ ε φ) := fun _ => trivial

theorem modify_only (u : φ → φ) : Only C (modify u : Thread ι ο φ ε PUnit) := fun _ => trivial

theorem call_only {i : ι} (hi : C i) : Only C (call i : Thread ι ο φ ε (ο i)) :=
  fun _ => ⟨hi, fun _ => trivial⟩

theorem expect_only (x : Option α) (failure : ε) :
    Only C (expect x failure : Thread ι ο φ ε α) := by
  cases x with
  | none => exact throw_only failure
  | some a => exact pure_only a

theorem bind (hm : Only C m) (hk : ∀ a, Only C (k a)) : Only C (m >>= k) := by
  intro f
  refine Routine.Only.bind (hm f) ?_
  rintro ⟨failure | a, f'⟩
  · trivial
  · exact hk a f'

theorem focus_only {part : φ → ψ} {put : φ → ψ → φ} {m : Thread ι ο ψ ε α} (hm : Only C m) :
    Only C (focus part put m) :=
  fun f => Routine.Only.bind (hm (part f)) fun _ => trivial

end Only

/-- What the others and the thread's sections keep, the thread keeps. -/
theorem Triple.frame {W : Sharing σ ι ο} {P : φ → σ → Prop} {m : Thread ι ο φ ε α}
    {Q : α → φ → σ → Prop} {E : ε → φ → σ → Prop} {C : ι → Prop} {I : σ → Prop}
    (h : Triple W P m Q E) (honly : Only C m) (hI : W.Stable I)
    (hC : ∀ i, C i → ∀ s o s', I s → W.perform s i o s' → I s') :
    Triple W (fun f s => P f s ∧ I s) m (fun a f s => Q a f s ∧ I s) E := by
  rintro f s ⟨hs, hIs⟩
  refine ((h f s hs).frame hIs (honly f) hI hC).mono ?_
  rintro ⟨failure | a, f'⟩ s' ⟨hr, hIs'⟩
  · exact hr
  · exact ⟨hr, hIs'⟩

end Thread
