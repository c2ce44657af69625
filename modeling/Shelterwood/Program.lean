/-
Shelterwood/Program.lean

Imperative programs that may fail, and two ways to reason about them.

A `Program σ ε α` runs on a state and returns a value or fails; a failure keeps
the state it happened in, as unwinding does.  Two judgements are enough for
code whose loops and re-entrant calls are given to it as parameters:

* `Keeps R m`  whatever `m` does, and however it ends, the state before and the
  state after are related by the preorder `R`;
* `Ensures P m Q`  if `m` returns from a state that satisfies `P`, value and
  state satisfy `Q`.

The first follows the text of a program alone, without a word about its
conditions.  It feeds the second through `Keeps.ensures`: what `R` cannot
undo, no program that keeps `R` undoes.
-/
import Mathlib.Order.Defs.Unbundled

/-- Programs over a state, with failures that keep it. -/
abbrev Program (σ ε α : Type) := ExceptT ε (StateM σ) α

namespace Program

variable {σ ε α β : Type}

/-- What a program returns from a state, and the state it leaves. -/
def runFrom (m : Program σ ε α) (s : σ) : Except ε α × σ := m.run.run s

/-! ### Commands -/

/-- A command under a condition. -/
def when (c : Bool) (m : Program σ ε Unit) : Program σ ε Unit := if c then m else pure ()

/-- Fails unless the condition holds. -/
def ensure (c : Bool) (failure : ε) : Program σ ε Unit := if c then pure () else throw failure

/-- The value of an option, or a failure. -/
def expect (x : Option α) (failure : ε) : Program σ ε α :=
  match x with
  | some a => pure a
  | none => throw failure

/-- A result that may be a failure. -/
def ofExcept (x : Except ε α) : Program σ ε α :=
  match x with
  | .ok a => pure a
  | .error failure => throw failure

/-- A command for each item of a list, in order. -/
def forEach (f : α → Program σ ε Unit) : List α → Program σ ε Unit
  | [] => pure ()
  | a :: rest => f a >>= fun _ => forEach f rest

/-! ### Running a program -/

@[simp] theorem runFrom_get (s : σ) : (get : Program σ ε σ).runFrom s = (.ok s, s) := rfl

variable {m : Program σ ε α} {f : α → Program σ ε β}

/-- A sequence runs its second part where the first one returned. -/
theorem runFrom_bind_of_ok {s s' : σ} {a : α} (h : m.runFrom s = (.ok a, s')) :
    (m >>= f).runFrom s = (f a).runFrom s' := by
  show (ExceptT.bindCont f (m.runFrom s).1) (m.runFrom s).2 = _
  rw [h]
  rfl

theorem runFrom_bind_of_error {s s' : σ} {failure : ε} (h : m.runFrom s = (.error failure, s')) :
    (m >>= f).runFrom s = (.error failure, s') := by
  show (ExceptT.bindCont f (m.runFrom s).1) (m.runFrom s).2 = _
  rw [h]
  rfl

/-- If a sequence returns, both parts did. -/
theorem runFrom_bind_eq_ok {s s' : σ} {b : β} (h : (m >>= f).runFrom s = (.ok b, s')) :
    ∃ a s₁, m.runFrom s = (.ok a, s₁) ∧ (f a).runFrom s₁ = (.ok b, s') := by
  rcases hm : m.runFrom s with ⟨failure | a, s₁⟩
  · rw [runFrom_bind_of_error hm] at h
    cases h
  · rw [runFrom_bind_of_ok hm] at h
    exact ⟨a, s₁, rfl, h⟩

/-! ### Keeping a relation -/

/-- The states before and after the program are related, however it ends. -/
def Keeps (R : σ → σ → Prop) (m : Program σ ε α) : Prop := ∀ s, R s (m.runFrom s).2

namespace Keeps

variable {R : σ → σ → Prop} [IsPreorder σ R]
variable {m : Program σ ε α} {f : α → Program σ ε β}

theorem pure (a : α) : Keeps R (pure a : Program σ ε α) := fun s => refl_of R s

theorem throw (failure : ε) : Keeps R (throw failure : Program σ ε α) := fun s => refl_of R s

theorem get : Keeps R (get : Program σ ε σ) := fun s => refl_of R s

omit [IsPreorder σ R] in
theorem mono {R' : σ → σ → Prop} (hm : Keeps R m) (hR : ∀ s s', R s s' → R' s s') :
    Keeps R' m := fun s => hR s _ (hm s)

omit [IsPreorder σ R] in
theorem modify {g : σ → σ} (h : ∀ s, R s (g s)) : Keeps R (modify g : Program σ ε PUnit) := h

theorem bind (hm : Keeps R m) (hf : ∀ a, Keeps R (f a)) : Keeps R (m >>= f) := by
  intro s
  have hfirst := hm s
  -- a failure in the first part still leaves a related state
  rcases hrun : m.runFrom s with ⟨failure | a, s₁⟩
  · rw [runFrom_bind_of_error hrun]
    rwa [hrun] at hfirst
  · rw [runFrom_bind_of_ok hrun]
    rw [hrun] at hfirst
    exact trans_of R hfirst (hf a s₁)

/-- A sequence whose first part is known only from one state. -/
theorem bind_at {s : σ} (hm : R s (m.runFrom s).2) (hf : ∀ a, Keeps R (f a)) :
    R s ((m >>= f).runFrom s).2 := by
  rcases hrun : m.runFrom s with ⟨failure | a, s₁⟩
  · rw [runFrom_bind_of_error hrun]
    rwa [hrun] at hm
  · rw [runFrom_bind_of_ok hrun]
    rw [hrun] at hm
    exact trans_of R hm (hf a s₁)

omit [IsPreorder σ R] in
theorem ite {c : Prop} [Decidable c] {m m' : Program σ ε α} (hm : Keeps R m)
    (hm' : Keeps R m') : Keeps R (if c then m else m') := by
  split
  · exact hm
  · exact hm'

theorem when {c : Bool} {m : Program σ ε Unit} (hm : Keeps R m) : Keeps R (when c m) :=
  ite hm (pure ())

theorem ensure (c : Bool) (failure : ε) : Keeps R (ensure c failure : Program σ ε Unit) :=
  ite (pure ()) (throw failure)

theorem expect (x : Option α) (failure : ε) : Keeps R (expect x failure : Program σ ε α) := by
  cases x with
  | none => exact throw failure
  | some a => exact pure a

theorem ofExcept (x : Except ε α) : Keeps R (ofExcept x : Program σ ε α) := by
  cases x with
  | error failure => exact throw failure
  | ok a => exact pure a

theorem forEach {f : α → Program σ ε Unit} (hf : ∀ a, Keeps R (f a)) (items : List α) :
    Keeps R (forEach f items) := by
  induction items with
  | nil => exact pure ()
  | cons a rest ih => exact bind (hf a) fun _ => ih

end Keeps

/-! ### Ensuring a postcondition -/

/-- If the program returns from a state with `P`, it does so with `Q`. -/
def Ensures (P : σ → Prop) (m : Program σ ε α) (Q : α → σ → Prop) : Prop :=
  ∀ s a s', P s → m.runFrom s = (.ok a, s') → Q a s'

/-- What the kept relation cannot undo stays true. -/
theorem Keeps.ensures {R : σ → σ → Prop} {Q : σ → Prop} (hm : Keeps R m)
    (hQ : ∀ s s', R s s' → Q s → Q s') : Ensures Q m fun _ => Q := by
  intro s a s' hs hrun
  have hkept := hm s
  rw [hrun] at hkept
  exact hQ s s' hkept hs

namespace Ensures

variable {P P' : σ → Prop} {m : Program σ ε α} {f : α → Program σ ε β}
variable {Q : α → σ → Prop} {S : β → σ → Prop}

theorem weaken (h : Ensures P m Q) (hP : ∀ s, P' s → P s) : Ensures P' m Q :=
  fun s a s' hs hrun => h s a s' (hP s hs) hrun

theorem any : Ensures P m fun _ _ => True := fun _ _ _ _ _ => trivial

theorem pure {a : α} (h : ∀ s, P s → Q a s) : Ensures P (pure a : Program σ ε α) Q := by
  intro s b s' hs hrun
  obtain ⟨hb, rfl⟩ := Prod.mk.inj hrun
  cases hb
  exact h s hs

theorem throw (failure : ε) : Ensures P (throw failure : Program σ ε α) Q :=
  fun _ _ _ _ hrun => nomatch (Prod.mk.inj hrun).1

theorem get {Q : σ → σ → Prop} (h : ∀ s, P s → Q s s) : Ensures P (get : Program σ ε σ) Q := by
  intro s b s' hs hrun
  obtain ⟨hb, rfl⟩ := Prod.mk.inj hrun
  cases hb
  exact h _ hs

theorem modify {g : σ → σ} {Q : PUnit → σ → Prop} (h : ∀ s, P s → Q () (g s)) :
    Ensures P (modify g : Program σ ε PUnit) Q := by
  intro s b s' hs hrun
  obtain ⟨-, rfl⟩ := Prod.mk.inj hrun
  exact h s hs

theorem bind (hm : Ensures P m Q) (hf : ∀ a, Ensures (Q a) (f a) S) :
    Ensures P (m >>= f) S := by
  intro s b s' hs hrun
  obtain ⟨a, s₁, hfirst, hsecond⟩ := runFrom_bind_eq_ok hrun
  exact hf a s₁ b s' (hm s a s₁ hs hfirst) hsecond

theorem ite {c : Prop} [Decidable c] {m m' : Program σ ε α}
    (hm : c → Ensures P m Q) (hm' : ¬ c → Ensures P m' Q) :
    Ensures P (if c then m else m') Q := by
  split
  · next h => exact hm h
  · next h => exact hm' h

theorem ensure {c : Bool} {failure : ε} {Q : Unit → σ → Prop}
    (h : ∀ s, P s → c = true → Q () s) : Ensures P (ensure c failure : Program σ ε Unit) Q :=
  ite (fun hc => pure fun s hs => h s hs hc) fun _ => throw failure

end Ensures

end Program
