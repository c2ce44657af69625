/-
Shelterwood/Identity.lean

Identity counters and the tokens they mint.

Every identity of the runtime is a `u64` that a counter hands out once.  The
counter does not wrap: a mint past the limit aborts the process, which the
model records as the fault `exhausted`.  A run that aborts has no later state,
so a statement about every state of every run needs no side condition for it.
-/
import Mathlib.Order.Basic

namespace Shelterwood

/-! ### Faults -/

/-- How a framework call can fail to return: the process aborts at a counter's
limit, or an assertion unwinds with its message. -/
inductive Fault
  | exhausted
  | panicked (message : String)
  deriving DecidableEq, Repr

/-! ### Counters -/

/-- The largest `u64`. -/
def u64Max : ℕ := 18446744073709551615

/-- A source of strictly increasing values. -/
structure MonotonicCounter where
  current : ℕ
  deriving DecidableEq, Repr

namespace MonotonicCounter

def new : MonotonicCounter := ⟨0⟩

/-- The value minted after `current`; the one overflow branch of every
identity counter. -/
def successor (current : ℕ) : Except Fault ℕ :=
  if current < u64Max then .ok (current + 1) else .error .exhausted

def mint (c : MonotonicCounter) : Except Fault (ℕ × MonotonicCounter) :=
  match successor c.current with
  | .ok next => .ok (next, ⟨next⟩)
  | .error fault => .error fault

theorem successor_eq_ok_iff {current next : ℕ} :
    successor current = .ok next ↔ next = current + 1 ∧ current < u64Max := by
  unfold successor
  split_ifs with h
  · simp [h, eq_comm]
  · simp [h]

theorem mint_eq_ok_iff {c c' : MonotonicCounter} {n : ℕ} :
    c.mint = .ok (n, c') ↔ n = c.current + 1 ∧ c' = ⟨n⟩ ∧ c.current < u64Max := by
  unfold mint
  cases h : successor c.current with
  | ok next =>
    obtain ⟨rfl, hlt⟩ := successor_eq_ok_iff.mp h
    simp only [Except.ok.injEq, Prod.mk.injEq, hlt, and_true]
    constructor
    · rintro ⟨rfl, rfl⟩
      exact ⟨rfl, rfl⟩
    · rintro ⟨rfl, rfl⟩
      exact ⟨rfl, rfl⟩
  | error fault =>
    have hlt : ¬ c.current < u64Max := by
      intro hlt
      rw [successor, if_pos hlt] at h
      cases h
    simp [hlt]

/-- A mint fails only at the limit. -/
theorem mint_error {c : MonotonicCounter} {fault : Fault} (h : c.mint = .error fault) :
    fault = .exhausted := by
  unfold mint successor at h
  by_cases hlt : c.current < u64Max
  · simp [hlt] at h
  · simp only [hlt, if_false, Except.error.injEq] at h
    exact h.symm

end MonotonicCounter

/-! ### Tokens -/

/-- A child identifier within one scope. -/
structure ChildId where
  text : String
  deriving DecidableEq, Repr

/-- A child's identity within one supervising scope: a lineage and an ordered
generation in it. -/
structure Membership where
  lineage : ℕ
  generation : ℕ
  deriving DecidableEq, Repr

/-- The identity of one run of a membership. -/
structure Incarnation where
  membership : Membership
  generation : ℕ
  deriving DecidableEq, Repr

/-- A membership and the counter that mints its incarnations. -/
structure IncarnationCounter where
  membership : Membership
  generations : MonotonicCounter
  deriving DecidableEq, Repr

def IncarnationCounter.mint (c : IncarnationCounter) :
    Except Fault (Incarnation × IncarnationCounter) :=
  match c.generations.mint with
  | .ok (generation, generations) =>
    .ok (⟨c.membership, generation⟩, { c with generations })
  | .error fault => .error fault

end Shelterwood
