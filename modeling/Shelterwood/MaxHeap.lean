/-
Shelterwood/MaxHeap.lean

The contents of a max-heap.

A heap is known by what it holds: `peek` is a greatest element and `pop` takes it
out.  How the elements are laid out is never observable, so the contents are a
list in any order.  `pruneHead` is the loop that pops while the head satisfies a
predicate; it takes out only such elements and ends with a head that is none.
-/
import Mathlib.Order.Defs.LinearOrder
import Mathlib.Order.MinMax
import Mathlib.Data.List.Basic

namespace Shelterwood

namespace MaxHeap

variable {α : Type*} [LinearOrder α]

def peek (heap : List α) : Option α := heap.max?

def pop (heap : List α) : List α :=
  match peek heap with
  | none => heap
  | some top => heap.erase top

/-- Pops while the head satisfies the predicate, at most that often. -/
def pruneUpTo (stale : α → Bool) : ℕ → List α → List α
  | 0, heap => heap
  | n + 1, heap =>
    match peek heap with
    | none => heap
    | some top => if stale top then pruneUpTo stale n (pop heap) else heap

/-- Pops while the head satisfies the predicate. -/
def pruneHead (stale : α → Bool) (heap : List α) : List α := pruneUpTo stale heap.length heap

variable {heap : List α} {top : α}

theorem peek_eq_some_iff :
    peek heap = some top ↔ top ∈ heap ∧ ∀ e ∈ heap, e ≤ top := List.max?_eq_some_iff

theorem peek_eq_none_iff : peek heap = none ↔ heap = [] := List.max?_eq_none_iff

theorem pop_of_peek (h : peek heap = some top) : pop heap = heap.erase top := by
  rw [pop, h]

theorem pop_sublist (heap : List α) : (pop heap).Sublist heap := by
  cases h : peek heap with
  | none => simp [pop, h]
  | some top =>
    rw [pop_of_peek h]
    exact List.erase_sublist

theorem mem_pop {e : α} (h : peek heap = some top) (hne : e ≠ top) (he : e ∈ heap) :
    e ∈ pop heap := by
  rw [pop_of_peek h]
  exact (List.mem_erase_of_ne hne).2 he

/-- Taking out an element that a filter drops. -/
theorem filter_erase {p : α → Bool} {a : α} (ha : p a = false) (l : List α) :
    (l.erase a).filter p = l.filter p := by
  induction l with
  | nil => rfl
  | cons b l ih =>
    by_cases hb : b = a
    · subst hb
      rw [List.erase_cons_head, List.filter_cons_of_neg (by simp [ha])]
    · rw [List.erase_cons_tail (by simpa using hb), List.filter_cons, List.filter_cons, ih]

theorem pruneUpTo_sublist (stale : α → Bool) (n : ℕ) (heap : List α) :
    (pruneUpTo stale n heap).Sublist heap := by
  induction n generalizing heap with
  | zero => exact .refl _
  | succ n ih =>
    rw [pruneUpTo]
    cases htop : peek heap with
    | none => exact .refl _
    | some top =>
      simp only
      by_cases hstale : stale top = true
      · rw [if_pos hstale]
        exact (ih _).trans (pop_sublist heap)
      · rw [if_neg hstale]

theorem filter_pruneUpTo (stale : α → Bool) (n : ℕ) (heap : List α) :
    (pruneUpTo stale n heap).filter (fun e => !stale e) = heap.filter fun e => !stale e := by
  induction n generalizing heap with
  | zero => rfl
  | succ n ih =>
    rw [pruneUpTo]
    cases htop : peek heap with
    | none => rfl
    | some top =>
      simp only
      by_cases hstale : stale top = true
      · rw [if_pos hstale, ih, pop_of_peek htop, filter_erase (by simp [hstale])]
      · rw [if_neg hstale]

variable {stale : α → Bool}

/-- Enough pops reach a head that does not satisfy the predicate. -/
theorem head_pruneUpTo {n : ℕ} (hn : heap.length ≤ n)
    (h : peek (pruneUpTo stale n heap) = some top) : stale top = false := by
  induction n generalizing heap with
  | zero =>
    rw [List.eq_nil_of_length_eq_zero (Nat.le_zero.1 hn)] at h
    cases h
  | succ n ih =>
    rw [pruneUpTo] at h
    cases hhead : peek heap with
    | none =>
      simp only [hhead] at h
      cases h
    | some head =>
      simp only [hhead] at h
      by_cases hstale : stale head = true
      · rw [if_pos hstale, pop_of_peek hhead] at h
        refine ih ?_ h
        rw [List.length_erase_of_mem (peek_eq_some_iff.1 hhead).1]
        omega
      · rw [if_neg hstale, hhead] at h
        cases h
        exact Bool.eq_false_iff.2 hstale

theorem mem_pruneHead {e : α} (he : stale e = false) : e ∈ pruneHead stale heap ↔ e ∈ heap := by
  have hfilter := filter_pruneUpTo stale heap.length heap
  have hmem : e ∈ (pruneHead stale heap).filter (fun e => !stale e) ↔
      e ∈ heap.filter fun e => !stale e := by
    rw [pruneHead, hfilter]
  simpa [he] using hmem

theorem pruneHead_sublist (stale : α → Bool) (heap : List α) :
    (pruneHead stale heap).Sublist heap := pruneUpTo_sublist stale _ heap

theorem head_pruneHead (h : peek (pruneHead stale heap) = some top) : stale top = false :=
  head_pruneUpTo le_rfl h

end MaxHeap

end Shelterwood
