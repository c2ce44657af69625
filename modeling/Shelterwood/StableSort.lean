/-
Shelterwood/StableSort.lean

Stable sorting by a key.

A stable sort only moves items of different keys past each other: under each key the
list is what it was (`filter_stableSort`).  So a relation between items of one key holds
in order after the sort if it did before (`pairwise_stableSort`).
-/
import Mathlib.Data.List.Sort

variable {α : Type*} {key : α → ℕ} {R : α → α → Prop} {l : List α}

/-- The items in the order of their keys, and in the order given under one key. -/
def stableSort (key : α → ℕ) (l : List α) : List α := l.insertionSort fun a b => key a ≤ key b

theorem stableSort_perm : (stableSort key l).Perm l := List.perm_insertionSort _ l

theorem sorted_stableSort : (stableSort key l).Pairwise fun a b => key a ≤ key b := by
  have htotal : Std.Total fun a b : α => key a ≤ key b := ⟨fun a b => Nat.le_total _ _⟩
  have htrans : IsTrans α fun a b => key a ≤ key b := ⟨fun _ _ _ => Nat.le_trans⟩
  exact List.pairwise_insertionSort _ l

theorem filter_stableSort (k : ℕ) :
    (stableSort key l).filter (fun a => key a = k) = l.filter fun a => key a = k := by
  have hsorted : (l.filter fun a => key a = k).Pairwise fun a b => key a ≤ key b := by
    refine List.Pairwise.imp_of_mem (R := fun _ _ => True) (fun ha hb _ => ?_)
      (List.pairwise_of_forall fun _ _ => trivial)
    simp only [List.mem_filter, decide_eq_true_eq] at ha hb
    rw [ha.2, hb.2]
  have hsub := (List.sublist_insertionSort hsorted List.filter_sublist).filter fun a => key a = k
  rw [List.filter_filter] at hsub
  have hperm : (stableSort key l).Perm l := stableSort_perm
  simp only [Bool.and_self] at hsub
  exact (hsub.eq_of_length (hperm.filter _).length_eq.symm).symm

/-- Items of one key are related in order exactly if they are under each key. -/
theorem pairwise_iff_filter : l.Pairwise (fun a b => key a = key b → R a b) ↔
    ∀ k, (l.filter fun a => key a = k).Pairwise R := by
  constructor
  · intro h k
    refine (h.filter _).imp_of_mem fun ha hb hR => hR ?_
    simp only [List.mem_filter, decide_eq_true_eq] at ha hb
    rw [ha.2, hb.2]
  · intro h
    induction l with
    | nil => exact .nil
    | cons a rest ih =>
      refine List.pairwise_cons.2 ⟨fun b hb hkey => ?_, ih fun k => ?_⟩
      · have hsame := h (key a)
        rw [List.filter_cons_of_pos (by simp)] at hsame
        exact (List.pairwise_cons.1 hsame).1 b (List.mem_filter.2 ⟨hb, by simp [hkey]⟩)
      · exact (h k).sublist ((List.sublist_cons_self a rest).filter _)

theorem pairwise_stableSort (h : l.Pairwise fun a b => key a = key b → R a b) :
    (stableSort key l).Pairwise fun a b => key a = key b → R a b := by
  refine pairwise_iff_filter.2 fun k => ?_
  rw [filter_stableSort]
  exact pairwise_iff_filter.1 h k
