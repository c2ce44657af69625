/-
Shelterwood/SwapRemove.lean

Removal from a vector by swapping.

`swap_remove` takes out one element and fills its place with the last one, so it
keeps the elements and not their order.
-/
import Mathlib.Data.List.Basic
import Mathlib.Data.List.Perm.Basic

section SwapRemove

variable {α : Type*}

/-- Takes out an element and puts the last one in its place. -/
def swapRemove (l : List α) (index : ℕ) : Option (α × List α) :=
  match l[index]?, l.getLast? with
  | some x, some last => some (x, (l.set index last).dropLast)
  | _, _ => none

/-- Writing one place keeps the others. -/
theorem set_perm {l : List α} {index : ℕ} {x : α} (h : l[index]? = some x) :
    ∃ rest, l.Perm (x :: rest) ∧ ∀ y, (l.set index y).Perm (y :: rest) := by
  obtain ⟨hlt, rfl⟩ := List.getElem?_eq_some_iff.1 h
  refine ⟨l.take index ++ l.drop (index + 1), ?_, fun y => ?_⟩
  · have hsplit : l = l.take index ++ l[index] :: l.drop (index + 1) := by
      rw [List.getElem_cons_drop, List.take_append_drop]
    nth_rewrite 1 [hsplit]
    exact List.perm_middle
  · rw [List.set_eq_take_append_cons_drop, if_pos hlt]
    exact List.perm_middle

theorem swapRemove_perm {l : List α} {index : ℕ} {x : α} (h : l[index]? = some x) :
    ∃ rest, swapRemove l index = some (x, rest) ∧ l.Perm (x :: rest) := by
  obtain rfl | ⟨init, last, rfl⟩ := l.eq_nil_or_concat
  · cases h
  · rw [List.concat_eq_append] at h ⊢
    refine ⟨((init ++ [last]).set index last).dropLast, ?_, ?_⟩
    · simp only [swapRemove, h, List.getLast?_append, List.getLast?_singleton]
      rfl
    · by_cases hlt : index < init.length
      · rw [List.getElem?_append_left hlt] at h
        rw [List.set_append_left _ _ hlt, List.dropLast_concat]
        obtain ⟨rest, hl, hset⟩ := set_perm h
        exact ((List.perm_append_singleton last init).trans (hl.cons last)).trans
          ((List.Perm.swap _ _ _).trans ((hset last).symm.cons x))
      · have hindex : index = init.length := by
          have := (List.getElem?_eq_some_iff.1 h).1
          rw [List.length_append, List.length_singleton] at this
          omega
        subst hindex
        rw [List.getElem?_append_right (Nat.le_refl _), Nat.sub_self] at h
        obtain rfl : last = x := Option.some.inj h
        rw [List.set_append_right _ _ (Nat.le_refl _), Nat.sub_self]
        show (init ++ [last]).Perm (last :: (init ++ [last]).dropLast)
        rw [List.dropLast_concat]
        exact List.perm_append_singleton last init

end SwapRemove
