/-
Shelterwood/ParentLinks.lean

Forests given by parent links.

`climb` follows the links for a number of steps.  `Climbs s chain` says that
`chain` is the whole way from `s` to its root.  Links without a cycle are the
ranked ones: a rank rises along every link.  If every node with a parent is in a
list, a climb of that list's length is the whole way (`climb_climbs`), since the
number of listed nodes of lower rank is itself a rank.

Linking a root of one tree below a node of another keeps the ranking, after
lifting the nodes above the new link.
-/
import Mathlib.Logic.Function.Basic
import Mathlib.Data.Nat.Basic
import Mathlib.Data.List.Nodup

namespace Shelterwood

section ParentLinks

variable {α : Type} {parent : α → Option α}

/-- Follows the links from a node, at most that many. -/
def climb (parent : α → Option α) : ℕ → α → List α
  | 0, _ => []
  | n + 1, s =>
    match parent s with
    | none => []
    | some p => p :: climb parent n p

/-- The whole way from a node to its root, both included. -/
inductive Climbs (parent : α → Option α) : α → List α → Prop
  | root {s : α} : parent s = none → Climbs parent s [s]
  | link {s p : α} {chain : List α} :
      parent s = some p → Climbs parent p chain → Climbs parent s (s :: chain)

/-- A rank rises along every link. -/
def Ranked (parent : α → Option α) (rank : α → ℕ) : Prop :=
  ∀ c p, parent c = some p → rank c < rank p

/-- The links have no cycle. -/
def Acyclic (parent : α → Option α) : Prop := ∃ rank, Ranked parent rank

namespace Climbs

variable {chain : List α} {s : α}

theorem mem_self (h : Climbs parent s chain) : s ∈ chain := by
  cases h with
  | root | link => exact List.mem_cons_self ..

/-- The way is closed under parents. -/
theorem mem_parent (h : Climbs parent s chain) :
    ∀ {x p : α}, x ∈ chain → parent x = some p → p ∈ chain := by
  induction h with
  | root hroot =>
    intro x p hx hp
    rw [List.mem_singleton.1 hx, hroot] at hp
    cases hp
  | link hlink hrest ih =>
    intro x p hx hp
    rcases List.mem_cons.1 hx with rfl | hx
    · rw [hlink] at hp
      cases hp
      exact List.mem_cons_of_mem _ hrest.mem_self
    · exact List.mem_cons_of_mem _ (ih hx hp)

theorem unique (h : Climbs parent s chain) :
    ∀ {other : List α}, Climbs parent s other → other = chain := by
  induction h with
  | root hroot =>
    intro other hother
    cases hother with
    | root _ => rfl
    | link hlink _ => rw [hroot] at hlink; cases hlink
  | link hlink _ ih =>
    intro other hother
    cases hother with
    | root hroot => rw [hlink] at hroot; cases hroot
    | link hlink' hrest =>
      rw [hlink] at hlink'
      cases hlink'
      rw [ih hrest]

theorem rank_le {rank : α → ℕ} (hrank : Ranked parent rank) (h : Climbs parent s chain) :
    ∀ x ∈ chain, rank s ≤ rank x := by
  induction h with
  | root _ =>
    intro x hx
    rw [List.mem_singleton.1 hx]
  | link hlink _ ih =>
    intro x hx
    rcases List.mem_cons.1 hx with rfl | hx
    · exact le_rfl
    · exact Nat.le_trans (Nat.le_of_lt (hrank _ _ hlink)) (ih x hx)

theorem nodup {rank : α → ℕ} (hrank : Ranked parent rank) (h : Climbs parent s chain) :
    chain.Nodup := by
  induction h with
  | root _ => exact List.nodup_singleton _
  | link hlink hrest ih =>
    refine List.nodup_cons.2 ⟨?_, ih⟩
    intro hmem
    exact absurd (hrest.rank_le hrank _ hmem) (Nat.not_le.2 (hrank _ _ hlink))

/-- A way of which no node's link changed is still the way. -/
theorem congr {other : α → Option α} (h : Climbs parent s chain) :
    (∀ x ∈ chain, other x = parent x) → Climbs other s chain := by
  induction h with
  | @root s hroot =>
    intro hsame
    exact .root ((hsame s (List.mem_cons_self ..)).trans hroot)
  | @link s p chain hlink _ ih =>
    intro hsame
    refine .link ((hsame s (List.mem_cons_self ..)).trans hlink) (ih ?_)
    intro x hx
    exact hsame x (List.mem_cons_of_mem _ hx)

end Climbs

/-- The way down from a node to one below it, without the upper end. -/
inductive Descends (parent : α → Option α) (s : α) : α → List α → Prop
  | here : Descends parent s s []
  | link {c p : α} {path : List α} :
      parent c = some p → Descends parent s p path → Descends parent s c (path ++ [c])

/-- The listed nodes of lower rank. -/
def rankAmong (nodes : List α) (rank : α → ℕ) (x : α) : ℕ :=
  nodes.countP fun y => rank y < rank x

theorem rankAmong_le (nodes : List α) (rank : α → ℕ) (x : α) :
    rankAmong nodes rank x ≤ nodes.length := List.countP_le_length

/-- Counting listed nodes of lower rank is a rank, if every linked node is
listed. -/
theorem Ranked.among {rank : α → ℕ} (hrank : Ranked parent rank) {nodes : List α}
    (hlisted : ∀ c p, parent c = some p → c ∈ nodes) :
    Ranked parent (rankAmong nodes rank) := by
  intro c p hp
  have hlt : rank c < rank p := hrank c p hp
  have hmono : ∀ l : List α,
      (l.countP fun y => rank y < rank c) ≤ l.countP fun y => rank y < rank p := fun l =>
    List.countP_mono_left fun y _ h => by
      simp only [decide_eq_true_eq] at h ⊢
      omega
  -- `c` itself is counted for `p` and not for `c`
  obtain ⟨before, after, rfl⟩ := List.append_of_mem (hlisted c p hp)
  simp only [rankAmong, List.countP_append, List.countP_cons, hlt, lt_irrefl, decide_true,
    decide_false, if_true, Bool.false_eq_true, if_false]
  have h₁ := hmono before
  have h₂ := hmono after
  omega

/-- A climb with enough steps left is the whole way. -/
theorem climbs_of_rank {rank : α → ℕ} (hrank : Ranked parent rank) {bound : ℕ}
    (hbound : ∀ x, rank x ≤ bound) :
    ∀ (n : ℕ) (s : α), bound ≤ rank s + n → Climbs parent s (s :: climb parent n s) := by
  intro n
  induction n with
  | zero =>
    intro s hs
    cases hp : parent s with
    | none => exact .root hp
    | some p =>
      have h₁ := hrank s p hp
      have h₂ := hbound p
      omega
  | succ n ih =>
    intro s hs
    cases hp : parent s with
    | none =>
      simp only [climb, hp]
      exact .root hp
    | some p =>
      simp only [climb, hp]
      have hlt := hrank s p hp
      exact .link hp (ih p (by omega))

theorem climb_climbs (hacyclic : Acyclic parent) {nodes : List α}
    (hlisted : ∀ c p, parent c = some p → c ∈ nodes) (s : α) :
    Climbs parent s (s :: climb parent nodes.length s) := by
  obtain ⟨rank, hrank⟩ := hacyclic
  exact climbs_of_rank (hrank.among hlisted) (rankAmong_le nodes rank) _ s (by omega)

variable {other : α → Option α}

theorem climb_congr (h : ∀ x, other x = parent x) (n : ℕ) (s : α) :
    climb other n s = climb parent n s := by
  rw [funext h]

/-! ### Changing a link -/

/-- Links that are fewer are acyclic too. -/
theorem Acyclic.mono (h : Acyclic parent) (hsub : ∀ c p, other c = some p → parent c = some p) :
    Acyclic other := by
  obtain ⟨rank, hrank⟩ := h
  exact ⟨rank, fun c p hp => hrank c p (hsub c p hp)⟩

/-- Linking a node below one that it is not above. -/
theorem Acyclic.link (h : Acyclic parent) {c p : α} {chain : List α}
    (hchain : Climbs parent p chain) (hc : c ∉ chain)
    (hother : ∀ x q, other x = some q → (x = c ∧ q = p) ∨ parent x = some q) : Acyclic other := by
  classical
  obtain ⟨rank, hrank⟩ := h
  -- everything above the new link is lifted past `c`
  refine ⟨fun x => if x ∈ chain then rank x + (rank c + 1) else rank x, ?_⟩
  intro x q hq
  rcases hother x q hq with ⟨rfl, rfl⟩ | hlink
  · simp only [hc, if_false, hchain.mem_self, if_true]
    omega
  · have hlt := hrank x q hlink
    by_cases hx : x ∈ chain
    · simp only [hx, hchain.mem_parent hx hlink, if_true]
      omega
    · by_cases hq' : q ∈ chain
      · simp only [hx, hq', if_false, if_true]
        omega
      · simpa only [hx, hq', if_false] using hlt

end ParentLinks

end Shelterwood
