/-
Shelterwood/Worklist.lean

Worklist loops: a queue of items is executed batch by batch, executing an item
may queue more, and when the queue runs dry a poll may fill it again.

    drive:  loop { poll; if the queue is empty, stop; flush; if stop, stop }
    flush:  while the queue is not empty { take it; execute each item }

Such a loop need not end, since a poll that finds its last item declined simply
asks for it again.  It ends if there is a potential that no step raises, and if
every step that does not lower it queues only *fresh* items, where executing a
fresh item lowers the potential and items stay fresh while it stands still
(`Bounded`).  An unproductive batch is then followed by a productive one, so a
flush takes at most two batches for each unit of potential
(`flush_ne_exhausted`), and every round of the outer loop but the first costs a
unit (`drive_ne_exhausted`).

Both loops carry a fuel argument that counts their iterations; the results say
how much of it is enough.
-/
import Mathlib.Data.List.Basic
import Mathlib.Data.Nat.Basic

namespace Worklist

/-- How a loop ended: it ran out of fuel, an item unwound, or it stopped. -/
inductive Outcome (σ : Type*)
  | exhausted
  | unwound
  | done (state : σ)

section Loops

variable {σ ε : Type*} (execute : σ → ε → Option (σ × List ε))

/-- Executes a batch in order; what the items queue is appended to `queue`. -/
def executeAll : σ → List ε → List ε → Option (σ × List ε)
  | s, queue, [] => some (s, queue)
  | s, queue, item :: rest =>
    match execute s item with
    | none => none
    | some (s', queued) => executeAll s' (queue ++ queued) rest

/-- Takes and executes the whole queue until it stays empty. -/
def flush : ℕ → σ → List ε → Outcome σ
  | _, s, [] => .done s
  | 0, _, _ :: _ => .exhausted
  | fuel + 1, s, item :: rest =>
    match executeAll execute s [] (item :: rest) with
    | none => .unwound
    | some (s', queue) => flush fuel s' queue

variable (poll : σ → σ × List ε) (stop : σ → Bool)

/-- Polls and flushes until a poll leaves the queue empty or the state asks to
stop. -/
def drive : ℕ → σ → List ε → Outcome σ
  | 0, _, _ => .exhausted
  | fuel + 1, s, queue =>
    match queue ++ (poll s).2 with
    | [] => .done (poll s).1
    | item :: rest =>
      match flush execute fuel (poll s).1 (item :: rest) with
      | .done s' => if stop s' then .done s' else drive fuel s' []
      | .unwound => .unwound
      | .exhausted => .exhausted

end Loops

variable {σ ε : Type*} {execute : σ → ε → Option (σ × List ε)} {poll : σ → σ × List ε}
variable {valid : σ → Prop} {potential : σ → ℕ} {fresh : σ → ε → Prop}

/-- What the items must do for the loops to end. -/
structure Bounded (execute : σ → ε → Option (σ × List ε)) (poll : σ → σ × List ε)
    (valid : σ → Prop) (potential : σ → ℕ) (fresh : σ → ε → Prop) : Prop where
  /-- Execution stays among the valid states. -/
  valid_execute : ∀ {s item s' queued}, valid s → execute s item = some (s', queued) → valid s'
  /-- Execution does not raise the potential. -/
  potential_le : ∀ {s item s' queued}, valid s → execute s item = some (s', queued) →
    potential s' ≤ potential s
  /-- What an unproductive execution queues is fresh. -/
  fresh_queued : ∀ {s item s' queued}, valid s → execute s item = some (s', queued) →
    potential s' = potential s → ∀ x ∈ queued, fresh s' x
  /-- Items stay fresh through an unproductive execution. -/
  fresh_kept : ∀ {s item s' queued x}, valid s → execute s item = some (s', queued) →
    potential s' = potential s → fresh s x → fresh s' x
  /-- Executing a fresh item is productive. -/
  fresh_spent : ∀ {s item s' queued}, valid s → execute s item = some (s', queued) →
    fresh s item → potential s' < potential s
  valid_poll : ∀ {s}, valid s → valid (poll s).1
  poll_le : ∀ {s}, valid s → potential (poll s).1 ≤ potential s
  fresh_polled : ∀ {s}, valid s → potential (poll s).1 = potential s →
    ∀ x ∈ (poll s).2, fresh (poll s).1 x

namespace Bounded

variable (h : Bounded execute poll valid potential fresh)

include h

/-- What a batch does: it keeps validity, lowers the potential or leaves the
queue as fresh as it was, and lowers it for certain when its first item is
fresh. -/
theorem executeAll_spec {s s' : σ} {queue batch queue' : List ε} (hs : valid s)
    (hrun : executeAll execute s queue batch = some (s', queue')) :
    valid s' ∧ potential s' ≤ potential s ∧
      (potential s' = potential s → (∀ x ∈ queue, fresh s x) → ∀ x ∈ queue', fresh s' x) ∧
      (∀ item rest, batch = item :: rest → fresh s item → potential s' < potential s) := by
  induction batch generalizing s queue with
  | nil =>
    cases hrun
    refine ⟨hs, le_rfl, fun _ hqueue => hqueue, ?_⟩
    intro item rest hbatch
    cases hbatch
  | cons item rest ih =>
    rw [executeAll] at hrun
    cases hexec : execute s item with
    | none => simp [hexec] at hrun
    | some result =>
      obtain ⟨s₁, queued⟩ := result
      simp only [hexec] at hrun
      have hle := h.potential_le hs hexec
      obtain ⟨hvalid, hle', hfresh, -⟩ := ih (h.valid_execute hs hexec) hrun
      refine ⟨hvalid, Nat.le_trans hle' hle, ?_, ?_⟩
      · intro heq hqueue
        -- neither the item nor the rest of the batch lowered the potential
        have heq₁ : potential s₁ = potential s := by omega
        refine hfresh (by omega) ?_
        intro x hx
        rcases List.mem_append.mp hx with hold | hnew
        · exact h.fresh_kept hs hexec heq₁ (hqueue x hold)
        · exact h.fresh_queued hs hexec heq₁ x hnew
      · rintro _ _ ⟨⟩ hitem
        have hlt := h.fresh_spent hs hexec hitem
        omega

/-- A flush that stops keeps validity and does not raise the potential; if it
started at a fresh item it lowered it. -/
theorem flush_done {fuel : ℕ} {s s' : σ} {queue : List ε} (hs : valid s)
    (hrun : flush execute fuel s queue = .done s') :
    valid s' ∧ potential s' ≤ potential s ∧
      (∀ item rest, queue = item :: rest → fresh s item → potential s' < potential s) := by
  induction fuel generalizing s queue with
  | zero =>
    cases queue with
    | nil =>
      obtain rfl := Outcome.done.inj hrun
      exact ⟨hs, le_rfl, fun item rest hqueue => nomatch hqueue⟩
    | cons item rest => exact nomatch hrun
  | succ fuel ih =>
    cases queue with
    | nil =>
      obtain rfl := Outcome.done.inj hrun
      exact ⟨hs, le_rfl, fun item rest hqueue => nomatch hqueue⟩
    | cons item rest =>
      rw [flush] at hrun
      cases hbatch : executeAll execute s [] (item :: rest) with
      | none => simp [hbatch] at hrun
      | some result =>
        obtain ⟨s₁, queue₁⟩ := result
        simp only [hbatch] at hrun
        obtain ⟨hs₁, hle₁, -, hspent⟩ := h.executeAll_spec hs hbatch
        obtain ⟨hs', hle', -⟩ := ih hs₁ hrun
        refine ⟨hs', Nat.le_trans hle' hle₁, ?_⟩
        intro item' rest' hqueue hitem
        have hlt := hspent item' rest' hqueue hitem
        omega

/-- A flush ends within two batches for each unit of potential and two more;
one that starts from a fresh queue needs one batch less.  The induction is on
the fuel: a batch that leaves the potential alone hands a fresh queue to the
next one, and a batch that lowers it pays for two. -/
theorem flush_ne_exhausted {fuel : ℕ} {s : σ} {queue : List ε} (hs : valid s)
    (hfuel : 2 * potential s + 2 ≤ fuel ∨
      2 * potential s + 1 ≤ fuel ∧ ∀ x ∈ queue, fresh s x) :
    flush execute fuel s queue ≠ .exhausted := by
  induction fuel generalizing s queue with
  | zero => omega
  | succ fuel ih =>
    cases queue with
    | nil => exact nofun
    | cons item rest =>
      rw [flush]
      cases hbatch : executeAll execute s [] (item :: rest) with
      | none => exact nofun
      | some result =>
        obtain ⟨s₁, queue₁⟩ := result
        obtain ⟨hs₁, hle₁, hfresh, hspent⟩ := h.executeAll_spec hs hbatch
        show flush execute fuel s₁ queue₁ ≠ .exhausted
        refine ih hs₁ ?_
        rcases hfuel with hfuel | ⟨hfuel, hqueue⟩
        · -- an unproductive batch leaves a queue of fresh items only
          rcases Nat.lt_or_eq_of_le hle₁ with hlt | heq
          · exact .inl (by omega)
          · exact .inr ⟨by omega, hfresh heq (fun x hx => nomatch hx)⟩
        · -- a fresh queue starts with a productive item
          have hlt := hspent item rest rfl (hqueue item List.mem_cons_self)
          exact .inl (by omega)

/-- **The loop ends** once its fuel covers two batches for each unit of
potential and four more.  From an empty queue three more are enough, since a
poll that leaves the potential alone queues only fresh items. -/
theorem drive_ne_exhausted (stop : σ → Bool) {fuel : ℕ} {s : σ} {queue : List ε} (hs : valid s)
    (hfuel : 2 * potential s + 4 ≤ fuel ∨ 2 * potential s + 3 ≤ fuel ∧ queue = []) :
    drive execute poll stop fuel s queue ≠ .exhausted := by
  induction fuel generalizing s queue with
  | zero => omega
  | succ fuel ih =>
    have hs₁ := h.valid_poll hs
    have hle₁ := h.poll_le hs
    rw [drive]
    cases hqueue : queue ++ (poll s).2 with
    | nil => exact nofun
    | cons item rest =>
      dsimp only
      have hflush : flush execute fuel (poll s).1 (item :: rest) ≠ .exhausted :=
        h.flush_ne_exhausted hs₁ (.inl (by omega))
      cases hrun : flush execute fuel (poll s).1 (item :: rest) with
      | exhausted => exact absurd hrun hflush
      | unwound => exact nofun
      | done s' =>
        obtain ⟨hs', hle', hspent⟩ := h.flush_done hs₁ hrun
        -- the round costs a unit unless it had a leftover queue to work off
        have hround : 2 * potential s' + 3 ≤ fuel := by
          rcases hfuel with hfuel | ⟨hfuel, rfl⟩
          · omega
          · rcases Nat.lt_or_eq_of_le hle₁ with hlt | heq
            · omega
            · have hitem : item ∈ (poll s).2 := by
                rw [List.nil_append] at hqueue
                exact hqueue ▸ List.mem_cons_self
              have hlt := hspent item rest rfl (h.fresh_polled hs heq item hitem)
              omega
        show (if stop s' = true then Outcome.done s' else drive execute poll stop fuel s' [])
          ≠ .exhausted
        split
        · exact nofun
        · exact ih hs' (.inr ⟨hround, rfl⟩)

end Bounded

/-! ### Loops that do not unwind -/

section Unwinding

variable (hvalid : ∀ {s item s' queued}, valid s → execute s item = some (s', queued) → valid s')
variable (hexec : ∀ {s item}, valid s → execute s item ≠ none)

include hvalid hexec

theorem executeAll_ne_none {s : σ} (queue batch : List ε) (hs : valid s) :
    ∃ s' queue', valid s' ∧ executeAll execute s queue batch = some (s', queue') := by
  induction batch generalizing s queue with
  | nil => exact ⟨s, queue, hs, rfl⟩
  | cons item rest ih =>
    obtain ⟨⟨s₁, queued⟩, hitem⟩ := Option.ne_none_iff_exists'.mp (hexec hs)
    rw [executeAll, hitem]
    exact ih (queue ++ queued) (hvalid hs hitem)

theorem flush_ne_unwound (fuel : ℕ) {s : σ} (queue : List ε) (hs : valid s) :
    flush execute fuel s queue ≠ .unwound ∧
      ∀ s', flush execute fuel s queue = .done s' → valid s' := by
  induction fuel generalizing s queue with
  | zero =>
    cases queue with
    | nil => exact ⟨nofun, fun s' hrun => Outcome.done.inj hrun ▸ hs⟩
    | cons item rest => exact ⟨nofun, nofun⟩
  | succ fuel ih =>
    cases queue with
    | nil => exact ⟨nofun, fun s' hrun => Outcome.done.inj hrun ▸ hs⟩
    | cons item rest =>
      obtain ⟨s₁, queue₁, hs₁, hbatch⟩ := executeAll_ne_none hvalid hexec [] (item :: rest) hs
      rw [flush, hbatch]
      exact ih queue₁ hs₁

/-- If no item of a valid state unwinds, neither does the loop. -/
theorem drive_ne_unwound (hpoll : ∀ {s}, valid s → valid (poll s).1) (stop : σ → Bool) {fuel : ℕ}
    {s : σ} {queue : List ε} (hs : valid s) :
    drive execute poll stop fuel s queue ≠ .unwound := by
  induction fuel generalizing s queue with
  | zero => exact nofun
  | succ fuel ih =>
    rw [drive]
    cases queue ++ (poll s).2 with
    | nil => exact nofun
    | cons item rest =>
      dsimp only
      obtain ⟨hunwound, hdone⟩ := flush_ne_unwound hvalid hexec fuel (item :: rest)
        (hpoll hs)
      cases hrun : flush execute fuel (poll s).1 (item :: rest) with
      | exhausted => exact nofun
      | unwound => exact absurd hrun hunwound
      | done s' =>
        show (if stop s' = true then Outcome.done s' else drive execute poll stop fuel s' [])
          ≠ .unwound
        split
        · exact nofun
        · exact ih (hdone s' hrun)

end Unwinding

end Worklist
