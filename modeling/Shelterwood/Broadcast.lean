/-
Shelterwood/Broadcast.lean

A bounded broadcast channel with independent readers.

The channel keeps the order of everything sent and, for each reader, the last
items only.  A reader that falls behind learns how many items it lost and goes on
with the oldest one kept.  The channel itself is a parameter, `TokioBroadcast`, of
which only the contract is used: what a receive may answer is `Answers`.  So what a
reader has been told so far, items and losses together, always accounts for a
beginning of what was sent since it joined: that is `Replays`, and
`Replays.receive` keeps it.
-/
import Mathlib.Data.List.Basic

/-- What a reader is told. -/
inductive BroadcastReceive (E : Type*)
  | item (value : E)
  | empty
  | closed
  | lagged (dropped : ℕ)
  deriving DecidableEq, Repr

/-- What a channel holds: how much is kept, everything sent, in order, and how many
readers there are. -/
structure Broadcast (E : Type*) where
  capacity : ℕ
  sent : List E
  receivers : ℕ
  deriving DecidableEq, Repr

namespace Broadcast

/-- What a reader at a position may be told, and where it is afterwards.  Only one that
has caught up finds the channel empty or closed. -/
inductive Answers {E : Type*} (sent : List E) (j : ℕ) : BroadcastReceive E → ℕ → Prop
  | item {e : E} : sent[j]? = some e → Answers sent j (.item e) (j + 1)
  | lagged (dropped : ℕ) : j + dropped ≤ sent.length →
      Answers sent j (.lagged dropped) (j + dropped)
  | empty : sent.length ≤ j → Answers sent j .empty j
  | closed : sent.length ≤ j → Answers sent j .closed j

theorem Answers.drained {E : Type*} {sent : List E} {j j' : ℕ} (h : Answers sent j .closed j') :
    sent.length ≤ j := by
  cases h with
  | closed hle => exact hle

end Broadcast

/-- Tokio's channel, by its contract: its calls, and what each does to what the channel
holds and to the position of a reader. -/
class TokioBroadcast (E : Type) where
  Chan : Type
  Reader : Type
  channel : ℕ → Chan
  send : Chan → E → Except E ℕ × Chan
  subscribe : Chan → Reader × Chan
  tryReceive : Chan → Reader → BroadcastReceive E × Reader × Chan
  dropReceiver : Chan → Reader → Chan
  held : Chan → Broadcast E
  position : Reader → ℕ
  held_channel (capacity : ℕ) : held (channel capacity) = ⟨capacity, [], 0⟩
  /-- What is sent while somebody reads comes last. -/
  held_send (c : Chan) (e : E) : 0 < (held c).receivers →
    held (send c e).2 = { held c with sent := (held c).sent ++ [e] }
  held_subscribe (c : Chan) :
    held (subscribe c).2 = { held c with receivers := (held c).receivers + 1 }
  /-- A reader joins behind what was sent. -/
  position_subscribe (c : Chan) : position (subscribe c).1 = (held c).sent.length
  held_tryReceive (c : Chan) (r : Reader) : held (tryReceive c r).2.2 = held c
  tryReceive_answers (c : Chan) (r : Reader) : Broadcast.Answers (held c).sent (position r)
    (tryReceive c r).1 (position (tryReceive c r).2.1)
  held_dropReceiver (c : Chan) (r : Reader) :
    held (dropReceiver c r) = { held c with receivers := (held c).receivers - 1 }

namespace Broadcast

/-- The channel that holds nothing else, and never loses its sender, meets the
contract. -/
@[reducible] def tokio {E : Type} : TokioBroadcast E where
  Chan := Broadcast E
  Reader := ℕ
  channel capacity := ⟨capacity, [], 0⟩
  send c e :=
    if c.receivers = 0 then (.error e, c) else (.ok c.receivers, { c with sent := c.sent ++ [e] })
  subscribe c := (c.sent.length, { c with receivers := c.receivers + 1 })
  tryReceive c j :=
    if j < c.sent.length - c.capacity then
      (.lagged (c.sent.length - c.capacity - j), j + (c.sent.length - c.capacity - j), c)
    else
      match c.sent[j]? with
      | some e => (.item e, j + 1, c)
      | none => (.empty, j, c)
  dropReceiver c _ := { c with receivers := c.receivers - 1 }
  held c := c
  position j := j
  held_channel _ := rfl
  held_send c e h := by rw [if_neg (Nat.ne_of_gt h)]
  held_subscribe _ := rfl
  position_subscribe _ := rfl
  held_tryReceive c j := by
    split_ifs
    · rfl
    · split <;> rfl
  tryReceive_answers c j := by
    split_ifs
    · exact .lagged _ (by omega)
    · split
      · next e he => exact .item he
      · next hnone => exact .empty (List.getElem?_eq_none_iff.mp hnone)
  held_dropReceiver _ _ := rfl

variable {E : Type*}

/-- The answers account for the items from one position up to another: an item
for itself, a loss for as many as it says. -/
inductive Replays (sent : List E) (i : ℕ) : List (BroadcastReceive E) → ℕ → Prop
  | nil : Replays sent i [] i
  | item {j : ℕ} {answers : List (BroadcastReceive E)} {e : E} :
      Replays sent i answers j → sent[j]? = some e → Replays sent i (answers ++ [.item e]) (j + 1)
  | lagged {j : ℕ} {answers : List (BroadcastReceive E)} (dropped : ℕ) :
      Replays sent i answers j → j + dropped ≤ sent.length →
      Replays sent i (answers ++ [.lagged dropped]) (j + dropped)
  | nothing {j : ℕ} {answers : List (BroadcastReceive E)} {answer : BroadcastReceive E} :
      Replays sent i answers j → answer = .empty ∨ answer = .closed →
      Replays sent i (answers ++ [answer]) j

namespace Replays

variable {sent : List E} {i j : ℕ} {answers : List (BroadcastReceive E)}

/-- What is sent later changes no earlier account. -/
theorem send (h : Replays sent i answers j) (more : List E) :
    Replays (sent ++ more) i answers j := by
  induction h with
  | nil => exact .nil
  | item _ he ih =>
    refine .item ih ?_
    rw [List.getElem?_append_left (List.getElem?_eq_some_iff.mp he).1]
    exact he
  | lagged dropped _ hle ih =>
    refine .lagged dropped ih ?_
    rw [List.length_append]
    omega
  | nothing _ hanswer ih => exact .nothing ih hanswer

theorem le (h : Replays sent i answers j) (hi : i ≤ sent.length) : i ≤ j ∧ j ≤ sent.length := by
  induction h with
  | nil => exact ⟨Nat.le_refl i, hi⟩
  | item _ he ih =>
    have hlt := (List.getElem?_eq_some_iff.mp he).1
    have hij := ih.1
    omega
  | lagged dropped _ hle ih =>
    omega
  | nothing _ _ ih => exact ih

/-- A receive extends the account. -/
theorem receive (h : Replays sent i answers j) {answer : BroadcastReceive E} {j' : ℕ}
    (hanswer : Answers sent j answer j') : Replays sent i (answers ++ [answer]) j' := by
  cases hanswer with
  | item he => exact .item h he
  | lagged dropped hle => exact .lagged dropped h hle
  | empty => exact .nothing h (.inl rfl)
  | closed => exact .nothing h (.inr rfl)

end Replays

end Broadcast
