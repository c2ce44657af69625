/-
Shelterwood/MailboxOperations.lean

One send operation under the moves of its mailbox.

`Turn` lists what a move can do to a single operation: nothing, record a newly
bound incarnation, accept or terminate its message, clear its registration,
change its waker, or retire it.  Everything later said about operations goes
through `Moves.turn`, not through the moves.

The parked table of a run says which message each operation was created for.
`Custody` keeps the operations in step with it: an operation that owns a message
owns the one it was created for, and one that reports an acceptance reports an
acceptance of that message.
-/
import Shelterwood.MailboxMoves
import Mathlib.Data.List.Nodup

namespace Shelterwood

variable {M : Type*}

/-! ### Lists of operations -/

/-- Reading a list after one position was set. -/
theorem getElem?_set_of_some {α : Type*} {l : List α} {i r : ℕ} {x y : α} (h : l[r]? = some x) :
    (l.set i y)[r]? = some (if i = r then y else x) := by
  have hlt : r < l.length := (List.getElem?_eq_some_iff.mp h).1
  by_cases hir : i = r
  · subst hir
    simp [hlt]
  · simp [hir, h]

theorem getElem?_set_cases {α : Type*} {l : List α} {i r : ℕ} {x y : α}
    (h : (l.set i y)[r]? = some x) : r = i ∧ x = y ∨ r ≠ i ∧ l[r]? = some x := by
  rw [List.getElem?_set] at h
  split_ifs at h with hir
  · exact .inl ⟨hir.symm, (Option.some.inj h).symm⟩
  · exact .inr ⟨Ne.symm hir, h⟩

/-- Reading a list after one position was modified. -/
theorem getElem?_modify_of_some {α : Type*} {l : List α} {i r : ℕ} {x : α} {g : α → α}
    (h : l[r]? = some x) : (l.modify i g)[r]? = some (if i = r then g x else x) := by
  rw [List.getElem?_modify, h]
  rfl

/-- Reading a list after the positions of a list of entries were modified, when
modifying twice is modifying once. -/
theorem getElem?_foldl_modify {α K : Type*} {g : α → α} (hg : ∀ x, g (g x) = g x)
    (entries : List (K × ℕ)) {l : List α} {r : ℕ} {x : α} (h : l[r]? = some x) :
    (r ∈ entries.map Prod.snd ∧
        (entries.foldl (fun l e => l.modify e.2 g) l)[r]? = some (g x)) ∨
      (r ∉ entries.map Prod.snd ∧
        (entries.foldl (fun l e => l.modify e.2 g) l)[r]? = some x) := by
  induction entries generalizing l x with
  | nil => exact .inr ⟨by simp, h⟩
  | cons e rest ih =>
    have hstep := getElem?_modify_of_some (i := e.2) (g := g) h
    rw [List.foldl_cons]
    by_cases her : e.2 = r
    · -- the position was modified here, and perhaps again later
      rw [if_pos her] at hstep
      refine .inl ⟨by simp [her], ?_⟩
      obtain ⟨-, hrest⟩ | ⟨-, hrest⟩ := ih hstep
      · rw [hrest, hg]
      · exact hrest
    · rw [if_neg her] at hstep
      obtain ⟨hmem, hrest⟩ | ⟨hmem, hrest⟩ := ih hstep
      · exact .inl ⟨List.mem_cons_of_mem _ hmem, hrest⟩
      · exact .inr ⟨by simpa [Ne.symm her] using hmem, hrest⟩

theorem length_foldl_modify {α K : Type*} (g : α → α) (entries : List (K × ℕ)) (l : List α) :
    (entries.foldl (fun l e => l.modify e.2 g) l).length = l.length := by
  induction entries generalizing l with
  | nil => rfl
  | cons e rest ih => rw [List.foldl_cons, ih, List.length_modify]

namespace SendOperation

theorem observe_observe (incarnation : Incarnation) (operation : SendOperation M) :
    (operation.observe incarnation).observe incarnation = operation.observe incarnation := by
  cases houtcome : operation.outcome <;> simp [observe, houtcome]

@[simp] theorem observe_registration (incarnation : Incarnation) (operation : SendOperation M) :
    (operation.observe incarnation).registration = operation.registration := by
  cases houtcome : operation.outcome <;> simp [observe, houtcome]

/-- Whether the outcome is `waiting`. -/
def isWaiting (operation : SendOperation M) : Bool :=
  match operation.outcome with
  | .waiting _ _ => true
  | _ => false

theorem isWaiting_iff {operation : SendOperation M} :
    operation.isWaiting = true ↔
      ∃ message observed, operation.outcome = .waiting message observed := by
  cases houtcome : operation.outcome <;> simp [isWaiting, houtcome]

@[simp] theorem observe_isWaiting (incarnation : Incarnation) (operation : SendOperation M) :
    (operation.observe incarnation).isWaiting = operation.isWaiting := by
  cases houtcome : operation.outcome <;> simp [observe, isWaiting, houtcome]

end SendOperation

/-! ### What a move can do to one operation -/

/-- What the move from `s` to `t` does to the operation at `reference`. -/
inductive Turn (s : MailboxSystem M) (f : Flow M) (t : MailboxSystem M)
    (reference : OperationRef) : SendOperation (Posted M) → SendOperation (Posted M) → Prop
  /-- Nothing; a bind passes over operations that are not registered. -/
  | same (operation : SendOperation (Posted M))
      (unseen : f.bound = [] ∨ ∀ id, s.cell.state.waiters.entries.get? id ≠ some reference) :
      Turn s f t reference operation operation
  | observe (operation : SendOperation (Posted M)) (incarnation : Incarnation)
      (bound : f.bound = [incarnation]) :
      Turn s f t reference operation (operation.observe incarnation)
  | accept (operation : SendOperation (Posted M)) (message : Posted M)
      (observed : Option Incarnation) (acceptance : Acceptance (Posted M))
      (waiting : operation.outcome = .waiting message observed)
      (accepted : f.accepted = [acceptance]) (owned : acceptance.envelope.message = message) :
      Turn s f t reference operation ⟨.accepted acceptance.incarnation, none, none⟩
  | clear (operation : SendOperation (Posted M)) (unbound : f.bound = [])
      (settled : operation.isWaiting = false ∨ s.teardown.isSome = true) :
      Turn s f t reference operation operation.clearRegistration
  | retire (operation : SendOperation (Posted M)) (returned : f.returned = operation.held)
      (taken : f.taken = [reference]) :
      Turn s f t reference operation ⟨.retired, none, none⟩
  | reclaim (operation : SendOperation (Posted M)) (message : Posted M)
      (finalIncarnation : Option Incarnation)
      (terminated : operation.outcome = .terminated message finalIncarnation)
      (returned : f.returned = [message]) (taken : f.taken = [reference]) :
      Turn s f t reference operation { operation with outcome := .retired }
  | rewake (operation : SendOperation (Posted M)) (waker : Option Waker) (unbound : f.bound = []) :
      Turn s f t reference operation { operation with waker }
  | terminate (operation : SendOperation (Posted M)) (message : Posted M)
      (observed : Option Incarnation) (termination : Termination)
      (waiting : operation.outcome = .waiting message observed)
      (teardown : s.teardown = some termination) (popped : s.discharging = some reference)
      (unbound : f.bound = []) :
      Turn s f t reference operation
        ⟨.terminated message termination.finalIncarnation, none, operation.registration⟩

section Moves

variable {s t : MailboxSystem M} {f : Flow M} {reference : OperationRef}
  {operation : SendOperation (Posted M)}

theorem MailboxCell.close_operations (cell : MailboxCell M) (incarnation : Incarnation) :
    (cell.close incarnation).2.cell.operations = cell.operations := by
  unfold close
  split_ifs <;> rfl

theorem MailboxCell.prepareTermination_operations (cell : MailboxCell M) :
    cell.prepareTermination.2.operations = cell.operations := by
  unfold prepareTermination
  split_ifs <;> rfl

/-- Setting one operation is the only change a reference sees. -/
theorem turn_set {i : OperationRef} {old operation' : SendOperation (Posted M)}
    (hunseen : f.bound = []) (hget : s.cell.operations[reference]? = some operation)
    (hold : s.cell.operations[i]? = some old)
    (hops : t.cell.operations = s.cell.operations.set i operation')
    (hturn : Turn s f t i old operation') :
    ∃ after, t.cell.operations[reference]? = some after ∧ Turn s f t reference operation after := by
  refine ⟨_, hops ▸ getElem?_set_of_some hget, ?_⟩
  split_ifs with hir
  · subst hir
    obtain rfl := Option.some.inj (hold.symm.trans hget)
    exact hturn
  · exact .same operation (.inl hunseen)

/-- **Every operation takes a turn** in every move. -/
theorem Moves.turn (h : Moves s f t) (hget : s.cell.operations[reference]? = some operation) :
    ∃ after, t.cell.operations[reference]? = some after ∧ Turn s f t reference operation after := by
  cases h with
  | refuse | accept | drop | take | configure | freeze =>
    exact ⟨operation, hget, .same _ (.inl rfl)⟩
  | park body live =>
    have hlt := (List.getElem?_eq_some_iff.mp hget).1
    refine ⟨operation, ?_, .same _ (.inl rfl)⟩
    show (s.cell.operations ++ _)[reference]? = some operation
    rw [List.getElem?_append_left hlt, hget]
  | promote binding popped waiters operation' message observed bound room pop get waiting =>
    exact turn_set rfl hget get rfl
      (.accept operation' message observed (s.cell.acceptance binding message) waiting rfl rfl)
  | skip binding popped waiters operation' bound pop get settled =>
    refine turn_set rfl hget get rfl (.clear operation' rfl (.inl ?_))
    rw [Bool.eq_false_iff, ne_eq, SendOperation.isWaiting_iff]
    rintro ⟨message, observed, houtcome⟩
    exact settled message observed houtcome
  | retire withdrawn operation' disposition get =>
    exact turn_set rfl hget get rfl (.retire operation' rfl rfl)
  | reclaim polled operation' message finalIncarnation get terminated =>
    exact turn_set rfl hget get rfl
      (.reclaim operation' message finalIncarnation terminated rfl rfl)
  | rewake polled operation' waker get =>
    exact turn_set rfl hget get rfl (.rewake operation' waker rfl)
  | bind binding unbound configured unclaimed =>
    obtain ⟨-, hafter⟩ | ⟨hmem, hafter⟩ := getElem?_foldl_modify
      (SendOperation.observe_observe binding.incarnation) s.cell.state.waiters.entries.entries
      hget
    · exact ⟨_, hafter, .observe operation binding.incarnation rfl⟩
    · refine ⟨_, hafter, .same operation (.inr ?_)⟩
      intro id hid
      exact hmem (List.mem_map.mpr ⟨_, OrdMap.get?_eq_some_iff.mp hid, rfl⟩)
  | close incarnation bound =>
    refine ⟨operation, ?_, .same _ (.inl rfl)⟩
    show (s.cell.close incarnation).2.cell.operations[reference]? = some operation
    rw [MailboxCell.close_operations, hget]
  | terminate live =>
    refine ⟨operation, ?_, .same _ (.inl rfl)⟩
    rw [MailboxCell.prepareTermination_operations, hget]
  | clear termination popped waiters teardown free pop =>
    refine ⟨_, getElem?_modify_of_some hget, ?_⟩
    split_ifs
    · exact .clear operation rfl (.inr (by simp [teardown]))
    · exact .same operation (.inl rfl)
  | discharge termination popped operation' teardown hpopped get =>
    refine turn_set rfl hget get rfl ?_
    by_cases hwaiting : ∃ message observed, operation'.outcome = .waiting message observed
    · obtain ⟨message, observed, houtcome⟩ := hwaiting
      have hturn := Turn.terminate (s := s) (f := {}) (t := { s.setOperation popped
        (operation'.terminate termination.finalIncarnation).1 with discharging := none })
        operation' message observed termination houtcome teardown hpopped rfl
      simpa [SendOperation.terminate, houtcome] using hturn
    · have hsame : (operation'.terminate termination.finalIncarnation).1 = operation' := by
        unfold SendOperation.terminate
        cases houtcome : operation'.outcome <;> simp_all
      rw [hsame]
      exact .same operation' (.inl rfl)

/-- A move parks one message under the next reference, or keeps the heap's
length. -/
theorem Moves.parked_cases (h : Moves s f t) :
    (f.parked = [] ∧ t.cell.operations.length = s.cell.operations.length) ∨
      ∃ body, f = { posted := [s.post body],
                    parked := [(s.cell.operations.length, s.post body)] } ∧
        s.cell.state.phase.isTerminal = false ∧ t = s.parkNew body := by
  cases h with
  | park body live => exact .inr ⟨body, rfl, live, rfl⟩
  | promote | skip | retire | reclaim | rewake | discharge => exact .inl ⟨rfl, List.length_set⟩
  | bind => exact .inl ⟨rfl, length_foldl_modify _ _ _⟩
  | close incarnation => exact .inl ⟨rfl, by
      show (s.cell.close incarnation).2.cell.operations.length = _
      rw [MailboxCell.close_operations]⟩
  | terminate => exact .inl ⟨rfl, by
      rw [MailboxCell.prepareTermination_operations]⟩
  | clear => exact .inl ⟨rfl, List.length_modify _ _ _⟩
  | refuse | accept | drop | take | configure | freeze => exact .inl ⟨rfl, rfl⟩

/-- An operation after a move was there before, or was parked by it. -/
theorem Moves.turn_back (h : Moves s f t) (hget : t.cell.operations[reference]? = some operation) :
    (∃ before, s.cell.operations[reference]? = some before ∧
        Turn s f t reference before operation) ∨
      ∃ body, f = { posted := [s.post body],
                    parked := [(s.cell.operations.length, s.post body)] } ∧
        s.cell.state.phase.isTerminal = false ∧ t = s.parkNew body ∧
        reference = s.cell.operations.length ∧
        operation = .new (s.post body) s.cell.state.phase.observation
          (some (s.cell.state.waiters.ids.current + 1)) := by
  cases hbefore : s.cell.operations[reference]? with
  | some before =>
    obtain ⟨after, hafter, hturn⟩ := h.turn hbefore
    obtain rfl := Option.some.inj (hafter.symm.trans hget)
    exact .inl ⟨before, rfl, hturn⟩
  | none =>
    have hge := List.getElem?_eq_none_iff.mp hbefore
    have hlt := (List.getElem?_eq_some_iff.mp hget).1
    obtain ⟨-, hlength⟩ | ⟨body, rfl, hlive, rfl⟩ := h.parked_cases
    · omega
    · have hlength : (s.parkNew body).cell.operations.length = s.cell.operations.length + 1 :=
        List.length_append
      rw [hlength] at hlt
      obtain rfl : reference = s.cell.operations.length :=
        Nat.le_antisymm (Nat.lt_succ_iff.mp hlt) hge
      refine .inr ⟨body, rfl, hlive, rfl, rfl, ?_⟩
      have hnew : (s.parkNew body).cell.operations[s.cell.operations.length]? = some (.new
          (s.post body) s.cell.state.phase.observation
          (some (s.cell.state.waiters.ids.current + 1))) := List.getElem?_concat_length
      exact Option.some.inj (hget.symm.trans hnew)

end Moves

/-! ### Custody of the parked messages -/

/-- An operation created for `message` owns it, or has given it up properly. -/
def Owns (F : Flow M) (operation : SendOperation (Posted M)) (message : Posted M) : Prop :=
  match operation.outcome with
  | .waiting owned _ | .terminated owned _ => owned = message
  | .accepted incarnation =>
    ∃ a ∈ F.accepted, a.envelope.message = message ∧ a.incarnation = incarnation
  | .retired => True

/-- The operations are in step with the parked table. -/
structure Custody (F : Flow M) (s : MailboxSystem M) : Prop where
  references : F.parked.map Prod.fst = List.range s.cell.operations.length
  owner : ∀ reference operation, s.cell.operations[reference]? = some operation →
    ∃ message, (reference, message) ∈ F.parked ∧ Owns F operation message

theorem Turn.owns {s t : MailboxSystem M} {f F : Flow M} {reference : OperationRef}
    {operation after : SendOperation (Posted M)} {message : Posted M}
    (h : Turn s f t reference operation after) (howns : Owns F operation message) :
    Owns (F ++ f) after message := by
  have hmono : ∀ o : SendOperation (Posted M), Owns F o message → Owns (F ++ f) o message := by
    intro o ho
    unfold Owns at ho ⊢
    cases houtcome : o.outcome with
    | accepted incarnation =>
      simp only [houtcome] at ho ⊢
      obtain ⟨a, ha, hrest⟩ := ho
      exact ⟨a, List.mem_append_left _ ha, hrest⟩
    | waiting | terminated => simpa only [houtcome] using ho
    | retired => trivial
  cases h with
  | same | clear | rewake => exact hmono _ howns
  | observe incarnation =>
    refine hmono _ ?_
    unfold Owns SendOperation.observe at *
    cases houtcome : operation.outcome with
    | retired => simp [houtcome]
    | waiting | accepted | terminated => simpa [houtcome] using howns
  | accept owned observed acceptance waiting accepted hmessage =>
    simp only [Owns, waiting] at howns
    refine ⟨acceptance, ?_, hmessage.trans howns, rfl⟩
    rw [Flow.accepted_append, accepted]
    exact List.mem_append_right _ (List.mem_singleton_self _)
  | retire | reclaim => trivial
  | terminate owned observed termination waiting =>
    simp only [Owns, waiting] at howns
    exact howns

theorem Custody.moves {s t : MailboxSystem M} {f F : Flow M} (hc : Custody F s)
    (h : Moves s f t) : Custody (F ++ f) t where
  references := by
    obtain ⟨hparked, hlength⟩ | ⟨body, rfl, -, rfl⟩ := h.parked_cases
    · rw [Flow.parked_append, hparked, List.append_nil, hlength, hc.references]
    · have hlength : (s.parkNew body).cell.operations.length = s.cell.operations.length + 1 :=
        List.length_append
      rw [Flow.parked_append, List.map_append, hc.references, hlength, List.range_succ]
      rfl
  owner := by
    intro reference operation hget
    obtain ⟨before, hbefore, hturn⟩ | ⟨body, rfl, -, rfl, rfl, rfl⟩ := h.turn_back hget
    · obtain ⟨message, hmem, howns⟩ := hc.owner reference before hbefore
      exact ⟨message, List.mem_append_left _ hmem, hturn.owns howns⟩
    · exact ⟨s.post body, List.mem_append_right _ (List.mem_singleton_self _), rfl⟩

theorem custody_of_moved {actorId : ChildId} {F : Flow M} {s : MailboxSystem M}
    (h : Moved (.new actorId) F s) : Custody F s := by
  induction h with
  | refl =>
    refine ⟨rfl, ?_⟩
    intro reference operation hget
    simp [MailboxSystem.new, MailboxCell.new] at hget
  | tail _ hmove ih => exact ih.moves hmove

/-- An operation was created for one message. -/
theorem Custody.message_unique {F : Flow M} {s : MailboxSystem M} (hc : Custody F s)
    {reference : OperationRef} {m m' : Posted M} (hm : (reference, m) ∈ F.parked)
    (hm' : (reference, m') ∈ F.parked) : m = m' := by
  have hnodup : (F.parked.map Prod.fst).Nodup := hc.references ▸ List.nodup_range
  exact congrArg Prod.snd (List.inj_on_of_nodup_map hnodup hm hm' rfl)

end Shelterwood
