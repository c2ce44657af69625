/-
Shelterwood/MailboxWaiters.lean

Registrations and the evidence of parked senders.

Waiter ids are minted only when an operation is created, so the operation at
position `r` has id `r + 1` and no id is used twice.  While the mailbox is live
an operation waits exactly if its id is in the waiter queue (`Enrolled`).  A
terminal transition detaches the queue; from then on a waiting operation is in
the detached queue or is the one being discharged (`Detached`), and withdrawal
and discharge race for it.

The evidence of a parked sender is the newest incarnation bound since it parked,
or else the one bound when it parked.
-/
import Shelterwood.MailboxOperations

namespace Shelterwood

variable {M : Type*}

/-! ### Registrations -/

/-- A live waiter queue and its operations. -/
structure Enrolled (waiters : WaiterQueue) (operations : List (SendOperation M)) : Prop where
  /-- Ids are minted with the operations. -/
  ids : waiters.ids.current = operations.length
  entry : ∀ id reference, waiters.entries.get? id = some reference →
    id = reference + 1 ∧ reference < operations.length
  /-- Waiting operations are in the queue, and only they are. -/
  waiting : ∀ reference operation, operations[reference]? = some operation →
    (operation.isWaiting = true ↔ waiters.entries.get? (reference + 1) = some reference)
  registered : ∀ reference operation, operations[reference]? = some operation →
    operation.registration = if operation.isWaiting then some (reference + 1) else none
  /-- Only a teardown terminates operations. -/
  unterminated : ∀ (reference : OperationRef) (operation : SendOperation M),
    operations[reference]? = some operation →
    ∀ message finalIncarnation, operation.outcome ≠ .terminated message finalIncarnation

/-- A detached waiter queue, the waiter popped from it, and the operations. -/
structure Detached (waiters : WaiterQueue) (discharging : Option OperationRef)
    (operations : List (SendOperation M)) : Prop where
  entry : ∀ id reference, waiters.entries.get? id = some reference →
    id = reference + 1 ∧ reference < operations.length
  popped : ∀ reference, discharging = some reference →
    waiters.entries.get? (reference + 1) = none ∧ reference < operations.length
  waiting : ∀ reference operation, operations[reference]? = some operation →
    operation.isWaiting = true →
      waiters.entries.get? (reference + 1) = some reference ∨ discharging = some reference
  registered : ∀ reference operation, operations[reference]? = some operation →
    operation.registration =
      if operation.isWaiting ∧ discharging ≠ some reference then some (reference + 1) else none

/-- Registrations in a live or a terminal mailbox. -/
def Registered (s : MailboxSystem M) : Prop :=
  (s.cell.state.phase.isTerminal = false ∧ s.teardown = none ∧ s.discharging = none ∧
      Enrolled s.cell.state.waiters s.cell.operations) ∨
    (s.cell.state.phase.isTerminal = true ∧ s.cell.state.waiters.isEmpty = true ∧
      ∃ termination, s.teardown = some termination ∧
        Detached termination.waiters s.discharging s.cell.operations)

theorem WaiterQueue.get?_of_isEmpty {waiters : WaiterQueue} (h : waiters.isEmpty = true)
    (id : WaiterId) : waiters.entries.get? id = none := by
  rw [isEmpty, OrdMap.isEmpty_iff] at h
  rw [OrdMap.get?, h]
  rfl

/-- Popping removes the entry with the least id. -/
theorem WaiterQueue.popFront_erase {waiters rest : WaiterQueue} {reference : OperationRef}
    (h : waiters.popFront = some (reference, rest)) :
    ∃ id, waiters.entries.get? id = some reference ∧
      rest = { waiters with entries := waiters.entries.erase id } ∧
      ∀ id' reference', waiters.entries.get? id' = some reference' → id ≤ id' := by
  have hsorted := waiters.entries.sorted
  unfold popFront at h
  cases hentries : waiters.entries.entries with
  | nil => simp [hentries] at h
  | cons entry tail =>
    simp only [hentries, List.head?_cons] at h
    cases h
    rw [hentries] at hsorted
    refine ⟨entry.1, OrdMap.get?_eq_some_iff.mpr (by simp [hentries]), rfl, ?_⟩
    intro id' reference' hget
    have hmem := OrdMap.get?_eq_some_iff.mp hget
    rw [hentries] at hmem
    obtain heq | htail := List.mem_cons.mp hmem
    · exact le_of_eq (congrArg Prod.fst heq).symm
    · exact le_of_lt ((List.pairwise_cons.mp hsorted).1 _ htail)

namespace Enrolled

variable {waiters : WaiterQueue} {operations : List (SendOperation M)}

variable {reference : OperationRef} {operation : SendOperation M}

/-- The queue says nothing about an operation that does not wait. -/
theorem get?_eq_none (h : Enrolled waiters operations)
    (hget : operations[reference]? = some operation) (hsettled : operation.isWaiting = false) :
    waiters.entries.get? (reference + 1) = none := by
  cases hentry : waiters.entries.get? (reference + 1) with
  | none => rfl
  | some other =>
    obtain rfl : reference = other := Nat.succ.inj (h.entry _ _ hentry).1
    rw [(h.waiting _ _ hget).mpr hentry] at hsettled
    cases hsettled

/-- Pointwise changes that keep waiting and registration. -/
theorem congr {operations' : List (SendOperation M)} (h : Enrolled waiters operations)
    (hlength : operations'.length = operations.length)
    (hpoint : ∀ (reference : OperationRef) (operation' : SendOperation M),
      operations'[reference]? = some operation' →
        ∃ operation, operations[reference]? = some operation ∧
        operation'.isWaiting = operation.isWaiting ∧
        operation'.registration = operation.registration ∧
        (∀ message f, operation'.outcome = .terminated message f →
          operation.outcome = .terminated message f)) :
    Enrolled waiters operations' where
  ids := h.ids.trans hlength.symm
  entry := by
    intro id reference hget
    rw [hlength]
    exact h.entry id reference hget
  waiting := by
    intro reference operation' hget
    obtain ⟨operation, hbefore, hwaiting, -, -⟩ := hpoint reference operation' hget
    rw [hwaiting]
    exact h.waiting reference operation hbefore
  registered := by
    intro reference operation' hget
    obtain ⟨operation, hbefore, hwaiting, hregistration, -⟩ := hpoint reference operation' hget
    rw [hwaiting, hregistration]
    exact h.registered reference operation hbefore
  unterminated := by
    intro reference operation' hget message f houtcome
    obtain ⟨operation, hbefore, -, -, hterminated⟩ := hpoint reference operation' hget
    exact h.unterminated reference operation hbefore message f (hterminated message f houtcome)

theorem rewake (h : Enrolled waiters operations) (hget : operations[reference]? = some operation)
    (waker : Option Waker) :
    Enrolled waiters (operations.set reference { operation with waker }) := by
  refine h.congr List.length_set ?_
  intro r o hr
  obtain ⟨rfl, rfl⟩ | ⟨-, hr⟩ := getElem?_set_cases hr
  · exact ⟨operation, hget, rfl, rfl, fun _ _ h => h⟩
  · exact ⟨o, hr, rfl, rfl, fun _ _ h => h⟩

/-- Observing an incarnation moves nobody. -/
theorem observe (h : Enrolled waiters operations) (incarnation : Incarnation) :
    Enrolled waiters (waiters.entries.entries.foldl
      (fun operations entry => operations.modify entry.2 (SendOperation.observe incarnation))
      operations) := by
  refine h.congr (length_foldl_modify _ _ _) ?_
  intro r o hr
  have hlt : r < operations.length := by
    have hlt := (List.getElem?_eq_some_iff.mp hr).1
    rwa [length_foldl_modify] at hlt
  have hbefore := List.getElem?_eq_getElem hlt
  refine ⟨_, hbefore, ?_⟩
  obtain ⟨-, hafter⟩ | ⟨-, hafter⟩ := getElem?_foldl_modify
    (SendOperation.observe_observe incarnation) waiters.entries.entries hbefore
  · obtain rfl := Option.some.inj (hafter.symm.trans hr)
    refine ⟨SendOperation.observe_isWaiting _ _, SendOperation.observe_registration _ _, ?_⟩
    generalize operations[r] = operation
    intro message f hterminated
    cases houtcome : operation.outcome <;> simp_all [SendOperation.observe]
  · obtain rfl := Option.some.inj (hafter.symm.trans hr)
    exact ⟨rfl, rfl, fun _ _ h => h⟩

/-- An operation leaves the queue and stops waiting. -/
theorem settle (h : Enrolled waiters operations) (hget : operations[reference]? = some operation)
    (after : SendOperation M) (hsettled : after.isWaiting = false)
    (hregistration : after.registration = none)
    (hterminated : ∀ message f, after.outcome ≠ .terminated message f) :
    Enrolled { waiters with entries := waiters.entries.erase (reference + 1) }
      (operations.set reference after) := by
  constructor
  · simpa using h.ids
  · intro id r hentry
    rw [OrdMap.get?_erase] at hentry
    split_ifs at hentry
    simpa using h.entry id r hentry
  · intro r o hr
    obtain ⟨rfl, rfl⟩ | ⟨hne, hr⟩ := getElem?_set_cases hr
    · simp [hsettled, OrdMap.get?_erase]
    · rw [h.waiting r o hr, OrdMap.get?_erase, if_neg (by simpa using hne)]
  · intro r o hr
    obtain ⟨rfl, rfl⟩ | ⟨-, hr⟩ := getElem?_set_cases hr
    · simp [hsettled, hregistration]
    · exact h.registered r o hr
  · intro r o hr
    obtain ⟨rfl, rfl⟩ | ⟨-, hr⟩ := getElem?_set_cases hr
    · exact hterminated
    · exact h.unterminated r o hr

/-- A fresh operation joins the queue. -/
theorem park (h : Enrolled waiters operations) (message : M) (observed : Option Incarnation) :
    Enrolled
      ⟨waiters.entries.insert (waiters.ids.current + 1) operations.length,
        ⟨waiters.ids.current + 1⟩⟩
      (operations ++ [.new message observed (some (waiters.ids.current + 1))]) := by
  have happend : ∀ r o,
      (operations ++ [SendOperation.new message observed (some (waiters.ids.current + 1))])[r]? =
        some o → (r = operations.length ∧
          o = .new message observed (some (waiters.ids.current + 1))) ∨
        (r < operations.length ∧ operations[r]? = some o) := by
    intro r o hr
    by_cases hlt : r < operations.length
    · rw [List.getElem?_append_left hlt] at hr
      exact .inr ⟨hlt, hr⟩
    · rw [List.getElem?_append_right (Nat.le_of_not_lt hlt)] at hr
      have hlast : r - operations.length = 0 := by
        by_contra hne
        obtain ⟨n, hn⟩ := Nat.exists_eq_succ_of_ne_zero hne
        simp [hn] at hr
      rw [hlast] at hr
      exact .inl ⟨by omega, by simpa using hr.symm⟩
  have hids := h.ids
  constructor
  · simp [hids]
  · intro id r hentry
    rw [OrdMap.get?_insert] at hentry
    rw [List.length_append, List.length_singleton]
    split_ifs at hentry with hid
    · cases hentry
      exact ⟨hid.trans (by rw [hids]), Nat.lt_succ_self _⟩
    · obtain ⟨hid', hlt⟩ := h.entry id r hentry
      exact ⟨hid', Nat.lt_succ_of_lt hlt⟩
  · intro r o hr
    obtain ⟨rfl, rfl⟩ | ⟨hlt, hr⟩ := happend r o hr
    · simp [hids, SendOperation.new, SendOperation.isWaiting]
    · have hne : r + 1 ≠ waiters.ids.current + 1 := by
        rw [hids]
        exact fun heq => Nat.ne_of_lt hlt (Nat.succ.inj heq)
      rw [OrdMap.get?_insert, if_neg hne]
      exact h.waiting r o hr
  · intro r o hr
    obtain ⟨rfl, rfl⟩ | ⟨-, hr⟩ := happend r o hr
    · simp [hids, SendOperation.new, SendOperation.isWaiting]
    · exact h.registered r o hr
  · intro r o hr
    obtain ⟨rfl, rfl⟩ | ⟨-, hr⟩ := happend r o hr
    · simp [SendOperation.new]
    · exact h.unterminated r o hr

/-- A popped waiter is waiting. -/
theorem popped (h : Enrolled waiters operations) {rest : WaiterQueue}
    (hpop : waiters.popFront = some (reference, rest)) :
    ∃ operation, operations[reference]? = some operation ∧ operation.isWaiting = true ∧
      rest = { waiters with entries := waiters.entries.erase (reference + 1) } := by
  obtain ⟨id, hentry, rfl, -⟩ := WaiterQueue.popFront_erase hpop
  obtain ⟨rfl, hlt⟩ := h.entry id reference hentry
  obtain ⟨operation, hget⟩ : ∃ operation, operations[reference]? = some operation :=
    ⟨_, List.getElem?_eq_getElem hlt⟩
  exact ⟨operation, hget, (h.waiting _ _ hget).mpr hentry, rfl⟩

/-- Detaching the queue. -/
theorem detach (h : Enrolled waiters operations) : Detached waiters none operations where
  entry := h.entry
  popped := by simp
  waiting := fun reference operation hget hwaiting =>
    .inl ((h.waiting reference operation hget).mp hwaiting)
  registered := by
    intro reference operation hget
    rw [h.registered reference operation hget]
    simp

end Enrolled

namespace Detached

variable {waiters : WaiterQueue} {discharging : Option OperationRef}
  {operations : List (SendOperation M)}

variable {reference : OperationRef}

/-- Setting an operation that keeps its waiting and registration, or that stops
waiting with its registration cleared. -/
theorem set (h : Detached waiters discharging operations) {operation : SendOperation M}
    (hget : operations[reference]? = some operation) (after : SendOperation M)
    (hwaiting : after.isWaiting = true → operation.isWaiting = true)
    (hregistration : after.registration =
      if after.isWaiting ∧ discharging ≠ some reference then some (reference + 1) else none) :
    Detached waiters discharging (operations.set reference after) := by
  constructor
  · intro id r hentry
    simpa using h.entry id r hentry
  · intro r hr
    simpa using h.popped r hr
  · intro r o hr ho
    obtain ⟨rfl, rfl⟩ | ⟨-, hr⟩ := getElem?_set_cases hr
    · exact h.waiting r operation hget (hwaiting ho)
    · exact h.waiting r o hr ho
  · intro r o hr
    obtain ⟨rfl, rfl⟩ | ⟨-, hr⟩ := getElem?_set_cases hr
    · exact hregistration
    · exact h.registered r o hr

/-- The teardown pops a waiter and clears its registration. -/
theorem clear (h : Detached waiters none operations) {rest : WaiterQueue}
    (hpop : waiters.popFront = some (reference, rest)) :
    Detached rest (some reference)
      (operations.modify reference SendOperation.clearRegistration) := by
  obtain ⟨id, hentry, rfl, -⟩ := WaiterQueue.popFront_erase hpop
  obtain ⟨rfl, hlt⟩ := h.entry id reference hentry
  have hmodify : ∀ r o,
      (operations.modify reference SendOperation.clearRegistration)[r]? = some o →
      ∃ before, operations[r]? = some before ∧
        o = if reference = r then before.clearRegistration else before := by
    intro r o hr
    rw [List.getElem?_modify] at hr
    obtain ⟨before, hbefore, ho⟩ := Option.map_eq_some_iff.mp hr
    exact ⟨before, hbefore, ho.symm⟩
  constructor
  · intro id r hid
    rw [OrdMap.get?_erase] at hid
    split_ifs at hid
    simpa using h.entry id r hid
  · rintro r ⟨⟩
    exact ⟨by simp [OrdMap.get?_erase], by simpa using hlt⟩
  · intro r o hr ho
    obtain ⟨before, hbefore, rfl⟩ := hmodify r o hr
    by_cases hrr : reference = r
    · exact .inr (by rw [hrr])
    · rw [if_neg hrr] at ho
      refine .inl ?_
      rw [OrdMap.get?_erase, if_neg (by simpa using Ne.symm hrr)]
      exact (h.waiting r before hbefore ho).resolve_right (by simp)
  · intro r o hr
    obtain ⟨before, hbefore, rfl⟩ := hmodify r o hr
    by_cases hrr : reference = r
    · subst hrr
      simp [SendOperation.clearRegistration]
    · rw [if_neg hrr, h.registered r before hbefore]
      simp [hrr]

/-- The teardown decides the popped waiter. -/
theorem discharge (h : Detached waiters (some reference) operations)
    {operation after : SendOperation M} (hget : operations[reference]? = some operation)
    (hsettled : after.isWaiting = false)
    (hregistration : after.registration = operation.registration) :
    Detached waiters none (operations.set reference after) := by
  have hcleared : after.registration = none := by
    rw [hregistration, h.registered reference operation hget]
    simp
  have hset := h.set hget after (by simp [hsettled]) (by simp [hcleared])
  constructor
  · exact hset.entry
  · simp
  · intro r o hr ho
    obtain hentry | hpopped := hset.waiting r o hr ho
    · exact .inl hentry
    · cases hpopped
      obtain ⟨-, rfl⟩ | ⟨hne, -⟩ := getElem?_set_cases hr
      · rw [hsettled] at ho
        cases ho
      · exact absurd rfl hne
  · intro r o hr
    obtain ⟨rfl, rfl⟩ | ⟨hne, -⟩ := getElem?_set_cases hr
    · simp [hsettled, hcleared]
    · rw [hset.registered r o hr]
      simp [hne.symm]

end Detached

/-! ### Registrations under the moves -/

section Moves

variable {s t : MailboxSystem M} {f : Flow M}

variable {cell : MailboxCell M}

theorem MailboxCell.close_frame {incarnation : Incarnation}
    (h : cell.state.phase.observation = some incarnation) :
    (cell.close incarnation).2.cell.state.phase = .unbound ∧
      (cell.close incarnation).2.cell.state.waiters = cell.state.waiters ∧
      (cell.close incarnation).2.cell.state.lastBound = cell.state.lastBound := by
  rw [close, if_pos h]
  exact ⟨rfl, rfl, rfl⟩

variable {reference : OperationRef} {operation : SendOperation M}

theorem MailboxCell.withdraw_waiters_some (disposition : WithdrawalDisposition) {id : WaiterId}
    (h : operation.registration = some id) :
    (cell.withdraw reference operation disposition).2.state.waiters =
      { cell.state.waiters with entries := cell.state.waiters.entries.erase id } := by
  simp [withdraw, h, WaiterQueue.remove]

theorem MailboxCell.withdraw_waiters_none (disposition : WithdrawalDisposition)
    (h : operation.registration = none) :
    (cell.withdraw reference operation disposition).2.state.waiters = cell.state.waiters := by
  simp [withdraw, h]

/-- A withdrawal adds no waiter. -/
theorem MailboxCell.withdraw_isEmpty (disposition : WithdrawalDisposition)
    (h : cell.state.waiters.isEmpty = true) :
    (cell.withdraw reference operation disposition).2.state.waiters.isEmpty = true := by
  cases hregistration : operation.registration with
  | none => rw [withdraw_waiters_none disposition hregistration, h]
  | some id =>
    rw [WaiterQueue.isEmpty, OrdMap.isEmpty_iff] at h ⊢
    rw [withdraw_waiters_some disposition hregistration]
    simp [OrdMap.erase, h]

theorem Phase.eq_terminal {phase : Phase} (h : phase.isTerminal = true) :
    ∃ final, phase = .terminal final := by
  cases phase with
  | terminal final => exact ⟨final, rfl⟩
  | unbound | bound | frozen => cases h

/-- A terminal mailbox stays as it is: nobody is accepted, received or bound. -/
theorem Moves.terminal_absorbing (h : Moves s f t)
    (hterminal : s.cell.state.phase.isTerminal = true) :
    t.cell.state.phase = s.cell.state.phase ∧ f.accepted = [] ∧ f.received = [] ∧
      f.bound = [] := by
  obtain ⟨final, hphase⟩ := Phase.eq_terminal hterminal
  cases h with
  | park _ live | terminate live =>
    rw [live] at hterminal
    cases hterminal
  | accept _ _ phase | promote _ _ _ _ _ _ phase | skip _ _ _ _ phase | drop _ _ _ phase
  | bind _ phase | freeze _ phase => cases hphase.symm.trans phase
  | take binding mode envelope state phase =>
    obtain bound | frozen := phase
    · cases hphase.symm.trans bound
    · cases hphase.symm.trans frozen
  | close incarnation bound =>
    rw [hphase] at bound
    cases bound
  | refuse | retire | reclaim | rewake | configure | clear | discharge => exact ⟨rfl, rfl, rfl, rfl⟩

/-- A live mailbox keeps its registrations in order until it is terminated. -/
theorem Enrolled.moves (hlive : s.cell.state.phase.isTerminal = false)
    (hidle : s.teardown = none) (hfree : s.discharging = none)
    (h : Enrolled s.cell.state.waiters s.cell.operations) (hmove : Moves s f t) :
    Registered t := by
  cases hmove with
  | refuse | configure => exact .inl ⟨hlive, hidle, hfree, h⟩
  | park body live => exact .inl ⟨hlive, hidle, hfree, h.park _ _⟩
  | accept body binding bound idle room =>
    refine .inl ⟨?_, hidle, hfree, ?_⟩
    · show (MailboxState.push _ _ _).phase.isTerminal = false
      rw [MailboxState.push_phase, hlive]
    · show Enrolled (MailboxState.push _ _ _).waiters _
      rw [MailboxState.push_waiters]
      exact h
  | promote binding reference waiters operation message observed bound room pop get waiting =>
    obtain ⟨_, -, -, rfl⟩ := h.popped pop
    refine .inl ⟨?_, hidle, hfree, ?_⟩
    · rw [MailboxSystem.promoted_phase, hlive]
    · rw [MailboxSystem.promoted_waiters, MailboxSystem.promoted_operations]
      exact h.settle get _ rfl rfl (by simp)
  | skip binding reference waiters operation bound pop get settled =>
    -- the queue holds waiting operations only
    obtain ⟨operation', hget, hwaiting, -⟩ := h.popped pop
    obtain rfl := Option.some.inj (get.symm.trans hget)
    obtain ⟨message, observed, houtcome⟩ := SendOperation.isWaiting_iff.mp hwaiting
    exact absurd houtcome (settled message observed)
  | drop binding reference waiters bound pop get =>
    obtain ⟨operation', hget, -⟩ := h.popped pop
    rw [get] at hget
    cases hget
  | take binding mode envelope state phase taken =>
    obtain ⟨hphase, hwaiters, -⟩ := MailboxState.takeNext_frame taken
    refine .inl ⟨?_, hidle, hfree, ?_⟩
    · rw [hphase, hlive]
    · rw [hwaiters]
      exact h
  | retire reference operation disposition get =>
    refine .inl ⟨hlive, hidle, hfree, ?_⟩
    have hregistered := h.registered reference operation get
    have hsettled := h.settle get ⟨.retired, none, none⟩ rfl rfl (by simp)
    cases hwaiting : operation.isWaiting with
    | true =>
      rw [hwaiting, if_pos rfl] at hregistered
      show Enrolled (s.cell.withdraw reference operation disposition).2.state.waiters _
      rw [MailboxCell.withdraw_waiters_some disposition hregistered]
      exact hsettled
    | false =>
      rw [hwaiting, if_neg (by decide)] at hregistered
      show Enrolled (s.cell.withdraw reference operation disposition).2.state.waiters _
      rw [MailboxCell.withdraw_waiters_none disposition hregistered]
      have hsame : s.cell.state.waiters.entries.erase (reference + 1) =
          s.cell.state.waiters.entries := by
        apply OrdMap.ext_get?
        intro id
        rw [OrdMap.get?_erase]
        split_ifs with hid
        · rw [hid, h.get?_eq_none get hwaiting]
        · rfl
      rw [hsame] at hsettled
      exact hsettled
  | reclaim reference operation message finalIncarnation get terminated =>
    exact absurd terminated (h.unterminated reference operation get message finalIncarnation)
  | rewake reference operation waker get =>
    exact .inl ⟨hlive, hidle, hfree, h.rewake get waker⟩
  | bind binding unbound configured unclaimed =>
    exact .inl ⟨rfl, hidle, hfree, h.observe binding.incarnation⟩
  | freeze binding bound => exact .inl ⟨rfl, hidle, hfree, h⟩
  | close incarnation bound =>
    obtain ⟨hphase, hwaiters, -⟩ := MailboxCell.close_frame bound
    refine .inl ⟨?_, hidle, hfree, ?_⟩
    · show (s.cell.close incarnation).2.cell.state.phase.isTerminal = false
      rw [hphase]
      rfl
    · show Enrolled (s.cell.close incarnation).2.cell.state.waiters
        (s.cell.close incarnation).2.cell.operations
      rw [hwaiters, MailboxCell.close_operations]
      exact h
  | terminate live =>
    have hprepare : s.cell.prepareTermination.2 = { s.cell.takePayload.2 with
        state := { s.cell.takePayload.2.state with
          phase := .terminal s.cell.state.lastBound, waiters := .empty } } := by
      rw [MailboxCell.prepareTermination, if_neg (by simp [live])]
    refine .inr ⟨?_, ?_, _, rfl, ?_⟩
    · rw [hprepare]
      rfl
    · rw [hprepare]
      rfl
    · rw [MailboxCell.prepareTermination_operations, hfree]
      exact h.detach
  | clear _ _ _ teardown | discharge _ _ _ teardown =>
    rw [hidle] at teardown
    cases teardown

/-- In a terminal mailbox, withdrawal and discharge take turns. -/
theorem Detached.moves {termination : Termination}
    (hterminal : s.cell.state.phase.isTerminal = true)
    (hempty : s.cell.state.waiters.isEmpty = true) (hteardown : s.teardown = some termination)
    (h : Detached termination.waiters s.discharging s.cell.operations) (hmove : Moves s f t) :
    Registered t := by
  obtain ⟨final, hphase⟩ := Phase.eq_terminal hterminal
  cases hmove with
  | refuse | configure => exact .inr ⟨hterminal, hempty, termination, hteardown, h⟩
  | park _ live | terminate live =>
    rw [live] at hterminal
    cases hterminal
  | accept _ _ phase | promote _ _ _ _ _ _ phase | skip _ _ _ _ phase | drop _ _ _ phase
  | bind _ phase | freeze _ phase => cases hphase.symm.trans phase
  | take binding mode envelope state phase taken =>
    obtain bound | frozen := phase
    · cases hphase.symm.trans bound
    · cases hphase.symm.trans frozen
  | retire reference operation disposition get =>
    exact .inr ⟨hterminal, MailboxCell.withdraw_isEmpty disposition hempty, termination, hteardown,
      h.set get ⟨.retired, none, none⟩ (by simp [SendOperation.isWaiting])
        (by simp [SendOperation.isWaiting])⟩
  | reclaim reference operation message finalIncarnation get terminated =>
    have hregistered := h.registered reference operation get
    refine .inr ⟨hterminal, hempty, termination, hteardown, h.set get _ ?_ ?_⟩
    · simp [SendOperation.isWaiting]
    · simpa [SendOperation.isWaiting, terminated] using hregistered
  | rewake reference operation waker get =>
    exact .inr ⟨hterminal, hempty, termination, hteardown,
      h.set get _ (fun h => h) (h.registered reference operation get)⟩
  | close incarnation bound =>
    rw [hphase] at bound
    cases bound
  | clear termination' reference waiters teardown free pop =>
    obtain rfl := Option.some.inj (teardown.symm.trans hteardown)
    rw [free] at h
    exact .inr ⟨hterminal, hempty, _, rfl, h.clear pop⟩
  | discharge termination' reference operation teardown popped get =>
    obtain rfl := Option.some.inj (teardown.symm.trans hteardown)
    rw [popped] at h
    refine .inr ⟨hterminal, hempty, termination', hteardown, h.discharge get ?_ ?_⟩
    · cases houtcome : operation.outcome <;>
        simp [SendOperation.terminate, SendOperation.isWaiting, houtcome]
    · cases houtcome : operation.outcome <;> simp [SendOperation.terminate, houtcome]

theorem Registered.moves (h : Registered s) (hmove : Moves s f t) : Registered t := by
  obtain ⟨hlive, hidle, hfree, henrolled⟩ | ⟨hterminal, hempty, termination,
    hteardown, hdetached⟩ := h
  · exact henrolled.moves hlive hidle hfree hmove
  · exact hdetached.moves hterminal hempty hteardown hmove

theorem Registered.moved (h : Registered s) {F : Flow M} (hmoved : Moved s F t) : Registered t := by
  induction hmoved with
  | refl => exact h
  | tail _ hmove ih => exact ih.moves hmove

theorem registered_of_moved {actorId : ChildId} {F : Flow M} (h : Moved (.new actorId) F s) :
    Registered s := by
  refine Registered.moved ?_ h
  refine .inl ⟨rfl, rfl, rfl, rfl, ?_, ?_, ?_, ?_⟩ <;>
    simp [MailboxSystem.new, MailboxCell.new, WaiterQueue.empty]

end Moves

end Shelterwood
