/-
Shelterwood/MailboxEvidence.lean

The evidence a parked sender gets back.

A parked operation records the newest incarnation it has seen; a bind writes it
into every registered operation.  A withdrawal therefore reports the newest
incarnation bound since the sender parked, or the one bound when it parked
(`withdrawn_evidence`).  A teardown reports the last bound incarnation
(`LastBound`).  Withdrawal and teardown race for the waiters a terminal
transition detached, and each of them leaves `waiting` exactly once.
-/
import Shelterwood.MailboxWaiters

namespace Shelterwood

variable {M : Type*}

/-! ### The bindings of a run -/

section Bindings

variable {s t : MailboxSystem M} {f : Flow M}

/-- A move that binds nothing reports no new incarnation. -/
structure KeepsBinding (s : MailboxSystem M) (f : Flow M) (t : MailboxSystem M) : Prop where
  bound : f.bound = []
  last : t.cell.state.lastBound = s.cell.state.lastBound
  terminal : ∀ g, t.cell.state.phase = .terminal g →
    s.cell.state.phase = .terminal g ∨ g = s.cell.state.lastBound
  teardown : ∀ termination, t.teardown = some termination →
    termination.finalIncarnation = s.cell.state.lastBound ∨
      ∃ before, s.teardown = some before ∧
        termination.finalIncarnation = before.finalIncarnation
  observation : t.cell.state.phase.observation = s.cell.state.phase.observation ∨
    t.cell.state.phase.observation = none

/-- Most moves leave phase, last binding and teardown alone. -/
theorem KeepsBinding.of_frame (hbound : f.bound = [])
    (hphase : t.cell.state.phase = s.cell.state.phase)
    (hlast : t.cell.state.lastBound = s.cell.state.lastBound)
    (hteardown : t.teardown = s.teardown) : KeepsBinding s f t where
  bound := hbound
  last := hlast
  terminal := fun _ hg => .inl (hphase ▸ hg)
  teardown := fun termination ht => .inr ⟨termination, hteardown ▸ ht, rfl⟩
  observation := .inl (by rw [hphase])

theorem Moves.bound_cases (h : Moves s f t) :
    KeepsBinding s f t ∨
      ∃ binding, f.bound = [binding.incarnation] ∧ s.cell.state.phase = .unbound ∧
        t = s.bindNew binding := by
  cases h with
  | accept body binding bound idle room =>
    exact .inl (.of_frame rfl (MailboxState.push_phase _ _ _)
      (MailboxState.push_lastBound _ _ _) rfl)
  | promote => exact .inl (.of_frame rfl (by simp) (by simp) rfl)
  | take binding mode envelope state phase taken =>
    obtain ⟨hphase, -, -, hlast, -⟩ := MailboxState.takeNext_frame taken
    exact .inl (.of_frame rfl hphase hlast rfl)
  | bind binding unbound configured unclaimed => exact .inr ⟨binding, rfl, unbound, rfl⟩
  | freeze binding bound =>
    refine .inl ⟨rfl, rfl, by simp, fun termination ht => .inr ⟨termination, ht, rfl⟩, .inl ?_⟩
    rw [bound]
    rfl
  | close incarnation bound =>
    obtain ⟨hphase, -, hlast⟩ := MailboxCell.close_frame bound
    have hunbound : (s.setCell (s.cell.close incarnation).2.cell).cell.state.phase = .unbound :=
      hphase
    refine .inl ⟨rfl, hlast, ?_, fun termination ht => .inr ⟨termination, ht, rfl⟩, .inr ?_⟩
    · intro g hg
      rw [hunbound] at hg
      cases hg
    · rw [hunbound]
      rfl
  | terminate live =>
    have hprepare : s.cell.prepareTermination.2.state.phase = .terminal s.cell.state.lastBound ∧
        s.cell.prepareTermination.2.state.lastBound = s.cell.state.lastBound := by
      rw [MailboxCell.prepareTermination, if_neg (by simp [live])]
      exact ⟨rfl, rfl⟩
    refine .inl ⟨rfl, hprepare.2, ?_, ?_, .inr ?_⟩
    · intro g hg
      exact .inr (Phase.terminal.inj (hprepare.1.symm.trans hg)).symm
    · rintro termination ⟨⟩
      exact .inl rfl
    · rw [hprepare.1]
      rfl
  | clear termination reference waiters teardown free pop =>
    refine .inl ⟨rfl, rfl, fun _ hg => .inl hg, ?_, .inl rfl⟩
    rintro _ ⟨⟩
    exact .inr ⟨termination, teardown, rfl⟩
  | refuse | park | skip | drop | retire | reclaim | rewake | configure | discharge =>
    exact .inl (.of_frame rfl rfl rfl rfl)

end Bindings

/-- Terminal states report the last incarnation that was bound. -/
structure LastBound (F : Flow M) (s : MailboxSystem M) : Prop where
  last : s.cell.state.lastBound = F.bound.getLast?
  terminal : ∀ finalIncarnation, s.cell.state.phase = .terminal finalIncarnation →
    finalIncarnation = F.bound.getLast?
  teardown : ∀ termination, s.teardown = some termination →
    termination.finalIncarnation = F.bound.getLast?
  terminated : ∀ (reference : OperationRef) (operation : SendOperation (Posted M)),
    s.cell.operations[reference]? = some operation →
    ∀ message finalIncarnation, operation.outcome = .terminated message finalIncarnation →
      finalIncarnation = F.bound.getLast?

variable {f : Flow M} {s t : MailboxSystem M} {reference : OperationRef}
variable {finalIncarnation : Option Incarnation} {message : Posted M}
variable {operation : SendOperation (Posted M)}

/-- Only a turn of the teardown terminates an operation. -/
theorem Turn.terminated_cases {after : SendOperation (Posted M)}
    (h : Turn s f t reference operation after)
    (hafter : after.outcome = .terminated message finalIncarnation) :
    operation.outcome = .terminated message finalIncarnation ∨
      ∃ termination, s.teardown = some termination ∧
        finalIncarnation = termination.finalIncarnation := by
  cases h with
  | same | clear | rewake => exact .inl hafter
  | observe incarnation =>
    refine .inl ?_
    cases houtcome : operation.outcome <;> simp_all [SendOperation.observe]
  | accept | retire | reclaim => cases hafter
  | terminate message' observed termination waiting teardown =>
    obtain ⟨-, rfl⟩ := OperationOutcome.terminated.inj hafter
    exact .inr ⟨termination, teardown, rfl⟩

variable {F : Flow M}

theorem LastBound.moves (hs : Registered s) (h : LastBound F s) (hmove : Moves s f t) :
    LastBound (F ++ f) t := by
  obtain ⟨hbound, hlast, hterminal, hteardown, -⟩ | ⟨binding, hbound, hunbound, rfl⟩ :=
    hmove.bound_cases
  · have hkeep : (F ++ f).bound.getLast? = F.bound.getLast? := by
      rw [Flow.bound_append, hbound, List.append_nil]
    constructor
    · rw [hlast, hkeep, h.last]
    · intro g hg
      rw [hkeep]
      obtain hbefore | rfl := hterminal g hg
      · exact h.terminal g hbefore
      · exact h.last
    · intro termination ht
      rw [hkeep]
      obtain hlast | ⟨before, hbefore, hsame⟩ := hteardown termination ht
      · rw [hlast, h.last]
      · rw [hsame, h.teardown before hbefore]
    · intro reference operation hget message g hg
      rw [hkeep]
      obtain ⟨before, hbefore, hturn⟩ | ⟨body, -, -, -, -, rfl⟩ := hmove.turn_back hget
      · obtain hsame | ⟨termination, ht, rfl⟩ := hturn.terminated_cases hg
        · exact h.terminated reference before hbefore message g hsame
        · exact h.teardown termination ht
      · cases hg
  · -- a bind finds a live mailbox: nothing is terminal yet
    have hkeep : (F ++ f).bound.getLast? = some binding.incarnation := by
      rw [Flow.bound_append, hbound, List.getLast?_append]
      rfl
    obtain ⟨-, hidle, -, henrolled⟩ | ⟨hterminal, -⟩ := hs
    · constructor
      · rw [hkeep]
        rfl
      · intro g hg
        cases hg
      · intro termination ht
        rw [show (s.bindNew binding).teardown = s.teardown from rfl, hidle] at ht
        cases ht
      · intro reference operation hget message g hg
        obtain ⟨before, hbefore, hturn⟩ | ⟨body, rfl, -⟩ := hmove.turn_back hget
        · obtain hsame | ⟨termination, ht, -⟩ := hturn.terminated_cases hg
          · exact absurd hsame (henrolled.unterminated reference before hbefore message g)
          · rw [hidle] at ht
            cases ht
        · cases hbound
    · rw [hunbound] at hterminal
      cases hterminal

variable {actorId : ChildId}

theorem lastBound_of_moved (h : Moved (.new actorId) F s) : LastBound F s := by
  induction h with
  | refl =>
    refine ⟨rfl, ?_, ?_, ?_⟩
    · intro g hg
      cases hg
    · intro termination ht
      cases ht
    · intro reference operation hget
      simp [MailboxSystem.new, MailboxCell.new] at hget
  | tail hmoved hmove ih => exact ih.moves (registered_of_moved hmoved) hmove

/-! ### What a parked sender has seen -/

/-- An operation that has seen no incarnation waits at an unbound mailbox. -/
def Seen (s : MailboxSystem M) : Prop :=
  ∀ (reference : OperationRef) (operation : SendOperation (Posted M)),
    s.cell.operations[reference]? = some operation →
    ∀ message, operation.outcome = .waiting message none → s.cell.state.phase.observation = none

variable {observed : Option Incarnation}

/-- How a waiting operation's evidence changes in a move. -/
theorem Turn.waiting_cases {after : SendOperation (Posted M)}
    (h : Turn s f t reference operation after)
    (hafter : after.outcome = .waiting message observed) :
    (operation.outcome = .waiting message observed ∧
        (f.bound = [] ∨ ∀ id, s.cell.state.waiters.entries.get? id ≠ some reference)) ∨
      (operation.isWaiting = true ∧ ∃ incarnation, f.bound = [incarnation] ∧
        observed = some incarnation) := by
  cases h with
  | same unseen => exact .inl ⟨hafter, unseen⟩
  | observe incarnation bound =>
    refine .inr ?_
    cases houtcome : operation.outcome <;>
      simp_all [SendOperation.observe, SendOperation.isWaiting]
  | accept | retire | reclaim | terminate => cases hafter
  | clear unbound | rewake _ unbound => exact .inl ⟨hafter, .inl unbound⟩

/-- A bind passes over no waiting operation. -/
theorem Registered.seen_by_bind (hs : Registered s) (hmove : Moves s f t)
    (hget : s.cell.operations[reference]? = some operation) (hwaiting : operation.isWaiting = true)
    (hunseen : ∀ id, s.cell.state.waiters.entries.get? id ≠ some reference) : f.bound = [] := by
  obtain ⟨hbound, -⟩ | ⟨binding, -, hunbound, -⟩ := hmove.bound_cases
  · exact hbound
  · obtain ⟨-, -, -, henrolled⟩ | ⟨hterminal, -⟩ := hs
    · exact absurd ((henrolled.waiting reference operation hget).mp hwaiting) (hunseen _)
    · rw [hunbound] at hterminal
      cases hterminal

theorem Seen.moves (hs : Registered s) (h : Seen s) (hmove : Moves s f t) : Seen t := by
  intro reference operation hget message hwaiting
  obtain ⟨before, hbefore, hturn⟩ | ⟨body, -, -, rfl, -, rfl⟩ := hmove.turn_back hget
  · obtain ⟨hsame, hunseen⟩ | ⟨-, incarnation, -, hnone⟩ := hturn.waiting_cases hwaiting
    · have hbound : f.bound = [] := by
        obtain hbound | hunseen := hunseen
        · exact hbound
        · exact hs.seen_by_bind hmove hbefore
            (SendOperation.isWaiting_iff.mpr ⟨message, none, hsame⟩) hunseen
      obtain ⟨-, -, -, -, hkeep | hnone⟩ | ⟨binding, hbind, -⟩ := hmove.bound_cases
      · rw [hkeep]
        exact h reference before hbefore message hsame
      · exact hnone
      · rw [hbound] at hbind
        cases hbind
    · cases hnone
  · -- the fresh operation has seen what the mailbox was bound to
    exact (OperationOutcome.waiting.inj hwaiting).2

theorem seen_of_moved (h : Moved (.new actorId) F s) : Seen s := by
  induction h with
  | refl =>
    intro reference operation hget
    simp [MailboxSystem.new, MailboxCell.new] at hget
  | tail hmoved hmove ih => exact ih.moves (registered_of_moved hmoved) hmove

/-- The evidence of an operation is the newest incarnation bound in the stretch,
or else the evidence it started with. -/
theorem evidence_of_moved {G : Flow M} (hs : Registered s)
    (hget : s.cell.operations[reference]? = some operation)
    (hobserved : ∀ message o, operation.outcome = .waiting message o → o = observed)
    (h : Moved s G t) :
    Registered t ∧ ∃ after, t.cell.operations[reference]? = some after ∧
      ∀ message o, after.outcome = .waiting message o → o = G.bound.getLast?.or observed := by
  induction h with
  | refl => exact ⟨hs, operation, hget, by simpa using hobserved⟩
  | @tail G g t u _ hmove ih =>
    obtain ⟨ht, before, hbefore, hevidence⟩ := ih
    obtain ⟨after, hafter, hturn⟩ := hmove.turn hbefore
    refine ⟨ht.moves hmove, after, hafter, ?_⟩
    intro message o hwaiting
    obtain ⟨hsame, hunseen⟩ | ⟨-, incarnation, hbound, rfl⟩ := hturn.waiting_cases hwaiting
    · have hbound : g.bound = [] := by
        obtain hbound | hunseen := hunseen
        · exact hbound
        · exact ht.seen_by_bind hmove hbefore
            (SendOperation.isWaiting_iff.mpr ⟨message, o, hsame⟩) hunseen
      rw [Flow.bound_append, hbound, List.append_nil]
      exact hevidence message o hsame
    · rw [Flow.bound_append, hbound, List.getLast?_append]
      rfl

/-! ### Ids -/

/-- The ids a section registered new operations under. -/
def MailboxEdge.registrations (e : MailboxEdge M) : List WaiterId :=
  e.parked.flatMap fun p => ((e.after.cell.operations[p.1]?).bind SendOperation.registration).toList

/-- The operation at position `r` is registered under `r + 1`. -/
theorem registrations_eq_parked {e : MailboxEdge M} (h : IsMailboxEdge e)
    (hs : Registered e.before) : e.registrations = e.parked.map fun p => p.1 + 1 := by
  obtain ⟨s, step, o, t⟩ := e
  cases step with
  | submit body =>
    obtain ⟨-, message, rfl⟩ | ⟨submission, txn, hsubmit, rfl, rfl⟩ := submit_edge h
    · rfl
    · cases hsubmit with
      | refused | accepted => rfl
      | parked live =>
        obtain ⟨-, -, -, henrolled⟩ | ⟨hterminal, -⟩ := hs
        · have hnew : (s.cell.parkNew (s.post body)).operations[s.cell.operations.length]? =
              some (.new (s.post body) s.cell.state.phase.observation
                (some (s.cell.state.waiters.ids.current + 1))) := List.getElem?_concat_length
          have hids : s.cell.state.waiters.ids.current = s.cell.operations.length :=
            henrolled.ids
          simp [MailboxEdge.registrations, MailboxEdge.parked, hnew, SendOperation.new, hids]
        · rw [live] at hterminal
          cases hterminal
  | trySend | poll | withdraw | receive | acceptedSequence | currentObservation | configure | bind
  | freeze | close | prepareTermination | clearRegistration | terminate => rfl

theorem registrations_eq_range {tr : List (MailboxEdge M)} (h : MailboxRun actorId tr s) :
    tr.flatMap MailboxEdge.registrations =
      (List.range s.cell.operations.length).map fun r => r + 1 := by
  have hparked : tr.flatMap MailboxEdge.registrations =
      (tr.flatMap MailboxEdge.parked).map fun p => p.1 + 1 := by
    refine h.history rfl ?_
    intro pre e hpre he _ ih
    rw [List.flatMap_append, List.flatMap_append, List.map_append, ih]
    simp [registrations_eq_parked he (registered_of_moved (moved_of_run hpre))]
  have hreferences := (custody_of_moved (moved_of_run h)).references
  rw [hparked, ← hreferences, List.map_map]
  rfl

/-! ### Withdrawals -/

/-- Only its owner retires an operation. -/
theorem retired_of_moved (h : Moved (.new actorId) F s)
    (hget : s.cell.operations[reference]? = some operation)
    (hretired : operation.outcome = .retired) : reference ∈ F.taken := by
  induction h generalizing operation with
  | refl => simp [MailboxSystem.new, MailboxCell.new] at hget
  | @tail F f s t _ hmove ih =>
    rw [Flow.taken_append, List.mem_append]
    obtain ⟨before, hbefore, hturn⟩ | ⟨body, -, -, -, -, rfl⟩ := hmove.turn_back hget
    · cases hturn with
      | same | clear | rewake => exact .inl (ih hbefore hretired)
      | observe incarnation =>
        refine .inl (ih hbefore ?_)
        cases houtcome : before.outcome <;> simp_all [SendOperation.observe]
      | accept => cases hretired
      | retire _ taken | reclaim _ _ _ _ taken => exact .inr (taken ▸ List.mem_singleton_self _)
      | terminate => cases hretired
    · cases hretired

section Withdraw

variable {cell : MailboxCell M} {reference : OperationRef} {operation : SendOperation M}
  {disposition : WithdrawalDisposition}

theorem MailboxCell.withdraw_withdrawnOnce :
    (cell.withdraw reference operation disposition).1.withdrawnOnce = true ↔
      operation.outcome ≠ .retired := by
  cases houtcome : operation.outcome <;> simp [withdraw, houtcome]

/-- A registration that is not in the queue was detached by the teardown. -/
theorem MailboxCell.withdraw_detachedOnlyByTeardown
    (h : cell.state.phase.isTerminal = true ∨ ∀ id, operation.registration = some id →
      (cell.state.waiters.entries.get? id).isSome = true) :
    (cell.withdraw reference operation disposition).1.detachedOnlyByTeardown = true := by
  obtain hterminal | hregistered := h
  · simp [withdraw, hterminal]
  · cases hregistration : operation.registration with
    | none => simp [withdraw, hregistration]
    | some id =>
      have hentry := hregistered id hregistration
      simp [withdraw, hregistration, WaiterQueue.remove, hentry]

theorem MailboxCell.withdraw_outcome {message : M} {observed : Option Incarnation}
    (h : (cell.withdraw reference operation disposition).1.outcome =
      some (.withdrawn message observed)) :
    ∃ newest, operation.outcome = .waiting message newest ∧
      observed = newest.or cell.state.phase.observation := by
  cases houtcome : operation.outcome <;> simp [withdraw, houtcome] at h
  obtain ⟨rfl, rfl⟩ := h
  exact ⟨_, rfl, rfl⟩

theorem MailboxCell.withdraw_terminated {message : M} {finalIncarnation : Option Incarnation}
    (h : (cell.withdraw reference operation disposition).1.outcome =
      some (.terminated message finalIncarnation)) :
    operation.outcome = .terminated message finalIncarnation := by
  cases houtcome : operation.outcome <;> simp [withdraw, houtcome] at h
  obtain ⟨rfl, rfl⟩ := h
  rfl

end Withdraw

/-- What a withdrawn sender is told: the newest incarnation bound since it
parked, or the one bound when it parked. -/
theorem withdrawn_evidence {pre mid : List (MailboxEdge M)} {p w : MailboxEdge M}
    (hpre : MailboxRun actorId pre p.before) (hp : IsMailboxEdge p)
    (hmid : Run IsMailboxEdge p.after mid w.before) (hw : IsMailboxEdge w) {m : Posted M}
    {disposition : WithdrawalDisposition} {withdrawal : Withdrawal (Posted M)}
    (hparked : p.parked = [(reference, m)]) (hinput : w.input = .withdraw reference disposition)
    (hresult : w.output.result = .withdrawn withdrawal)
    (houtcome : withdrawal.outcome = some (.withdrawn message observed)) :
    observed = (flows mid).bound.getLast?.or p.before.cell.state.phase.observation := by
  have hmoved := moved_of_run (hpre.snoc hp)
  have hbefore : Moved (.new actorId) (flows (pre ++ [p]) ++ flows mid) w.before :=
    hmoved.trans (moved_of_run hmid)
  -- the operation starts with what the mailbox was bound to
  have hnew : ∃ operation, p.after.cell.operations[reference]? = some operation ∧
      ∀ message o, operation.outcome = .waiting message o →
        o = p.before.cell.state.phase.observation := by
    obtain ⟨s, step, o, t⟩ := p
    cases step with
    | submit body =>
      obtain ⟨-, message, rfl⟩ | ⟨submission, txn, hsubmit, rfl, rfl⟩ := submit_edge hp
      · cases hparked
      · cases hsubmit with
        | refused | accepted => cases hparked
        | parked =>
          obtain ⟨rfl, rfl⟩ : s.cell.operations.length = reference ∧ s.post body = m := by
            simpa [MailboxEdge.parked] using hparked
          refine ⟨_, List.getElem?_concat_length, ?_⟩
          intro message o hwaiting
          exact (OperationOutcome.waiting.inj hwaiting).2.symm
    | trySend | poll | withdraw | receive | acceptedSequence | currentObservation | configure
    | bind | freeze | close | prepareTermination | clearRegistration | terminate => cases hparked
  obtain ⟨operation, hget, hobserved⟩ := hnew
  obtain ⟨-, after, hafter, hevidence⟩ := evidence_of_moved (registered_of_moved hmoved) hget
    hobserved (moved_of_run hmid)
  obtain ⟨s, step, o, t⟩ := w
  obtain rfl : step = _ := hinput
  obtain ⟨operation', hget', -, rfl⟩ := withdraw_edge hw
  obtain rfl := Option.some.inj (hafter.symm.trans hget')
  obtain rfl : (s.cell.withdraw reference after disposition).1 = withdrawal :=
    MailboxResult.withdrawn.inj hresult
  obtain ⟨newest, hwaiting, rfl⟩ := MailboxCell.withdraw_outcome houtcome
  rw [← hevidence message newest hwaiting]
  cases newest with
  | some incarnation => rfl
  | none =>
    have hseen := seen_of_moved hbefore reference after hafter message hwaiting
    exact hseen

/-- A section told a sender that the mailbox terminated, with this last
incarnation. -/
def MailboxEdge.ReportsTerminated (e : MailboxEdge M) (finalIncarnation : Option Incarnation) :
    Prop :=
  match e.input, e.output.result with
  | .submit _, .submitted (.terminated _ f) => f = finalIncarnation
  | .trySend _, .sent (.error error) =>
    error.kind = .terminated ∧ error.incarnationObserved = finalIncarnation
  | .poll _ _ _, .polled (some (.terminated _ f)) => f = finalIncarnation
  | .withdraw _ _, .withdrawn withdrawal =>
    ∃ message, withdrawal.outcome = some (.terminated message finalIncarnation)
  | _, _ => False

theorem lastBound_of_reportsTerminated {e : MailboxEdge M} (h : IsMailboxEdge e)
    (hlast : LastBound F e.before) (hr : e.ReportsTerminated finalIncarnation) :
    finalIncarnation = F.bound.getLast? := by
  obtain ⟨s, step, o, t⟩ := e
  cases step with
  | submit body =>
    obtain ⟨-, message, rfl⟩ | ⟨submission, txn, hsubmit, rfl, rfl⟩ := submit_edge h
    · cases hr
    · cases hsubmit with
      | refused f terminal =>
        obtain rfl : f = finalIncarnation := hr
        exact hlast.terminal f terminal
      | parked | accepted => cases hr
  | trySend body =>
    obtain ⟨-, message, rfl⟩ | ⟨result, txn, hsend, rfl, rfl⟩ := trySend_edge h
    · cases hr
    · cases hsend with
      | refused observed kind why =>
        obtain ⟨rfl, rfl⟩ : kind = .terminated ∧ observed = finalIncarnation := hr
        obtain ⟨-, hphase⟩ | ⟨⟨⟩, -⟩ | ⟨⟨⟩, -⟩ := why
        exact hlast.terminal observed hphase
      | accepted => cases hr
  | poll reference replacement current =>
    obtain ⟨operation, hget, ⟨-, message, rfl⟩ | ⟨result, after, wakers, hpoll, rfl, rfl⟩⟩ :=
      poll_edge h
    · cases hr
    · cases hpoll with
      | registered | undecided | pending | needsWakerClone | accepted => cases hr
      | @terminated message f outcome =>
        obtain rfl : f = finalIncarnation := hr
        exact hlast.terminated reference operation hget message f outcome
  | withdraw reference disposition =>
    obtain ⟨operation, hget, rfl, rfl⟩ := withdraw_edge h
    obtain ⟨message, houtcome⟩ := hr
    exact hlast.terminated reference operation hget message finalIncarnation
      (MailboxCell.withdraw_terminated houtcome)
  | receive | acceptedSequence | currentObservation | configure | bind | freeze | close
  | prepareTermination | clearRegistration | terminate => cases hr

/-! ### The teardown -/

namespace MailboxSystem

/-- Whether the operation at a reference waits. -/
def waits (s : MailboxSystem M) (reference : OperationRef) : Bool :=
  (s.cell.operations[reference]?).any SendOperation.isWaiting

/-- The teardown has decided every detached waiter. -/
def Discharged (s : MailboxSystem M) : Prop :=
  s.discharging = none ∧ ∃ termination, s.teardown = some termination ∧
    termination.waiters.isEmpty = true

end MailboxSystem

/-- The section in which an operation stops waiting. -/
def MailboxEdge.leaves (reference : OperationRef) (e : MailboxEdge M) : Bool :=
  e.before.waits reference && !e.after.waits reference

/-- The section withdraws a waiting operation. -/
def MailboxEdge.Withdraws (e : MailboxEdge M) (reference : OperationRef) : Prop :=
  match e.input, e.output.result with
  | .withdraw r _, .withdrawn withdrawal =>
    r = reference ∧ ∃ message observed, withdrawal.outcome = some (.withdrawn message observed)
  | _, _ => False

/-- The operation at a reference is terminated. -/
def MailboxSystem.Terminated (s : MailboxSystem M) (reference : OperationRef) : Prop :=
  ∃ operation message finalIncarnation, s.cell.operations[reference]? = some operation ∧
    operation.outcome = .terminated message finalIncarnation

section Teardown

variable {s t : MailboxSystem M} {G : Flow M} {reference : OperationRef}

/-- Nobody starts waiting twice. -/
theorem waits_back (h : Moved s G t) (hlt : reference < s.cell.operations.length) :
    reference < t.cell.operations.length ∧
      (t.waits reference = true → s.waits reference = true) := by
  induction h with
  | refl => exact ⟨hlt, id⟩
  | @tail G g t u _ hmove ih =>
    obtain ⟨hlt', hback⟩ := ih
    obtain ⟨after, hafter, hturn⟩ := hmove.turn (List.getElem?_eq_getElem hlt')
    refine ⟨(List.getElem?_eq_some_iff.mp hafter).1, ?_⟩
    intro hwaits
    apply hback
    rw [MailboxSystem.waits, hafter, Option.any_some] at hwaits
    rw [MailboxSystem.waits, List.getElem?_eq_getElem hlt', Option.any_some]
    obtain ⟨message, observed, hwaiting⟩ := SendOperation.isWaiting_iff.mp hwaits
    obtain ⟨hsame, -⟩ | ⟨hsame, -⟩ := hturn.waiting_cases hwaiting
    · exact SendOperation.isWaiting_iff.mpr ⟨message, observed, hsame⟩
    · exact hsame

/-- An operation leaves `waiting` once, or still waits. -/
theorem leaves_count {tr : List (MailboxEdge M)} (h : Run IsMailboxEdge s tr t)
    (hlt : reference < s.cell.operations.length) :
    tr.countP (MailboxEdge.leaves reference) + (t.waits reference).toNat =
      (s.waits reference).toNat := by
  induction h with
  | nil s => simp
  | @cons e tr t he _ ih =>
    obtain ⟨hlt', hback⟩ := waits_back (moved_of_edge he) hlt
    cases hbefore : e.before.waits reference <;> cases hafter : e.after.waits reference <;>
      simp_all [MailboxEdge.leaves]

/-- In a terminal mailbox an operation whose owner does not take it back waits
or is terminated. -/
theorem terminated_of_moved (h : Moved s G t) (hterminal : s.cell.state.phase.isTerminal = true)
    (htaken : reference ∉ G.taken) (hwaits : s.waits reference = true) :
    t.cell.state.phase.isTerminal = true ∧ (t.waits reference = true ∨ t.Terminated reference) := by
  induction h with
  | refl => exact ⟨hterminal, .inl hwaits⟩
  | @tail G g t u _ hmove ih =>
    rw [Flow.taken_append, List.mem_append, not_or] at htaken
    obtain ⟨hterminal', hcase⟩ := ih htaken.1
    obtain ⟨hphase, haccepted, -, -⟩ := hmove.terminal_absorbing hterminal'
    refine ⟨hphase ▸ hterminal', ?_⟩
    -- one turn of an operation that waits or is terminated
    have hturn : ∀ operation after, Turn t g u reference operation after →
        u.cell.operations[reference]? = some after →
        (operation.isWaiting = true ∨
          ∃ message f, operation.outcome = .terminated message f) →
        u.waits reference = true ∨ u.Terminated reference := by
      intro operation after hturn hafter hcase
      have hwaits : after.isWaiting = true → u.waits reference = true := by
        intro hwaiting
        rw [MailboxSystem.waits, hafter, Option.any_some, hwaiting]
      have hterminated : ∀ message f, after.outcome = .terminated message f →
          u.Terminated reference := fun message f houtcome => ⟨after, message, f, hafter, houtcome⟩
      cases hturn with
      | same | clear | rewake =>
        exact hcase.imp hwaits fun ⟨message, f, h⟩ => hterminated message f h
      | observe incarnation =>
        obtain hwaiting | ⟨message, f, houtcome⟩ := hcase
        · exact .inl (hwaits (by rw [SendOperation.observe_isWaiting, hwaiting]))
        · exact .inr (hterminated message f (by simp [SendOperation.observe, houtcome]))
      | accept message observed acceptance waiting accepted =>
        rw [haccepted] at accepted
        cases accepted
      | retire _ taken | reclaim _ _ _ _ taken =>
        exact absurd (taken ▸ List.mem_singleton_self reference) htaken.2
      | terminate message observed termination => exact .inr (hterminated _ _ rfl)
    obtain hwaits' | ⟨operation, message, f, hget, houtcome⟩ := hcase
    · cases hget : t.cell.operations[reference]? with
      | none => simp [MailboxSystem.waits, hget] at hwaits'
      | some operation =>
        rw [MailboxSystem.waits, hget, Option.any_some] at hwaits'
        obtain ⟨after, hafter, hturned⟩ := hmove.turn hget
        exact hturn operation after hturned hafter (.inl hwaits')
    · obtain ⟨after, hafter, hturned⟩ := hmove.turn hget
      exact hturn operation after hturned hafter (.inr ⟨message, f, houtcome⟩)

/-- A detached waiter leaves `waiting` withdrawn or terminated. -/
theorem leaves_cases {e : MailboxEdge M} (h : IsMailboxEdge e)
    (hterminal : e.before.cell.state.phase.isTerminal = true)
    (hleaves : e.leaves reference = true) :
    e.Withdraws reference ∨ e.after.Terminated reference := by
  rw [MailboxEdge.leaves, Bool.and_eq_true, Bool.not_eq_true'] at hleaves
  obtain ⟨hwaits, hleft⟩ := hleaves
  by_cases htaken : reference ∈ e.taken
  · refine .inl ?_
    obtain ⟨s, step, o, t⟩ := e
    cases step with
    | poll r replacement current =>
      obtain ⟨operation, hget, ⟨-, message, rfl⟩ | ⟨result, after, wakers, hpoll, rfl, rfl⟩⟩ :=
        poll_edge h
      · cases htaken
      · cases hpoll with
        | registered | undecided | pending | needsWakerClone | accepted => cases htaken
        | terminated outcome =>
          -- a poll takes terminated messages only
          obtain rfl := List.mem_singleton.mp htaken
          simp [MailboxSystem.waits, hget, SendOperation.isWaiting, outcome] at hwaits
    | withdraw r disposition =>
      obtain ⟨operation, hget, rfl, rfl⟩ := withdraw_edge h
      obtain rfl := List.mem_singleton.mp htaken
      rw [MailboxSystem.waits, hget, Option.any_some] at hwaits
      obtain ⟨message, observed, houtcome⟩ := SendOperation.isWaiting_iff.mp hwaits
      refine ⟨rfl, message, observed.or s.cell.state.phase.observation, ?_⟩
      simp [MailboxCell.withdraw, houtcome]
    | submit | trySend | receive | acceptedSequence | currentObservation | configure | bind
    | freeze | close | prepareTermination | clearRegistration | terminate => cases htaken
  · obtain ⟨-, hwaits' | hterminated⟩ :=
      terminated_of_moved (moved_of_edge h) hterminal htaken hwaits
    · rw [hleft] at hwaits'
      cases hwaits'
    · exact .inr hterminated

/-- When the teardown is done nobody waits. -/
theorem Registered.waits_of_discharged (h : Registered s) (hdone : s.Discharged) :
    s.waits reference = false := by
  obtain ⟨hfree, termination, hteardown, hempty⟩ := hdone
  obtain ⟨-, hidle, -⟩ | ⟨-, -, termination', hteardown', hdetached⟩ := h
  · rw [hidle] at hteardown
    cases hteardown
  · obtain rfl := Option.some.inj (hteardown'.symm.trans hteardown)
    cases hget : s.cell.operations[reference]? with
    | none => simp [MailboxSystem.waits, hget]
    | some operation =>
      rw [MailboxSystem.waits, hget, Option.any_some, Bool.eq_false_iff]
      intro hwaiting
      obtain hentry | hpopped := hdetached.waiting reference operation hget hwaiting
      · rw [WaiterQueue.get?_of_isEmpty hempty] at hentry
        cases hentry
      · rw [hfree] at hpopped
        cases hpopped

variable {termination : Termination}

/-- The step that decides a popped waiter is enabled. -/
theorem terminate_enabled (h : Registered s) (hteardown : s.teardown = some termination)
    (hpopped : s.discharging = some reference) :
    ∃ t o, MailboxStep.apply s .terminate = some (t, o) ∧
      t.teardown = some termination ∧ t.discharging = none := by
  obtain ⟨-, hidle, -⟩ | ⟨-, -, termination', hteardown', hdetached⟩ := h
  · rw [hidle] at hteardown
    cases hteardown
  · have hget := List.getElem?_eq_getElem (hdetached.popped reference hpopped).2
    simp only [MailboxStep.apply, hteardown, hpopped, hget]
    exact ⟨_, _, rfl, hteardown, rfl⟩

/-- Steps of the teardown. -/
def TeardownRun (s : MailboxSystem M) (tr : List (MailboxEdge M)) (t : MailboxSystem M) : Prop :=
  Run IsMailboxEdge s tr t ∧ ∀ e ∈ tr, e.input = .clearRegistration ∨ e.input = .terminate

theorem TeardownRun.cons {step : MailboxStep M} {o : MailboxOutput M} {u : MailboxSystem M}
    {tr : List (MailboxEdge M)} (h : MailboxStep.apply s step = some (t, o))
    (hstep : step = .clearRegistration ∨ step = .terminate) (hrest : TeardownRun t tr u) :
    TeardownRun s (⟨s, step, o, t⟩ :: tr) u := by
  refine ⟨.cons (e := ⟨s, step, o, t⟩) h hrest.1, ?_⟩
  intro e he
  obtain rfl | he := List.mem_cons.mp he
  · exact hstep
  · exact hrest.2 e he

theorem Registered.step {step : MailboxStep M} {o : MailboxOutput M} (h : Registered s)
    (hstep : MailboxStep.apply s step = some (t, o)) : Registered t :=
  h.moved (moved_of_edge (e := ⟨s, step, o, t⟩) hstep)

/-- With nobody popped, the detached queue is discharged one by one. -/
theorem discharge_queue (n : ℕ) (h : Registered s) (hteardown : s.teardown = some termination)
    (hfree : s.discharging = none) (hlength : termination.waiters.entries.entries.length = n) :
    ∃ tr t, TeardownRun s tr t ∧ t.Discharged := by
  induction n generalizing s termination with
  | zero =>
    refine ⟨[], s, ⟨.nil s, by simp⟩, hfree, termination, hteardown, ?_⟩
    rw [WaiterQueue.isEmpty, OrdMap.isEmpty_iff]
    exact List.length_eq_zero_iff.mp hlength
  | succ n ih =>
    cases hpop : termination.waiters.popFront with
    | none =>
      rw [WaiterQueue.popFront_eq_none, WaiterQueue.isEmpty, OrdMap.isEmpty_iff] at hpop
      rw [hpop] at hlength
      cases hlength
    | some popped =>
      obtain ⟨reference, waiters⟩ := popped
      obtain ⟨id, hentries, -⟩ := WaiterQueue.popFront_eq_some hpop
      rw [hentries, List.length_cons] at hlength
      obtain ⟨s₁, o₁, hclear, hteardown₁, hpopped⟩ : ∃ t o,
          MailboxStep.apply s .clearRegistration = some (t, o) ∧
          t.teardown = some { termination with waiters } ∧ t.discharging = some reference := by
        simp only [MailboxStep.apply, hteardown, hfree, hpop]
        exact ⟨_, _, rfl, rfl, rfl⟩
      have h₁ := h.step hclear
      obtain ⟨s₂, o₂, hterminate, hteardown₂, hfree₂⟩ :=
        terminate_enabled h₁ hteardown₁ hpopped
      obtain ⟨tr, t, hrun, hdone⟩ := ih (h₁.step hterminate) hteardown₂ hfree₂
        (Nat.succ.inj hlength)
      exact ⟨_, t, .cons hclear (.inl rfl) (.cons hterminate (.inr rfl) hrun), hdone⟩

/-- **The teardown completes** by its own steps, whatever the others have done. -/
theorem teardown_completes (h : Registered s) (hteardown : s.teardown = some termination) :
    ∃ tr t, TeardownRun s tr t ∧ t.Discharged := by
  cases hpopped : s.discharging with
  | none => exact discharge_queue _ h hteardown hpopped rfl
  | some reference =>
    obtain ⟨s₁, o₁, hterminate, hteardown₁, hfree⟩ := terminate_enabled h hteardown hpopped
    obtain ⟨tr, t, hrun, hdone⟩ := discharge_queue _ (h.step hterminate) hteardown₁ hfree rfl
    exact ⟨_, t, .cons hterminate (.inr rfl) hrun, hdone⟩

end Teardown

theorem Moved.terminal_absorbing {G : Flow M} (h : Moved s G t)
    (hterminal : s.cell.state.phase.isTerminal = true) :
    t.cell.state.phase = s.cell.state.phase ∧ G.accepted = [] ∧ G.received = [] ∧
      G.bound = [] := by
  induction h with
  | refl => exact ⟨rfl, rfl, rfl, rfl⟩
  | @tail G g t u _ hmove ih =>
    obtain ⟨hphase, haccepted, hreceived, hbound⟩ := ih
    obtain ⟨hphase', haccepted', hreceived', hbound'⟩ :=
      hmove.terminal_absorbing (hphase ▸ hterminal)
    exact ⟨hphase'.trans hphase, by simp [haccepted, haccepted'],
      by simp [hreceived, hreceived'], by simp [hbound, hbound']⟩

/-- A terminal transition detaches its waiters without deciding them. -/
theorem prepareTermination_detaches {p : MailboxEdge M} (h : IsMailboxEdge p)
    (hinput : p.input = .prepareTermination)
    (hlive : p.before.cell.state.phase.isTerminal = false) :
    p.after.cell.state.phase.isTerminal = true ∧
      p.after.cell.operations = p.before.cell.operations := by
  obtain ⟨s, step, o, t⟩ := p
  obtain rfl : step = _ := hinput
  have hprepare : s.cell.prepareTermination = (some ⟨s.cell.takePayload.1,
      ⟨s.cell.state.waiters, s.cell.state.lastBound⟩⟩, { s.cell.takePayload.2 with
        state := { s.cell.takePayload.2.state with
          phase := .terminal s.cell.state.lastBound, waiters := .empty } }) := by
    rw [MailboxCell.prepareTermination, if_neg (by simpa using hlive)]
  simp only [stepEdge, MailboxStep.apply, hprepare] at h
  cases h
  exact ⟨rfl, rfl⟩

/-- **Registration and evidence of parked senders.**  In any run of a fresh
mailbox: while it is not terminal an operation waits exactly if its registration
is in the waiter queue, and no id is registered twice; a withdrawal finds its
registration gone only in a terminal mailbox, and finds an outcome unless the
owner has already taken it; `Withdrawn` reports the newest incarnation bound since
the sender parked, or else the one bound when it parked; `Terminated` reports the
last bound incarnation; a waiter detached by a terminal transition still waits
after it, then leaves `waiting` at most once, withdrawn or terminated, and exactly
once when the teardown is done; and the teardown can always be done. -/
theorem parked_sender_evidence {actorId : ChildId} {tr : List (MailboxEdge M)}
    {s : MailboxSystem M} (h : MailboxRun actorId tr s) :
    (s.cell.state.phase.isTerminal = false →
      ∀ (reference : OperationRef) (operation : SendOperation (Posted M)),
        s.cell.operations[reference]? = some operation →
        ((∃ message observed, operation.outcome = .waiting message observed) ↔
          ∃ id, operation.registration = some id ∧
            s.cell.state.waiters.entries.get? id = some reference)) ∧
      (tr.flatMap MailboxEdge.registrations).Pairwise (· < ·) ∧
      (∀ pre e post, tr = pre ++ e :: post → ∀ reference disposition withdrawal,
        e.input = .withdraw reference disposition → e.output.result = .withdrawn withdrawal →
          withdrawal.detachedOnlyByTeardown = true ∧
          (reference ∉ (flows pre).taken → withdrawal.withdrawnOnce = true)) ∧
      (∀ pre p mid w post, tr = pre ++ p :: (mid ++ w :: post) →
        ∀ reference m disposition withdrawal message observed,
          p.parked = [(reference, m)] → w.input = .withdraw reference disposition →
          w.output.result = .withdrawn withdrawal →
          withdrawal.outcome = some (.withdrawn message observed) →
          observed = (flows mid).bound.getLast?.or p.before.cell.state.phase.observation) ∧
      (∀ pre e post, tr = pre ++ e :: post → ∀ finalIncarnation,
        e.ReportsTerminated finalIncarnation →
          finalIncarnation = (flows pre).bound.getLast?) ∧
      (∀ pre p post, tr = pre ++ p :: post → p.input = .prepareTermination →
        p.before.cell.state.phase.isTerminal = false → ∀ id reference,
          p.before.cell.state.waiters.entries.get? id = some reference →
          p.after.waits reference = true ∧
          post.countP (MailboxEdge.leaves reference) ≤ 1 ∧
          (∀ e ∈ post, e.leaves reference = true →
            e.Withdraws reference ∨ e.after.Terminated reference) ∧
          (s.Discharged → post.countP (MailboxEdge.leaves reference) = 1)) ∧
      (s.cell.state.phase.isTerminal = true → ∃ tr' t, TeardownRun s tr' t ∧ t.Discharged) := by
  have hregistered := registered_of_moved (moved_of_run h)
  refine ⟨?_, ?_, ?_, ?_, ?_, ?_, ?_⟩
  · intro hlive reference operation hget
    obtain ⟨-, -, -, henrolled⟩ | ⟨hterminal, -⟩ := hregistered
    · rw [← SendOperation.isWaiting_iff, henrolled.waiting reference operation hget,
        henrolled.registered reference operation hget]
      have hwaiting := henrolled.waiting reference operation hget
      constructor
      · intro hentry
        exact ⟨reference + 1, by rw [if_pos (hwaiting.mpr hentry)], hentry⟩
      · rintro ⟨id, -, hentry⟩
        obtain ⟨rfl, -⟩ := henrolled.entry id reference hentry
        exact hentry
    · rw [hlive] at hterminal
      cases hterminal
  · rw [registrations_eq_range h, List.pairwise_map]
    exact List.pairwise_lt_range.imp Nat.succ_lt_succ
  · rintro pre e post rfl reference disposition withdrawal hinput hresult
    obtain ⟨hpre, he, -⟩ := h.split_at
    obtain ⟨before, step, o, t⟩ := e
    obtain rfl : step = _ := hinput
    obtain ⟨operation, hget, -, rfl⟩ := withdraw_edge he
    obtain rfl : (before.cell.withdraw reference operation disposition).1 = withdrawal :=
      MailboxResult.withdrawn.inj hresult
    have hmoved := moved_of_run hpre
    constructor
    · apply MailboxCell.withdraw_detachedOnlyByTeardown
      obtain ⟨-, -, -, henrolled⟩ | ⟨hterminal, -⟩ := registered_of_moved hmoved
      · refine .inr ?_
        intro id hid
        have hregistration := henrolled.registered reference operation hget
        rw [hid] at hregistration
        cases hwaiting : operation.isWaiting with
        | true =>
          rw [hwaiting, if_pos rfl] at hregistration
          cases hregistration
          rw [(henrolled.waiting reference operation hget).mp hwaiting]
          rfl
        | false => simp [hwaiting] at hregistration
      · exact .inl hterminal
    · intro hnew
      rw [MailboxCell.withdraw_withdrawnOnce]
      exact fun hretired => hnew (retired_of_moved hmoved hget hretired)
  · rintro pre p mid w post rfl reference m disposition withdrawal message observed hparked
      hinput hresult houtcome
    obtain ⟨hpre, hp, hrest⟩ := h.split_at
    obtain ⟨hmid, hw, -⟩ := hrest.split_at
    exact withdrawn_evidence hpre hp hmid hw hparked hinput hresult houtcome
  · rintro pre e post rfl finalIncarnation hreports
    obtain ⟨hpre, he, -⟩ := h.split_at
    exact lastBound_of_reportsTerminated he (lastBound_of_moved (moved_of_run hpre)) hreports
  · rintro pre p post rfl hinput hlive id reference hentry
    obtain ⟨hpre, hp, hpost⟩ := h.split_at
    obtain ⟨hterminal, hoperations⟩ := prepareTermination_detaches hp hinput hlive
    obtain ⟨-, -, -, henrolled⟩ | ⟨hterminal', -⟩ := registered_of_moved (moved_of_run hpre)
    · obtain ⟨rfl, hlt⟩ := henrolled.entry id reference hentry
      have hwaits : p.after.waits reference = true := by
        rw [MailboxSystem.waits, hoperations, List.getElem?_eq_getElem hlt, Option.any_some]
        exact (henrolled.waiting reference _ (List.getElem?_eq_getElem hlt)).mpr hentry
      have hcount : post.countP (MailboxEdge.leaves reference) + (s.waits reference).toNat =
          (p.after.waits reference).toNat := leaves_count hpost (hoperations ▸ hlt)
      rw [hwaits, Bool.toNat_true] at hcount
      refine ⟨hwaits, by omega, ?_, ?_⟩
      · intro e he hleaves
        obtain ⟨before, after, -, hbefore, hedge, -⟩ := hpost.mem_split he
        have hphase := ((moved_of_run hbefore).terminal_absorbing hterminal).1
        exact leaves_cases hedge (hphase ▸ hterminal) hleaves
      · intro hdone
        rw [hregistered.waits_of_discharged hdone, Bool.toNat_false] at hcount
        exact hcount
    · rw [hlive] at hterminal'
      cases hterminal'
  · intro hterminal
    obtain ⟨hlive, -⟩ | ⟨-, -, termination, hteardown, -⟩ := id hregistered
    · rw [hlive] at hterminal
      cases hterminal
    · exact teardown_completes hregistered hteardown

/-- Three senders park behind a one-slot queue; a rebind promotes the oldest, the
second withdraws, and the third is terminated. -/
def parkedSenders : List (MailboxStep ℕ) :=
  [.configure (.queue ⟨1, Nat.one_pos⟩), .bind ⟨0⟩ (sampleIncarnation 1), .submit 10, .submit 11,
    .submit 12, .submit 13, .close (sampleIncarnation 1), .bind ⟨1⟩ (sampleIncarnation 2),
    .withdraw 1 .inline, .prepareTermination, .clearRegistration, .terminate,
    .poll 2 none ⟨0⟩]

theorem parked_sender_evidence_parkedSenders :
    ∃ pre p mid w post s withdrawal message observed,
      MailboxRun ⟨"worker"⟩ (pre ++ p :: (mid ++ w :: post)) s ∧
      (pre ++ p :: (mid ++ w :: post)).map Edge.input = parkedSenders ∧
      s.cell.operations.map SendOperation.outcome =
        [.accepted (sampleIncarnation 2), .retired, .retired] ∧
      (flows (pre ++ p :: (mid ++ w :: post))).returned = [⟨2, 12⟩, ⟨3, 13⟩] ∧
      ((pre ++ p :: (mid ++ w :: post)).flatMap MailboxEdge.registrations).Pairwise (· < ·) ∧
      w.output.result = .withdrawn withdrawal ∧
      withdrawal.outcome = some (.withdrawn message observed) ∧
      observed = some (sampleIncarnation 2) := by
  have hexec : ∃ pre p mid w post s withdrawal message observed,
      exec (fun s step => MailboxStep.apply s step) (.new ⟨"worker"⟩ : MailboxSystem ℕ)
        parkedSenders = some (pre ++ p :: (mid ++ w :: post), s) ∧
      s.cell.operations.map SendOperation.outcome =
        [.accepted (sampleIncarnation 2), .retired, .retired] ∧
      (flows (pre ++ p :: (mid ++ w :: post))).returned = [⟨2, 12⟩, ⟨3, 13⟩] ∧
      MailboxEdge.parked p = [(1, ⟨2, 12⟩)] ∧ w.input = .withdraw 1 .inline ∧
      w.output.result = .withdrawn withdrawal ∧
      withdrawal.outcome = some (.withdrawn message observed) ∧
      (flows mid).bound = [sampleIncarnation 2] :=
    ⟨[_, _, _, _], _, [_, _, _], _, [_, _, _, _], _, _, _, _, rfl, by decide, by decide, rfl, rfl,
      rfl, rfl, rfl⟩
  obtain ⟨pre, p, mid, w, post, s, withdrawal, message, observed, hrun, houtcomes, hreturned,
    hparked, hinput, hresult, houtcome, hbound⟩ := hexec
  obtain ⟨-, hids, -, hwithdrawn, -⟩ := parked_sender_evidence (run_of_exec _ hrun)
  have hobserved := hwithdrawn pre p mid w post rfl 1 _ _ _ _ _ hparked hinput hresult houtcome
  rw [hbound] at hobserved
  exact ⟨pre, p, mid, w, post, s, withdrawal, message, observed, run_of_exec _ hrun,
    exec_inputs _ hrun, houtcomes, hreturned, hids, hresult, houtcome, hobserved⟩

end Shelterwood
