/-
Shelterwood/MailboxCapacity.lean

Capacity, backpressure and bind tokens.

What a mailbox may store depends on its phase (`Stocked`): a bound queue at most
its capacity, a bound latest mailbox one value, an unbound or terminal one
nothing.  That holds after every move.  Backpressure holds at the ends of the
sections only, because a receive and a bind first make room and then promote:
senders are parked behind a bound mailbox only while it is full (`Backed`).

Permit numbers never decrease and a close mints a new one, so a bind token is
consumed once.
-/
import Shelterwood.MailboxEvidence

namespace Shelterwood

variable {M : Type*}

/-! ### What a mailbox stores -/

/-- What a mailbox of a kind may store. -/
def MailboxState.Fits (state : MailboxState M) : ResolvedMailbox → Prop
  | .queue capacity => state.queue.length ≤ capacity.get ∧ state.latest = none
  | .latest => state.queue = []

/-- What a mailbox may store in its phase. -/
def Stocked (s : MailboxSystem M) : Prop :=
  match s.cell.state.phase with
  | .bound binding | .frozen binding => s.cell.state.Fits binding.kind
  | .unbound | .terminal _ => s.cell.state.queue = [] ∧ s.cell.state.latest = none

section Stocked

variable {s t : MailboxSystem M} {f : Flow M}

theorem Stocked.of_frame (h : Stocked s) (hphase : t.cell.state.phase = s.cell.state.phase)
    (hqueue : t.cell.state.queue = s.cell.state.queue)
    (hlatest : t.cell.state.latest = s.cell.state.latest) : Stocked t := by
  unfold Stocked MailboxState.Fits at *
  rw [hphase, hqueue, hlatest]
  exact h

/-- An accepted message fits when the mailbox was not full. -/
theorem MailboxState.Fits.push (state : MailboxState M) {kind : ResolvedMailbox}
    (h : state.Fits kind) (hroom : state.full kind = false) (envelope : Envelope M) :
    (state.push kind envelope).Fits kind := by
  cases kind with
  | queue capacity =>
    obtain ⟨-, hlatest⟩ := h
    have hlt : state.queue.length < capacity.get := by
      simpa [MailboxState.full] using hroom
    refine ⟨?_, hlatest⟩
    show (state.queue ++ [envelope]).length ≤ capacity.get
    rw [List.length_append]
    exact hlt
  | latest => exact h

/-- Taking a message leaves a fitting mailbox. -/
theorem MailboxState.Fits.takeNext {state rest : MailboxState M} {kind : ResolvedMailbox}
    {mode : ReceiveMode} {envelope : Envelope M} (h : state.Fits kind)
    (htake : state.takeNext kind mode = (some envelope, rest)) : rest.Fits kind := by
  unfold MailboxState.takeNext at htake
  cases kind with
  | queue capacity =>
    obtain ⟨hlength, hlatest⟩ := h
    cases hqueue : state.queue with
    | nil => simp [hqueue] at htake
    | cons item tail =>
      simp only [hqueue] at htake
      split_ifs at htake
      · obtain ⟨-, rfl⟩ := Prod.mk.inj htake
        rw [hqueue, List.length_cons] at hlength
        exact ⟨Nat.le_of_succ_le hlength, hlatest⟩
      · cases htake
  | latest =>
    cases hlatest : state.latest with
    | none => simp [hlatest] at htake
    | some item =>
      simp only [hlatest] at htake
      split_ifs at htake
      · obtain ⟨-, rfl⟩ := Prod.mk.inj htake
        exact h
      · cases htake

theorem Stocked.moves (h : Stocked s) (hmove : Moves s f t) : Stocked t := by
  cases hmove with
  | accept body binding bound idle room =>
    unfold Stocked at h ⊢
    simp only [bound] at h
    simpa [MailboxCell.push, bound] using h.push _ room _
  | promote binding reference waiters operation message observed bound room =>
    unfold Stocked at h ⊢
    simp only [bound] at h
    rw [MailboxSystem.promoted_phase, bound]
    exact MailboxState.Fits.push { s.cell.state with waiters } h room _
  | take binding mode envelope state phase taken =>
    obtain ⟨hphase, -⟩ := MailboxState.takeNext_frame taken
    unfold Stocked at h ⊢
    obtain bound | frozen := phase
    · simp only [bound] at h
      simpa only [hphase, bound] using h.takeNext taken
    · simp only [frozen] at h
      simpa only [hphase, frozen] using h.takeNext taken
  | bind binding unbound configured unclaimed =>
    unfold Stocked at h ⊢
    simp only [unbound] at h
    obtain ⟨hqueue, hlatest⟩ := h
    show MailboxState.Fits _ binding.kind
    cases binding.kind with
    | queue capacity =>
      exact ⟨by simp [MailboxSystem.bindNew, MailboxSystem.setCell, MailboxCell.observeAll,
        hqueue], hlatest⟩
    | latest => exact hqueue
  | freeze binding bound =>
    unfold Stocked at h ⊢
    simp only [bound] at h
    exact h
  | close incarnation bound =>
    rw [MailboxCell.close, if_pos bound]
    exact ⟨rfl, rfl⟩
  | terminate live =>
    rw [MailboxCell.prepareTermination, if_neg (by simp [live])]
    exact ⟨rfl, rfl⟩
  | refuse | park | skip | drop | retire | reclaim | rewake | configure | clear | discharge =>
    exact h.of_frame rfl rfl rfl

theorem stocked_of_moved {actorId : ChildId} {F : Flow M} (h : Moved (.new actorId) F s) :
    Stocked s := by
  induction h with
  | refl => exact ⟨rfl, rfl⟩
  | tail _ hmove ih => exact ih.moves hmove

end Stocked

/-! ### Backpressure -/

/-- Senders are parked behind a bound mailbox only while it is full. -/
def Backed (s : MailboxSystem M) : Prop :=
  ∀ binding, s.cell.state.phase = .bound binding →
    s.cell.state.full binding.kind = true ∨ s.cell.state.waiters.isEmpty = true

section Backed

variable {e : MailboxEdge M}

theorem Backed.of_frame {s t : MailboxSystem M} (h : Backed s)
    (hphase : t.cell.state.phase = s.cell.state.phase)
    (hqueue : t.cell.state.queue = s.cell.state.queue)
    (hwaiters : s.cell.state.waiters.isEmpty = true → t.cell.state.waiters.isEmpty = true) :
    Backed t := by
  intro binding hbound
  obtain hfull | hempty := h binding (hphase ▸ hbound)
  · refine .inl ?_
    cases hkind : binding.kind <;> simp_all [MailboxState.full]
  · exact .inr (hwaiters hempty)

/-- Accepting at once needs an idle mailbox, and leaves it idle. -/
theorem backed_of_accepts {s : MailboxSystem M} {binding : Binding} {message : Posted M}
    {txn : MailboxTxn (Posted M)} (h : s.cell.Accepts binding message txn) (posted : ℕ) :
    Backed { s with cell := txn.cell, posted } := by
  intro binding' _
  refine .inr ?_
  rw [h.pushed, MailboxCell.push, MailboxState.push_waiters, h.idle]

/-- **Every section keeps the backpressure.** -/
theorem Backed.edge (h : Backed e.before) (he : IsMailboxEdge e) : Backed e.after := by
  obtain ⟨s, step, o, t⟩ := e
  cases step with
  | submit body =>
    obtain ⟨rfl, -⟩ | ⟨submission, txn, hsubmit, rfl, rfl⟩ := submit_edge he
    · exact h
    · cases hsubmit with
      | refused => exact h.of_frame rfl rfl id
      | parked live full =>
        -- a sender parks behind a bound mailbox when it is full
        intro binding hbound
        refine .inl ?_
        obtain hfull | hempty := h binding hbound
        · exact hfull
        · obtain hwaiters | hfull := full binding hbound
          · rw [hempty] at hwaiters
            cases hwaiters
          · exact hfull
      | accepted accepts => exact backed_of_accepts accepts (s.posted + 1)
  | trySend body =>
    obtain ⟨rfl, -⟩ | ⟨result, txn, hsend, rfl, rfl⟩ := trySend_edge he
    · exact h
    · cases hsend with
      | refused => exact h.of_frame rfl rfl id
      | accepted accepts => exact backed_of_accepts accepts (s.posted + 1)
  | poll reference replacement current =>
    obtain ⟨operation, hget, ⟨rfl, -⟩ | ⟨result, after, wakers, hpoll, rfl, rfl⟩⟩ :=
      poll_edge he
    · exact h
    · exact h.of_frame rfl rfl id
  | withdraw reference disposition =>
    obtain ⟨operation, hget, rfl, rfl⟩ := withdraw_edge he
    exact h.of_frame rfl rfl (MailboxCell.withdraw_isEmpty disposition)
  | receive incarnation mode =>
    obtain ⟨rfl, -⟩ | ⟨message, txn, hreceive, rfl, rfl⟩ := receive_edge he
    · exact h
    · obtain ⟨-, rfl⟩ | ⟨binding, live, envelope, state, hbinding, htake, -, htxn⟩ :=
        MailboxCell.receive_ok hreceive
      · exact h.of_frame rfl rfl id
      · obtain ⟨-, -, hphase, hstop⟩ := receive_moved hbinding htake htxn
        intro binding' hbound
        have hbefore : s.cell.state.phase = .bound binding' := hphase.symm.trans hbound
        obtain ⟨-, ⟨rfl, hbound'⟩ | ⟨-, -, hfrozen⟩⟩ :=
          MailboxCell.receiveBinding_eq_some hbinding
        · obtain rfl := Phase.bound.inj (hbefore.symm.trans hbound')
          exact hstop rfl
        · rw [hfrozen] at hbefore
          cases hbefore
  | acceptedSequence | currentObservation =>
    simp only [stepEdge, MailboxStep.apply, Option.some.injEq, Prod.mk.injEq] at he
    exact he.1 ▸ h
  | configure mailbox =>
    simp only [stepEdge, MailboxStep.apply, MailboxCell.configure] at he
    cases hkind : s.cell.state.kind with
    | none =>
      simp only [hkind] at he
      cases he
      exact h.of_frame rfl rfl id
    | some existing =>
      simp only [hkind] at he
      split_ifs at he
      · cases he
        exact h.of_frame rfl rfl id
      · exact (unwound_of_faulted he).1 ▸ h
  | bind token incarnation =>
    obtain ⟨rfl, -⟩ | ⟨txn, hbind, rfl, rfl⟩ := bind_edge he
    · exact h
    · cases hlive : s.cell.state.phase.isTerminal with
      | true =>
        obtain ⟨-, rfl⟩ | ⟨kind, t', hphase, -⟩ := MailboxCell.bind_ok hbind
        · exact h.of_frame rfl rfl id
        · rw [hphase] at hlive
          cases hlive
      | false =>
        obtain ⟨kind, -, -, -, -, -, hbound, hstop⟩ := bind_moved hbind hlive
        intro binding hbound'
        obtain rfl := Phase.bound.inj (hbound.symm.trans hbound')
        exact hstop
  | freeze incarnation =>
    simp only [stepEdge, MailboxStep.apply, MailboxSystem.commit] at he
    cases he
    unfold MailboxCell.freeze
    split
    · split_ifs
      · intro binding hbound
        cases hbound
      · exact h.of_frame rfl rfl id
    · exact h.of_frame rfl rfl id
  | close incarnation =>
    simp only [stepEdge, MailboxStep.apply, MailboxSystem.commit] at he
    cases he
    unfold MailboxCell.close
    split_ifs
    · intro binding hbound
      cases hbound
    · exact h.of_frame rfl rfl id
  | prepareTermination =>
    simp only [stepEdge, MailboxStep.apply] at he
    cases hlive : s.cell.state.phase.isTerminal with
    | true =>
      have hprepare : s.cell.prepareTermination = (none, s.cell) := if_pos hlive
      simp only [hprepare, Option.some.injEq, Prod.mk.injEq] at he
      exact he.1 ▸ h
    | false =>
      obtain ⟨hterminal, -⟩ := prepareTermination_detaches (p := ⟨s, .prepareTermination, o, t⟩)
        he rfl hlive
      intro binding hbound
      rw [show t.cell.state.phase = .bound binding from hbound] at hterminal
      cases hterminal
  | clearRegistration | terminate =>
    simp only [stepEdge, MailboxStep.apply] at he
    split at he
    · split at he
      · cases he
        exact h.of_frame rfl rfl id
      · cases he
    · cases he

theorem backed_of_run {actorId : ChildId} {tr : List (MailboxEdge M)} {s : MailboxSystem M}
    (h : MailboxRun actorId tr s) : Backed s := by
  refine h.invariant ?_ fun e he _ hbacked => hbacked.edge he
  intro binding hbound
  cases hbound

end Backed

/-! ### Bind tokens -/

section Tokens

variable {s t : MailboxSystem M} {f G : Flow M}

/-- A permit is replaced by a later one, and a claimed permit stays claimed. -/
def PermitLe (p q : BindPermit) : Prop := p.id < q.id ∨ p.id = q.id ∧ (p.claimed → q.claimed)

theorem PermitLe.refl (p : BindPermit) : PermitLe p p := .inr ⟨rfl, id⟩

theorem PermitLe.trans {p q r : BindPermit} (h₁ : PermitLe p q) (h₂ : PermitLe q r) :
    PermitLe p r := by
  obtain h₁ | ⟨h₁, hc₁⟩ := h₁ <;> obtain h₂ | ⟨h₂, hc₂⟩ := h₂
  · exact .inl (h₁.trans h₂)
  · exact .inl (h₂ ▸ h₁)
  · exact .inl (h₁ ▸ h₂)
  · exact .inr ⟨h₁.trans h₂, hc₂ ∘ hc₁⟩

theorem Moves.permit_le (h : Moves s f t) :
    PermitLe s.cell.state.bindPermit t.cell.state.bindPermit := by
  have hsame : t.cell.state.bindPermit = s.cell.state.bindPermit →
      PermitLe s.cell.state.bindPermit t.cell.state.bindPermit :=
    fun heq => heq ▸ .refl _
  cases h with
  | accept => exact hsame (MailboxState.push_bindPermit _ _ _)
  | promote => exact hsame (by simp)
  | take binding mode envelope state phase taken =>
    exact hsame (MailboxState.takeNext_frame taken).2.2.2.2
  | bind => exact .inr ⟨rfl, fun _ => rfl⟩
  | close incarnation bound =>
    refine .inl ?_
    rw [MailboxCell.close, if_pos bound]
    exact Nat.lt_succ_self _
  | terminate live =>
    refine hsame ?_
    rw [MailboxCell.prepareTermination, if_neg (by simp [live])]
    rfl
  | refuse | park | skip | drop | retire | reclaim | rewake | configure | freeze | clear
  | discharge => exact .refl _

theorem Moved.permit_le (h : Moved s G t) :
    PermitLe s.cell.state.bindPermit t.cell.state.bindPermit := by
  induction h with
  | refl => exact .refl _
  | tail _ hmove ih => exact ih.trans hmove.permit_le

/-- A binding ends by its close or by the termination. -/
theorem Moved.binding_ends {binding : Binding} (h : Moved s G t)
    (hbound : s.cell.state.phase = .bound binding ∨ s.cell.state.phase = .frozen binding) :
    (t.cell.state.phase = .bound binding ∨ t.cell.state.phase = .frozen binding ∨
        t.cell.state.phase.isTerminal = true) ∨ binding.incarnation ∈ G.closed := by
  induction h with
  | refl => exact .inl (hbound.imp_right .inl)
  | @tail G g t u _ hmove ih =>
    rw [Flow.closed_append, List.mem_append]
    obtain hphase | hclosed := ih
    · -- only freeze, close and termination change the phase of a binding
      have hkeep : u.cell.state.phase = t.cell.state.phase →
          (u.cell.state.phase = .bound binding ∨ u.cell.state.phase = .frozen binding ∨
            u.cell.state.phase.isTerminal = true) ∨
            (binding.incarnation ∈ G.closed ∨ binding.incarnation ∈ g.closed) := by
        intro heq
        rw [heq]
        exact .inl hphase
      cases hmove with
      | accept => exact hkeep (MailboxState.push_phase _ _ _)
      | promote => exact hkeep (by simp)
      | take binding' mode envelope state phase taken =>
        exact hkeep (MailboxState.takeNext_frame taken).1
      | bind binding' unbound =>
        rw [unbound] at hphase
        obtain h | h | h := hphase <;> cases h
      | freeze binding' bound =>
        rw [bound] at hphase
        obtain h | h | h := hphase
        · obtain rfl := Phase.bound.inj h
          exact .inl (.inr (.inl rfl))
        · cases h
        · cases h
      | close incarnation bound =>
        refine .inr (.inr ?_)
        obtain h | h | h := hphase
        · rw [h] at bound
          exact List.mem_singleton.mpr (Option.some.inj bound)
        · rw [h] at bound
          exact List.mem_singleton.mpr (Option.some.inj bound)
        · cases hcase : t.cell.state.phase <;> simp_all [Phase.isTerminal, Phase.observation]
      | terminate live =>
        refine .inl (.inr (.inr ?_))
        rw [MailboxCell.prepareTermination, if_neg (by simp [live])]
        rfl
      | refuse | park | skip | drop | retire | reclaim | rewake | configure | clear
      | discharge => exact hkeep rfl
    · exact .inr (.inl hclosed)

/-- A bind that took effect. -/
theorem bound_edge {e : MailboxEdge M} {incarnation : Incarnation} (h : IsMailboxEdge e)
    (hbound : e.bound = [incarnation]) :
    ∃ token kind, e.input = .bind token incarnation ∧
      e.before.cell.state.phase = .unbound ∧
      token.permit = e.before.cell.state.bindPermit.id ∧
      e.before.cell.state.bindPermit.claimed = false ∧
      e.after.cell.state.phase = .bound ⟨incarnation, kind⟩ ∧
      PermitLe ⟨token.permit, true⟩ e.after.cell.state.bindPermit ∧
      ∃ accepted displaced,
        Moves e.before { bound := [incarnation] } (e.before.bindNew ⟨incarnation, kind⟩) ∧
        Moved (e.before.bindNew ⟨incarnation, kind⟩) { accepted, displaced } e.after ∧
        e.flow = { bound := [incarnation] } ++ { accepted, displaced } := by
  obtain ⟨s, step, o, t⟩ := e
  cases step with
  | bind token incarnation' =>
    obtain ⟨-, message, rfl⟩ | ⟨txn, hbind, rfl, rfl⟩ := bind_edge h
    · cases hbound
    · cases hlive : s.cell.state.phase.isTerminal with
      | true => simp [MailboxEdge.bound, hlive] at hbound
      | false =>
        obtain rfl : incarnation' = incarnation := by
          simpa [MailboxEdge.bound, hlive] using hbound
        obtain ⟨kind, hmove, hmoved, hunbound, htoken, hclaimed, hphase, -⟩ :=
          bind_moved hbind hlive
        refine ⟨token, kind, rfl, hunbound, htoken, hclaimed, hphase, ?_, _, _, hmove, hmoved, ?_⟩
        · rw [htoken]
          exact hmoved.permit_le
        · rw [MailboxEdge.flow_bind, if_neg (by simp [hlive])]
          rfl
  | submit | trySend | poll | withdraw | receive | acceptedSequence | currentObservation
  | configure | freeze | close | prepareTermination | clearRegistration | terminate => cases hbound

end Tokens

/-- **Capacity, backpressure and bind tokens.**  In every state a fresh mailbox
can reach: a bound queue holds at most its capacity, and exactly its capacity when
a sender is parked; nobody is parked behind a bound latest mailbox; an unbound
mailbox stores nothing; a terminal one stores nothing, has nobody parked, keeps its
phase and accepts nothing in any continuation; and a bind that takes effect uses a
token no earlier one used, with a close of the earlier binding in between. -/
theorem mailbox_capacity {actorId : ChildId} {tr : List (MailboxEdge M)} {s : MailboxSystem M}
    (h : MailboxRun actorId tr s) :
    (∀ incarnation capacity, s.cell.state.phase = .bound ⟨incarnation, .queue capacity⟩ →
      s.cell.state.queue.length ≤ capacity.get ∧
        (s.cell.state.waiters.isEmpty = false → s.cell.state.queue.length = capacity.get)) ∧
      (∀ incarnation, s.cell.state.phase = .bound ⟨incarnation, .latest⟩ →
        s.cell.state.waiters.isEmpty = true) ∧
      (s.cell.state.phase = .unbound →
        s.cell.state.queue = [] ∧ s.cell.state.latest = none) ∧
      (∀ finalIncarnation, s.cell.state.phase = .terminal finalIncarnation →
        s.cell.state.queue = [] ∧ s.cell.state.latest = none ∧
        s.cell.state.waiters.isEmpty = true ∧
        ∀ tr' t, Run IsMailboxEdge s tr' t →
          t.cell.state.phase = .terminal finalIncarnation ∧ (flows tr').accepted = []) ∧
      ∀ pre b mid b' post, tr = pre ++ b :: (mid ++ b' :: post) →
        ∀ token incarnation token' incarnation',
          b.input = .bind token incarnation → b.bound = [incarnation] →
          b'.input = .bind token' incarnation' → b'.bound = [incarnation'] →
          token ≠ token' ∧
            ∃ c ∈ mid, c.input = .close incarnation ∧
              ∃ close, c.output.result = .closed (some close) := by
  have hmoved := moved_of_run h
  have hstocked := stocked_of_moved hmoved
  have hbacked := backed_of_run h
  refine ⟨?_, ?_, ?_, ?_, ?_⟩
  · intro incarnation capacity hphase
    simp only [Stocked, hphase] at hstocked
    refine ⟨hstocked.1, ?_⟩
    intro hparked
    obtain hfull | hempty := hbacked _ hphase
    · have hge : capacity.get ≤ s.cell.state.queue.length := by
        simpa [MailboxState.full] using hfull
      exact Nat.le_antisymm hstocked.1 hge
    · rw [hempty] at hparked
      cases hparked
  · intro incarnation hphase
    obtain hfull | hempty := hbacked _ hphase
    · cases hfull
    · exact hempty
  · intro hphase
    simpa only [Stocked, hphase] using hstocked
  · intro finalIncarnation hphase
    have hterminal : s.cell.state.phase.isTerminal = true := by
      rw [hphase]
      rfl
    simp only [Stocked, hphase] at hstocked
    obtain ⟨hlive, -⟩ | ⟨-, hempty, -⟩ := registered_of_moved hmoved
    · rw [hterminal] at hlive
      cases hlive
    · refine ⟨hstocked.1, hstocked.2, hempty, ?_⟩
      intro tr' t hrun
      obtain ⟨hkeep, haccepted, -⟩ := (moved_of_run hrun).terminal_absorbing hterminal
      exact ⟨hkeep.trans hphase, haccepted⟩
  · rintro pre b mid b' post rfl token incarnation token' incarnation' hinput hbound hinput' hbound'
    obtain ⟨-, hb, hrest⟩ := h.split_at
    obtain ⟨hmid, hb', -⟩ := hrest.split_at
    obtain ⟨token₁, kind, hinput₁, -, -, -, hphase, hpermit, -⟩ := bound_edge hb hbound
    obtain ⟨token₂, kind', hinput₂, hunbound, htoken, hclaimed, -⟩ := bound_edge hb' hbound'
    obtain ⟨rfl, -⟩ := MailboxStep.bind.inj (hinput.symm.trans hinput₁)
    obtain ⟨rfl, -⟩ := MailboxStep.bind.inj (hinput'.symm.trans hinput₂)
    have hmoved := moved_of_run hmid
    constructor
    · rintro rfl
      obtain hlt | ⟨-, hstill⟩ := hpermit.trans hmoved.permit_le
      · exact absurd htoken (Nat.ne_of_lt hlt)
      · rw [hclaimed] at hstill
        exact absurd (hstill rfl) (by simp)
    · obtain hphase' | hclosed := hmoved.binding_ends (.inl hphase)
      · rw [hunbound] at hphase'
        obtain h | h | h := hphase' <;> cases h
      · obtain ⟨c, hc, hclosed⟩ := List.mem_flatMap.mp hclosed
        refine ⟨c, hc, ?_⟩
        unfold MailboxEdge.closed at hclosed
        split at hclosed
        · rename_i hinput hresult
          obtain rfl := List.mem_singleton.mp hclosed
          exact ⟨hinput, _, hresult⟩
        · cases hclosed

/-- A two-slot queue fills and parks a sender; a rebind promotes it, and two more
senders fill the queue and park behind it. -/
def reboundQueue : List (MailboxStep ℕ) :=
  [.configure (.queue ⟨2, Nat.two_pos⟩), .bind ⟨0⟩ (sampleIncarnation 1), .submit 10, .submit 11,
    .submit 12, .freeze (sampleIncarnation 1), .close (sampleIncarnation 1),
    .bind ⟨1⟩ (sampleIncarnation 2), .submit 13, .submit 14]

theorem mailbox_capacity_reboundQueue :
    ∃ tr s, MailboxRun ⟨"worker"⟩ tr s ∧ tr.map Edge.input = reboundQueue ∧
      s.cell.state.phase = .bound ⟨sampleIncarnation 2, .queue ⟨2, Nat.two_pos⟩⟩ ∧
      s.cell.state.waiters.isEmpty = false ∧ s.cell.state.queue.length = 2 := by
  have hexec : ∃ tr s, exec (fun s step => MailboxStep.apply s step)
      (.new ⟨"worker"⟩ : MailboxSystem ℕ) reboundQueue = some (tr, s) ∧
      s.cell.state.phase = .bound ⟨sampleIncarnation 2, .queue ⟨2, Nat.two_pos⟩⟩ ∧
      s.cell.state.waiters.isEmpty = false := ⟨_, _, rfl, by decide, by decide⟩
  obtain ⟨tr, s, hrun, hphase, hparked⟩ := hexec
  have hcapacity := (mailbox_capacity (run_of_exec _ hrun)).1 _ _ hphase
  exact ⟨tr, s, run_of_exec _ hrun, exec_inputs _ hrun, hphase, hparked, hcapacity.2 hparked⟩

end Shelterwood
