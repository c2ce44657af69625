/-
Shelterwood/MailboxDelivery.lean

What the receives of one binding return.

A mailbox stores messages without the incarnation that accepted them.  It is empty
whenever it is not bound, so while a binding is current its storage is determined
by what was accepted and received since the bind: a queue stores what was accepted
minus the received beginning, a latest mailbox the last accepted message unless it
was received (`Current`).  FIFO delivery and the isolation of incarnations follow.
-/
import Shelterwood.MailboxCapacity
import Shelterwood.MailboxOrder

namespace Shelterwood

variable {M : Type*}

/-! ### The history of a binding -/

/-- The storage of a binding after what was accepted and received since the
bind. -/
def Delivered (binding : Binding) (G : Flow M) (s : MailboxSystem M) : Prop :=
  match binding.kind with
  | .queue _ => ∃ received : List (Envelope (Posted M)),
      received.map Envelope.message = G.received ∧
        G.accepted.map Acceptance.envelope = received ++ s.cell.state.queue
  | .latest =>
    (∀ envelope, s.cell.state.latest = some envelope →
      (G.accepted.map Acceptance.envelope).getLast? = some envelope ∧
        envelope.message ∉ G.received) ∧
    (s.cell.state.latest = none → ∀ envelope,
      (G.accepted.map Acceptance.envelope).getLast? = some envelope →
        envelope.message ∈ G.received)

/-- The binding is current, with what happened since the bind. -/
structure Current (binding : Binding) (G : Flow M) (s : MailboxSystem M) : Prop where
  phase : s.cell.state.phase = .bound binding ∨ s.cell.state.phase = .frozen binding
  incarnation : ∀ a ∈ G.accepted, a.incarnation = binding.incarnation
  delivered : Delivered binding G s

/-- The binding is over, with what happened in it. -/
structure Past (binding : Binding) (G : Flow M) (s : MailboxSystem M) : Prop where
  phase : s.cell.state.phase = .unbound ∨ s.cell.state.phase.isTerminal = true
  incarnation : ∀ a ∈ G.accepted, a.incarnation = binding.incarnation
  received : ∀ capacity, binding.kind = .queue capacity → G.received <+: G.acceptedMessages

section History

variable {binding : Binding} {F G g : Flow M} {s t : MailboxSystem M}

theorem Flow.acceptedMessages_eq (G : Flow M) :
    G.acceptedMessages = (G.accepted.map Acceptance.envelope).map Envelope.message := by
  rw [List.map_map]
  rfl

/-- The phase of a mailbox names its current binding. -/
theorem Current.binding_eq (h : Current binding G s) {binding' : Binding}
    (hread : s.cell.state.phase = .bound binding' ∨ s.cell.state.phase = .frozen binding') :
    binding' = binding := by
  obtain hread | hread := hread <;> obtain hphase | hphase := h.phase
  · exact Phase.bound.inj (hread.symm.trans hphase)
  · rw [hread] at hphase
    cases hphase
  · rw [hread] at hphase
    cases hphase
  · exact Phase.frozen.inj (hread.symm.trans hphase)

/-- Nobody reads a binding that is over. -/
theorem Past.not_read (h : Past binding G s) {binding' : Binding} :
    ¬ (s.cell.state.phase = .bound binding' ∨ s.cell.state.phase = .frozen binding') := by
  intro hread
  obtain hread | hread := hread <;> obtain hphase | hphase := h.phase <;>
  · rw [hread] at hphase
    cases hphase

theorem Current.of_frame (h : Current binding G s) (haccepted : g.accepted = [])
    (hreceived : g.received = [])
    (hphase : t.cell.state.phase = .bound binding ∨ t.cell.state.phase = .frozen binding)
    (hqueue : t.cell.state.queue = s.cell.state.queue)
    (hlatest : t.cell.state.latest = s.cell.state.latest) : Current binding (G ++ g) t := by
  refine ⟨hphase, ?_, ?_⟩
  · rw [Flow.accepted_append, haccepted, List.append_nil]
    exact h.incarnation
  · have hdelivered := h.delivered
    unfold Delivered at hdelivered ⊢
    rw [Flow.accepted_append, haccepted, List.append_nil, Flow.received_append, hreceived,
      List.append_nil, hqueue, hlatest]
    exact hdelivered

theorem Past.of_frame (h : Past binding G s) (haccepted : g.accepted = [])
    (hreceived : g.received = [])
    (hphase : t.cell.state.phase = .unbound ∨ t.cell.state.phase.isTerminal = true) :
    Past binding (G ++ g) t := by
  refine ⟨hphase, ?_, ?_⟩
  · rw [Flow.accepted_append, haccepted, List.append_nil]
    exact h.incarnation
  · rw [Flow.received_append, hreceived, List.append_nil, Flow.acceptedMessages_append,
      Flow.acceptedMessages, Flow.acceptedMessages, haccepted, List.map_nil, List.append_nil]
    exact h.received

/-- Accepting a message that was not received before. -/
theorem Current.push (h : Current binding G s) {message : Posted M}
    (haccepted : g.accepted = [s.cell.acceptance binding message]) (hreceived : g.received = [])
    (hphase : t.cell.state.phase = s.cell.state.phase) (hnew : message ∉ G.received)
    (hqueue : t.cell.state.queue = (s.cell.state.push binding.kind
      ⟨message, s.cell.accepted.current + 1⟩).queue)
    (hlatest : t.cell.state.latest = (s.cell.state.push binding.kind
      ⟨message, s.cell.accepted.current + 1⟩).latest) : Current binding (G ++ g) t := by
  refine ⟨hphase ▸ h.phase, ?_, ?_⟩
  · intro a ha
    rw [Flow.accepted_append, haccepted, List.mem_append] at ha
    obtain ha | ha := ha
    · exact h.incarnation a ha
    · obtain rfl := List.mem_singleton.mp ha
      rfl
  · have hdelivered := h.delivered
    unfold Delivered at hdelivered ⊢
    rw [Flow.accepted_append, haccepted, Flow.received_append, hreceived, List.append_nil,
      hqueue, hlatest, List.map_append]
    cases hkind : binding.kind with
    | queue capacity =>
      simp only [hkind] at hdelivered ⊢
      obtain ⟨received, hmessages, hall⟩ := hdelivered
      refine ⟨received, hmessages, ?_⟩
      rw [hall, List.append_assoc]
      rfl
    | latest =>
      simp only
      constructor
      · intro envelope henvelope
        cases henvelope
        exact ⟨by simp [MailboxCell.acceptance], hnew⟩
      · intro hnone
        cases hnone

/-- Receiving the stored message. -/
theorem Current.take (h : Current binding G s) {mode : ReceiveMode}
    {envelope : Envelope (Posted M)} {state : MailboxState (Posted M)}
    (htake : s.cell.state.takeNext binding.kind mode = (some envelope, state)) :
    Current binding (G ++ { received := [envelope.message] }) { s with cell.state := state } := by
  obtain ⟨hphase, -⟩ := MailboxState.takeNext_frame htake
  refine ⟨?_, ?_, ?_⟩
  · rw [hphase]
    exact h.phase
  · intro a ha
    exact h.incarnation a (by simpa using ha)
  · have hdelivered := h.delivered
    unfold Delivered at hdelivered ⊢
    unfold MailboxState.takeNext at htake
    cases hkind : binding.kind with
    | queue capacity =>
      simp only [hkind] at hdelivered htake ⊢
      obtain ⟨received, hmessages, hall⟩ := hdelivered
      cases hqueue : s.cell.state.queue with
      | nil => simp [hqueue] at htake
      | cons item rest =>
        simp only [hqueue] at htake
        split_ifs at htake
        · obtain ⟨hitem, rfl⟩ := Prod.mk.inj htake
          obtain rfl := Option.some.inj hitem
          refine ⟨received ++ [item], by simp [hmessages], ?_⟩
          simpa [hqueue] using hall
        · cases htake
    | latest =>
      simp only [hkind] at hdelivered htake ⊢
      cases hlatest : s.cell.state.latest with
      | none => simp [hlatest] at htake
      | some item =>
        simp only [hlatest] at htake
        split_ifs at htake
        · obtain ⟨hitem, rfl⟩ := Prod.mk.inj htake
          obtain rfl := Option.some.inj hitem
          refine ⟨by simp, ?_⟩
          intro _ envelope henvelope
          have hlast : (G.accepted.map Acceptance.envelope).getLast? = some envelope := by
            simpa using henvelope
          have hsame := (hdelivered.1 item hlatest).1
          obtain rfl := Option.some.inj (hsame.symm.trans hlast)
          simp
        · cases htake

/-- The received messages of a queue are a beginning of the accepted ones. -/
theorem Current.received_prefix (h : Current binding G s) {capacity : NonZeroUsize}
    (hkind : binding.kind = .queue capacity) : G.received <+: G.acceptedMessages := by
  have hdelivered := h.delivered
  simp only [Delivered, hkind] at hdelivered
  obtain ⟨received, hmessages, hall⟩ := hdelivered
  rw [Flow.acceptedMessages_eq, hall, List.map_append, hmessages]
  exact List.prefix_append _ _

theorem Current.past (h : Current binding G s) (haccepted : g.accepted = [])
    (hreceived : g.received = [])
    (hphase : t.cell.state.phase = .unbound ∨ t.cell.state.phase.isTerminal = true) :
    Past binding (G ++ g) t := by
  have hpast : Past binding G t := ⟨hphase, h.incarnation, fun _ => h.received_prefix⟩
  exact hpast.of_frame haccepted hreceived hphase

/-- A current binding stays current or is over. -/
theorem Current.moves (h : Current binding G s) (hl : Ledger F s)
    (hsub : ∀ m ∈ G.received, m ∈ F.received) (hmove : Moves s g t) (hbound : g.bound = []) :
    Current binding (G ++ g) t ∨ Past binding (G ++ g) t := by
  have hphase : ∀ {binding'}, s.cell.state.phase = .bound binding' → binding' = binding :=
    fun hbinding => h.binding_eq (.inl hbinding)
  cases hmove with
  | accept body binding' bound idle room =>
    obtain rfl := hphase bound
    have hnew : s.post body ∉ G.received := by
      intro hmem
      have hlt := hl.number_lt (hl.accepted_subset (hl.accepted_of_received (hsub _ hmem)))
      exact Nat.lt_irrefl _ hlt
    exact .inl (h.push rfl rfl (MailboxState.push_phase _ _ _) hnew rfl rfl)
  | promote binding' reference waiters operation message observed bound room pop get waiting =>
    obtain rfl := hphase bound
    have hnew : message ∉ G.received := by
      intro hmem
      have hheld : message ∈ s.held := List.mem_flatMap.mpr
        ⟨operation, List.mem_of_getElem? get, by simp [SendOperation.held, waiting]⟩
      have hdisjoint := (List.nodup_append.mp (List.nodup_append.mp hl.nodup_owned).1).2.2
      exact hdisjoint _ hheld _ (hl.accepted_of_received (hsub _ hmem)) rfl
    refine .inl (h.push rfl rfl (by simp) hnew ?_ ?_)
    · show (MailboxState.push _ _ _).queue = _
      cases binding'.kind <;> rfl
    · show (MailboxState.push _ _ _).latest = _
      cases binding'.kind <;> rfl
  | take binding' mode envelope state phase taken =>
    obtain rfl := h.binding_eq phase
    exact .inl (h.take taken)
  | bind binding' unbound => cases hbound
  | freeze binding' bound =>
    obtain rfl := hphase bound
    exact .inl (h.of_frame rfl rfl (.inr rfl) rfl rfl)
  | close incarnation bound =>
    exact .inr (h.past rfl rfl (.inl (MailboxCell.close_frame bound).1))
  | terminate live =>
    refine .inr (h.past rfl rfl (.inr ?_))
    rw [MailboxCell.prepareTermination, if_neg (by simp [live])]
    rfl
  | refuse | park | skip | drop | retire | reclaim | rewake | configure | clear | discharge =>
    exact .inl (h.of_frame rfl rfl h.phase rfl rfl)

/-- A binding that is over stays over until the next bind. -/
theorem Past.moves (h : Past binding G s) (hmove : Moves s g t) (hbound : g.bound = []) :
    Past binding (G ++ g) t := by
  cases hmove with
  | accept _ _ bound | promote _ _ _ _ _ _ bound | freeze _ bound =>
    exact absurd (.inl bound) h.not_read
  | take binding' mode envelope state phase => exact absurd phase h.not_read
  | bind binding' unbound => cases hbound
  | close incarnation bound =>
    exact h.of_frame rfl rfl (.inl (MailboxCell.close_frame bound).1)
  | terminate live =>
    refine h.of_frame rfl rfl (.inr ?_)
    rw [MailboxCell.prepareTermination, if_neg (by simp [live])]
    rfl
  | refuse | park | skip | drop | retire | reclaim | rewake | configure | clear | discharge =>
    exact h.of_frame rfl rfl h.phase

/-- **The history of a binding**, from the bind until the next one. -/
theorem binding_history {actorId : ChildId} (hs : Moved (.new actorId) F s)
    (hbind : Moves s { bound := [binding.incarnation] } (s.bindNew binding))
    (h : Moved (s.bindNew binding) G t) (hbound : G.bound = []) :
    Current binding G t ∨ Past binding G t := by
  induction h with
  | refl =>
    -- the mailbox was unbound, so it stored nothing
    have hstocked := stocked_of_moved hs
    have hunbound : s.cell.state.phase = .unbound := by
      obtain ⟨hnone, -⟩ | ⟨_, -, hunbound, -⟩ := hbind.bound_cases
      · cases hnone
      · exact hunbound
    simp only [Stocked, hunbound] at hstocked
    refine .inl ⟨.inl rfl, by simp, ?_⟩
    unfold Delivered
    cases binding.kind with
    | queue capacity =>
      refine ⟨[], rfl, ?_⟩
      show [] = [] ++ s.cell.state.queue
      rw [hstocked.1]
      rfl
    | latest =>
      constructor
      · intro envelope henvelope
        rw [show (s.bindNew binding).cell.state.latest = s.cell.state.latest from rfl,
          hstocked.2] at henvelope
        cases henvelope
      · intro _ envelope henvelope
        cases henvelope
  | @tail G g t u hmoved hmove ih =>
    rw [Flow.bound_append, List.append_eq_nil_iff] at hbound
    obtain hcurrent | hpast := ih hbound.1
    · refine hcurrent.moves (ledger_of_moved ((hs.tail hbind).trans hmoved)) ?_ hmove hbound.2
      intro m hm
      exact List.mem_append_right _ hm
    · exact .inr (hpast.moves hmove hbound.2)

end History

/-! ### Bindings in runs -/

section Runs

variable {actorId : ChildId} {pre seg : List (MailboxEdge M)} {b : MailboxEdge M}
  {s : MailboxSystem M} {incarnation : Incarnation}

/-- The history of a binding in a run. -/
theorem binding_of_run (h : MailboxRun actorId (pre ++ b :: seg) s)
    (hb : b.bound = [incarnation]) (hseg : (flows seg).bound = []) :
    ∃ kind G, b.after.cell.state.phase = .bound ⟨incarnation, kind⟩ ∧
      G.accepted = (flows (b :: seg)).accepted ∧ G.received = (flows (b :: seg)).received ∧
      (Current ⟨incarnation, kind⟩ G s ∨ Past ⟨incarnation, kind⟩ G s) := by
  obtain ⟨hpre, hedge, hrest⟩ := h.split_at
  obtain ⟨token, kind, -, -, -, -, hphase, -, accepted, displaced, hbind, hpromoted, hflow⟩ :=
    bound_edge hedge hb
  have hmoved := hpromoted.trans (moved_of_run hrest)
  refine ⟨kind, _, hphase, ?_, ?_, binding_history (moved_of_run hpre) hbind hmoved ?_⟩
  · rw [flows_cons, hflow]
    rfl
  · rw [flows_cons, hflow]
    rfl
  · rw [Flow.bound_append, hseg]
    rfl

variable {binding : Binding}

theorem Moves.binding_back {s t : MailboxSystem M} {f : Flow M} (h : Moves s f t)
    (hbound : f.bound = [])
    (ht : t.cell.state.phase = .bound binding ∨ t.cell.state.phase = .frozen binding) :
    (s.cell.state.phase = .bound binding ∨ s.cell.state.phase = .frozen binding) ∧
      f.closed = [] := by
  have hkeep : t.cell.state.phase = s.cell.state.phase → f.closed = [] →
      (s.cell.state.phase = .bound binding ∨ s.cell.state.phase = .frozen binding) ∧
        f.closed = [] := fun heq hclosed => ⟨heq ▸ ht, hclosed⟩
  cases h with
  | accept => exact hkeep (MailboxState.push_phase _ _ _) rfl
  | promote => exact hkeep (by simp) rfl
  | take binding' mode envelope state phase taken =>
    exact hkeep (MailboxState.takeNext_frame taken).1 rfl
  | bind => cases hbound
  | freeze binding' bound =>
    obtain ht | ht := ht
    · cases ht
    · obtain rfl := Phase.frozen.inj ht
      exact ⟨.inl bound, rfl⟩
  | close incarnation bound =>
    have hunbound : (s.setCell (s.cell.close incarnation).2.cell).cell.state.phase = .unbound :=
      (MailboxCell.close_frame bound).1
    rw [hunbound] at ht
    obtain ht | ht := ht <;> cases ht
  | terminate live =>
    rw [MailboxCell.prepareTermination, if_neg (by simp [live])] at ht
    obtain ht | ht := ht <;> cases ht
  | refuse | park | skip | drop | retire | reclaim | rewake | configure | clear | discharge =>
    exact hkeep rfl rfl

theorem Moved.binding_back {s t : MailboxSystem M} {G : Flow M} (h : Moved s G t)
    (hbound : G.bound = [])
    (ht : t.cell.state.phase = .bound binding ∨ t.cell.state.phase = .frozen binding) :
    (s.cell.state.phase = .bound binding ∨ s.cell.state.phase = .frozen binding) ∧
      G.closed = [] := by
  induction h with
  | refl => exact ⟨ht, rfl⟩
  | @tail G g t u _ hmove ih =>
    rw [Flow.bound_append, List.append_eq_nil_iff] at hbound
    obtain ⟨hphase, hclosed⟩ := hmove.binding_back hbound.2 ht
    obtain ⟨hstart, hclosed'⟩ := ih hbound.1 hphase
    exact ⟨hstart, by simp [hclosed, hclosed']⟩

/-- A section binds nothing or one incarnation. -/
theorem MailboxEdge.bound_cases (e : MailboxEdge M) :
    e.bound = [] ∨ ∃ incarnation, e.bound = [incarnation] := by
  unfold MailboxEdge.bound
  split
  · split_ifs
    · exact .inl rfl
    · exact .inr ⟨_, rfl⟩
  · exact .inl rfl

/-- The current binding was made by the last bind, and was not closed since. -/
theorem last_bind {tr : List (MailboxEdge M)} (h : MailboxRun actorId tr s)
    (hphase : s.cell.state.phase = .bound binding ∨ s.cell.state.phase = .frozen binding) :
    ∃ pre b seg, tr = pre ++ b :: seg ∧ b.bound = [binding.incarnation] ∧
      (flows seg).bound = [] ∧ (flows seg).closed = [] := by
  revert binding
  refine h.history (P := fun tr s => ∀ {binding : Binding},
    s.cell.state.phase = .bound binding ∨ s.cell.state.phase = .frozen binding →
    ∃ pre b seg, tr = pre ++ b :: seg ∧ b.bound = [binding.incarnation] ∧
      (flows seg).bound = [] ∧ (flows seg).closed = []) ?_ ?_
  · intro binding hphase
    obtain hphase | hphase := hphase <;> cases hphase
  · intro done e _ he _ ih binding hphase
    obtain hbound | ⟨incarnation, hbound⟩ := MailboxEdge.bound_cases e
    · obtain ⟨hbefore, hclosed⟩ := (moved_of_edge he).binding_back hbound hphase
      obtain ⟨pre, b, seg, rfl, hb, hsegBound, hsegClosed⟩ := ih hbefore
      have hlast : flows (seg ++ [e]) = flows seg ++ MailboxEdge.flow e := by
        rw [flows_append, flows_cons, flows_nil, Flow.append_nil]
      refine ⟨pre, b, seg ++ [e], by simp, hb, ?_, ?_⟩
      · rw [hlast, Flow.bound_append, hsegBound]
        exact hbound
      · rw [hlast, Flow.closed_append, hsegClosed]
        exact hclosed
    · obtain ⟨token, kind, -, -, -, -, hafter, -⟩ := bound_edge he hbound
      refine ⟨done, e, [], rfl, ?_, rfl, rfl⟩
      rw [hafter] at hphase
      obtain hphase | hphase := hphase
      · obtain rfl := Phase.bound.inj hphase
        exact hbound
      · cases hphase

end Runs

/-! ### What a receive returns -/

section Receive

variable {binding : Binding} {G : Flow M} {s : MailboxSystem M}

/-- A message that a receive takes was accepted in the current binding. -/
theorem Current.taken (h : Current binding G s) {mode : ReceiveMode}
    {envelope : Envelope (Posted M)} {state : MailboxState (Posted M)}
    (htake : s.cell.state.takeNext binding.kind mode = (some envelope, state)) :
    mode.accepts envelope.acceptedSequence = true ∧
      (∃ a ∈ G.accepted, a.envelope = envelope ∧ a.incarnation = binding.incarnation) ∧
      (binding.kind = .latest → G.acceptedMessages.getLast? = some envelope.message ∧
        envelope.message ∉ G.received) := by
  have hdelivered := h.delivered
  unfold MailboxState.takeNext at htake
  unfold Delivered at hdelivered
  cases hkind : binding.kind with
  | queue capacity =>
    simp only [hkind] at hdelivered htake
    obtain ⟨received, -, hall⟩ := hdelivered
    cases hqueue : s.cell.state.queue with
    | nil => simp [hqueue] at htake
    | cons item rest =>
      simp only [hqueue] at htake
      split_ifs at htake with haccepts
      · obtain ⟨hitem, -⟩ := Prod.mk.inj htake
        obtain rfl := Option.some.inj hitem
        refine ⟨haccepts, ?_, nofun⟩
        have hmem : item ∈ G.accepted.map Acceptance.envelope := by
          rw [hall, hqueue]
          exact List.mem_append_right _ List.mem_cons_self
        obtain ⟨a, ha, rfl⟩ := List.mem_map.mp hmem
        exact ⟨a, ha, rfl, h.incarnation a ha⟩
      · cases htake
  | latest =>
    simp only [hkind] at hdelivered htake
    cases hlatest : s.cell.state.latest with
    | none => simp [hlatest] at htake
    | some item =>
      simp only [hlatest] at htake
      split_ifs at htake with haccepts
      · obtain ⟨hitem, -⟩ := Prod.mk.inj htake
        obtain rfl := Option.some.inj hitem
        obtain ⟨hlast, hnew⟩ := hdelivered.1 item hlatest
        refine ⟨haccepts, ?_, fun _ => ⟨?_, hnew⟩⟩
        · obtain ⟨a, ha, rfl⟩ := List.mem_map.mp (List.mem_of_getLast? hlast)
          exact ⟨a, ha, rfl, h.incarnation a ha⟩
        · rw [Flow.acceptedMessages_eq, List.getLast?_map, hlast]
          rfl
      · cases htake

/-- A receive that returned a message took it from the binding of its own
incarnation. -/
theorem received_some {e : MailboxEdge M} (h : IsMailboxEdge e) {incarnation : Incarnation}
    {mode : ReceiveMode} {m : Posted M} (hinput : e.input = .receive incarnation mode)
    (hresult : e.output.result = .received (some m)) :
    ∃ kind envelope state,
      (e.before.cell.state.phase = .bound ⟨incarnation, kind⟩ ∨
        e.before.cell.state.phase = .frozen ⟨incarnation, kind⟩ ∧ mode = .drain) ∧
      e.before.cell.state.takeNext kind mode = (some envelope, state) ∧ envelope.message = m := by
  obtain ⟨s, step, o, t⟩ := e
  obtain rfl : step = _ := hinput
  obtain ⟨-, message, rfl⟩ | ⟨message, txn, hreceive, rfl, rfl⟩ := receive_edge h
  · cases hresult
  · obtain ⟨rfl, rfl⟩ | ⟨binding, live, envelope, state, hbinding, htake, rfl, -⟩ :=
      MailboxCell.receive_ok hreceive
    · cases hresult
    · obtain rfl : envelope.message = m := by simpa using hresult
      obtain ⟨rfl, hphase⟩ := MailboxCell.receiveBinding_eq_some hbinding
      refine ⟨binding.kind, envelope, state, ?_, htake, rfl⟩
      obtain ⟨-, hbound⟩ | ⟨-, hmode, hfrozen⟩ := hphase
      · exact .inl hbound
      · exact .inr ⟨hfrozen, hmode⟩

/-- A draining receive of the current binding that returns nothing found nothing
stored. -/
theorem received_none {e : MailboxEdge M} (h : IsMailboxEdge e) {incarnation : Incarnation}
    (hinput : e.input = .receive incarnation .drain)
    (hresult : e.output.result = .received none)
    (hphase : e.before.cell.state.phase = .bound ⟨incarnation, .latest⟩ ∨
      e.before.cell.state.phase = .frozen ⟨incarnation, .latest⟩) :
    e.before.cell.state.latest = none := by
  obtain ⟨s, step, o, t⟩ := e
  obtain rfl : step = _ := hinput
  obtain ⟨-, message, rfl⟩ | ⟨message, txn, hreceive, rfl, rfl⟩ := receive_edge h
  · cases hresult
  · have hbinding : ∃ live, s.cell.receiveBinding incarnation .drain =
        some (⟨incarnation, .latest⟩, live) := by
      obtain hbound | hfrozen := hphase
      · exact ⟨true, by simp [MailboxCell.receiveBinding, show s.cell.state.phase = _ from hbound]⟩
      · exact ⟨false, by
          simp [MailboxCell.receiveBinding, show s.cell.state.phase = _ from hfrozen]⟩
    obtain ⟨live, hbinding⟩ := hbinding
    cases hlatest : s.cell.state.latest with
    | none => rfl
    | some item =>
      have htake : s.cell.state.takeNext .latest .drain =
          (some item, { s.cell.state with latest := none }) := by
        simp [MailboxState.takeNext, hlatest, ReceiveMode.accepts]
      obtain ⟨rfl, rfl⟩ | ⟨binding, live', envelope, state, -, -, rfl, -⟩ :=
        MailboxCell.receive_ok hreceive
      · unfold MailboxCell.receive at hreceive
        simp only [hbinding, htake] at hreceive
        cases live with
        | false => simp at hreceive
        | true =>
          simp only [if_true] at hreceive
          split at hreceive <;> simp at hreceive
      · cases hresult

end Receive

/-! ### FIFO -/

variable {s : MailboxSystem M}

/-- Messages are posted in the order of their numbers. -/
theorem Ledger.posted_pairwise {F : Flow M} (hl : Ledger F s) :
    F.posted.Pairwise fun m m' => m.number < m'.number := by
  have hsorted : (F.posted.map Posted.number).Pairwise (· < ·) := by
    rw [hl.numbers]
    exact List.pairwise_lt_range
  exact List.pairwise_map.mp hsorted

/-- Of two submissions the earlier one has the smaller number. -/
theorem Ledger.number_lt_of_earlier {pre mid post : List (MailboxEdge M)} {e e' : MailboxEdge M}
    (hl : Ledger (flows (pre ++ e :: (mid ++ e' :: post))) s) {m m' : Posted M}
    (hm : e.posted = [m]) (hm' : e'.posted = [m']) : m.number < m'.number := by
  have hposted := hl.posted_pairwise
  simp only [flows, List.flatMap_append, List.flatMap_cons, hm, hm', List.cons_append,
    List.nil_append] at hposted
  have htail := (List.pairwise_append.mp hposted).2.1
  exact (List.pairwise_cons.mp htail).1 m' (by simp)

/-- **FIFO acceptance and delivery.**  In any run of a fresh mailbox: sequences
increase strictly in acceptance order; of two accepted messages the one submitted
first has the smaller sequence; within one binding the receives of a queue return
exactly a beginning of the messages accepted in it, in sequence order; and a
receive from a latest mailbox returns the most recently accepted message, which
was not received before, and a draining one returns nothing only when there is no
such message. -/
theorem fifo_delivery {actorId : ChildId} {tr : List (MailboxEdge M)} {s : MailboxSystem M}
    (h : MailboxRun actorId tr s) :
    (flows tr).accepted.Pairwise
        (fun a b => a.envelope.acceptedSequence < b.envelope.acceptedSequence) ∧
      (∀ pre e mid e' post, tr = pre ++ e :: (mid ++ e' :: post) → ∀ m m',
        e.posted = [m] → e'.posted = [m'] → ∀ a ∈ (flows tr).accepted, ∀ b ∈ (flows tr).accepted,
          a.envelope.message = m → b.envelope.message = m' →
          a.envelope.acceptedSequence < b.envelope.acceptedSequence) ∧
      (∀ pre b seg, tr = pre ++ b :: seg → ∀ incarnation capacity, b.bound = [incarnation] →
        b.after.cell.state.phase = .bound ⟨incarnation, .queue capacity⟩ →
        (flows seg).bound = [] →
          (flows (b :: seg)).received <+: (flows (b :: seg)).acceptedMessages) ∧
      ∀ pre b seg e post, tr = pre ++ b :: (seg ++ e :: post) → ∀ incarnation,
        b.bound = [incarnation] → b.after.cell.state.phase = .bound ⟨incarnation, .latest⟩ →
        (flows seg).bound = [] → ∀ i mode message, e.input = .receive i mode →
        e.output.result = .received message →
          (∀ m, message = some m → (flows (b :: seg)).acceptedMessages.getLast? = some m ∧
            m ∉ (flows (b :: seg)).received) ∧
          (message = none → mode = .drain → i = incarnation →
            (e.before.cell.state.phase = .bound ⟨incarnation, .latest⟩ ∨
              e.before.cell.state.phase = .frozen ⟨incarnation, .latest⟩) →
            ∀ m, (flows (b :: seg)).acceptedMessages.getLast? = some m →
              m ∈ (flows (b :: seg)).received) := by
  have hordered := ordered_of_moved (moved_of_run h)
  have hsequences : (flows tr).accepted.Pairwise
      (fun a b => a.envelope.acceptedSequence < b.envelope.acceptedSequence) := by
    have hsorted := List.pairwise_lt_range' (s := 1) (n := s.cell.accepted.current)
    rw [← hordered.sequences, List.pairwise_map] at hsorted
    exact hsorted
  refine ⟨hsequences, ?_, ?_, ?_⟩
  · rintro pre e mid e' post rfl m m' hm hm' a ha b hb rfl rfl
    have hlt := (ledger_of_moved (moved_of_run h)).number_lt_of_earlier hm hm'
    obtain rfl | hab | hba := pairwise_cases (hsequences.and hordered.numbers) ha hb
    · exact absurd hlt (lt_irrefl _)
    · exact hab.1
    · exact absurd hlt (Nat.lt_asymm hba.2)
  · rintro pre b seg rfl incarnation capacity hb hphase hseg
    obtain ⟨kind, G, hphase', haccepted, hreceived, hhistory⟩ := binding_of_run h hb hseg
    obtain rfl : kind = .queue capacity :=
      congrArg Binding.kind (Phase.bound.inj (hphase'.symm.trans hphase))
    rw [← hreceived, Flow.acceptedMessages, ← haccepted]
    obtain hcurrent | hpast := hhistory
    · exact hcurrent.received_prefix rfl
    · exact hpast.received capacity rfl
  · rintro pre b seg e post rfl incarnation hb hphase hseg i mode message hinput hresult
    obtain ⟨hbefore, he⟩ : MailboxRun actorId (pre ++ b :: seg) e.before ∧ IsMailboxEdge e := by
      have hassoc : pre ++ b :: (seg ++ e :: post) = (pre ++ b :: seg) ++ e :: post := by simp
      rw [hassoc] at h
      exact ⟨h.split_at.1, h.split_at.2.1⟩
    obtain ⟨kind, G, hphase', haccepted, hreceived, hhistory⟩ := binding_of_run hbefore hb hseg
    obtain rfl : kind = .latest :=
      congrArg Binding.kind (Phase.bound.inj (hphase'.symm.trans hphase))
    rw [← hreceived, Flow.acceptedMessages, ← haccepted]
    -- a receive reads a bound or frozen mailbox, so the binding is current
    have hcurrent : ∀ {binding : Binding}, (e.before.cell.state.phase = .bound binding ∨
        e.before.cell.state.phase = .frozen binding) →
        Current ⟨incarnation, .latest⟩ G e.before :=
      fun hbinding => hhistory.resolve_right fun hpast => hpast.not_read hbinding
    constructor
    · rintro m rfl
      obtain ⟨kind, envelope, state, hread, htake, rfl⟩ := received_some he hinput hresult
      have hbinding := hread.imp_right And.left
      have hnow := hcurrent hbinding
      obtain rfl : kind = .latest := congrArg Binding.kind (hnow.binding_eq hbinding)
      exact (hnow.taken htake).2.2 rfl
    · rintro rfl rfl rfl hread m hlast
      have hnone := received_none he hinput hresult hread
      have hdelivered := (hcurrent hread).delivered.2 hnone
      have hmap : (G.accepted.map fun a => a.envelope.message) =
          (G.accepted.map Acceptance.envelope).map Envelope.message := by
        rw [List.map_map]
        rfl
      rw [hmap, List.getLast?_map, Option.map_eq_some_iff] at hlast
      obtain ⟨envelope, henvelope, rfl⟩ := hlast
      exact hdelivered envelope henvelope

/-- A one-slot queue is rebound after a restart; the senders parked behind it keep
their order. -/
def restartedQueue : List (MailboxStep ℕ) :=
  [.configure (.queue ⟨1, Nat.one_pos⟩), .bind ⟨0⟩ (sampleIncarnation 1), .submit 10, .submit 11,
    .submit 12, .receive (sampleIncarnation 1) .drain, .close (sampleIncarnation 1),
    .bind ⟨1⟩ (sampleIncarnation 2), .receive (sampleIncarnation 2) .drain]

theorem fifo_delivery_restartedQueue :
    ∃ pre b seg s, MailboxRun ⟨"worker"⟩ (pre ++ b :: seg) s ∧
      (pre ++ b :: seg).map Edge.input = restartedQueue ∧
      (flows (pre ++ b :: seg)).acceptedMessages = [⟨0, 10⟩, ⟨1, 11⟩, ⟨2, 12⟩] ∧
      (flows (pre ++ b :: seg)).received = [⟨0, 10⟩, ⟨2, 12⟩] ∧
      (flows (pre ++ b :: seg)).unread = [⟨1, 11⟩] ∧
      (flows (pre ++ b :: seg)).accepted.Pairwise
        (fun a b => a.envelope.acceptedSequence < b.envelope.acceptedSequence) ∧
      MailboxEdge.bound b = [sampleIncarnation 2] ∧
      (flows (b :: seg)).received <+: (flows (b :: seg)).acceptedMessages := by
  have hexec : ∃ pre b seg s, exec (fun s step => MailboxStep.apply s step)
      (.new ⟨"worker"⟩ : MailboxSystem ℕ) restartedQueue = some (pre ++ b :: seg, s) ∧
      (flows (pre ++ b :: seg)).acceptedMessages = [⟨0, 10⟩, ⟨1, 11⟩, ⟨2, 12⟩] ∧
      (flows (pre ++ b :: seg)).received = [⟨0, 10⟩, ⟨2, 12⟩] ∧
      (flows (pre ++ b :: seg)).unread = [⟨1, 11⟩] ∧ MailboxEdge.bound b = [sampleIncarnation 2] ∧
      b.after.cell.state.phase = .bound ⟨sampleIncarnation 2, .queue ⟨1, Nat.one_pos⟩⟩ ∧
      (flows seg).bound = [] :=
    ⟨[_, _, _, _, _, _, _], _, [_], _, rfl, by decide, by decide, by decide, rfl, rfl, rfl⟩
  obtain ⟨pre, b, seg, s, hrun, haccepted, hreceived, hunread, hbound, hphase, hseg⟩ := hexec
  obtain ⟨hsequences, -, hqueue, -⟩ := fifo_delivery (run_of_exec _ hrun)
  exact ⟨pre, b, seg, s, run_of_exec _ hrun, exec_inputs _ hrun, haccepted, hreceived, hunread,
    hsequences, hbound, hqueue pre b seg rfl _ _ hbound hphase hseg⟩

/-! ### Isolation -/

/-- A sequence that was loaded bounds every earlier acceptance and no later one. -/
theorem sequence_lt_of_loaded {actorId : ChildId} {pre mid : List (MailboxEdge M)}
    {l : MailboxEdge M} (h : MailboxRun actorId (pre ++ l :: mid) s) {limit : AcceptedSequence}
    (hinput : l.input = .acceptedSequence) (hresult : l.output.result = .loaded limit)
    {a : Acceptance (Posted M)} (ha : a ∈ (flows mid).accepted) :
    limit < a.envelope.acceptedSequence := by
  obtain ⟨hpre, hl, hmid⟩ := h.split_at
  obtain ⟨before, step, o, after⟩ := l
  obtain rfl : step = _ := hinput
  simp only [stepEdge, MailboxStep.apply] at hl
  cases hl
  obtain rfl : before.cell.acceptedSequence = limit := MailboxResult.loaded.inj hresult
  have hmoved := moved_of_run hpre
  exact (ordered_of_moved hmoved).sequence_lt
    (ordered_of_moved (hmoved.trans (moved_of_run hmid))) ha

/-- **Incarnation isolation of delivery.**  In any run of a fresh mailbox a receive
of incarnation `i` returns a message only if it was accepted with incarnation `i`
since the last bind, which bound `i` and was not closed, and not under any earlier
binding; a receive bounded by a sequence returns only a message with at most that
sequence, and only from a mailbox that is bound and not frozen; and it returns
neither a message that the receive itself accepts nor one accepted after the bound
was loaded. -/
theorem incarnation_isolation {actorId : ChildId} {tr : List (MailboxEdge M)}
    {s : MailboxSystem M} (h : MailboxRun actorId tr s) :
    ∀ pre e post, tr = pre ++ e :: post → ∀ i mode m, e.input = .receive i mode →
      e.output.result = .received (some m) →
        (∃ pre' b seg, pre = pre' ++ b :: seg ∧ b.bound = [i] ∧ (flows seg).bound = [] ∧
          (flows seg).closed = [] ∧
          (∃ a ∈ (flows (b :: seg)).accepted, a.envelope.message = m ∧ a.incarnation = i ∧
            ∀ limit, mode = .liveThrough limit → a.envelope.acceptedSequence ≤ limit) ∧
          ∀ a ∈ (flows pre').accepted, a.envelope.message ≠ m) ∧
        (∀ limit, mode = .liveThrough limit →
          ∃ kind, e.before.cell.state.phase = .bound ⟨i, kind⟩) ∧
        (∀ a ∈ e.output.effects.accepted, a.envelope.message ≠ m) ∧
        ∀ pre' l mid limit, pre = pre' ++ l :: mid → l.input = .acceptedSequence →
          l.output.result = .loaded limit → mode = .liveThrough limit →
            ∀ a ∈ (flows mid).accepted, a.envelope.message ≠ m := by
  rintro pre e post rfl i mode m hinput hresult
  obtain ⟨hpre, he, -⟩ := h.split_at
  obtain ⟨kind, envelope, state, hread, htake, rfl⟩ := received_some he hinput hresult
  have hbinding := hread.imp_right And.left
  obtain ⟨pre', b, seg, rfl, hb, hsegBound, hsegClosed⟩ := last_bind hpre hbinding
  obtain ⟨kind', G, -, haccepted, -, hhistory⟩ := binding_of_run hpre hb hsegBound
  -- the receive read the current binding
  have hcurrent := hhistory.resolve_right fun hpast => hpast.not_read hbinding
  obtain rfl : kind = kind' := congrArg Binding.kind (hcurrent.binding_eq hbinding)
  obtain ⟨haccepts, ⟨a, ha, rfl, hincarnation⟩, -⟩ := hcurrent.taken htake
  rw [haccepted] at ha
  have hlimit : ∀ limit, mode = .liveThrough limit → a.envelope.acceptedSequence ≤ limit := by
    rintro limit rfl
    simpa [ReceiveMode.accepts] using haccepts
  have hmem : a ∈ (flows (pre' ++ b :: seg)).accepted := by
    rw [flows_append]
    exact List.mem_append_right _ ha
  -- a message is accepted once
  have honce : ∀ {F : Flow M} {t : MailboxSystem M}, Ledger F t → a ∈ F.accepted →
      ∀ a' ∈ F.accepted, a'.envelope.message = a.envelope.message → a' = a :=
    fun hl ha a' ha' hsame => List.inj_on_of_nodup_map hl.nodup_accepted ha' ha hsame
  refine ⟨⟨pre', b, seg, rfl, hb, hsegBound, hsegClosed, ⟨a, ha, rfl, hincarnation, hlimit⟩, ?_⟩,
    ?_, ?_, ?_⟩
  · intro a' ha' hsame
    have hl := ledger_of_moved (moved_of_run hpre)
    have hnodup := hl.nodup_accepted
    rw [flows_append, Flow.acceptedMessages_append, List.nodup_append] at hnodup
    exact hnodup.2.2 _ (List.mem_map_of_mem ha') _ (List.mem_map_of_mem ha) hsame
  · rintro limit rfl
    obtain hbound | ⟨-, hmode⟩ := hread
    · exact ⟨kind, hbound⟩
    · cases hmode
  · intro a' ha' hsame
    have hl := ledger_of_moved ((moved_of_run hpre).trans (moved_of_edge he))
    have hnodup := hl.nodup_accepted
    rw [Flow.acceptedMessages_append, List.nodup_append] at hnodup
    exact hnodup.2.2 _ (List.mem_map_of_mem hmem) _ (List.mem_map_of_mem ha') hsame.symm
  · intro pre'' l mid limit hsplit hload hloaded hmode a' ha' hsame
    have hl := ledger_of_moved (moved_of_run hpre)
    rw [hsplit] at hl hmem hpre
    have ha'' : a' ∈ (flows (pre'' ++ l :: mid)).accepted := by
      rw [flows_append, flows_cons]
      exact List.mem_append_right _ (List.mem_append_right _ ha')
    obtain rfl := honce hl hmem a' ha'' hsame
    exact absurd (sequence_lt_of_loaded hpre hload hloaded ha')
      (Nat.not_lt.mpr (hlimit limit hmode))

/-- A receiver loads the bound and drains up to it; a sender promoted by its first
receive stays for later. -/
def boundedReceives : List (MailboxStep ℕ) :=
  [.configure (.queue ⟨1, Nat.one_pos⟩), .bind ⟨0⟩ (sampleIncarnation 1), .submit 10, .submit 11,
    .acceptedSequence, .receive (sampleIncarnation 1) (.liveThrough 1),
    .receive (sampleIncarnation 1) (.liveThrough 1)]

theorem incarnation_isolation_boundedReceives :
    ∃ pre e post s, MailboxRun ⟨"worker"⟩ (pre ++ e :: post) s ∧
      (pre ++ e :: post).map Edge.input = boundedReceives ∧
      (flows (pre ++ e :: post)).received = [⟨0, 10⟩] ∧
      ∀ a ∈ e.output.effects.accepted, a.envelope.message ≠ ⟨0, 10⟩ := by
  have hexec : ∃ pre e post s, exec (fun s step => MailboxStep.apply s step)
      (.new ⟨"worker"⟩ : MailboxSystem ℕ) boundedReceives = some (pre ++ e :: post, s) ∧
      e.input = .receive (sampleIncarnation 1) (.liveThrough 1) ∧
      e.output.result = .received (some ⟨0, 10⟩) ∧
      (flows (pre ++ e :: post)).received = [⟨0, 10⟩] :=
    ⟨[_, _, _, _, _], _, [_], _, rfl, rfl, rfl, by decide⟩
  obtain ⟨pre, e, post, s, hrun, hinput, hresult, hreceived⟩ := hexec
  exact ⟨pre, e, post, s, run_of_exec _ hrun, exec_inputs _ hrun, hreceived,
    (incarnation_isolation (run_of_exec _ hrun) pre e post rfl _ _ _ hinput hresult).2.2.1⟩

end Shelterwood
