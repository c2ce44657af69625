/-
Shelterwood/MailboxOrder.lean

Acceptance order is submission order.

Sequences are minted one by one, so the acceptances of a run carry the sequences
`1, 2, ...` (`Ordered.sequences`).  That acceptance follows submission rests on
three facts which hold together: accepted messages were submitted in the order of
their acceptance, parked messages in the order of their references, and every
parked sender that still waits was submitted after everything accepted so far.
-/
import Shelterwood.MailboxConservation
import Shelterwood.MailboxEvidence

namespace Shelterwood

variable {M : Type*}

/-- Two members of a list with a pairwise relation. -/
theorem pairwise_cases {α : Type*} {R : α → α → Prop} {l : List α} (h : l.Pairwise R) {x y : α}
    (hx : x ∈ l) (hy : y ∈ l) : x = y ∨ R x y ∨ R y x := by
  induction l with
  | nil => cases hx
  | cons a rest ih =>
    obtain ⟨ha, hrest⟩ := List.pairwise_cons.mp h
    obtain rfl | hx' := List.mem_cons.mp hx <;> obtain rfl | hy' := List.mem_cons.mp hy
    · exact .inl rfl
    · exact .inr (.inl (ha y hy'))
    · exact .inr (.inr (ha x hx'))
    · exact ih hrest hx' hy'

/-- What a move accepts. -/
theorem Moves.accepted_cases {s t : MailboxSystem M} {f : Flow M} (h : Moves s f t) :
    (f.accepted = [] ∧ t.cell.accepted = s.cell.accepted) ∨
      (∃ body binding, s.cell.state.waiters.isEmpty = true ∧
        f.accepted = [s.cell.acceptance binding (s.post body)] ∧ f.parked = [] ∧
        s.cell.state.phase = .bound binding ∧
        t = { s with posted := s.posted + 1, cell := s.cell.push binding (s.post body) }) ∨
      ∃ binding reference waiters operation message observed,
        s.cell.state.phase = .bound binding ∧
        s.cell.state.waiters.popFront = some (reference, waiters) ∧
        s.cell.operations[reference]? = some operation ∧
        operation.outcome = .waiting message observed ∧
        f.accepted = [s.cell.acceptance binding message] ∧ f.parked = [] ∧
        t = s.promoted binding reference waiters message := by
  cases h with
  | accept body binding bound idle room =>
    exact .inr (.inl ⟨body, binding, idle, rfl, rfl, bound, rfl⟩)
  | promote binding reference waiters operation message observed bound room pop get waiting =>
    exact .inr (.inr ⟨binding, reference, waiters, operation, message, observed, bound, pop, get,
      waiting, rfl, rfl, rfl⟩)
  | close incarnation bound =>
    refine .inl ⟨rfl, ?_⟩
    rw [MailboxCell.close, if_pos bound]
    rfl
  | terminate live =>
    refine .inl ⟨rfl, ?_⟩
    rw [MailboxCell.prepareTermination, if_neg (by simp [live])]
    rfl
  | refuse | park | skip | drop | take | retire | reclaim | rewake | configure | bind | freeze
  | clear | discharge => exact .inl ⟨rfl, rfl⟩

/-- Acceptance order, submission order and parking order agree. -/
structure Ordered (F : Flow M) (s : MailboxSystem M) : Prop where
  sequences : F.accepted.map (fun a => a.envelope.acceptedSequence) =
    List.range' 1 s.cell.accepted.current
  numbers : F.accepted.Pairwise fun a b => a.envelope.message.number < b.envelope.message.number
  parked : F.parked.Pairwise fun p q => p.1 < q.1 ∧ p.2.number < q.2.number
  parked_lt : ∀ p ∈ F.parked, p.2.number < s.posted
  /-- A waiting sender was submitted after everything accepted so far. -/
  behind : s.cell.state.phase.isTerminal = false → ∀ a ∈ F.accepted, ∀ p ∈ F.parked,
    s.waits p.1 = true → a.envelope.message.number < p.2.number

section Ordered

variable {F f : Flow M} {s t : MailboxSystem M}

/-- A waiting sender of a live mailbox is in the queue. -/
theorem Registered.entry_of_waits (h : Registered s) (hlive : s.cell.state.phase.isTerminal = false)
    {reference : OperationRef} (hwaits : s.waits reference = true) :
    s.cell.state.waiters.entries.get? (reference + 1) = some reference := by
  obtain ⟨-, -, -, henrolled⟩ | ⟨hterminal, -⟩ := h
  · cases hget : s.cell.operations[reference]? with
    | none => simp [MailboxSystem.waits, hget] at hwaits
    | some operation =>
      rw [MailboxSystem.waits, hget, Option.any_some] at hwaits
      exact (henrolled.waiting reference operation hget).mp hwaits
  · rw [hlive] at hterminal
    cases hterminal

/-- The reference of a parked message is in the heap. -/
theorem Custody.reference_lt (hc : Custody F s) {p : OperationRef × Posted M}
    (hp : p ∈ F.parked) : p.1 < s.cell.operations.length := by
  have hmem := List.mem_map_of_mem (f := Prod.fst) hp
  rw [hc.references] at hmem
  exact List.mem_range.mp hmem

theorem Ledger.accepted_number_lt (hl : Ledger F s) {a : Acceptance (Posted M)}
    (ha : a ∈ F.accepted) : a.envelope.message.number < s.posted :=
  hl.number_lt (hl.accepted_subset (List.mem_map_of_mem ha))

theorem Moves.posted_le (h : Moves s f t) : s.posted ≤ t.posted := by
  obtain ⟨-, ht⟩ | ⟨body, -, ht⟩ := h.posted_cases
  · exact le_of_eq ht.symm
  · exact ht ▸ Nat.le_succ _

/-- A move that accepts nothing. -/
theorem Ordered.keep (ho : Ordered F s) (hl : Ledger F s) (hc : Custody F s)
    (h : Moves s f t) (haccepted : f.accepted = []) (hcounter : t.cell.accepted = s.cell.accepted) :
    Ordered (F ++ f) t where
  sequences := by
    rw [Flow.accepted_append, haccepted, List.append_nil, hcounter, ho.sequences]
  numbers := by
    rw [Flow.accepted_append, haccepted, List.append_nil]
    exact ho.numbers
  parked := by
    obtain ⟨hparked, -⟩ | ⟨body, rfl, -, rfl⟩ := h.parked_cases
    · rw [Flow.parked_append, hparked, List.append_nil]
      exact ho.parked
    · rw [Flow.parked_append, List.pairwise_append]
      refine ⟨ho.parked, List.pairwise_singleton _ _, ?_⟩
      intro p hp q hq
      obtain rfl := List.mem_singleton.mp hq
      exact ⟨hc.reference_lt hp, ho.parked_lt p hp⟩
  parked_lt := by
    intro p hp
    rw [Flow.parked_append, List.mem_append] at hp
    obtain hp | hp := hp
    · exact (ho.parked_lt p hp).trans_le h.posted_le
    · obtain ⟨hparked, -⟩ | ⟨body, rfl, -, rfl⟩ := h.parked_cases
      · rw [hparked] at hp
        cases hp
      · obtain rfl := List.mem_singleton.mp hp
        exact Nat.lt_succ_self _
  behind := by
    intro hlive a ha p hp hwaits
    rw [Flow.accepted_append, haccepted, List.append_nil] at ha
    rw [Flow.parked_append, List.mem_append] at hp
    obtain hp | hp := hp
    · have hlive' : s.cell.state.phase.isTerminal = false := by
        rw [Bool.eq_false_iff]
        intro hterminal
        rw [(h.terminal_absorbing hterminal).1, hterminal] at hlive
        cases hlive
      exact ho.behind hlive' a ha p hp
        ((waits_back (.single h) (hc.reference_lt hp)).2 hwaits)
    · obtain ⟨hparked, -⟩ | ⟨body, rfl, -, rfl⟩ := h.parked_cases
      · rw [hparked] at hp
        cases hp
      · obtain rfl := List.mem_singleton.mp hp
        exact hl.accepted_number_lt ha

/-- Appending an acceptance that comes after all others. -/
theorem Ordered.accept (ho : Ordered F s) (hc : Custody F s) (h : Moves s f t) {binding : Binding}
    {message : Posted M} (hlive : s.cell.state.phase.isTerminal = false)
    (haccepted : f.accepted = [s.cell.acceptance binding message]) (hparked : f.parked = [])
    (hcounter : t.cell.accepted = ⟨s.cell.accepted.current + 1⟩)
    (hlast : ∀ a ∈ F.accepted, a.envelope.message.number < message.number)
    (hbehind : ∀ p ∈ F.parked, t.waits p.1 = true → message.number < p.2.number) :
    Ordered (F ++ f) t where
  sequences := by
    rw [Flow.accepted_append, haccepted, List.map_append, ho.sequences, hcounter,
      List.range'_1_concat, Nat.add_comm 1]
    rfl
  numbers := by
    rw [Flow.accepted_append, haccepted, List.pairwise_append]
    refine ⟨ho.numbers, List.pairwise_singleton _ _, ?_⟩
    intro a ha b hb
    obtain rfl := List.mem_singleton.mp hb
    exact hlast a ha
  parked := by
    rw [Flow.parked_append, hparked, List.append_nil]
    exact ho.parked
  parked_lt := by
    intro p hp
    rw [Flow.parked_append, hparked, List.append_nil] at hp
    exact (ho.parked_lt p hp).trans_le h.posted_le
  behind := by
    intro _ a ha p hp hwaits
    rw [Flow.accepted_append, haccepted, List.mem_append] at ha
    rw [Flow.parked_append, hparked, List.append_nil] at hp
    obtain ha | ha := ha
    · exact ho.behind hlive a ha p hp
        ((waits_back (.single h) (hc.reference_lt hp)).2 hwaits)
    · obtain rfl := List.mem_singleton.mp ha
      exact hbehind p hp hwaits

theorem Ordered.moves (ho : Ordered F s) (hl : Ledger F s) (hc : Custody F s) (hr : Registered s)
    (h : Moves s f t) : Ordered (F ++ f) t := by
  obtain ⟨haccepted, hcounter⟩ | ⟨body, binding, hidle, haccepted, hparked, hbound, rfl⟩ |
      ⟨binding, reference, waiters, operation, message, observed, hbound, hpop, hget, hwaiting,
        haccepted, hparked, rfl⟩ := h.accepted_cases
  · exact ho.keep hl hc h haccepted hcounter
  · -- accepted at once: submitted after everything, and nobody is parked
    have hlive : s.cell.state.phase.isTerminal = false := by
      rw [hbound]
      rfl
    refine ho.accept hc h hlive haccepted hparked rfl (fun a ha => hl.accepted_number_lt ha) ?_
    intro p hp hwaits
    have hentry := hr.entry_of_waits hlive
      ((waits_back (.single h) (hc.reference_lt hp)).2 hwaits)
    rw [WaiterQueue.get?_of_isEmpty hidle] at hentry
    cases hentry
  · -- promoted: the oldest waiter, which everything accepted precedes
    have hlive : s.cell.state.phase.isTerminal = false := by
      rw [hbound]
      rfl
    obtain ⟨m, hm, howns⟩ := hc.owner reference operation hget
    obtain rfl : message = m := by simpa only [Owns, hwaiting] using howns
    have hwaits : s.waits reference = true := by
      rw [MailboxSystem.waits, hget, Option.any_some]
      exact SendOperation.isWaiting_iff.mpr ⟨message, observed, hwaiting⟩
    refine ho.accept hc h hlive haccepted hparked rfl
      (fun a ha => ho.behind hlive a ha _ hm hwaits) ?_
    intro p hp hwaits'
    have hentry := hr.entry_of_waits hlive
      ((waits_back (.single h) (hc.reference_lt hp)).2 hwaits')
    -- the popped id is the least one, so a sender that still waits parked later
    have hlt : reference < p.1 := by
      obtain ⟨id, hid, -, hleast⟩ := WaiterQueue.popFront_erase hpop
      have hle := hleast _ _ hentry
      have hne : reference ≠ p.1 := by
        rintro rfl
        rw [MailboxSystem.waits, MailboxSystem.promoted_operations,
          getElem?_set_of_some hget, if_pos rfl] at hwaits'
        cases hwaits'
      have hids : id = reference + 1 := by
        obtain ⟨-, -, -, henrolled⟩ | ⟨hterminal, -⟩ := hr
        · exact (henrolled.entry id reference hid).1
        · rw [hlive] at hterminal
          cases hterminal
      rw [hids] at hle
      exact lt_of_le_of_ne (Nat.le_of_succ_le_succ hle) hne
    obtain heq | hlt' | hlt' := pairwise_cases ho.parked hm hp
    · exact absurd hlt (heq ▸ lt_irrefl _)
    · exact hlt'.2
    · exact absurd hlt (Nat.lt_asymm hlt'.1)

theorem ordered_of_moved {actorId : ChildId} (h : Moved (.new actorId) F s) : Ordered F s := by
  induction h with
  | refl => exact ⟨rfl, .nil, .nil, by simp, by simp⟩
  | tail hmoved hmove ih =>
    exact ih.moves (ledger_of_moved hmoved) (custody_of_moved hmoved)
      (registered_of_moved hmoved) hmove

/-- Later acceptances have later sequences. -/
theorem Ordered.sequence_lt {G : Flow M} (ho : Ordered F s) (ho' : Ordered (F ++ G) t)
    {a : Acceptance (Posted M)} (ha : a ∈ G.accepted) :
    s.cell.accepted.current < a.envelope.acceptedSequence := by
  have hall := ho'.sequences
  rw [Flow.accepted_append, List.map_append, ho.sequences] at hall
  have hlength := congrArg List.length hall
  simp only [List.length_append, List.length_range', List.length_map] at hlength
  rw [← hlength, ← List.range'_append_1, List.append_cancel_left_eq] at hall
  have hmem := List.mem_map_of_mem (f := fun a : Acceptance (Posted M) =>
    a.envelope.acceptedSequence) ha
  rw [hall, List.mem_range'_1] at hmem
  omega

end Ordered

end Shelterwood
