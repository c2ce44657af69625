/-
Shelterwood/LifecycleStream.lean

Lifecycle streams are complete.

Each step appends emissions to the log of the tree and, to the channel of every
scope that is open and heard, what that scope sees of them (`Logs`).  From this
a subscription's stream is the log since it joined, seen from its scope.  The
reader's answers account for a beginning of the stream, and a closed channel
gets nothing more, so an empty answer after the closure flag was read is final.
The channel's own closure is reported to a reader that has caught up.

The numbers of a scope's emissions are `1, 2, ...` up to its counter
(`TreeRun.numbers`), and a cut shows the counters of its moment; so a cut's
number separates the events before it from the events after it.
-/
import Shelterwood.SnapshotCoherence

namespace Shelterwood

section Trees

variable [TokioBroadcast LifecycleEvent]

open ObservationTxn

/-! ### What a scope sees of an emission -/

/-- The emission went along the parent links of its moment. -/
structure Emission.Propagated (e : Emission) : Prop where
  path : e.event.scopePath = []
  climbs : Climbs e.links e.event.scope e.chain
  nodup : e.chain.Nodup

variable {f : Forest}

theorem Forest.emission_propagated (hf : f.WellLinked) (s : Membership)
    (kind : LifecycleEventKind) :
    (f.emission s kind).Propagated :=
  ⟨rfl, hf.chain_climbs s, hf.chain_nodup s⟩

/-! ### What a step logs -/

namespace Forest

/-- The emissions of one scope. -/
def emissionsOf (log : List Emission) (s : Membership) : List Emission :=
  log.filter fun e => e.event.scope = s

omit [TokioBroadcast LifecycleEvent] in
theorem emissionsOf_append (log more : List Emission) (s : Membership) :
    emissionsOf (log ++ more) s = emissionsOf log s ++ emissionsOf more s := List.filter_append ..

/-- Emissions were appended to the log, numbered on from the counters. -/
structure Appends (f f' : Forest) (new : List Emission) : Prop where
  emitted : f'.emitted = f.emitted ++ new
  ids : f'.ids = f.ids
  counter : ∀ x, (f'.cells x).lifecycleSeq = (f.cells x).lifecycleSeq + (emissionsOf new x).length
  seqs : ∀ x, (emissionsOf new x).map (·.event.seq) =
    List.range' ((f.cells x).lifecycleSeq + 1) (emissionsOf new x).length
  propagated : ∀ e ∈ new, e.Propagated

namespace Appends

variable {f f' f'' : Forest} {new more : List Emission}

/-- Nothing was appended. -/
theorem of_same (hemitted : f'.emitted = f.emitted) (hids : f'.ids = f.ids)
    (hcounter : ∀ x, (f'.cells x).lifecycleSeq = (f.cells x).lifecycleSeq) : f.Appends f' [] :=
  ⟨by rw [hemitted, List.append_nil], hids, hcounter, fun _ => rfl, by rintro e ⟨⟩⟩

theorem trans (h : f.Appends f' new) (h' : f'.Appends f'' more) : f.Appends f'' (new ++ more) where
  emitted := by rw [h'.emitted, h.emitted, List.append_assoc]
  ids := h'.ids.trans h.ids
  counter := fun x => by
    rw [h'.counter, h.counter, emissionsOf_append, List.length_append, Nat.add_assoc]
  seqs := fun x => by
    rw [emissionsOf_append, List.map_append, h.seqs, h'.seqs, h.counter, List.length_append,
      ← List.range'_append_1, Nat.add_right_comm]
  propagated := fun e he => (List.mem_append.1 he).elim (h.propagated e) (h'.propagated e)

end Appends

end Forest

/-- The channel takes events: somebody listens, and it is not closed. -/
def TreeCell.hears (cell : TreeCell) : Bool := cell.lifecycle.hasReceivers && !cell.scope.closed

/-- What was appended was also sent to the channels that see it. -/
structure Forest.Logs (f f' : Forest) (new : List Emission) : Prop extends f.Appends f' new where
  closed : ∀ x, (f'.cells x).scope.closed = (f.cells x).scope.closed
  subscriptions : ∀ x, (f'.cells x).lifecycle.subscriptions = (f.cells x).lifecycle.subscriptions
  sent : ∀ x, (f'.cells x).lifecycle.sent = (f.cells x).lifecycle.sent ++
    if (f.cells x).hears then new.filterMap (·.seenFrom f.ids x) else []

namespace Forest.Logs

variable {f f' f'' : Forest} {new more : List Emission}

theorem hears (h : f.Logs f' new) (x : Membership) : (f'.cells x).hears = (f.cells x).hears := by
  simp only [TreeCell.hears, LifecycleHub.hasReceivers, h.subscriptions, h.closed]

theorem trans (h : f.Logs f' new) (h' : f'.Logs f'' more) : f.Logs f'' (new ++ more) where
  toAppends := h.toAppends.trans h'.toAppends
  closed := fun x => (h'.closed x).trans (h.closed x)
  subscriptions := fun x => (h'.subscriptions x).trans (h.subscriptions x)
  sent := fun x => by
    rw [h'.sent, h.sent, h.hears, h.ids, List.append_assoc]
    split_ifs
    · rw [List.filterMap_append]
    · rfl

theorem of_sameLog (h : f.SameLog f') : f.Logs f' [] where
  toAppends := .of_same h.emitted (funext fun m => congrArg Prod.fst (h.log m))
    fun x => congrArg (fun log => log.2.1) (h.log x)
  closed := fun x => congrArg (fun log => log.2.2.2.2) (h.log x)
  subscriptions := fun x => congrArg (fun log => log.2.2.1.subscriptions) (h.log x)
  sent := fun x => by
    have hsent := congrArg (fun log => log.2.2.1.sent) (h.log x)
    simpa [TreeCell.log] using hsent

theorem refl (f : Forest) : f.Logs f [] := of_sameLog ⟨rfl, rfl, fun _ => rfl⟩

end Forest.Logs

theorem ObservationTxn.emit_logs {txn : ObservationTxn} (hf : txn.forest.WellLinked)
    (s : Membership) (kind : LifecycleEventKind) :
    txn.forest.Logs (txn.emit s kind).forest [txn.forest.emission s kind] := by
  have hlifecycle : ∀ x, ((txn.emit s kind).forest.cells x).lifecycle =
      ((txn.forest.emission s kind).seenFrom txn.forest.ids x).elim (txn.forest.cells x).lifecycle
        ((txn.forest.cells x).lifecycle.publish (txn.forest.cells x).scope.closed) := by
    intro x
    rw [emit_cells hf]
  refine ⟨⟨txn.emit_emitted s kind, ?_, ?_, ?_, ?_⟩, ?_, ?_, ?_⟩
  · funext m
    simp only [Forest.ids, Forest.member, emit_cells hf]
  · intro x
    rw [emit_cells hf]
    by_cases hx : x = s
    · subst hx
      simp [Forest.emissionsOf, Forest.emission]
    · simp [Forest.emissionsOf, Forest.emission, hx, Ne.symm hx]
  · intro x
    by_cases hx : x = s
    · subst hx
      simp [Forest.emissionsOf, Forest.emission]
    · simp [Forest.emissionsOf, Forest.emission, Ne.symm hx]
  · intro e he
    rw [List.mem_singleton.1 he]
    exact Forest.emission_propagated hf s kind
  · intro x
    rw [emit_cells hf]
  · intro x
    rw [hlifecycle]
    cases (txn.forest.emission s kind).seenFrom txn.forest.ids x with
    | none => rfl
    | some event =>
      simp only [Option.elim, LifecycleHub.publish]
      split_ifs <;> rfl
  · intro x
    rw [hlifecycle]
    cases hseen : (txn.forest.emission s kind).seenFrom txn.forest.ids x with
    | none => simp [hseen]
    | some event =>
      cases hreceivers : (txn.forest.cells x).lifecycle.hasReceivers <;>
        cases hclosed : (txn.forest.cells x).scope.closed <;>
        simp [hseen, LifecycleHub.sent_publish, TreeCell.hears, hreceivers, hclosed]

theorem TreeMoves.logs {quiet : Bool} {txn t : ObservationTxn} {D : Membership → Prop}
    (hf : txn.forest.WellLinked) (h : TreeMoves quiet txn D t) :
    ∃ new, txn.forest.Logs t.forest new := by
  induction h with
  | start => exact ⟨[], .refl _⟩
  | edit forest R _ hlog _ _ _ _ _ ih =>
    obtain ⟨new, hnew⟩ := ih
    exact ⟨_, hnew.trans (.of_sameLog hlog)⟩
  | publish s _ _ ih => rwa [publishSnapshot_forest]
  | emit s kind h _ _ _ ih =>
    obtain ⟨new, hnew⟩ := ih
    exact ⟨_, hnew.trans (emit_logs (h.wellLinked hf) s kind)⟩

/-- Only snapshot hubs, and perhaps a closed flag, changed. -/
structure Forest.SameStream (f f' : Forest) : Prop where
  emitted : f'.emitted = f.emitted
  ids : f'.ids = f.ids
  lifecycleSeq : ∀ x, (f'.cells x).lifecycleSeq = (f.cells x).lifecycleSeq
  lifecycle : ∀ x, (f'.cells x).lifecycle = (f.cells x).lifecycle
  closed : ∀ x, (f.cells x).scope.closed = true → (f'.cells x).scope.closed = true

theorem Forest.SameStream.refl (f : Forest) : f.SameStream f :=
  ⟨rfl, rfl, fun _ => rfl, fun _ => rfl, fun _ h => h⟩

variable {f' : Forest}

theorem Forest.SameStream.trans {f'' : Forest} (h : f.SameStream f') (h' : f'.SameStream f'') :
    f.SameStream f'' where
  emitted := h'.emitted.trans h.emitted
  ids := h'.ids.trans h.ids
  lifecycleSeq := fun x => (h'.lifecycleSeq x).trans (h.lifecycleSeq x)
  lifecycle := fun x => (h'.lifecycle x).trans (h.lifecycle x)
  closed := fun x hx => h'.closed x (h.closed x hx)

namespace ObservationTxn

theorem commit_sameStream (txn : ObservationTxn) : txn.forest.SameStream txn.commit where
  emitted := txn.commit_emitted
  ids := funext (txn.commit_view (fun cell => cell.scope.member.id) fun _ _ => rfl)
  lifecycleSeq := txn.commit_view TreeCell.lifecycleSeq fun _ _ => rfl
  lifecycle := txn.commit_view TreeCell.lifecycle fun _ _ => rfl
  closed := fun x hx =>
    (txn.commit_view (fun cell => cell.scope.closed) (fun _ _ => rfl) x).trans hx

theorem closeObservation_closed (txn : ObservationTxn) (s x : Membership)
    (h : (txn.forest.cells x).scope.closed = true) :
    ((txn.closeObservation s).forest.cells x).scope.closed = true := by
  have hsnapshot := txn.closeSnapshot_view (fun cell => cell.scope.closed) (fun _ _ => rfl) s x
  unfold closeObservation
  split_ifs
  · exact h
  · simp only [ObservationTxn.modify]
    by_cases hx : x = s
    · subst hx
      rw [Forest.modify_cells_self]
      rfl
    · rw [Forest.modify_cells_of_ne _ _ hx]
      exact hsnapshot.trans h

theorem closeObservation_sameStream (txn : ObservationTxn) (s : Membership) :
    txn.forest.SameStream (txn.closeObservation s).forest where
  emitted := (txn.closeObservation_forest s).2.1
  ids := funext (txn.closeObservation_view (fun cell => cell.scope.member.id) (fun _ _ _ => rfl) s)
  lifecycleSeq := txn.closeObservation_view TreeCell.lifecycleSeq (fun _ _ _ => rfl) s
  lifecycle := txn.closeObservation_view TreeCell.lifecycle (fun _ _ _ => rfl) s
  closed := txn.closeObservation_closed s

end ObservationTxn

/-- What a step does to the log and the channels. -/
structure StepLogs (reads : Bool) (f f' : Forest) (new : List Emission) : Prop
    extends f.Appends f' new where
  closed : ∀ x, (f.cells x).scope.closed = true → (f'.cells x).scope.closed = true
  subscriptions : reads = false →
    ∀ x, (f'.cells x).lifecycle.subscriptions = (f.cells x).lifecycle.subscriptions
  sent : ∀ x, (f'.cells x).lifecycle.sent = (f.cells x).lifecycle.sent ++
    if (f.cells x).hears then new.filterMap (·.seenFrom f.ids x) else []

variable {reads : Bool} {new : List Emission}

theorem Forest.Logs.step {f'' : Forest} (h : f.Logs f' new) (h' : f'.SameStream f'') :
    StepLogs reads f f'' new where
  toAppends := by
    have happends := h.toAppends.trans (.of_same h'.emitted h'.ids h'.lifecycleSeq)
    rwa [List.append_nil] at happends
  closed := fun x hx => h'.closed x ((h.closed x).trans hx)
  subscriptions := fun _ x => by rw [h'.lifecycle, h.subscriptions]
  sent := fun x => by rw [h'.lifecycle, h.sent]

/-- A change of hubs alone. -/
theorem Forest.SameStream.modify (f : Forest) (s : Membership) (snapshots : TreeCell → TreeCell)
    (h : ∀ cell, ∃ hub, snapshots cell = { cell with snapshots := hub }) :
    f.SameStream (f.modify s snapshots) := by
  have hview : ∀ {β : Type} (view : TreeCell → β),
      (∀ cell hub, view { cell with snapshots := hub } = view cell) →
      ∀ x, view ((f.modify s snapshots).cells x) = view (f.cells x) := by
    intro β view hkeeps x
    refine f.view_modify view s snapshots ?_ x
    obtain ⟨hub, heq⟩ := h (f.cells s)
    rw [heq, hkeeps]
  exact
    { emitted := rfl
      ids := funext (hview (fun cell => cell.scope.member.id) fun _ _ => rfl)
      lifecycleSeq := hview TreeCell.lifecycleSeq fun _ _ => rfl
      lifecycle := hview TreeCell.lifecycle fun _ _ => rfl
      closed := fun x hx => (hview (fun cell => cell.scope.closed) (fun _ _ => rfl) x).trans hx }

theorem GateMoves.stepLogs {quiet : Bool} {g g' : GateState} (hf : g.txn.forest.WellLinked)
    (h : GateMoves quiet reads g g') : ∃ new, StepLogs reads g.txn.forest g'.txn.forest new := by
  have hsame : ∀ {f f' : Forest}, f.SameStream f' → ∃ new, StepLogs reads f f' new :=
    fun h => ⟨[], (Forest.Logs.refl _).step h⟩
  cases h with
  | writes _ _ hmoves =>
    obtain ⟨new, hnew⟩ := hmoves.logs hf
    exact ⟨new, hnew.step (.refl _)⟩
  | wrote hwrote =>
    obtain ⟨t, hmoves, rfl | ⟨s, -, rfl⟩⟩ := hwrote
    · obtain ⟨new, hnew⟩ := hmoves.logs hf
      exact ⟨new, hnew.step (commit_sameStream _)⟩
    · -- the closure comes after the last emission
      obtain ⟨new, hnew⟩ := hmoves.logs hf
      exact ⟨new, hnew.step ((t.closeObservation_sameStream s).trans
        (t.closeObservation s).commit_sameStream)⟩
  | @commit txn status _ => exact hsame txn.commit_sameStream
  | opened | panicked => exact hsame (.refl _)
  | @subscribed txn s _ => exact hsame (.modify _ s _ fun cell => ⟨_, rfl⟩)
  | receivers n _ _ => exact hsame (.modify _ _ _ fun cell => ⟨_, rfl⟩)
  | @lifecycle _ s lifecycle hreads hevents =>
    have hview : ∀ {β : Type} (view : TreeCell → β),
        view { g.txn.forest.cells s with lifecycle } = view (g.txn.forest.cells s) →
        ∀ x, view ((g.txn.forest.setLifecycle s lifecycle).cells x) =
          view (g.txn.forest.cells x) :=
      fun view => g.txn.forest.view_modify view s (fun cell => { cell with lifecycle })
    refine ⟨[], .of_same rfl (funext (hview (fun cell => cell.scope.member.id) rfl))
      (hview TreeCell.lifecycleSeq rfl), ?_, ?_, ?_⟩
    · exact fun x hx => (hview (fun cell => cell.scope.closed) rfl x).trans hx
    · intro hwrites
      rw [hreads] at hwrites
      cases hwrites
    · intro x
      have hsent := hview (fun cell => cell.lifecycle.sent) hevents x
      simpa using hsent

/-! ### Subscriptions -/

/-- What a receive returned, as an answer of the channel. -/
def LifecycleReceive.toBroadcast : LifecycleReceive → BroadcastReceive LifecycleEvent
  | .event value => .item value
  | .lagged dropped => .lagged dropped
  | .empty => .empty
  | .closed => .closed

omit [TokioBroadcast LifecycleEvent] in
/-- The flag makes a closure of an empty channel, to which the same reader has come. -/
theorem LifecycleReceive.answers_ofBroadcast {sent : List LifecycleEvent} {j j' : ℕ}
    {answer : BroadcastReceive LifecycleEvent} (h : Broadcast.Answers sent j answer j')
    (closed : Bool) : Broadcast.Answers sent j (ofBroadcast closed answer).toBroadcast j' := by
  cases h with
  | item he => exact .item he
  | lagged dropped hle => exact .lagged dropped hle
  | closed hle => exact .closed hle
  | empty hle =>
    cases closed with
    | true => exact .closed hle
    | false => exact .empty hle

omit [TokioBroadcast LifecycleEvent] in
theorem LifecycleReceive.flag_of_closed {closed : Bool} {answer : BroadcastReceive LifecycleEvent}
    (h : ofBroadcast closed answer = .closed) : closed = true ∨ answer = .closed := by
  cases answer with
  | item | lagged => cases h
  | closed => exact .inr rfl
  | empty =>
    cases closed with
    | true => exact .inl rfl
    | false => cases h

/-- What a step does to one subscription, and what it answers it. -/
inductive SubscriptionStep (closed : Bool) (hub : LifecycleHub) (r : LifecycleEvents) :
    Option LifecycleReceive → LifecycleEvents → Prop
  | kept : SubscriptionStep closed hub r none r
  | read : SubscriptionStep closed hub r none { r with signal := some closed }
  | answered {flag : Bool} : r.signal = some flag →
      SubscriptionStep closed hub r
        (some (.ofBroadcast flag (TokioBroadcast.tryReceive hub.events r.events).1))
        ⟨(TokioBroadcast.tryReceive hub.events r.events).2.1, none, r.dropped⟩
  | dropped : SubscriptionStep closed hub r none { r with dropped := true }

namespace LifecycleHub

variable {hub hub' : LifecycleHub} {i k : ℕ} {r : LifecycleEvents}

/-- Setting one subscription leaves the others. -/
theorem getElem?_set {r' : LifecycleEvents} (hr : hub.subscriptions[k]? = some r) :
    (hub.subscriptions.set i r')[k]? = some (if i = k then r' else r) := by
  have hk := (List.getElem?_eq_some_iff.1 hr).1
  rw [List.getElem?_set]
  by_cases hik : i = k
  · subst hik
    rw [if_pos rfl, if_pos rfl, if_pos hk]
  · rw [if_neg hik, if_neg hik, hr]

variable {closed : Bool} {old : LifecycleHub}

/-- The channel tells the subscription that it is closed. -/
def FindsClosed (hub : LifecycleHub) (k : ℕ) : Prop :=
  ∃ r, hub.subscriptions[k]? = some r ∧
    (TokioBroadcast.tryReceive hub.events r.events).1 = .closed

end LifecycleHub

variable {r : LifecycleEvents} {s : Membership}

namespace Forest

/-- The channel of a scope. -/
def sent (f : Forest) (s : Membership) : List LifecycleEvent := (f.cells s).lifecycle.sent

/-- A subscription that has not been dropped. -/
def Subscribed (f : Forest) (s : Membership) (k : ℕ) : Prop :=
  ∃ r, (f.cells s).lifecycle.subscriptions[k]? = some r ∧ r.dropped = false

theorem Subscribed.hasReceivers {f : Forest} {s : Membership} {k : ℕ} (h : f.Subscribed s k) :
    (f.cells s).lifecycle.hasReceivers = true := by
  obtain ⟨r, hr, hdropped⟩ := h
  exact List.any_eq_true.2 ⟨r, List.mem_of_getElem? hr, by simp [hdropped]⟩

end Forest

/-- The channel gets what the scope sees of the step, unless it was closed. -/
theorem StepLogs.sent_of_subscribed (h : StepLogs reads f f' new) {k : ℕ}
    (hsub : f.Subscribed s k) :
    f'.sent s = f.sent s ++ if (f.cells s).scope.closed then []
      else new.filterMap (·.seenFrom f.ids s) := by
  rw [Forest.sent, h.sent, TreeCell.hears, hsub.hasReceivers]
  cases (f.cells s).scope.closed <;> rfl

/-- A subscription after some answers: they account for the channel up to its
position, and while it is open the channel is the log seen from the scope. -/
structure Listening (s : Membership) (k start base : ℕ) (answers : List LifecycleReceive)
    (f : Forest) (r : LifecycleEvents) : Prop where
  found : (f.cells s).lifecycle.subscriptions[k]? = some r
  joined : start ≤ (f.sent s).length
  replays : Broadcast.Replays (f.sent s) start (answers.map (·.toBroadcast)) r.next
  signal : r.signal = some true → (f.cells s).scope.closed = true
  logged : base ≤ f.emitted.length
  stream : r.dropped = false → (f.cells s).scope.closed = false →
    (f.sent s).drop start = (f.emitted.drop base).filterMap (·.seenFrom f.ids s)

namespace Listening

variable {s : Membership} {k start base : ℕ} {answers : List LifecycleReceive} {f f' : Forest}
  {r r' : LifecycleEvents}

theorem next_le (h : Listening s k start base answers f r) : r.next ≤ (f.sent s).length :=
  (h.replays.le h.joined).2

theorem step (h : Listening s k start base answers f r) {reads : Bool} {new : List Emission}
    (hlogs : StepLogs reads f f' new) {answer : Option LifecycleReceive}
    (hfound : (f'.cells s).lifecycle.subscriptions[k]? = some r')
    (hstep : SubscriptionStep (f.cells s).scope.closed (f.cells s).lifecycle r answer r') :
    Listening s k start base (answers ++ answer.toList) f' r' := by
  have hsent : ∃ more, f'.sent s = f.sent s ++ more := ⟨_, hlogs.sent s⟩
  have hreplays : Broadcast.Replays (f.sent s) start
      ((answers ++ answer.toList).map (·.toBroadcast)) r'.next := by
    have hold := h.replays
    rw [LifecycleEvents.next] at hold ⊢
    cases hstep with
    | kept | read | dropped => simpa using hold
    | @answered flag hsignal =>
      have hanswers := TokioBroadcast.tryReceive_answers (f.cells s).lifecycle.events r.events
      simpa using hold.receive (LifecycleReceive.answers_ofBroadcast hanswers flag)
  have hsignal : r'.signal = some true → (f.cells s).scope.closed = true := by
    cases hstep with
    | kept | dropped => exact h.signal
    | read => exact fun hread => Option.some.inj hread
    | answered => rintro ⟨⟩
  have hdropped : r'.dropped = false → r.dropped = false := by
    cases hstep with
    | dropped => rintro ⟨⟩
    | _ => exact id
  refine ⟨hfound, ?_, ?_, fun hread => hlogs.closed s (hsignal hread), ?_, ?_⟩
  · obtain ⟨more, hmore⟩ := hsent
    have hjoined := h.joined
    rw [hmore, List.length_append]
    omega
  · obtain ⟨more, hmore⟩ := hsent
    rw [hmore]
    exact hreplays.send more
  · have hlogged := h.logged
    rw [hlogs.emitted, List.length_append]
    omega
  · intro hlive hopen
    have hopen' : (f.cells s).scope.closed = false := by
      cases hclosed : (f.cells s).scope.closed with
      | false => rfl
      | true => rw [hlogs.closed s hclosed] at hopen; cases hopen
    rw [hlogs.sent_of_subscribed ⟨r, h.found, hdropped hlive⟩, hopen', hlogs.emitted, hlogs.ids,
      List.drop_append_of_le_length h.joined, List.drop_append_of_le_length h.logged,
      h.stream (hdropped hlive) hopen', List.filterMap_append]
    simp

end Listening

/-! ### Runs -/

namespace TreeRun

variable {f : Forest} {tr : List TreeEdge} {g : GateState}

/-- What a stretch of a run appends to the log. -/
theorem appends {t : GateState} {seg : List TreeEdge} (ht : t.Coherent)
    (hseg : Run (stepEdge TreeStep.apply) t seg g) :
    g.Coherent ∧ ∃ new, t.txn.forest.Appends g.txn.forest new := by
  refine Run.invariant hseg ⟨ht, [], .of_same rfl rfl fun _ => rfl⟩ ?_
  rintro e he - ⟨hcoherent, new, hnew⟩
  have hmoves := GateMoves.of_apply hcoherent.wellLinked he
  obtain ⟨more, hmore⟩ := hmoves.stepLogs hcoherent.wellLinked
  exact ⟨hmoves.coherent hcoherent, _, hnew.trans hmore.toAppends⟩

/-- Since the creation of the forest. -/
theorem appends_all (hnew : f.IsNew) (hrun : TreeRun f tr g) :
    f.Appends g.txn.forest g.txn.forest.emitted := by
  obtain ⟨-, new, happends⟩ := appends (GateState.Coherent.new hnew) hrun
  have hemitted : g.txn.forest.emitted = new := by
    rw [happends.emitted]
    rw [hnew.emitted, List.nil_append]
  rw [hemitted]
  exact happends

theorem numbers (hnew : f.IsNew) (hrun : TreeRun f tr g) (s : Membership) :
    (Forest.emissionsOf g.txn.forest.emitted s).map (·.event.seq) =
      List.range' 1 (g.txn.forest.cells s).lifecycleSeq := by
  have happends := appends_all hnew hrun
  have hzero : (f.cells s).lifecycleSeq = 0 := by
    obtain ⟨id, options, flavor, intensity, hcell⟩ := hnew.cells s
    rw [hcell]
    rfl
  rw [happends.seqs, happends.counter, hzero, Nat.zero_add, Nat.zero_add]

end TreeRun

/-! ### Watermarks -/

namespace Forest

end Forest

/-- The number a cut of a scope shows for a scope: its own, or a watermark. -/
def ScopeSnapshot.Shows (snapshot : ScopeSnapshot) (s x : Membership) (n : ℕ) : Prop :=
  x = s ∧ snapshot.lifecycleSeq = n ∨ snapshot.watermark x = some n

/-- A receive that reports closure found the channel exhausted. -/
theorem Listening.closing {k start base : ℕ} {answers : List LifecycleReceive}
    {r' : LifecycleEvents} (h : Listening s k start base answers f r)
    (hstep : SubscriptionStep (f.cells s).scope.closed (f.cells s).lifecycle r (some .closed) r') :
    ((f.cells s).scope.closed = true ∨ (f.cells s).lifecycle.FindsClosed k) ∧
      r.next = (f.sent s).length := by
  generalize hanswer : some LifecycleReceive.closed = answer at hstep
  cases hstep with
  | kept | read | dropped => cases hanswer
  | @answered flag hsignal =>
    have hclosed := Option.some.inj hanswer.symm
    have hanswers := LifecycleReceive.answers_ofBroadcast
      (TokioBroadcast.tryReceive_answers (f.cells s).lifecycle.events r.events) flag
    rw [hclosed] at hanswers
    refine ⟨?_, Nat.le_antisymm h.next_le hanswers.drained⟩
    rcases LifecycleReceive.flag_of_closed hclosed with rfl | hchannel
    · exact .inl (h.signal hsignal)
    · exact .inr ⟨r, h.found, hchannel⟩

end Trees

end Shelterwood
