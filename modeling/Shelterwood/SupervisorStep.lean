/-
Shelterwood/SupervisorStep.lean

What one reducer transition can do, said once.

An event other than `settle` names one child.  Seen from a key `k`, the arena
is a machine of its own: `ChildRecord.step` is its transition function and
`ChildRecord.effects` what it emits, and `get?_apply_of_ne_settle`,
`apply_effects` say that the reducer runs exactly that machine at the named key
and leaves every other record alone.  Outside `children` and `childKeys` such an
event changes nothing (`apply_eq_of_ne_settle`).

`settle` changes no record.  Its two cursor loops are searches of the arena:
the startup loop stops at the first record that blocks ordered startup, the
stop loop at the last record that is not joined (`orderedStartLoop_eq`,
`orderedStopLoop_eq`).  Everything later is derived from these equations.
-/
import Shelterwood.Supervisor

namespace Shelterwood

/-! ### The machine of one child -/

/-- The key an event names; `settle` names none. -/
def Event.target : Event → Option ChildKey
  | .spawned child | .ready child | .incarnationComplete child | .restartPending child
  | .stopStarted child | .disposalStarted child | .terminalized child
  | .removalSampled child | .removalLatched child | .reclaim child => some child
  | .settle => none

theorem Event.target_eq_none_iff {e : Event} : e.target = none ↔ e = .settle := by
  cases e <;> simp [Event.target]

theorem Event.exists_target {e : Event} (h : e ≠ .settle) : ∃ k, e.target = some k :=
  Option.ne_none_iff_exists'.mp (mt Event.target_eq_none_iff.mp h)

namespace ChildRecord

/-- Whether `transitionIncarnation` moves the record. -/
def moves (record : ChildRecord) (expected : List IncarnationState) : Bool :=
  !(record.state.joined || !(record.state.incarnation ∈ expected))

/-- The record with its incarnation moved. -/
def moveTo (record : ChildRecord) (next : IncarnationState) : ChildRecord :=
  { record with state := record.state.withIncarnation next }

/-- The record after an event that names it, or `none` once reclaimed.  Only
re-arming readiness depends on the scope, through its `Starting` state. -/
def step (starting : Bool) (e : Event) (record : ChildRecord) : Option ChildRecord :=
  match e with
  | .spawned _ =>
    some (if record.startable then { record.moveTo .active with spawnedOnce := true }
      else record)
  | .ready _ => some (if record.acceptsReady then record.setReady true else record)
  | .incarnationComplete _ =>
    some (if record.moves [.active, .stopping] then record.moveTo .complete else record)
  | .restartPending _ =>
    some (if record.moves [.complete] then
        if starting then (record.moveTo .restartPending).setReady false
        else record.moveTo .restartPending
      else record)
  | .stopStarted _ =>
    some (if record.moves [.active] then record.moveTo .stopping else record)
  | .disposalStarted _ =>
    some (if record.moves [.unstarted, .complete, .restartPending] then
      record.moveTo .disposing else record)
  | .terminalized _ =>
    some (if record.moves [.disposing] then record.moveTo .joined else record)
  | .removalSampled _ => some { record with state := record.state.sampleRemoval }
  | .removalLatched _ =>
    some { record with state := .removing record.state.incarnation }
  | .reclaim _ => if record.state.joined then none else some record
  | .settle => some record

/-- Whether a removal command has committed for the record. -/
def committed (record : ChildRecord) : Bool :=
  match record.state with
  | .removing _ => true
  | _ => false

/-- The effects of an event that names the record. -/
def effects (e : Event) (record : ChildRecord) : List Effect :=
  match e with
  | .terminalized child =>
    if record.moves [.disposing] ∧ record.committed then [.finalizeRemoval child] else []
  | .removalLatched child =>
    if record.committed then []
    else if record.state.joined then [.finalizeRemoval child]
    else [.stopChild child]
  | _ => []

/-- Only the arrival of a committed record in `joined` and the first commit
emit. -/
theorem mem_effects_iff {r : ChildRecord} {event : Event} {effect : Effect} :
    effect ∈ r.effects event ↔ ∃ c,
      event = .terminalized c ∧ r.moves [.disposing] = true ∧ r.committed = true ∧
          effect = .finalizeRemoval c ∨
        event = .removalLatched c ∧ r.committed = false ∧
          effect = if r.state.joined then .finalizeRemoval c else .stopChild c := by
  cases event with
  | terminalized c =>
    by_cases hm : r.moves [.disposing] = true ∧ r.committed = true
    · simp [effects, hm]
    · simp only [effects, hm, if_false, List.not_mem_nil, Event.terminalized.injEq,
        reduceCtorEq, false_and, or_false, false_iff]
      rintro ⟨c', -, hmoves, hcommitted, -⟩
      exact hm ⟨hmoves, hcommitted⟩
  | removalLatched c =>
    cases hc : r.committed <;> cases hj : r.state.joined <;> simp [effects, hc, hj]
  | spawned c | ready c | incarnationComplete c | restartPending c | stopStarted c
  | disposalStarted c | removalSampled c | reclaim c | settle =>
    simp [effects]

end ChildRecord

namespace SupervisorState

@[simp] theorem setRecord_children (s : SupervisorState) (k : ChildKey) (r : ChildRecord) :
    (s.setRecord k r).children = s.children.insert k r := rfl

variable {k : ChildKey} {s : SupervisorState}

theorem transitionIncarnation_none (h : s.children.get? k = none)
    (expected : List IncarnationState) (next : IncarnationState) :
    s.transitionIncarnation k expected next = (s, false) := by
  simp [transitionIncarnation, h]

variable {r : ChildRecord}

theorem transitionIncarnation_some (h : s.children.get? k = some r)
    (expected : List IncarnationState) (next : IncarnationState) :
    s.transitionIncarnation k expected next
      = if r.moves expected then (s.setRecord k (r.moveTo next), true) else (s, false) := by
  simp only [transitionIncarnation, h, ChildRecord.moves]
  by_cases hm : (r.state.joined || !decide (r.state.incarnation ∈ expected)) = true
  · simp [hm]
  · simp [hm, ChildRecord.moveTo]

/-! ### An event that names a missing key -/

variable {e : Event}

/-- An event that finds its key missing does nothing. -/
theorem apply_of_missing (ht : e.target = some k) (h : s.children.get? k = none) :
    s.apply e = (s, []) := by
  have hm := transitionIncarnation_none h
  cases e with
  | settle => cases ht
  | terminalized c | restartPending c =>
    cases ht
    simp [apply, hm]
  | spawned c | ready c | incarnationComplete c | stopStarted c | disposalStarted c
  | removalSampled c | removalLatched c | reclaim c =>
    cases ht
    simp [apply, hm, sampleRemoval, h]

/-! ### An event that names a registered key -/

/-- The state after a record is replaced or reclaimed. -/
def putRecord (s : SupervisorState) (k : ChildKey) (r : ChildRecord) :
    Option ChildRecord → SupervisorState
  | some r' => s.setRecord k r'
  | none =>
    { s with
      children := s.children.erase k
      childKeys :=
        if s.childKeys.lookup r.membership = some k then s.childKeys.erase r.membership
        else s.childKeys }

theorem setRecord_self (h : s.children.get? k = some r) : s.setRecord k r = s := by
  have hc : s.children.insert k r = s.children := by
    apply OrdMap.ext_get?
    intro j
    rw [OrdMap.get?_insert]
    split_ifs with hj
    · rw [hj, h]
    · rfl
  simp [setRecord, hc]

/-- **The arena runs the machine of the named child.**  On a registered key an
event replaces the record by `ChildRecord.step` and emits
`ChildRecord.effects`. -/
theorem apply_of_registered (ht : e.target = some k) (h : s.children.get? k = some r) :
    s.apply e = (s.putRecord k r (r.step s.lifecycle.isStarting e), r.effects e) := by
  have hself := setRecord_self h
  have hm := transitionIncarnation_some h
  cases e with
  | settle => cases ht
  | spawned c =>
    cases ht
    by_cases hst : r.startable = true <;>
      simp [apply, h, hst, ChildRecord.step, ChildRecord.effects, putRecord, hself,
        ChildRecord.moveTo]
  | ready c =>
    cases ht
    by_cases hst : r.acceptsReady = true <;>
      simp [apply, h, hst, ChildRecord.step, ChildRecord.effects, putRecord, hself]
  | incarnationComplete c | stopStarted c | disposalStarted c =>
    cases ht
    simp only [apply, hm, ChildRecord.step, ChildRecord.effects]
    split_ifs <;> simp [putRecord, hself]
  | restartPending c =>
    obtain rfl := Option.some.inj ht
    simp only [apply, hm, ChildRecord.step, ChildRecord.effects]
    have hstart : (s.setRecord c (r.moveTo .restartPending)).lifecycle = s.lifecycle := rfl
    by_cases hmv : r.moves [.complete] = true
    · by_cases hst : s.lifecycle.isStarting = true
      · -- the source stores the moved record and then the re-armed one
        have hins : ∀ a b, (s.setRecord c a).setRecord c b = s.setRecord c b := by
          intro a b
          have hc : (s.children.insert c a).insert c b = s.children.insert c b := by
            apply OrdMap.ext_get?
            intro j
            simp only [OrdMap.get?_insert]
            split_ifs <;> rfl
          simp [setRecord, hc]
        simp [hmv, hstart, hst, putRecord, hins]
      · simp [hmv, hstart, hst, putRecord]
    · simp [hmv, putRecord, hself]
  | terminalized c =>
    obtain rfl := Option.some.inj ht
    simp only [apply, hm, ChildRecord.step, ChildRecord.effects, ChildRecord.committed]
    by_cases hmv : r.moves [.disposing] = true
    · have hstate : (s.setRecord c (r.moveTo .joined)).childState c
          = some (r.state.withIncarnation .joined) := by
        simp [childState, ChildRecord.moveTo]
      simp only [hmv, if_true, hstate]
      cases r.state <;> simp [ChildState.withIncarnation, putRecord]
    · simp [hmv, putRecord, hself]
  | removalSampled c =>
    cases ht
    simp [apply, sampleRemoval, h, ChildRecord.step, ChildRecord.effects, putRecord]
  | removalLatched c =>
    cases ht
    obtain ⟨membership, state, startup, spawnedOnce⟩ := r
    simp only [apply, h, ChildRecord.step, ChildRecord.effects, ChildRecord.committed]
    cases state with
    | resident i | removalSampled i =>
      cases i <;> rfl
    | removing i => simp [ChildState.incarnation, putRecord, hself]
  | reclaim c =>
    cases ht
    by_cases hj : r.state.joined = true <;>
      simp [apply, h, hj, ChildRecord.step, ChildRecord.effects, putRecord, hself]

/-! ### Reading the state after an event -/

theorem putRecord_get? {r' : Option ChildRecord} (j : ChildKey) :
    (s.putRecord k r r').children.get? j = if j = k then r' else s.children.get? j := by
  cases r' with
  | some r' => exact OrdMap.get?_insert s.children k j r'
  | none => exact OrdMap.get?_erase s.children k j

/-- The record of the named child after an event. -/
theorem get?_apply_target (ht : e.target = some k) (h : s.children.get? k = some r) :
    (s.apply e).1.children.get? k = r.step s.lifecycle.isStarting e := by
  rw [apply_of_registered ht h, putRecord_get?, if_pos rfl]

/-- An event that names a child leaves everything but the two indexes alone. -/
theorem apply_eq_of_ne_settle (s : SupervisorState) (h : e ≠ .settle) :
    (s.apply e).1 = { s with
      children := (s.apply e).1.children
      childKeys := (s.apply e).1.childKeys } := by
  obtain ⟨k, hk⟩ := Event.exists_target h
  cases hget : s.children.get? k with
  | none => rw [apply_of_missing hk hget]
  | some r =>
    rw [apply_of_registered hk hget]
    cases r.step s.lifecycle.isStarting e <;> rfl

/-- **The record at `k` after an event**, for every event and every key. -/
theorem get?_apply_of_ne_settle (s : SupervisorState) (h : e ≠ .settle) (k : ChildKey) :
    (s.apply e).1.children.get? k =
      if e.target = some k then
        (s.children.get? k).bind fun r => r.step s.lifecycle.isStarting e
      else s.children.get? k := by
  obtain ⟨c, hc⟩ := Event.exists_target h
  rw [hc]
  cases hget : s.children.get? c with
  | none =>
    rw [apply_of_missing hc hget]
    split_ifs with hk
    · cases hk
      simp [hget]
    · rfl
  | some r =>
    rw [apply_of_registered hc hget, putRecord_get?]
    by_cases hk : k = c
    · subst hk
      simp [hget]
    · have hne : ¬ some c = some k := fun heq => hk (Option.some.inj heq).symm
      simp [hk, hne]

/-- What an event emits, for every event that names a child. -/
theorem apply_effects (ht : e.target = some k) :
    (s.apply e).2 = ((s.children.get? k).map fun r => r.effects e).getD [] := by
  cases hget : s.children.get? k with
  | none => rw [apply_of_missing ht hget]; rfl
  | some r => rw [apply_of_registered ht hget]; rfl

/-- An effect of an event that names a child comes from its record. -/
theorem mem_apply_iff {event : Event} {effect : Effect} (h : event ≠ .settle) :
    effect ∈ (s.apply event).2 ↔
      ∃ c r, event.target = some c ∧ s.children.get? c = some r ∧ effect ∈ r.effects event := by
  obtain ⟨c, hc⟩ := Event.exists_target h
  rw [apply_effects hc]
  cases hget : s.children.get? c with
  | none | some => simp [hc, hget]

end SupervisorState

/-! ### The cursor loops are searches -/

/-- A record that stops the ordered startup loop: one being removed, never
spawned, or initial and not ready. -/
def ChildRecord.blocksStartup (record : ChildRecord) : Bool :=
  record.state.membershipStatus = .removing || !record.spawnedOnce
    || record.startup = .initial false

/-- What the loop emits for the record it stops at. -/
def ChildRecord.startCommand (record : ChildRecord) (child : ChildKey) : List Effect :=
  if !record.spawnedOnce ∧ record.startable then [.startChild child] else []

theorem ChildRecord.not_startable_of_removing {record : ChildRecord}
    (h : record.state.membershipStatus = .removing) : record.startable = false := by
  obtain ⟨membership, state, startup, spawnedOnce⟩ := record
  cases state <;> simp_all [ChildState.membershipStatus, ChildRecord.startable]

namespace SupervisorState

/-- The membership ordered startup waits for: the first one at or after the
start cursor that blocks it. -/
def startBlocker (s : SupervisorState) : Option (ChildKey × ChildRecord) :=
  s.nextOrderedStart.bind fun c => s.children.findFrom c ChildRecord.blocksStartup

/-- The member the ordered stop reaches next: the last one at or before the
stop cursor that is not joined. -/
def stopCandidate (s : SupervisorState) : Option (ChildKey × ChildRecord) :=
  s.orderedStopCursor.bind fun c =>
    s.children.findDownFrom c fun record => !record.state.joined

/-- The iterations the startup loop can still make. -/
def startFuel (s : SupervisorState) : ℕ :=
  match s.nextOrderedStart with
  | none => 1
  | some c => (s.children.countKeys fun i => c < i) + 2

theorem startFuel_nextKey_lt (s : SupervisorState) {c : ChildKey}
    (hc : s.nextOrderedStart = some c) :
    ({ s with nextOrderedStart := s.children.nextKey c } : SupervisorState).startFuel
      < s.startFuel := by
  cases hn : s.children.nextKey c with
  | none => simp [startFuel, hc]
  | some n =>
    have hlt := OrdMap.countKeys_nextKey_lt hn
    simp only [startFuel, hc]
    omega

variable {s : SupervisorState}

/-- **The startup loop finds the first blocker** and leaves the cursor there,
or runs off the end. -/
theorem orderedStartLoop_eq {fuel : ℕ} (hfuel : s.startFuel ≤ fuel) :
    s.orderedStartLoop fuel =
      match s.startBlocker with
      | none => ({ s with nextOrderedStart := none }, [], true)
      | some (j, r) => ({ s with nextOrderedStart := some j }, r.startCommand j, false) := by
  induction fuel generalizing s with
  | zero =>
    unfold startFuel at hfuel
    split at hfuel <;> omega
  | succ fuel ih =>
    unfold orderedStartLoop
    cases hc : s.nextOrderedStart with
    | none =>
      have hs : { s with nextOrderedStart := none } = s := by rw [← hc]
      simp only [startBlocker, hc, Option.bind_none, hs]
    | some c =>
      -- moving on: the search from `c` is the search from its successor
      have hmove : (∀ r, s.children.get? c = some r → r.blocksStartup = false) →
          orderedStartLoop fuel { s with nextOrderedStart := s.children.nextKey c } =
          match s.startBlocker with
          | none => ({ s with nextOrderedStart := none }, [], true)
          | some (j, r) =>
            ({ s with nextOrderedStart := some j }, r.startCommand j, false) := by
        intro hpass
        have hlt := startFuel_nextKey_lt s hc
        rw [ih (by omega)]
        have hb : ({ s with nextOrderedStart := s.children.nextKey c } :
            SupervisorState).startBlocker = s.startBlocker := by
          simp only [startBlocker, hc, Option.bind_some]
          rw [OrdMap.findFrom_next hpass]
        rw [hb]
      cases hget : s.children.get? c with
      | none =>
        simp only [hget]
        exact hmove (by simp [hget])
      | some r =>
        -- the loop stops here without moving the cursor
        have hself : { s with nextOrderedStart := some c } = s := by rw [← hc]
        have hstop : r.blocksStartup = true → s.startBlocker = some (c, r) := by
          intro hb
          simp only [startBlocker, hc, Option.bind_some]
          exact OrdMap.findFrom_self hget hb
        simp only [hget]
        -- being removed; never spawned, startable or not; unready; none of these
        split_ifs with h₁ h₂ h₃ h₄
        · rw [hstop (by simp [ChildRecord.blocksStartup, h₁])]
          simp [hself, ChildRecord.startCommand, ChildRecord.not_startable_of_removing h₁]
        · rw [hstop (by simp_all [ChildRecord.blocksStartup])]
          simp_all [ChildRecord.startCommand]
        · rw [hstop (by simp_all [ChildRecord.blocksStartup])]
          simp_all [ChildRecord.startCommand]
        · rw [hstop (by simp [ChildRecord.blocksStartup, h₄])]
          simp_all [ChildRecord.startCommand]
        · exact hmove (by simp_all [ChildRecord.blocksStartup])

/-- The iterations the stop loop can still make. -/
def stopFuel (s : SupervisorState) : ℕ :=
  match s.orderedStopCursor with
  | none => 1
  | some c => (s.children.countKeys fun i => i < c) + 2

theorem stopFuel_previousKey_lt (s : SupervisorState) {c : ChildKey}
    (hc : s.orderedStopCursor = some c) :
    ({ s with orderedStopCursor := s.children.previousKey c } : SupervisorState).stopFuel
      < s.stopFuel := by
  cases hn : s.children.previousKey c with
  | none => simp [stopFuel, hc]
  | some n =>
    have hlt := OrdMap.countKeys_previousKey_lt hn
    simp only [stopFuel, hc]
    omega

theorem isIncomplete_iff {c : ChildKey} :
    s.isIncomplete c = true ↔
      ∃ r, s.children.get? c = some r ∧ r.state.joined = false := by
  cases hget : s.children.get? c with
  | none => simp [isIncomplete, contains, hget]
  | some r => simp [isIncomplete, contains, joined, childState, hget]

/-- **The stop loop finds the last unjoined child** and steps the cursor below
it, or exhausts the cursor. -/
theorem orderedStopLoop_eq {fuel : ℕ} (hfuel : s.stopFuel ≤ fuel) :
    s.orderedStopLoop fuel =
      match s.stopCandidate with
      | none => ({ s with orderedStopCursor := none }, [])
      | some (j, _) =>
        ({ s with
            orderedStopCursor := s.children.previousKey j
            orderedStopWaiting := some j }, [.stopChild j]) := by
  induction fuel generalizing s with
  | zero =>
    unfold stopFuel at hfuel
    split at hfuel <;> omega
  | succ fuel ih =>
    unfold orderedStopLoop
    cases hc : s.orderedStopCursor with
    | none =>
      have hs : { s with orderedStopCursor := none } = s := by rw [← hc]
      simp only [stopCandidate, hc, Option.bind_none, hs]
    | some c =>
      -- the loop tests the key after it moved the cursor; the test reads no cursor
      have hinc : ({ s with orderedStopCursor := s.children.previousKey c } :
          SupervisorState).isIncomplete c = s.isIncomplete c := rfl
      simp only [hinc]
      by_cases hic : s.isIncomplete c = true
      · obtain ⟨r, hget, hj⟩ := isIncomplete_iff.mp hic
        have hcand : s.stopCandidate = some (c, r) := by
          simp only [stopCandidate, hc, Option.bind_some]
          exact OrdMap.findDownFrom_self hget (by simp [hj])
        simp [hic, hcand]
      · have hpass : ∀ r, s.children.get? c = some r → (!r.state.joined) = false := by
          intro r hget
          by_contra hne
          exact hic (isIncomplete_iff.mpr ⟨r, hget, by simpa using hne⟩)
        have hlt := stopFuel_previousKey_lt s hc
        have hcand : ({ s with orderedStopCursor := s.children.previousKey c } :
            SupervisorState).stopCandidate = s.stopCandidate := by
          simp only [stopCandidate, hc, Option.bind_some]
          rw [OrdMap.findDownFrom_previous hpass]
        rw [ih (by omega), hcand]
        simp [hic]

theorem startFuel_le (s : SupervisorState) : s.startFuel ≤ s.children.size + 2 := by
  unfold startFuel
  split
  · omega
  · have := OrdMap.countKeys_le_size s.children
    simp_all

theorem stopFuel_le (s : SupervisorState) : s.stopFuel ≤ s.children.size + 2 := by
  unfold stopFuel
  split
  · omega
  · have := OrdMap.countKeys_le_size s.children
    simp_all

/-! ### The three passes -/

/-- Whether every registered initial child is ready. -/
def initialsReady (s : SupervisorState) : Bool :=
  s.children.all fun record => record.startup ≠ .initial false

theorem completeIfReady_eq (h : s.lifecycle = .starting) :
    s.completeIfReady =
      if s.initialsReady then
        ({ s with lifecycle := .running }, [.startupCompleted .running])
      else (s, []) := by
  simp only [completeIfReady, initialsReady, h, ScopeLifecycle.completeStartup]
  rfl

theorem settleStartup_of_not_starting (h : s.lifecycle ≠ .starting) :
    s.settleStartup = (s, []) := by
  simp [settleStartup, ScopeLifecycle.isStarting_eq_false_iff.mpr h]

/-- The startup pass of an ordered scope. -/
theorem settleStartup_ordered (h : s.lifecycle = .starting) (hf : s.flavor = .ordered) :
    s.settleStartup =
      match s.startBlocker with
      | some (j, r) => ({ s with nextOrderedStart := some j }, r.startCommand j)
      | none => ({ s with nextOrderedStart := none } : SupervisorState).completeIfReady := by
  have hst : s.lifecycle.isStarting = true := ScopeLifecycle.isStarting_iff.mpr h
  simp only [settleStartup, hst, hf, orderedStartLoop_eq s.startFuel_le]
  cases s.startBlocker with
  | none | some => simp

/-- The startup pass of a dynamic scope. -/
theorem settleStartup_dynamic (h : s.lifecycle = .starting) (hf : s.flavor = .dynamic) :
    s.settleStartup = (s.completeIfReady.1, s.dynamicStarts ++ s.completeIfReady.2) := by
  have hst : s.lifecycle.isStarting = true := ScopeLifecycle.isStarting_iff.mpr h
  simp [settleStartup, hst, hf]

theorem settleOrderedStop_of_not (h : s.flavor ≠ .ordered ∨ s.lifecycle.isDraining = false) :
    s.settleOrderedStop = (s, []) := by
  rcases h with h | h <;> simp [settleOrderedStop, h]

/-- While the waiting slot holds an incomplete child the stop pass is idle. -/
theorem settleOrderedStop_of_waiting {w : ChildKey} (hw : s.orderedStopWaiting = some w)
    (hi : s.isIncomplete w = true) : s.settleOrderedStop = (s, []) := by
  simp only [settleOrderedStop, hw, hi]
  split_ifs <;> rfl

/-- The waiting slot holds an incomplete child, or none. -/
theorem waiting_or_idle (s : SupervisorState) :
    (∃ w, s.orderedStopWaiting = some w ∧ s.isIncomplete w = true) ∨
      ∀ w, s.orderedStopWaiting = some w → s.isIncomplete w = false := by
  by_cases hw : ∃ w, s.orderedStopWaiting = some w ∧ s.isIncomplete w = true
  · exact .inl hw
  · right
    intro w hs
    by_contra hne
    exact hw ⟨w, hs, by simpa using hne⟩

/-- Otherwise it runs the stop loop from an empty waiting slot. -/
theorem settleOrderedStop_eq (hf : s.flavor = .ordered) (hd : s.lifecycle.isDraining = true)
    (hw : ∀ w, s.orderedStopWaiting = some w → s.isIncomplete w = false) :
    s.settleOrderedStop =
      match s.stopCandidate with
      | none => ({ s with orderedStopWaiting := none, orderedStopCursor := none }, [])
      | some (j, _) =>
        ({ s with
            orderedStopWaiting := some j
            orderedStopCursor := s.children.previousKey j }, [.stopChild j]) := by
  -- an empty slot and one whose child has joined start the loop alike
  have hrun : s.settleOrderedStop = ({ s with orderedStopWaiting := none } :
      SupervisorState).orderedStopLoop (s.children.size + 2) := by
    unfold settleOrderedStop
    rw [if_neg (by simp [hf, hd])]
    cases hcase : s.orderedStopWaiting with
    | none =>
      have hs : { s with orderedStopWaiting := none } = s := by rw [← hcase]
      rw [hs]
    | some w => simp [hw w hcase]
  rw [hrun, orderedStopLoop_eq (stopFuel_le { s with orderedStopWaiting := none })]
  rfl

theorem settleFinish_eq (s : SupervisorState) :
    s.settleFinish =
      match s.finishEmitted, s.lifecycle.finishIfReady s.flavor
          ⟨!s.children.isEmpty, s.allChildrenJoined⟩ with
      | false, some reason => ({ s with finishEmitted := true }, [.finished reason])
      | _, _ => (s, []) := by
  unfold settleFinish
  cases s.finishEmitted with
  | true => rfl
  | false =>
    simp only [Bool.false_eq_true, if_false]
    split <;> simp_all

end SupervisorState

end Shelterwood
