/-
Shelterwood/EventLanes.lean

The event lanes of the driver's loop.

Three unbounded channels bring events to the loop.  A wake takes a bounded part of each,
adds signals and due deadlines, sorts all of it stably by class and dispatches it; a wake
that finds nothing waits, and may take the head of a lane while it does.  Which wake an
event falls into and where the sort puts it depends on everything else.  What does not:
a lane is taken from its front, so numbers only grow along a lane (`Sound.fifo`), and the
sort exchanges events of different classes only.

A send may come between any two accesses.  Each lane has its own producers, so the event
determines the lane.
-/
import Shelterwood.Dispatch
import Shelterwood.Restart
import Shelterwood.StableSort
import Shelterwood.Trace

namespace Shelterwood

/-! ### Events -/

inductive ChildEvent
  | ready (child : ChildKey) (incarnation : Incarnation)
  | selfStop (child : ChildKey) (incarnation : Incarnation)
  | exited (child : ChildKey) (incarnation : Incarnation) (recorded : Option RecordedOutcome)
      (join : JoinOutcome) (cancellation : Cancellation) (readinessSignalSeen : Bool)
  | constructionDisposed (child : ChildKey)
  deriving DecidableEq, Repr

inductive DriverEvent
  | child (event : ChildEvent)
  | admission (request : AdmissionRequest)
  | removal (child : ChildKey)
  deriving DecidableEq, Repr

inductive Pending
  | shutdown
  | windowStop (child : ChildKey) (target : Epoch)
  | ancestorShutdown
  | ancestorAbort
  | force
  | child (event : ChildEvent)
  | admission (request : AdmissionRequest)
  | removal (child : ChildKey)
  | deadline (kind : DeadlineKind)
  deriving DecidableEq, Repr

/-- Priority when one wake exposes several events. -/
inductive ArbitrationClass
  | scopeShutdown
  | membershipRemoval
  | childExit
  | readinessSignal
  | readinessDeadline
  | backoffDue
  | stopDeadline
  | admission
  deriving DecidableEq, Repr

/-- The derived order. -/
def ArbitrationClass.rank : ArbitrationClass → ℕ
  | .scopeShutdown => 0
  | .membershipRemoval => 1
  | .childExit => 2
  | .readinessSignal => 3
  | .readinessDeadline => 4
  | .backoffDue => 5
  | .stopDeadline => 6
  | .admission => 7

namespace Pending

def «class» : Pending → ArbitrationClass
  | .shutdown | .ancestorShutdown | .ancestorAbort | .force => .scopeShutdown
  | .windowStop _ _ => .backoffDue
  | .child (.selfStop _ _) | .removal _ => .membershipRemoval
  | .child (.ready _ _) => .readinessSignal
  | .child (.exited ..) | .child (.constructionDisposed _) => .childExit
  | .admission _ => .admission
  | .deadline (.readiness _ _) => .readinessDeadline
  | .deadline (.restart _) => .backoffDue
  | .deadline (.stop _ _) => .stopDeadline

def ofEvent : DriverEvent → Pending
  | .child event => .child event
  | .admission request => .admission request
  | .removal key => .removal key

end Pending

inductive Lane
  | primary
  | control
  | disposal
  deriving DecidableEq, Repr

/-- The lane of the producers of an event. -/
def DriverEvent.lane : DriverEvent → Lane
  | .child (.constructionDisposed _) => .disposal
  | .child _ => .primary
  | .admission _ | .removal _ => .control

/-- An event that was sent, with its number among all that were. -/
structure SentEvent where
  number : ℕ
  event : DriverEvent
  deriving DecidableEq, Repr

/-- An item of the batch: of the loop's own making, or from a lane. -/
inductive Work
  | own (pending : Pending)
  | sent (item : SentEvent)
  deriving DecidableEq, Repr

namespace Work

def pending : Work → Pending
  | .own pending => pending
  | .sent item => .ofEvent item.event

def rank (w : Work) : ℕ := w.pending.class.rank

/-- The event, if it came on this lane. -/
def from? (lane : Lane) : Work → Option SentEvent
  | .own _ => none
  | .sent item => if item.event.lane = lane then some item else none

end Work

def arbitrate (events : List Work) : List Work := stableSort Work.rank events

/-! ### The loop -/

/-- A wake: the lane whose head it took while waiting, how many events it collected from
each lane, what it dispatched, and whether it reported a full batch. -/
structure Wake where
  head : Option Lane
  taken : Lane → ℕ
  dispatched : List Work
  full : Bool

def Wake.new : Wake := ⟨none, fun _ => 0, [], false⟩

def Wake.count (wake : Wake) (lane : Lane) : Wake :=
  { wake with taken := fun other => wake.taken other + if other = lane then 1 else 0 }

inductive LoopPhase
  | top
  /-- In `collect_driver_events`, with so many rounds left before the probe. -/
  | collecting (lane : Lane) (left : ℕ)
  | due
  | waiting
  | dispatching
  | returned
  deriving DecidableEq, Repr

structure EventLoop where
  queue : Lane → List SentEvent
  /-- Everything sent so far. -/
  sent : List SentEvent
  pending : List Work
  phase : LoopPhase
  /-- The wake going on. -/
  wake : Wake
  /-- The wakes that ended. -/
  wakes : List Wake

/-- The sources the loop reads before its lanes. -/
structure LatchedSignals where
  shutdown : Bool
  windowStops : List (ChildKey × Epoch)
  ancestorShutdown : Bool
  ancestorAbort : Bool
  force : Bool
  deriving DecidableEq, Repr

def LatchedSignals.pending (signals : LatchedSignals) : List Pending :=
  (if signals.shutdown then [.shutdown] else []) ++
    signals.windowStops.map (fun stop => .windowStop stop.1 stop.2) ++
    (if signals.ancestorShutdown then [.ancestorShutdown] else []) ++
    (if signals.ancestorAbort then [.ancestorAbort] else []) ++
    if signals.force then [.force] else []

/-- What ends a wait. -/
inductive ScopeWake
  | signal
  | parentShutdown
  | deadline
  | message (lane : Lane)
  | closed
  deriving DecidableEq, Repr

inductive LoopInput
  | send (event : DriverEvent)
  | signals (signals : LatchedSignals)
  /-- A `try_recv` of the lane being collected. -/
  | receive
  | deadlines (due : List DeadlineKind)
  | wakeUp (wake : ScopeWake)
  | dispatch
  /-- The settlement after a batch, and whether it completed the scope. -/
  | settle (completed : Bool)
  deriving DecidableEq, Repr

namespace EventLoop

def new : EventLoop := ⟨fun _ => [], [], [], .top, .new, []⟩

def send (s : EventLoop) (event : DriverEvent) : EventLoop :=
  let item := ⟨s.sent.length, event⟩
  { s with
    queue := Function.update s.queue event.lane (s.queue event.lane ++ [item])
    sent := s.sent ++ [item] }

/-- Takes the head of a lane into the batch. -/
def take (s : EventLoop) (lane : Lane) (item : SentEvent) (rest : List SentEvent) : EventLoop :=
  { s with queue := Function.update s.queue lane rest, pending := s.pending ++ [.sent item] }

variable (dynamic : Bool) (limit : ℕ)

/-- Where to go when a lane is done. -/
def afterLane : Lane → LoopPhase
  | .primary => if dynamic then .collecting .control limit else .collecting .disposal limit
  | .control => .collecting .disposal limit
  | .disposal => .due

/-- One access of `collect_driver_events`: the last round is the probe. -/
def receive (s : EventLoop) (lane : Lane) (left : ℕ) : EventLoop :=
  match s.queue lane with
  | [] => { s with phase := afterLane dynamic limit lane }
  | item :: rest =>
    match left with
    | 0 =>
      { s.take lane item rest with
        wake := { s.wake.count lane with full := true }
        phase := afterLane dynamic limit lane }
    | left + 1 =>
      { s.take lane item rest with
        wake := s.wake.count lane
        phase := .collecting lane left }

/-- `wait_for_scope_wake`.  The disposal lane is not waited for. -/
def wakeUp (s : EventLoop) : ScopeWake → Option EventLoop
  | .signal | .parentShutdown | .deadline => some { s with phase := .top }
  | .closed => some { s with phase := .returned }
  | .message lane =>
    match s.queue lane with
    | [] => none
    | item :: rest =>
      if lane = .disposal then none
      else
        some { s.take lane item rest with
          wake := { s.wake with head := some lane }
          phase := .top }

def apply (s : EventLoop) : LoopInput → Option (EventLoop × Unit)
  | .send event =>
    if event.lane = .control && !dynamic then none
    else
      some (s.send event, ())
  | .signals signals =>
    match s.phase with
    | .top =>
      some ({ s with
          pending := s.pending ++ signals.pending.map .own
          wake := { s.wake with full := false }
          phase := .collecting .primary limit },
        ())
    | _ => none
  | .receive =>
    match s.phase with
    | .collecting lane left => some (s.receive dynamic limit lane left, ())
    | _ => none
  | .deadlines due =>
    match s.phase with
    | .due =>
      let pending := s.pending ++ due.map fun kind => .own (.deadline kind)
      some (if pending = [] then { s with pending, phase := .waiting }
        else { s with pending := arbitrate pending, phase := .dispatching }, ())
    | _ => none
  | .wakeUp wake =>
    match s.phase with
    | .waiting => (s.wakeUp wake).map fun s => (s, ())
    | _ => none
  | .dispatch =>
    match s.phase, s.pending with
    | .dispatching, work :: pending =>
      some ({ s with
          pending
          wake := { s.wake with dispatched := s.wake.dispatched ++ [work] } },
        ())
    | _, _ => none
  | .settle completed =>
    match s.phase, s.pending with
    | .dispatching, [] =>
      some ({ s with
          wakes := s.wakes ++ [s.wake]
          wake := .new
          phase := if completed then .returned else .top },
        ())
    | _, _ => none

/-- Everything dispatched so far, in order. -/
def dispatched (s : EventLoop) : List Work :=
  s.wakes.flatMap Wake.dispatched ++ s.wake.dispatched

end EventLoop

/-! ### What is in order -/

namespace Work

/-- If both are events of one lane and class, the first was sent first. -/
def SentBefore (a b : Work) : Prop :=
  a.rank = b.rank →
    ∀ x y, a = .sent x → b = .sent y → x.event.lane = y.event.lane → x.number < y.number

def isDisposed : Work → Bool
  | .sent ⟨_, .child (.constructionDisposed _)⟩ => true
  | _ => false

def isExited : Work → Bool
  | .sent ⟨_, .child (.exited ..)⟩ => true
  | _ => false

theorem rank_of_isDisposed {a : Work} (h : a.isDisposed = true) : a.rank = 2 := by
  unfold isDisposed at h
  split at h
  · rfl
  · cases h

theorem rank_of_isExited {a : Work} (h : a.isExited = true) : a.rank = 2 := by
  unfold isExited at h
  split at h
  · rfl
  · cases h

/-- An exit is not after a disposal. -/
def ExitFirst (a b : Work) : Prop :=
  a.rank = b.rank → ¬ (a.isDisposed = true ∧ b.isExited = true)

end Work

/-- What was taken from a lane and what is in it, against what was sent. -/
structure Stored (lane : Lane) (log : List Work) (queue sent : List SentEvent) : Prop where
  conserved : (log.filterMap (Work.from? lane) ++ queue).Perm
    (sent.filter fun x => x.event.lane = lane)
  queued : queue.Pairwise fun x y => x.number < y.number
  fifo : ∀ x ∈ log.filterMap (Work.from? lane), ∀ y ∈ queue, x.number < y.number

namespace Stored

variable {lane : Lane} {log log' : List Work} {queue rest sent : List SentEvent} {x : SentEvent}

theorem mem (h : Stored lane log queue sent)
    (hx : x ∈ log.filterMap (Work.from? lane) ∨ x ∈ queue) : x ∈ sent ∧ x.event.lane = lane := by
  simpa using h.conserved.subset (List.mem_append.2 hx)

theorem send (h : Stored lane log queue sent) (hlane : x.event.lane = lane)
    (hnew : ∀ y ∈ sent, y.number < x.number) : Stored lane log (queue ++ [x]) (sent ++ [x]) := by
  refine ⟨?_, List.pairwise_append.2 ⟨h.queued, List.pairwise_singleton _ _, ?_⟩, ?_⟩
  · rw [← List.append_assoc, List.filter_append, List.filter_cons_of_pos (by simpa using hlane)]
    exact h.conserved.append_right [x]
  · intro y hy z hz
    rw [List.mem_singleton.1 hz]
    exact hnew y (h.mem (.inr hy)).1
  · intro y hy z hz
    rcases List.mem_append.1 hz with hz | hz
    · exact h.fifo y hy z hz
    · rw [List.mem_singleton.1 hz]
      exact hnew y (h.mem (.inl hy)).1

theorem send_other (h : Stored lane log queue sent) (hlane : x.event.lane ≠ lane) :
    Stored lane log queue (sent ++ [x]) := by
  refine ⟨?_, h.queued, h.fifo⟩
  rw [List.filter_append, List.filter_cons_of_neg (by simpa using hlane), List.filter_nil,
    List.append_nil]
  exact h.conserved

theorem take (h : Stored lane log (x :: rest) sent) : Stored lane (log ++ [.sent x]) rest sent := by
  have hlane : x.event.lane = lane := (h.mem (.inr List.mem_cons_self)).2
  have htaken : (log ++ [Work.sent x]).filterMap (Work.from? lane) =
      log.filterMap (Work.from? lane) ++ [x] := by
    simp [Work.from?, hlane]
  obtain ⟨hfirst, hqueued⟩ := List.pairwise_cons.1 h.queued
  refine ⟨?_, hqueued, ?_⟩
  · rw [htaken, List.append_assoc]
    exact h.conserved
  · rw [htaken]
    intro y hy z hz
    rcases List.mem_append.1 hy with hy | hy
    · exact h.fifo y hy z (List.mem_cons_of_mem x hz)
    · rw [List.mem_singleton.1 hy]
      exact hfirst z hz

/-- Only what came on the lane matters, and not its order. -/
theorem of_perm (h : Stored lane log queue sent)
    (hperm : (log'.filterMap (Work.from? lane)).Perm (log.filterMap (Work.from? lane))) :
    Stored lane log' queue sent :=
  ⟨(hperm.append_right queue).trans h.conserved, h.queued,
    fun x hx => h.fifo x (hperm.subset hx)⟩

theorem update {queues : Lane → List SentEvent} (h : Stored lane log queue sent)
    (hother : ∀ other ≠ lane, Stored other log (queues other) sent) (other : Lane) :
    Stored other log (Function.update queues lane queue other) sent := by
  by_cases hlane : other = lane
  · subst hlane
    rwa [Function.update_self]
  · rw [Function.update_of_ne hlane]
    exact hother other hlane

end Stored

/-- The batch of a wake, dispatched or not. -/
structure Gathered (limit : ℕ) (wake : Wake) (batch : List Work) : Prop where
  head : wake.head ≠ some .disposal
  counted : ∀ lane, (batch.filterMap (Work.from? lane)).length =
    wake.taken lane + if wake.head = some lane then 1 else 0
  budget : ∀ lane, wake.taken lane ≤ limit + 1
  full : wake.full = true ↔ ∃ lane, wake.taken lane = limit + 1
  disposed : batch.Pairwise Work.ExitFirst

/-- One more event is collected from a lane. -/
theorem Gathered.collect {limit : ℕ} {wake : Wake} {batch batch' : List Work} {lane : Lane}
    {full : Bool} (h : Gathered limit wake batch)
    (hcounted : ∀ other, (batch'.filterMap (Work.from? other)).length =
      (batch.filterMap (Work.from? other)).length + if other = lane then 1 else 0)
    (hdisposed : batch'.Pairwise Work.ExitFirst) (hle : wake.taken lane ≤ limit)
    (hfull : full = true ↔ wake.full = true ∨ wake.taken lane = limit) :
    Gathered limit { wake.count lane with full } batch' := by
  refine ⟨h.head, fun other => ?_, fun other => ?_, ?_, hdisposed⟩
  · rw [hcounted, h.counted]
    exact Nat.add_right_comm _ _ _
  · have hbudget := h.budget other
    show wake.taken other + (if other = lane then 1 else 0) ≤ limit + 1
    split_ifs with hlane
    · subst hlane
      omega
    · omega
  · rw [hfull, h.full]
    constructor
    · rintro (⟨other, hother⟩ | hlane)
      · refine ⟨other, ?_⟩
        show wake.taken other + (if other = lane then 1 else 0) = limit + 1
        rw [if_neg (by rintro rfl; omega), hother]
      · refine ⟨lane, ?_⟩
        show wake.taken lane + (if lane = lane then 1 else 0) = limit + 1
        rw [if_pos rfl, hlane]
    · rintro ⟨other, hother⟩
      replace hother : wake.taken other + (if other = lane then 1 else 0) = limit + 1 := hother
      split_ifs at hother with hlane
      · subst hlane
        exact .inr (by omega)
      · exact .inl ⟨other, hother⟩

namespace EventLoop

/-- The batch of the wake going on. -/
def batch (s : EventLoop) : List Work := s.wake.dispatched ++ s.pending

def log (s : EventLoop) : List Work := s.wakes.flatMap Wake.dispatched ++ s.batch

variable (limit : ℕ)

/-- What the loop has seen to in its phase. -/
def Located (s : EventLoop) : Prop :=
  match s.phase with
  | .top => s.wake.dispatched = [] ∧ ∀ lane, s.wake.taken lane = 0
  | .collecting lane left => s.wake.dispatched = [] ∧ s.wake.taken lane + left = limit ∧
      (lane = .primary → s.wake.taken .control = 0) ∧
      (lane ≠ .disposal → s.wake.taken .disposal = 0)
  | .due => s.wake.dispatched = []
  | .waiting => s.batch = [] ∧ ∀ lane, s.wake.taken lane = 0
  | .dispatching => s.batch.Pairwise fun a b => a.rank ≤ b.rank
  | .returned => True

structure Sound (s : EventLoop) : Prop where
  numbered : s.sent.map SentEvent.number = List.range s.sent.length
  stored : ∀ lane, Stored lane s.log (s.queue lane) s.sent
  ordered : s.log.Pairwise Work.SentBefore
  gathered : Gathered limit s.wake s.batch
  located : s.Located limit
  wakes : ∀ w ∈ s.wakes, Gathered limit w w.dispatched ∧
    w.dispatched.Pairwise fun a b => a.rank ≤ b.rank

variable {limit : ℕ} {s : EventLoop} {dynamic : Bool}

theorem sound_new : Sound limit new where
  numbered := rfl
  stored := fun lane => ⟨.nil, .nil, by rintro x ⟨⟩⟩
  ordered := .nil
  gathered := ⟨by rintro ⟨⟩, fun _ => rfl, fun _ => Nat.zero_le _, by simp [new, Wake.new], .nil⟩
  located := ⟨rfl, fun _ => rfl⟩
  wakes := by rintro w ⟨⟩

theorem Sound.send (h : s.Sound limit) (event : DriverEvent) : (s.send event).Sound limit := by
  have hnew : ∀ x ∈ s.sent, x.number < s.sent.length := by
    intro x hx
    have hmem : x.number ∈ s.sent.map SentEvent.number := List.mem_map_of_mem hx
    rw [h.numbered] at hmem
    exact List.mem_range.1 hmem
  refine ⟨?_, ?_, h.ordered, h.gathered, h.located, h.wakes⟩
  · simp [EventLoop.send, h.numbered, List.range_succ]
  · exact Stored.update ((h.stored event.lane).send rfl hnew)
      fun other hne => (h.stored other).send_other (Ne.symm hne)

theorem from?_own (lane : Lane) (items : List Pending) :
    (items.map Work.own).filterMap (Work.from? lane) = [] := by
  simp [List.filterMap_map, Function.comp_def, Work.from?]

/-- Nothing of the disposal lane is in the batch before it is collected. -/
theorem Sound.not_disposed (h : s.Sound limit) (hnone : s.wake.taken .disposal = 0) :
    ∀ w ∈ s.batch, w.isDisposed = false := by
  have hcounted := h.gathered.counted .disposal
  rw [hnone, if_neg h.gathered.head, List.length_eq_zero_iff, List.filterMap_eq_nil_iff] at hcounted
  intro w hw
  have hfrom := hcounted w hw
  unfold Work.isDisposed
  split
  · simp [Work.from?, DriverEvent.lane] at hfrom
  · rfl

theorem lane_of_isExited {x : SentEvent} (h : (Work.sent x).isExited = true) :
    x.event.lane = .primary := by
  unfold Work.isExited at h
  split at h
  · next hx =>
    cases hx
    rfl
  · cases h

theorem batch_take (s : EventLoop) (lane : Lane) (x : SentEvent) (rest : List SentEvent) :
    (s.take lane x rest).batch = s.batch ++ [.sent x] :=
  (List.append_assoc s.wake.dispatched s.pending [.sent x]).symm

theorem log_take (s : EventLoop) (lane : Lane) (x : SentEvent) (rest : List SentEvent) :
    (s.take lane x rest).log = s.log ++ [.sent x] := by
  rw [log, batch_take, ← List.append_assoc]
  rfl

/-- An event is taken into the batch. -/
theorem Sound.take (h : s.Sound limit) {lane : Lane} {x : SentEvent} {rest : List SentEvent}
    (hqueue : s.queue lane = x :: rest) (hlane : lane ≠ .disposal → s.wake.taken .disposal = 0) :
    (∀ other,
        Stored other (s.log ++ [.sent x]) (Function.update s.queue lane rest other) s.sent) ∧
      (s.log ++ [Work.sent x]).Pairwise Work.SentBefore ∧
      (s.batch ++ [Work.sent x]).Pairwise Work.ExitFirst ∧
      ∀ other, ((s.batch ++ [Work.sent x]).filterMap (Work.from? other)).length =
        (s.batch.filterMap (Work.from? other)).length + if other = lane then 1 else 0 := by
  have hstored := h.stored lane
  rw [hqueue] at hstored
  obtain rfl : x.event.lane = lane := (hstored.mem (.inr List.mem_cons_self)).2
  have hother : ∀ other ≠ x.event.lane, ∀ l : List Work,
      (l ++ [Work.sent x]).filterMap (Work.from? other) = l.filterMap (Work.from? other) := by
    intro other hne l
    simp [List.filterMap_append, Work.from?, Ne.symm hne]
  refine ⟨?_, ?_, ?_, ?_⟩
  · refine hstored.take.update fun other hne => (h.stored other).of_perm ?_
    rw [hother other hne]
  · refine List.pairwise_append.2 ⟨h.ordered, List.pairwise_singleton _ _, ?_⟩
    intro a ha b hb _ y z hy hz hsame
    rw [List.mem_singleton.1 hb] at hz
    cases hz
    subst hy
    refine hstored.fifo y (List.mem_filterMap.2 ⟨_, ha, ?_⟩) x List.mem_cons_self
    rw [Work.from?, if_pos hsame]
  · refine List.pairwise_append.2 ⟨h.gathered.disposed, List.pairwise_singleton _ _, ?_⟩
    rintro a ha b hb - ⟨hdisposed, hexited⟩
    rw [List.mem_singleton.1 hb] at hexited
    have hnone := hlane (by rw [lane_of_isExited hexited]; decide)
    rw [h.not_disposed hnone a ha] at hdisposed
    cases hdisposed
  · intro other
    split_ifs with hsame
    · subst hsame
      simp [List.filterMap_append, Work.from?]
    · rw [hother other hsame, Nat.add_zero]

theorem located_afterLane {lane : Lane} (hphase : s.phase = afterLane dynamic limit lane)
    (hnothing : s.wake.dispatched = []) (hcontrol : lane = .primary → s.wake.taken .control = 0)
    (hdisposal : lane ≠ .disposal → s.wake.taken .disposal = 0) : s.Located limit := by
  rw [Located, hphase]
  cases lane with
  | primary =>
    have hnone := hdisposal (by decide)
    cases dynamic with
    | true => exact ⟨hnothing, by simp [hcontrol rfl], by rintro ⟨⟩, fun _ => hnone⟩
    | false => exact ⟨hnothing, by simp [hnone], by rintro ⟨⟩, fun hne => absurd rfl hne⟩
  | control =>
    have hnone := hdisposal (by decide)
    exact ⟨hnothing, by simp [hnone], by rintro ⟨⟩, fun hne => absurd rfl hne⟩
  | disposal => exact hnothing

theorem Sound.receive (h : s.Sound limit) {lane : Lane} {left : ℕ}
    (hphase : s.phase = .collecting lane left) :
    (s.receive dynamic limit lane left).Sound limit := by
  have hlocated := h.located
  rw [Located, hphase] at hlocated
  obtain ⟨hnothing, hleft, hcontrol, hdisposal⟩ := hlocated
  unfold EventLoop.receive
  split
  · exact ⟨h.numbered, h.stored, h.ordered, h.gathered,
      located_afterLane rfl hnothing hcontrol hdisposal, h.wakes⟩
  · next x rest hqueue =>
    obtain ⟨hstored, hordered, hdisposed, hcounted⟩ := h.take hqueue hdisposal
    rw [← log_take s lane x rest] at hstored hordered
    rw [← batch_take s lane x rest] at hdisposed hcounted
    have hcontrol' : lane = .primary → (s.wake.count lane).taken .control = 0 := by
      rintro rfl
      exact hcontrol rfl
    have hdisposal' : lane ≠ .disposal → (s.wake.count lane).taken .disposal = 0 := by
      intro hne
      show s.wake.taken .disposal + (if .disposal = lane then 1 else 0) = 0
      rw [if_neg (Ne.symm hne), hdisposal hne]
    cases left with
    | zero =>
      refine ⟨h.numbered, hstored, hordered, ?_,
        located_afterLane rfl hnothing hcontrol' hdisposal', h.wakes⟩
      exact h.gathered.collect hcounted hdisposed (by omega) ⟨fun _ => .inr hleft, fun _ => rfl⟩
    | succ left =>
      refine ⟨h.numbered, hstored, hordered, ?_, ⟨hnothing, ?_, hcontrol', hdisposal'⟩, h.wakes⟩
      · refine h.gathered.collect hcounted hdisposed (by omega) ⟨.inl, ?_⟩
        rintro (hfull | hlimit)
        · exact hfull
        · omega
      · show s.wake.taken lane + (if lane = lane then 1 else 0) + left = limit
        rw [if_pos rfl]
        omega

/-- Items of the loop's own making are in order with everything. -/
theorem pairwise_own {R : Work → Work → Prop} {l : List Work} (hR : ∀ a p, R a (.own p))
    (h : l.Pairwise R) (items : List Pending) : (l ++ items.map Work.own).Pairwise R := by
  refine List.pairwise_append.2 ⟨h, ?_, ?_⟩
  · rw [List.pairwise_map]
    exact List.pairwise_of_forall fun _ p => hR _ p
  · intro a _ b hb
    obtain ⟨p, -, rfl⟩ := List.mem_map.1 hb
    exact hR a p

/-- The batch grows by items of the loop's own making. -/
theorem Sound.own (h : s.Sound limit) (items : List Pending) :
    (∀ lane, Stored lane (s.log ++ items.map Work.own) (s.queue lane) s.sent) ∧
      (s.log ++ items.map Work.own).Pairwise Work.SentBefore ∧
      Gathered limit s.wake (s.batch ++ items.map Work.own) := by
  have hfrom : ∀ lane l, (l ++ items.map Work.own).filterMap (Work.from? lane) =
      l.filterMap (Work.from? lane) := by
    intro lane l
    rw [List.filterMap_append, from?_own, List.append_nil]
  refine ⟨fun lane => (h.stored lane).of_perm (by rw [hfrom]),
    pairwise_own (by rintro a p - x y - ⟨⟩) h.ordered items, h.gathered.head, ?_,
    h.gathered.budget, h.gathered.full,
    pairwise_own (by rintro a p - ⟨-, ⟨⟩⟩) h.gathered.disposed items⟩
  intro lane
  rw [hfrom]
  exact h.gathered.counted lane

/-- The sort keeps what is in order. -/
theorem Sound.arbitrate {old batch : List Work} {wake : Wake} {queue : Lane → List SentEvent}
    {sent : List SentEvent} (hstored : ∀ lane, Stored lane (old ++ batch) (queue lane) sent)
    (hordered : (old ++ batch).Pairwise Work.SentBefore) (hgathered : Gathered limit wake batch) :
    (∀ lane, Stored lane (old ++ arbitrate batch) (queue lane) sent) ∧
      (old ++ arbitrate batch).Pairwise Work.SentBefore ∧
      Gathered limit wake (arbitrate batch) := by
  have hperm : (Shelterwood.arbitrate batch).Perm batch := stableSort_perm
  refine ⟨fun lane => (hstored lane).of_perm ((hperm.append_left old).filterMap _), ?_,
    hgathered.head, ?_, hgathered.budget, hgathered.full, pairwise_stableSort hgathered.disposed⟩
  · obtain ⟨hold, hbatch, hacross⟩ := List.pairwise_append.1 hordered
    refine List.pairwise_append.2 ⟨hold, pairwise_stableSort hbatch, ?_⟩
    exact fun a ha b hb => hacross a ha b (hperm.subset hb)
  · intro lane
    rw [(hperm.filterMap _).length_eq]
    exact hgathered.counted lane

theorem Sound.wakeUp (h : s.Sound limit) (hphase : s.phase = .waiting) {wake : ScopeWake}
    {s' : EventLoop} (hwake : s.wakeUp wake = some s') : s'.Sound limit := by
  have hlocated := h.located
  rw [Located, hphase] at hlocated
  obtain ⟨hbatch, htaken⟩ := hlocated
  have hnothing : s.wake.dispatched = [] := (List.append_eq_nil_iff.1 hbatch).1
  cases wake with
  | signal | parentShutdown | deadline =>
    cases hwake
    exact ⟨h.numbered, h.stored, h.ordered, h.gathered, ⟨hnothing, htaken⟩, h.wakes⟩
  | closed =>
    cases hwake
    exact ⟨h.numbered, h.stored, h.ordered, h.gathered, trivial, h.wakes⟩
  | message lane =>
    simp only [EventLoop.wakeUp] at hwake
    split at hwake
    · cases hwake
    · next x rest hqueue =>
      split_ifs at hwake with hlane
      cases hwake
      obtain ⟨hstored, hordered, hdisposed, hcounted⟩ := h.take hqueue fun _ => htaken _
      rw [← log_take s lane x rest] at hstored hordered
      rw [← batch_take s lane x rest] at hdisposed hcounted
      refine ⟨h.numbered, hstored, hordered, ⟨?_, ?_, h.gathered.budget, h.gathered.full,
        hdisposed⟩, ⟨hnothing, htaken⟩, h.wakes⟩
      · rintro ⟨⟩
        exact hlane rfl
      · intro other
        refine (hcounted other).trans ?_
        rw [hbatch]
        simp [htaken, eq_comm]

theorem Sound.signals (h : s.Sound limit) (hphase : s.phase = .top) (items : List Pending) :
    ({ s with
      pending := s.pending ++ items.map .own
      wake := { s.wake with full := false }
      phase := .collecting .primary limit } : EventLoop).Sound limit := by
  have hlocated := h.located
  rw [Located, hphase] at hlocated
  obtain ⟨hnothing, htaken⟩ := hlocated
  obtain ⟨hstored, hordered, hgathered⟩ := h.own items
  rw [log, List.append_assoc, batch, List.append_assoc] at hstored hordered
  rw [batch, List.append_assoc] at hgathered
  refine ⟨h.numbered, hstored, hordered, { hgathered with full := ⟨by rintro ⟨⟩, ?_⟩ },
    ⟨hnothing, ?_, fun _ => htaken _, fun _ => htaken _⟩, h.wakes⟩
  · rintro ⟨lane, hlane⟩
    cases (htaken lane).symm.trans hlane
  · rw [htaken, Nat.zero_add]

theorem Sound.deadlines (h : s.Sound limit) (hphase : s.phase = .due) (items : List Pending) :
    (if s.pending ++ items.map .own = [] then
        ({ s with pending := s.pending ++ items.map .own, phase := .waiting } : EventLoop)
      else
        { s with
          pending := Shelterwood.arbitrate (s.pending ++ items.map .own)
          phase := .dispatching }).Sound limit := by
  have hlocated := h.located
  rw [Located, hphase] at hlocated
  obtain ⟨hstored, hordered, hgathered⟩ := h.own items
  rw [log, List.append_assoc, batch, hlocated, List.nil_append] at hstored hordered
  rw [batch, hlocated, List.nil_append] at hgathered
  split_ifs with hempty
  · rw [hempty] at hgathered hstored hordered ⊢
    have hbatch : ({ s with pending := [], phase := .waiting } : EventLoop).batch = [] := by
      rw [batch, hlocated]
      rfl
    refine ⟨h.numbered, ?_, ?_, ?_, ⟨hbatch, fun lane => ?_⟩, h.wakes⟩
    · rw [log, hbatch]
      exact hstored
    · rw [log, hbatch]
      exact hordered
    · rw [hbatch]
      exact hgathered
    · exact (Nat.add_eq_zero_iff.1 (hgathered.counted lane).symm).1
  · have hbatch : ({ s with
        pending := Shelterwood.arbitrate (s.pending ++ items.map .own)
        phase := .dispatching } : EventLoop).batch =
        Shelterwood.arbitrate (s.pending ++ items.map .own) := by
      rw [batch, hlocated]
      rfl
    obtain ⟨hstored, hordered, hgathered⟩ := Sound.arbitrate hstored hordered hgathered
    refine ⟨h.numbered, ?_, ?_, ?_, ?_, h.wakes⟩
    · rw [log, hbatch]
      exact hstored
    · rw [log, hbatch]
      exact hordered
    · rw [hbatch]
      exact hgathered
    · rw [Located, hbatch]
      exact sorted_stableSort

theorem Sound.apply (h : s.Sound limit) {input : LoopInput} {s' : EventLoop}
    (hstep : s.apply dynamic limit input = some (s', ())) : s'.Sound limit := by
  cases input with
  | send event =>
    simp only [EventLoop.apply] at hstep
    split_ifs at hstep
    cases hstep
    exact h.send event
  | signals signals =>
    simp only [EventLoop.apply] at hstep
    split at hstep
    · next hphase =>
      cases hstep
      exact h.signals hphase _
    · cases hstep
  | receive =>
    simp only [EventLoop.apply] at hstep
    split at hstep
    · next hphase =>
      cases hstep
      exact h.receive hphase
    · cases hstep
  | deadlines due =>
    simp only [EventLoop.apply] at hstep
    split at hstep
    · next hphase =>
      cases hstep
      have hsound := h.deadlines hphase (due.map .deadline)
      rwa [List.map_map] at hsound
    · cases hstep
  | wakeUp wake =>
    simp only [EventLoop.apply] at hstep
    split at hstep
    · next hphase =>
      obtain ⟨_, hwake, heq⟩ := Option.map_eq_some_iff.1 hstep
      cases heq
      exact h.wakeUp hphase hwake
    · cases hstep
  | dispatch =>
    simp only [EventLoop.apply] at hstep
    split at hstep
    · next work pending hphase hpending =>
      cases hstep
      -- the batch is the same, cut one item later
      have hbatch : s.wake.dispatched ++ [work] ++ pending = s.batch := by
        rw [List.append_assoc, batch, hpending]
        rfl
      have hlocated := h.located
      rw [Located, hphase, ← hbatch] at hlocated
      have hstored := h.stored
      have hordered := h.ordered
      have hgathered := h.gathered
      rw [log, ← hbatch] at hstored hordered
      rw [← hbatch] at hgathered
      refine ⟨h.numbered, hstored, hordered, { hgathered with }, ?_, h.wakes⟩
      rw [Located, hphase]
      exact hlocated
    · cases hstep
  | settle completed =>
    simp only [EventLoop.apply] at hstep
    split at hstep
    · next hphase hpending =>
      cases hstep
      have hbatch : s.batch = s.wake.dispatched := by rw [batch, hpending, List.append_nil]
      have hlocated := h.located
      rw [Located, hphase, hbatch] at hlocated
      have hlog : (s.wakes ++ [s.wake]).flatMap Wake.dispatched ++
          (Wake.new.dispatched ++ s.pending) =
          s.log := by
        rw [log, hbatch, hpending, List.flatMap_append]
        simp [Wake.new]
      refine ⟨h.numbered, ?_, ?_, ?_, ?_, ?_⟩
      · rw [log, batch, hlog]
        exact h.stored
      · rw [log, batch, hlog]
        exact h.ordered
      · rw [batch, hpending]
        exact sound_new.gathered
      · cases completed with
        | false => exact ⟨rfl, fun _ => rfl⟩
        | true => exact trivial
      · intro w hw
        rcases List.mem_append.1 hw with hw | hw
        · exact h.wakes w hw
        · rw [List.mem_singleton.1 hw]
          exact ⟨hbatch ▸ h.gathered, hlocated⟩
    · cases hstep

/-- Every event that was sent was dispatched once or is in its lane. -/
def Accounted (s : EventLoop) : Prop :=
  ∀ lane, (s.dispatched.filterMap (Work.from? lane) ++ s.queue lane).Perm
    (s.sent.filter fun x => x.event.lane = lane)

theorem log_eq (s : EventLoop) : s.log = s.dispatched ++ s.pending :=
  (List.append_assoc _ _ _).symm

/-- The end of a wake. -/
theorem Sound.accounted (h : s.Sound limit) {completed : Bool} {s' : EventLoop}
    (hstep : s.apply dynamic limit (.settle completed) = some (s', ())) : s'.Accounted := by
  have hempty : s'.pending = [] := by
    simp only [EventLoop.apply] at hstep
    split at hstep
    · next hpending =>
      cases hstep
      exact hpending
    · cases hstep
  intro lane
  have hconserved := ((h.apply hstep).stored lane).conserved
  rwa [log_eq, hempty, List.append_nil] at hconserved

/-- An event of the lane and class of one that was dispatched, and sent before it, was
dispatched before it. -/
theorem Sound.fifo (h : s.Sound limit) {x y : SentEvent} (hx : x ∈ s.sent)
    (hlane : x.event.lane = y.event.lane) (hrank : (Work.sent x).rank = (Work.sent y).rank)
    (hnumber : x.number < y.number) (hy : Work.sent y ∈ s.dispatched) :
    [Work.sent x, Work.sent y].Sublist s.dispatched := by
  have hordered := h.ordered
  have hstored := h.stored x.event.lane
  rw [log_eq] at hordered hstored
  obtain ⟨hbefore, -, hacross⟩ := List.pairwise_append.1 hordered
  -- nothing of the kind of `x` comes after `y`
  have hafter : ¬ (Work.sent y).SentBefore (.sent x) := fun hsent =>
    Nat.lt_asymm hnumber (hsent hrank.symm y x rfl rfl hlane.symm)
  have hmem : x ∈ (s.dispatched ++ s.pending).filterMap (Work.from? x.event.lane) ++
      s.queue x.event.lane := hstored.conserved.mem_iff.2 (by simp [hx])
  have hdispatched : Work.sent x ∈ s.dispatched := by
    rcases List.mem_append.1 hmem with htaken | hqueued
    · obtain ⟨w, hw, hfrom⟩ := List.mem_filterMap.1 htaken
      obtain rfl : w = .sent x := by
        cases w with
        | own p => cases hfrom
        | sent z =>
          rw [Work.from?, Option.ite_none_right_eq_some] at hfrom
          cases hfrom.2
          rfl
      rcases List.mem_append.1 hw with hw | hw
      · exact hw
      · exact absurd (hacross _ hy _ hw) hafter
    · refine absurd (hstored.fifo y (List.mem_filterMap.2 ⟨_, List.mem_append_left _ hy, ?_⟩) x
        hqueued) (Nat.lt_asymm hnumber)
      rw [Work.from?, if_pos hlane.symm]
  obtain ⟨pre, post, heq⟩ := List.append_of_mem hy
  rw [heq] at hbefore hdispatched ⊢
  obtain ⟨-, hpost, -⟩ := List.pairwise_append.1 hbefore
  rcases List.mem_append.1 hdispatched with hpre | hrest
  · exact (List.singleton_sublist.2 hpre).append (List.singleton_sublist.2 List.mem_cons_self)
  · rcases List.mem_cons.1 hrest with hsame | hlater
    · cases hsame
      exact absurd hnumber (Nat.lt_irrefl _)
    · exact absurd ((List.pairwise_cons.1 hpost).1 _ hlater) hafter

theorem sound_of_run {tr : List (Edge EventLoop LoopInput Unit)}
    (hrun : Run (stepEdge fun s input => EventLoop.apply dynamic limit s input) .new tr s) :
    s.Sound limit :=
  hrun.invariant sound_new fun _ he _ h => h.apply he

end EventLoop

/-- Whatever is sent on the lanes and whenever the loop wakes, at the end of every wake each
event was dispatched once or is in its lane; events of one lane and class are dispatched in
the order they were sent; and each wake dispatches by class, exits before disposals, with
at most `limit + 1` events of a lane and one head. -/
theorem events_dispatched_by_class {dynamic : Bool} {limit : ℕ} {s : EventLoop}
    {tr : List (Edge EventLoop LoopInput Unit)}
    (hrun : Run (stepEdge fun s input => EventLoop.apply dynamic limit s input) .new tr s) :
    s.sent.map SentEvent.number = List.range s.sent.length ∧
      (∀ e ∈ tr, ∀ completed, e.input = .settle completed → e.after.Accounted) ∧
      (∀ x ∈ s.sent, ∀ y ∈ s.sent, x.event.lane = y.event.lane →
        (Pending.ofEvent x.event).class = (Pending.ofEvent y.event).class →
        x.number < y.number → Work.sent y ∈ s.dispatched →
        [Work.sent x, Work.sent y].Sublist s.dispatched) ∧
      ∀ w ∈ s.wakes,
        (w.dispatched.Pairwise fun a b => a.rank ≤ b.rank) ∧
        (w.dispatched.Pairwise fun a b => ¬ (a.isDisposed = true ∧ b.isExited = true)) ∧
        (∀ lane, (w.dispatched.filterMap (Work.from? lane)).length =
            w.taken lane + (if w.head = some lane then 1 else 0) ∧
          w.taken lane ≤ limit + 1) ∧
        (w.full = true ↔ ∃ lane, w.taken lane = limit + 1) := by
  have hsound := EventLoop.sound_of_run hrun
  refine ⟨hsound.numbered, ?_, ?_, ?_⟩
  · intro e he completed hinput
    obtain ⟨pre, post, -, hpre, hedge, -⟩ := hrun.mem_split he
    rw [stepEdge, hinput] at hedge
    exact (EventLoop.sound_of_run hpre).accounted hedge
  · intro x hx y _ hlane hclass hnumber hy
    exact hsound.fifo hx hlane (congrArg ArbitrationClass.rank hclass) hnumber hy
  · intro w hw
    obtain ⟨hgathered, hsorted⟩ := hsound.wakes w hw
    refine ⟨hsorted, ?_, fun lane => ⟨hgathered.counted lane, hgathered.budget lane⟩,
      hgathered.full⟩
    refine hgathered.disposed.imp fun {a b} hfirst hboth => hfirst ?_ hboth
    rw [Work.rank_of_isDisposed hboth.1, Work.rank_of_isExited hboth.2]

/-- Two wakes: the first has the head it waited for and two events collected, the second
the event the limit deferred. -/
def deferredRun : List LoopInput :=
  let quiet : LatchedSignals := ⟨false, [], false, false, false⟩
  let incarnation : Incarnation := ⟨⟨1, 1⟩, 1⟩
  [.signals quiet, .receive, .receive, .receive, .deadlines [],
    .send (.child (.ready 1 incarnation)), .wakeUp (.message .primary),
    .send (.child (.constructionDisposed 2)),
    .send (.child (.exited 3 incarnation none .ok .notObserved false)),
    .send (.child (.ready 3 incarnation)), .send (.child (.ready 1 incarnation)),
    .signals quiet, .receive, .receive, .receive, .receive, .receive, .deadlines [.restart 4],
    .dispatch, .dispatch, .dispatch, .dispatch, .dispatch, .settle false,
    .signals { quiet with force := true }, .receive, .receive, .receive, .receive,
    .deadlines [], .dispatch, .dispatch, .settle false]

theorem events_dispatched_by_class_deferredRun :
    ∃ tr s, Run (stepEdge fun s input => EventLoop.apply true 1 s input) .new tr s ∧
      tr.map Edge.input = deferredRun ∧ s.wakes.map Wake.full = [true, false] ∧
      ∃ e ∈ tr, e.input = .settle false ∧ e.after.Accounted := by
  have hexec : ∃ tr s, exec (fun s input => EventLoop.apply true 1 s input) .new deferredRun =
      some (tr, s) ∧ s.wakes.map Wake.full = [true, false] := ⟨_, _, rfl, rfl⟩
  obtain ⟨tr, s, hexec, hfull⟩ := hexec
  have hrun := run_of_exec _ hexec
  have hinputs := exec_inputs _ hexec
  have hsettle : LoopInput.settle false ∈ tr.map Edge.input := by
    rw [hinputs]
    decide
  obtain ⟨e, he, hinput⟩ := List.mem_map.1 hsettle
  exact ⟨tr, s, hrun, hinputs, hfull, e, he, hinput,
    (events_dispatched_by_class hrun).2.1 e he false hinput⟩

end Shelterwood
