/-
Shelterwood/Observe.lean

What observers of a scope receive: snapshots and lifecycle events.

A snapshot is the state of a scope and, recursively, of the resident scopes whose
incarnation is live or terminal.  Each scope numbers its own events, and a
snapshot carries the number of the last one, of the scope itself and of every
child scope, so that a subscriber can tell which events a snapshot already
accounts for.
-/
import Shelterwood.ScopeCell
import Shelterwood.Restart
import Shelterwood.Broadcast

namespace Shelterwood

/-! ### Events -/

/-- Number of lifecycle events retained independently for each subscriber. -/
def lifecycleEventCapacity : ℕ := 128

inductive LifecycleEventKind
  | added (id : ChildId) (membership : Membership)
  | started (id : ChildId) (membership : Membership) (incarnation : Incarnation)
  | ready (id : ChildId) (membership : Membership) (incarnation : Incarnation)
  | exited (id : ChildId) (membership : Membership) (incarnation : Incarnation) (exit : Exit)
  | restartScheduled (id : ChildId) (membership : Membership) (attempt : RestartAttempt)
      (delay : Duration)
  | removed (id : ChildId) (membership : Membership) (lastIncarnation : Option Incarnation)
  | scopeState (state : ScopeState)
  deriving DecidableEq, Repr

namespace LifecycleEventKind

/-- The membership whose admission the event announces. -/
def added? : LifecycleEventKind → Option Membership
  | .added _ membership => some membership
  | _ => none

/-- The membership whose withdrawal the event announces. -/
def removed? : LifecycleEventKind → Option Membership
  | .removed _ membership _ => some membership
  | _ => none

/-- The event is about residency: only admission and withdrawal emit such. -/
def isResidency (kind : LifecycleEventKind) : Bool :=
  kind.added?.isSome || kind.removed?.isSome

end LifecycleEventKind

/-- One lifecycle edge emitted by a scope membership. -/
structure LifecycleEvent where
  /-- Child ids from the subscribed scope down to the emitting one. -/
  scopePath : List ChildId
  scope : Membership
  seq : ℕ
  kind : LifecycleEventKind
  deriving DecidableEq, Repr

/-- Extends the scope path towards the subscribed ancestor. -/
def LifecycleEvent.prependScope (event : LifecycleEvent) (id : ChildId) : LifecycleEvent :=
  { event with scopePath := id :: event.scopePath }

/-! ### Snapshots -/

/-- Observed state of one child membership (`observe::ChildState`). -/
inductive ObservedChildState
  | admitted
  | starting
  | running
  | stopping
  | restarting
  | stopped (exit : Exit)
  | startupAborted (exit : Exit)
  deriving DecidableEq, Repr

inductive Strategy
  | oneForOne
  deriving DecidableEq, Repr

/-- Current-state projection of one child membership, over the snapshots `S` of
child scopes. -/
structure ChildSnapshot (S : Type) where
  id : ChildId
  membership : Membership
  incarnation : Option Incarnation
  state : ObservedChildState
  lastExit : Option Exit
  membershipStatus : MembershipStatus
  restartCount : RestartCount
  restartPolicy : RestartCondition
  retention : Retention
  restartAt : Option Instant
  /-- A scope child's snapshot while its incarnation is live or terminal. -/
  nested : Option S
  /-- Lifecycle watermark of a scope child. -/
  scopeSeq : Option ℕ

/-- Recursive current-state projection of one scope. -/
inductive ScopeSnapshot
  | mk (state : ScopeState) (kind : ScopeFlavor) (strategy : Option Strategy)
      (intensity : Intensity) (totalRestarts : TotalRestarts) (lifecycleSeq : ℕ)
      (children : List (ChildSnapshot ScopeSnapshot))

namespace ScopeSnapshot

def lifecycleSeq : ScopeSnapshot → ℕ
  | .mk _ _ _ _ _ lifecycleSeq _ => lifecycleSeq

def children : ScopeSnapshot → List (ChildSnapshot ScopeSnapshot)
  | .mk _ _ _ _ _ _ children => children

mutual

/-- The lifecycle watermark of a descendant scope. -/
def watermark (membership : Membership) : ScopeSnapshot → Option ℕ
  | .mk _ _ _ _ _ _ children => watermarkIn membership children

def watermarkIn (membership : Membership) :
    List (ChildSnapshot ScopeSnapshot) → Option ℕ
  | [] => none
  | child :: rest =>
    match watermarkOf membership child with
    | some seq => some seq
    | none => watermarkIn membership rest

def watermarkOf (membership : Membership) : ChildSnapshot ScopeSnapshot → Option ℕ
  | ⟨_, childMembership, _, _, _, _, _, _, _, _, nested, scopeSeq⟩ =>
    if childMembership = membership then scopeSeq else watermarkUnder membership nested

def watermarkUnder (membership : Membership) : Option ScopeSnapshot → Option ℕ
  | none => none
  | some nested => watermark membership nested

end

end ScopeSnapshot

/-! ### Hubs -/

/-- The retained state of a snapshot hub, with its receivers. -/
structure SnapshotHubState where
  snapshot : ScopeSnapshot
  generation : ℕ
  closed : Bool
  receivers : ℕ

/-- A staged publication.  The cut is built at commit, from the scope that owns
the hub. -/
structure SnapshotPublication where
  hub : Membership
  published : Bool
  closed : Bool
  deriving DecidableEq, Repr

/-- Replaces the producer and keeps the generation edge. -/
def SnapshotPublication.coalesce (staged newer : SnapshotPublication) : SnapshotPublication :=
  { staged with published := staged.published || newer.published, closed := newer.closed }

/-- What a receive of a subscription returned. -/
inductive LifecycleReceive
  | event (event : LifecycleEvent)
  | lagged (dropped : ℕ)
  | empty
  | closed
  deriving DecidableEq, Repr

/-- What a receive makes of the channel's answer: an empty queue is closed if the
flag was. -/
def LifecycleReceive.ofBroadcast (closed : Bool) :
    BroadcastReceive LifecycleEvent → LifecycleReceive
  | .item value => .event value
  | .lagged dropped => .lagged dropped
  | .empty => if closed then .closed else .empty
  | .closed => .closed

variable [TokioBroadcast LifecycleEvent]

/-- One membership-owned lifecycle subscription. -/
structure LifecycleEvents where
  events : TokioBroadcast.Reader LifecycleEvent
  /-- The closure flag a receive in progress has read. -/
  signal : Option Bool
  dropped : Bool

/-- How much of what was sent the subscription is past. -/
def LifecycleEvents.next (r : LifecycleEvents) : ℕ := TokioBroadcast.position r.events

/-- The event hub of a scope.  Its closure flag is the cell's. -/
structure LifecycleHub where
  events : TokioBroadcast.Chan LifecycleEvent
  subscriptions : List LifecycleEvents
  /-- The channel counts the subscriptions, whose other half counts them for
  `has_receivers`. -/
  live : (TokioBroadcast.held events).receivers = subscriptions.countP fun r => !r.dropped

namespace LifecycleHub

def new : LifecycleHub where
  events := TokioBroadcast.channel lifecycleEventCapacity
  subscriptions := []
  live := by
    rw [TokioBroadcast.held_channel]
    rfl

/-- Everything published, in order. -/
def sent (hub : LifecycleHub) : List LifecycleEvent := (TokioBroadcast.held hub.events).sent

def hasReceivers (hub : LifecycleHub) : Bool := hub.subscriptions.any fun r => !r.dropped

theorem receivers_pos {hub : LifecycleHub} (h : hub.hasReceivers = true) :
    0 < (TokioBroadcast.held hub.events).receivers := by
  rw [hub.live, List.countP_pos_iff]
  exact List.any_eq_true.1 h

def subscribe (hub : LifecycleHub) : LifecycleHub where
  events := (TokioBroadcast.subscribe hub.events).2
  subscriptions := hub.subscriptions ++ [⟨(TokioBroadcast.subscribe hub.events).1, none, false⟩]
  live := by simp [TokioBroadcast.held_subscribe, hub.live, List.countP_append]

/-- Replaces a subscription that stays. -/
def setSubscription (hub : LifecycleHub) (k : ℕ) {r q : LifecycleEvents}
    (hr : hub.subscriptions[k]? = some r) (hdropped : q.dropped = r.dropped)
    {events : TokioBroadcast.Chan LifecycleEvent}
    (hheld : TokioBroadcast.held events = TokioBroadcast.held hub.events) : LifecycleHub where
  events := events
  subscriptions := hub.subscriptions.set k q
  live := by
    obtain ⟨hk, rfl⟩ := List.getElem?_eq_some_iff.1 hr
    rw [hheld, hub.live, List.countP_set hk, hdropped]
    split_ifs with hlive
    · have hpos : 0 < hub.subscriptions.countP fun r => !r.dropped :=
        List.countP_pos_iff.2 ⟨_, List.getElem_mem hk, hlive⟩
      omega
    · rfl

/-- The first half of a receive: the closure flag is read before the queue. -/
def readSignal (hub : LifecycleHub) (k : ℕ) (closed : Bool) : Option LifecycleHub :=
  match hr : hub.subscriptions[k]? with
  | none => none
  | some r =>
    if r.dropped then none
    else some (hub.setSubscription k (q := { r with signal := some closed }) hr rfl rfl)

/-- The second half reads the queue. -/
def tryRecv (hub : LifecycleHub) (k : ℕ) : Option (LifecycleReceive × LifecycleHub) :=
  match hr : hub.subscriptions[k]? with
  | none => none
  | some r =>
    match r.dropped, r.signal with
    | false, some closed =>
      some
        (.ofBroadcast closed (TokioBroadcast.tryReceive hub.events r.events).1,
          hub.setSubscription k
            (q := ⟨(TokioBroadcast.tryReceive hub.events r.events).2.1, none, r.dropped⟩) hr rfl
            (TokioBroadcast.held_tryReceive hub.events r.events))
    | _, _ => none

def drop (hub : LifecycleHub) (k : ℕ) : Option LifecycleHub :=
  match hr : hub.subscriptions[k]? with
  | none => none
  | some r =>
    if hdropped : r.dropped then some hub
    else
      some
        { events := TokioBroadcast.dropReceiver hub.events r.events
          subscriptions := hub.subscriptions.set k { r with dropped := true }
          live := by
            obtain ⟨hk, rfl⟩ := List.getElem?_eq_some_iff.1 hr
            rw [TokioBroadcast.held_dropReceiver, List.countP_set hk]
            simp [hub.live, hdropped] }

/-- Publishes to the receivers of an open hub. -/
def publish (hub : LifecycleHub) (closed : Bool) (event : LifecycleEvent) : LifecycleHub :=
  if h : !hub.hasReceivers || closed then hub
  else
    { hub with
      events := (TokioBroadcast.send hub.events event).2
      live := by
        rw [TokioBroadcast.held_send _ _ (receivers_pos (by simp at h; exact h.1))]
        exact hub.live }

/-! Only a publication adds to what was sent. -/

variable {hub hub' : LifecycleHub} {k : ℕ} {closed : Bool}

theorem sent_subscribe (hub : LifecycleHub) : hub.subscribe.sent = hub.sent := by
  simp [sent, subscribe, TokioBroadcast.held_subscribe]

theorem sent_readSignal (h : hub.readSignal k closed = some hub') : hub'.sent = hub.sent := by
  unfold readSignal at h
  split at h
  · cases h
  · split_ifs at h
    cases h
    rfl

theorem sent_tryRecv {received : LifecycleReceive} (h : hub.tryRecv k = some (received, hub')) :
    hub'.sent = hub.sent := by
  unfold tryRecv at h
  split at h
  · cases h
  · split at h
    · cases h
      exact congrArg Broadcast.sent (TokioBroadcast.held_tryReceive ..)
    · cases h

theorem sent_drop (h : hub.drop k = some hub') : hub'.sent = hub.sent := by
  unfold drop at h
  split at h
  · cases h
  · split_ifs at h
    · cases h
      rfl
    · cases h
      simp [sent, TokioBroadcast.held_dropReceiver]

theorem sent_publish (hub : LifecycleHub) (closed : Bool) (event : LifecycleEvent) :
    (hub.publish closed event).sent =
      if hub.hasReceivers && !closed then hub.sent ++ [event] else hub.sent := by
  by_cases h : (hub.hasReceivers && !closed) = true
  · have hlive := receivers_pos (Bool.and_eq_true_iff.1 h).1
    rw [publish, dif_neg (by simpa using h), if_pos h]
    simp [sent, TokioBroadcast.held_send _ event hlive]
  · rw [publish, dif_pos (by simpa [Bool.or_eq_true, imp_iff_not_or] using h), if_neg h]

end LifecycleHub

end Shelterwood
