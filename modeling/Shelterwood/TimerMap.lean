/-
Shelterwood/TimerMap.lean

The timer store is a map from keys to timers.

The map knows for every key its arming, deadline and message, and whether the
deadline was already captured.  `Shows` relates it to the three indexes of the
store, read as sets: the entries held, the arming index and the deadline index.
Every operation takes an entry out, puts one in, or both, so two lemmas, `Shows.lose`
and `Shows.gain`, carry the refinement.
-/
import Shelterwood.TimerStore
import Shelterwood.Trace

namespace Shelterwood

/-! ### Operations of the store -/

inductive TimerOp (K M : Type)
  | replace (key : K) (deadline : Option Instant) (message : TimerMessage M)
  | remove (key : K)
  | clearAndDispose (key : K) (message : M)
  | clear
  | takeDue (now : Instant)
  | deliverDue (armingOrder : ℕ) (now : Instant) (clonePanics : Bool)

inductive TimerAnswer (M : Type)
  | armed (armingOrder : ℕ)
  | removed (found : Bool)
  | disposed
  | cleared
  | due (armings : List ℕ)
  | delivered (message : Option M)
  | clonePanicked
  | panicked (message : String)
  deriving DecidableEq

def TimerStore.Delivery.answer {M : Type} : TimerStore.Delivery M → TimerAnswer M
  | .message delivered => .delivered delivered
  | .clonePanicked => .clonePanicked

namespace TimerStore

variable {K M : Type} [BEq K] (hash : K → ℕ) (ceiling : Instant)

def perform (s : TimerStore K M) : TimerOp K M → Except Fault (TimerAnswer M × TimerStore K M)
  | .replace key deadline message =>
    match s.replace hash key deadline message with
    | .error fault => .error fault
    | .ok (armingOrder, s) => .ok (.armed armingOrder, s)
  | .remove key =>
    match s.remove hash key with
    | .error fault => .error fault
    | .ok (found, s) => .ok (.removed found, s)
  | .clearAndDispose key message =>
    match s.clearAndDispose hash key message with
    | .error fault => .error fault
    | .ok s => .ok (.disposed, s)
  | .clear => .ok (.cleared, s.clear)
  | .takeDue now => .ok (.due (s.takeDue now).1, (s.takeDue now).2)
  | .deliverDue armingOrder now clonePanics =>
    match s.deliverDue ceiling armingOrder now clonePanics with
    | .error fault => .error fault
    | .ok (delivery, s) => .ok (delivery.answer, s)

/-- One call.  A mint past the counter's limit aborts the process; a failed
expectation unwinds to the caller. -/
def call (s : TimerStore K M) (op : TimerOp K M) : Option (TimerStore K M × TimerAnswer M) :=
  match s.perform hash ceiling op with
  | .ok (answer, s) => some (s, answer)
  | .error .exhausted => none
  | .error (.panicked message) => some (s, .panicked message)

end TimerStore

/-! ### The map -/

structure Timer (M : Type) where
  arming : ℕ
  deadline : Option Instant
  /-- Whether the deadline was captured since it was set. -/
  captured : Bool
  message : TimerMessage M

namespace Timer

variable {M : Type}

/-- The timer's deadline is `d`, at most `now`, and not yet captured. -/
def DueAt (t : Timer M) (now d : Instant) : Prop :=
  t.deadline = some d ∧ d ≤ now ∧ t.captured = false

def capture (now : Instant) (t : Timer M) : Timer M :=
  { t with captured := t.captured || t.deadline.any fun d => d ≤ now }

end Timer

structure TimerMap (K M : Type) where
  last : ℕ
  timers : K → Option (Timer M)

namespace TimerMap

variable {K M : Type}

def new : TimerMap K M := ⟨0, fun _ => none⟩

def put [BEq K] (m : TimerMap K M) (key : K) (t : Option (Timer M)) : TimerMap K M :=
  { m with timers := fun k => if k == key then t else m.timers k }

def captureAll (m : TimerMap K M) (now : Instant) : TimerMap K M :=
  { m with timers := fun k => (m.timers k).map (Timer.capture now) }

section Put

variable [BEq K] (m : TimerMap K M)

theorem put_congr [EquivBEq K] {k k' : K} (h : (k == k') = true) (t : Option (Timer M)) :
    m.put k t = m.put k' t := by
  unfold put
  congr 1
  funext x
  rw [BEq.congr_right h]

theorem put_put (k : K) (t t' : Option (Timer M)) : (m.put k t).put k t' = m.put k t' := by
  unfold put
  congr 1
  funext x
  by_cases hx : (x == k) = true <;> simp [hx]

theorem put_none_of_free {k : K} (h : ∀ x, (x == k) = true → m.timers x = none) :
    m.put k none = m := by
  unfold put
  congr 1
  funext x
  by_cases hx : (x == k) = true
  · rw [if_pos hx, h x hx]
  · rw [if_neg hx]

end Put

/-- What the map allows. -/
inductive Step [BEq K] (ceiling : Instant) :
    Edge (TimerMap K M) (TimerOp K M) (TimerAnswer M) → Prop
  | replace (m : TimerMap K M) (key : K) (deadline : Option Instant) (message : TimerMessage M) :
      Step ceiling ⟨m, .replace key deadline message, .armed (m.last + 1),
        { m.put key (some ⟨m.last + 1, deadline, false, message⟩) with last := m.last + 1 }⟩
  | remove (m : TimerMap K M) (key : K) :
      Step ceiling ⟨m, .remove key, .removed (m.timers key).isSome, m.put key none⟩
  | clearAndDispose (m : TimerMap K M) (key : K) (message : M) :
      Step ceiling ⟨m, .clearAndDispose key message, .disposed, m.put key none⟩
  | clear (m : TimerMap K M) :
      Step ceiling ⟨m, .clear, .cleared, { m with timers := fun _ => none }⟩
  /-- Every due deadline, once, by time and arming. -/
  | takeDue (m : TimerMap K M) (now : Instant) (due : List (ℕ × ℕ)) :
      due.Pairwise (fun p q => p.1 < q.1 ∨ p.1 = q.1 ∧ p.2 < q.2) →
      (∀ d a, (d, a) ∈ due ↔ ∃ k t, m.timers k = some t ∧ t.arming = a ∧ t.DueAt now d) →
      Step ceiling ⟨m, .takeDue now, .due (due.map Prod.snd), m.captureAll now⟩
  /-- The arming was removed or superseded after its capture. -/
  | missing (m : TimerMap K M) (a : ℕ) (now : Instant) (clonePanics : Bool) :
      (∀ k t, m.timers k = some t → t.arming ≠ a) →
      Step ceiling ⟨m, .deliverDue a now clonePanics, .delivered none, m⟩
  | once (m : TimerMap K M) (now : Instant) (clonePanics : Bool) {k : K} {t : Timer M}
      {message : M} : m.timers k = some t → t.message = .once message →
      Step ceiling ⟨m, .deliverDue t.arming now clonePanics, .delivered (some message),
        m.put k none⟩
  | interval (m : TimerMap K M) (now : Instant) {k : K} {t : Timer M} {message : M} {clone : M → M}
      {period : Duration} : m.timers k = some t → t.message = .interval message clone period →
      Step ceiling ⟨m, .deliverDue t.arming now false, .delivered (some (clone message)),
        m.put k (some { t with deadline := deadlineAfter ceiling now period, captured := false })⟩
  /-- The user's clone panicked: the arming may be delivered again. -/
  | retry (m : TimerMap K M) (now : Instant) {k : K} {t : Timer M} {message : M} {clone : M → M}
      {period : Duration} : m.timers k = some t → t.message = .interval message clone period →
      Step ceiling ⟨m, .deliverDue t.arming now true, .clonePanicked, m⟩

end TimerMap

/-! ### The three indexes as sets -/

section Shows

variable {K M : Type} [BEq K] (hash : K → ℕ)

/-- Whether the entry's deadline is gone from the deadline index. -/
def TimerEntry.captured (deadlines : OrdMap (Lex (ℕ × ℕ)) Unit) (e : TimerEntry K M) : Bool :=
  e.deadline.any fun d => (deadlines.get? (toLex (d, e.armingOrder))).isNone

def TimerEntry.timer (deadlines : OrdMap (Lex (ℕ × ℕ)) Unit) (e : TimerEntry K M) : Timer M :=
  ⟨e.armingOrder, e.deadline, e.captured deadlines, e.message⟩

/-- The entries held, the arming index and the deadline index show the timers of the
map. -/
structure Shows (held : TimerEntry K M → Prop) (index : OrdMap ℕ ℕ)
    (pending : OrdMap (Lex (ℕ × ℕ)) Unit) (m : TimerMap K M) : Prop where
  keys : ∀ {e e'}, held e → held e' → (e.key == e'.key) = true → e = e'
  orders : ∀ {e e'}, held e → held e' → e.armingOrder = e'.armingOrder → e = e'
  armings : ∀ a h, index.get? a = some h ↔ ∃ e, held e ∧ e.armingOrder = a ∧ hash e.key = h
  deadlines : ∀ d a, pending.get? (toLex (d, a)) = some () →
    ∃ e, held e ∧ e.armingOrder = a ∧ e.deadline = some d
  minted : ∀ e, held e → e.armingOrder ≤ m.last
  timers : ∀ k t, m.timers k = some t ↔ ∃ e, held e ∧ (e.key == k) = true ∧ t = e.timer pending

variable {hash} {held : TimerEntry K M → Prop} {index : OrdMap ℕ ℕ}
variable {pending : OrdMap (Lex (ℕ × ℕ)) Unit} {m : TimerMap K M}

omit [BEq K] in
theorem TimerEntry.timer_congr {pending pending' : OrdMap (Lex (ℕ × ℕ)) Unit} {e : TimerEntry K M}
    (h : ∀ d, pending'.get? (toLex (d, e.armingOrder)) = pending.get? (toLex (d, e.armingOrder))) :
    e.timer pending' = e.timer pending := by
  have hcaptured : e.captured pending' = e.captured pending := by
    unfold TimerEntry.captured
    congr 1
    funext d
    rw [h d]
  rw [TimerEntry.timer, hcaptured]
  rfl

omit [BEq K] in
theorem TimerEntry.captured_of_deadline {e : TimerEntry K M} {d : Instant}
    (h : e.deadline = some d) :
    e.captured pending = (pending.get? (toLex (d, e.armingOrder))).isNone := by
  rw [TimerEntry.captured, h]
  rfl

namespace Shows

theorem new : Shows hash (fun _ : TimerEntry K M => False) .empty .empty .new where
  keys := fun h => h.elim
  orders := fun h => h.elim
  armings := by simp
  deadlines := by simp
  minted := fun _ h => h.elim
  timers := by simp [TimerMap.new]

theorem bump (h : Shows hash held index pending m) {last : ℕ} (hle : m.last ≤ last) :
    Shows hash held index pending { m with last } :=
  { h with minted := fun e he => (h.minted e he).trans hle }

variable [EquivBEq K]

/-- Taking one entry out. -/
theorem lose (h : Shows hash held index pending m) {entry : TimerEntry K M} (hentry : held entry) :
    Shows hash (fun e => held e ∧ e ≠ entry) (index.erase entry.armingOrder)
      (TimerStore.disarmDeadline pending entry.armingOrder entry.deadline)
      (m.put entry.key none) where
  keys := fun he he' => h.keys he.1 he'.1
  orders := fun he he' => h.orders he.1 he'.1
  armings := fun a hh => by
    rw [OrdMap.get?_erase]
    by_cases ha : a = entry.armingOrder
    · rw [if_pos ha]
      constructor
      · rintro ⟨⟩
      · rintro ⟨e, ⟨he, hne⟩, horder, -⟩
        exact absurd (h.orders he hentry (horder.trans ha)) hne
    · rw [if_neg ha, h.armings]
      constructor
      · rintro ⟨e, he, rfl, hhash⟩
        exact ⟨e, ⟨he, fun heq => ha (heq ▸ rfl)⟩, rfl, hhash⟩
      · rintro ⟨e, he, rfl, hhash⟩
        exact ⟨e, he.1, rfl, hhash⟩
  deadlines := fun d a hget => by
    rw [TimerStore.get?_disarmDeadline] at hget
    split_ifs at hget with hgone
    obtain ⟨e, he, rfl, hdeadline⟩ := h.deadlines d a hget
    refine ⟨e, ⟨he, ?_⟩, rfl, hdeadline⟩
    rintro rfl
    exact hgone ⟨hdeadline, rfl⟩
  minted := fun e he => h.minted e he.1
  timers := fun k t => by
    have hsame : ∀ e, held e → e ≠ entry →
        e.timer (TimerStore.disarmDeadline pending entry.armingOrder entry.deadline) =
          e.timer pending := by
      intro e he hne
      refine TimerEntry.timer_congr fun d => ?_
      rw [TimerStore.get?_disarmDeadline, if_neg]
      rintro ⟨-, horder⟩
      exact hne (h.orders he hentry horder)
    show (if k == entry.key then none else m.timers k) = some t ↔ _
    by_cases hk : (k == entry.key) = true
    · rw [if_pos hk]
      constructor
      · rintro ⟨⟩
      · rintro ⟨e, ⟨he, hne⟩, hkey, -⟩
        exact absurd (h.keys he hentry (BEq.trans hkey hk)) hne
    · rw [if_neg hk, h.timers]
      constructor
      · rintro ⟨e, he, hkey, rfl⟩
        have hne : e ≠ entry := by
          rintro rfl
          exact hk (BEq.symm hkey)
        exact ⟨e, ⟨he, hne⟩, hkey, (hsame e he hne).symm⟩
      · rintro ⟨e, he, hkey, rfl⟩
        exact ⟨e, he.1, hkey, hsame e he.1 he.2⟩

/-- Putting one entry in, under a free key and arming order. -/
theorem gain (h : Shows hash held index pending m) {entry : TimerEntry K M}
    (hkeys : ∀ e, held e → (e.key == entry.key) = false)
    (horders : ∀ e, held e → e.armingOrder ≠ entry.armingOrder)
    (hminted : entry.armingOrder ≤ m.last) :
    Shows hash (fun e => held e ∨ e = entry) (index.insert entry.armingOrder (hash entry.key))
      (TimerStore.armDeadline pending entry.armingOrder entry.deadline)
      (m.put entry.key (some ⟨entry.armingOrder, entry.deadline, false, entry.message⟩)) where
  keys := by
    rintro e e' (he | rfl) (he' | rfl) hkey
    · exact h.keys he he' hkey
    · rw [hkeys e he] at hkey
      cases hkey
    · rw [BEq.comm, hkeys e' he'] at hkey
      cases hkey
    · rfl
  orders := by
    rintro e e' (he | rfl) (he' | rfl) horder
    · exact h.orders he he' horder
    · exact absurd horder (horders e he)
    · exact absurd horder.symm (horders e' he')
    · rfl
  armings := fun a hh => by
    rw [OrdMap.get?_insert]
    by_cases ha : a = entry.armingOrder
    · rw [if_pos ha, Option.some.injEq]
      constructor
      · intro hhash
        exact ⟨entry, .inr rfl, ha.symm, hhash⟩
      · rintro ⟨e, he | rfl, horder, hhash⟩
        · exact absurd (horder.trans ha) (horders e he)
        · exact hhash
    · rw [if_neg ha, h.armings]
      constructor
      · rintro ⟨e, he, horder, hhash⟩
        exact ⟨e, .inl he, horder, hhash⟩
      · rintro ⟨e, he | rfl, horder, hhash⟩
        · exact ⟨e, he, horder, hhash⟩
        · exact absurd horder.symm ha
  deadlines := fun d a hget => by
    rw [TimerStore.get?_armDeadline] at hget
    split_ifs at hget with hnew
    · exact ⟨entry, .inr rfl, hnew.2.symm, hnew.1⟩
    · obtain ⟨e, he, horder, hdeadline⟩ := h.deadlines d a hget
      exact ⟨e, .inl he, horder, hdeadline⟩
  minted := by
    rintro e (he | rfl)
    · exact h.minted e he
    · exact hminted
  timers := fun k t => by
    have hsame : ∀ e, held e →
        e.timer (TimerStore.armDeadline pending entry.armingOrder entry.deadline) =
          e.timer pending := by
      intro e he
      refine TimerEntry.timer_congr fun d => ?_
      rw [TimerStore.get?_armDeadline, if_neg]
      rintro ⟨-, horder⟩
      exact horders e he horder
    have hnew : entry.timer (TimerStore.armDeadline pending entry.armingOrder entry.deadline) =
        ⟨entry.armingOrder, entry.deadline, false, entry.message⟩ := by
      have hfalse : entry.captured
          (TimerStore.armDeadline pending entry.armingOrder entry.deadline) = false := by
        unfold TimerEntry.captured
        cases hdeadline : entry.deadline with
        | none => rfl
        | some d => simp [TimerStore.get?_armDeadline]
      rw [TimerEntry.timer, hfalse]
    show (if k == entry.key then some _ else m.timers k) = some t ↔ _
    by_cases hk : (k == entry.key) = true
    · rw [if_pos hk, Option.some.injEq, ← hnew]
      constructor
      · rintro rfl
        exact ⟨entry, .inr rfl, BEq.symm hk, rfl⟩
      · rintro ⟨e, he | rfl, hkey, rfl⟩
        · have := BEq.trans hkey hk
          rw [hkeys e he] at this
          cases this
        · rfl
    · rw [if_neg hk, h.timers]
      constructor
      · rintro ⟨e, he, hkey, rfl⟩
        exact ⟨e, .inl he, hkey, (hsame e he).symm⟩
      · rintro ⟨e, he | rfl, hkey, rfl⟩
        · exact ⟨e, he, hkey, hsame e he⟩
        · exact absurd (BEq.symm hkey) hk

omit [EquivBEq K] in
/-- A pending deadline is one of a timer that is not captured. -/
theorem pending_iff (h : Shows hash held index pending m) [ReflBEq K] (d a : ℕ) :
    pending.get? (toLex (d, a)) = some () ↔
      ∃ k t, m.timers k = some t ∧ t.arming = a ∧ t.deadline = some d ∧ t.captured = false := by
  constructor
  · intro hget
    obtain ⟨e, he, rfl, hdeadline⟩ := h.deadlines d a hget
    refine ⟨e.key, e.timer pending, (h.timers _ _).2 ⟨e, he, BEq.rfl, rfl⟩, rfl, hdeadline, ?_⟩
    show e.captured pending = false
    rw [TimerEntry.captured_of_deadline hdeadline, hget]
    rfl
  · rintro ⟨k, t, hk, rfl, hdeadline, hcaptured⟩
    obtain ⟨e, -, -, rfl⟩ := (h.timers k t).1 hk
    replace hdeadline : e.deadline = some d := hdeadline
    replace hcaptured : e.captured pending = false := hcaptured
    rw [TimerEntry.captured_of_deadline hdeadline] at hcaptured
    show pending.get? (toLex (d, e.armingOrder)) = some ()
    cases hget : pending.get? (toLex (d, e.armingOrder)) with
    | none =>
      rw [hget] at hcaptured
      cases hcaptured
    | some u => rfl

omit [EquivBEq K] in
/-- Dropping the deadlines up to `now` captures their timers. -/
theorem capture (h : Shows hash held index pending m) {pending' : OrdMap (Lex (ℕ × ℕ)) Unit}
    {now : Instant}
    (hget : ∀ d a, a ≤ m.last → pending'.get? (toLex (d, a)) =
      if d ≤ now then none else pending.get? (toLex (d, a)))
    (hsub : ∀ d a, pending'.get? (toLex (d, a)) = some () →
      pending.get? (toLex (d, a)) = some ()) :
    Shows hash held index pending' (m.captureAll now) where
  keys := h.keys
  orders := h.orders
  armings := h.armings
  deadlines := fun d a hpending => h.deadlines d a (hsub d a hpending)
  minted := h.minted
  timers := fun k t => by
    have htimer : ∀ e, held e → (e.timer pending).capture now = e.timer pending' := by
      intro e he
      have hcaptured : e.captured pending' =
          (e.captured pending || e.deadline.any fun d => d ≤ now) := by
        cases hdeadline : e.deadline with
        | none => simp [TimerEntry.captured, hdeadline]
        | some d =>
          rw [TimerEntry.captured_of_deadline hdeadline,
            TimerEntry.captured_of_deadline hdeadline, hget d _ (h.minted e he)]
          by_cases hd : d ≤ now <;> simp [hd]
      rw [TimerEntry.timer, TimerEntry.timer, hcaptured]
      rfl
    show (m.timers k).map (Timer.capture now) = some t ↔ _
    rw [Option.map_eq_some_iff]
    constructor
    · rintro ⟨t', ht', rfl⟩
      obtain ⟨e, he, hkey, rfl⟩ := (h.timers k t').1 ht'
      exact ⟨e, he, hkey, htimer e he⟩
    · rintro ⟨e, he, hkey, rfl⟩
      exact ⟨e.timer pending, (h.timers k _).2 ⟨e, he, hkey, rfl⟩, htimer e he⟩

end Shows

end Shows

/-! ### The refinement -/

namespace TimerStore

variable {K M : Type} [BEq K] {hash : K → ℕ} {s s' : TimerStore K M} {m : TimerMap K M}

structure Refines (hash : K → ℕ) (s : TimerStore K M) (m : TimerMap K M) : Prop where
  filed : s.Filed hash
  shows : Shows hash (s.Holds hash) s.armings s.deadlines m
  last : s.armingOrders.current = m.last
  limit : m.last ≤ u64Max

namespace Refines

theorem empty (s : TimerStore K M) (hkeyed : s.keyed = .empty) (harmings : s.armings = .empty)
    (hdeadlines : s.deadlines = .empty) (hlimit : s.armingOrders.current ≤ u64Max) :
    s.Refines hash ⟨s.armingOrders.current, fun _ => none⟩ := by
  have hbucket : ∀ h, s.bucketAt h = [] := by
    intro h
    rw [bucketAt, hkeyed]
    rfl
  have hheld : s.Holds hash = fun _ => False := by
    funext e
    rw [Holds, hbucket]
    simp
  refine ⟨⟨?_, ?_⟩, ?_, rfl, hlimit⟩
  · intro h e he
    rw [hbucket] at he
    cases he
  · intro h
    rw [hbucket]
    exact List.nodup_nil
  · rw [hheld, harmings, hdeadlines]
    exact Shows.new.bump (Nat.zero_le _)

theorem new : (TimerStore.new : TimerStore K M).Refines hash .new :=
  .empty _ rfl rfl rfl (Nat.zero_le _)

theorem lose [EquivBEq K] (h : s.Refines hash m) {entry : TimerEntry K M}
    (hentry : s.Holds hash entry) (hloses : s.Loses hash entry s') :
    s'.Refines hash (m.put entry.key none) where
  filed := hloses.filed
  shows := by
    have hheld : s'.Holds hash = fun e => s.Holds hash e ∧ e ≠ entry :=
      funext fun e => propext (hloses.holds e)
    rw [hheld, hloses.armings, hloses.deadlines]
    exact h.shows.lose hentry
  last := hloses.armingOrders ▸ h.last
  limit := h.limit

theorem gain [EquivBEq K] (h : s.Refines hash m) {entry : TimerEntry K M}
    (hkeys : ∀ e, s.Holds hash e → (e.key == entry.key) = false)
    (horders : ∀ e, s.Holds hash e → e.armingOrder ≠ entry.armingOrder)
    (hminted : entry.armingOrder ≤ m.last) (hgains : s.Gains hash entry s') :
    s'.Refines hash
      (m.put entry.key (some ⟨entry.armingOrder, entry.deadline, false, entry.message⟩)) where
  filed := hgains.filed
  shows := by
    have hheld : s'.Holds hash = fun e => s.Holds hash e ∨ e = entry :=
      funext fun e => propext (hgains.holds e)
    rw [hheld, hgains.armings, hgains.deadlines]
    exact h.shows.gain hkeys horders hminted
  last := hgains.armingOrders ▸ h.last
  limit := h.limit

theorem timer_of_held [ReflBEq K] (h : s.Refines hash m) {e : TimerEntry K M}
    (he : s.Holds hash e) : m.timers e.key = some (e.timer s.deadlines) :=
  (h.shows.timers _ _).2 ⟨e, he, BEq.rfl, rfl⟩

theorem orders_of_last_lt (h : s.Refines hash m) {a : ℕ} (ha : m.last < a)
    (e : TimerEntry K M) (he : s.Holds hash e) : e.armingOrder ≠ a :=
  Nat.ne_of_lt ((h.shows.minted e he).trans_lt ha)

theorem bump (h : s.Refines hash m) {last : ℕ} (hle : m.last ≤ last) (hlimit : last ≤ u64Max) :
    ({ s with armingOrders := ⟨last⟩ } : TimerStore K M).Refines hash { m with last } where
  filed := ⟨h.filed.home, h.filed.once⟩
  shows := h.shows.bump hle
  last := rfl
  limit := hlimit

section Operations

variable [EquivBEq K] (hlawful : ∀ a b : K, (a == b) = true → hash a = hash b)
include hlawful

theorem removeHashed (h : s.Refines hash m) (key : K) :
    ∃ s', s.removeHashed (hash key) key = .ok ((m.timers key).isSome, s') ∧
      s'.Refines hash (m.put key none) ∧ ∀ e, s'.Holds hash e → s.Holds hash e := by
  obtain ⟨found, s', hremove, ⟨rfl, rfl, hfree⟩ | ⟨e, rfl, he, hkey, hloses⟩⟩ :=
    removeHashed_spec hlawful h.filed key
  · have hnone : ∀ x, (x == key) = true → m.timers x = none := by
      intro x hx
      cases htimer : m.timers x with
      | none => rfl
      | some t =>
        obtain ⟨e, he, hkey, -⟩ := (h.shows.timers x t).1 htimer
        have hsame := BEq.trans hkey hx
        rw [hfree e he] at hsame
        cases hsame
    refine ⟨s', ?_, ?_, fun _ he => he⟩
    · rw [hnone key BEq.rfl]
      exact hremove
    · rw [m.put_none_of_free hnone]
      exact h
  · have htimer : m.timers key = some (e.timer s.deadlines) :=
      (h.shows.timers _ _).2 ⟨e, he, hkey, rfl⟩
    refine ⟨s', ?_, ?_, fun x hx => ((hloses.holds x).1 hx).1⟩
    · rw [htimer]
      exact hremove
    · rw [← m.put_congr hkey]
      exact h.lose he hloses

theorem replace (h : s.Refines hash m) (key : K) (deadline : Option Instant)
    (message : TimerMessage M) :
    s.replace hash key deadline message = .error .exhausted ∨
      ∃ s', s.replace hash key deadline message = .ok (m.last + 1, s') ∧
        s'.Refines hash { m.put key (some ⟨m.last + 1, deadline, false, message⟩) with
          last := m.last + 1 } := by
  cases hmint : s.armingOrders.mint with
  | error fault =>
    left
    simp only [TimerStore.replace, hmint, MonotonicCounter.mint_error hmint]
  | ok minted =>
    right
    obtain ⟨a, counter⟩ := minted
    obtain ⟨ha, rfl, hlt⟩ := MonotonicCounter.mint_eq_ok_iff.1 hmint
    rw [h.last] at ha hlt
    subst ha
    have hbump := h.bump (Nat.le_succ m.last) hlt
    obtain ⟨s₂, hremove, h₂, hsub⟩ := hbump.removeHashed hlawful key
    -- nothing is left under the key, and no entry has the new arming order
    have hkeys : ∀ e, s₂.Holds hash e → (e.key == key) = false := by
      intro e he
      cases hkey : (e.key == key) with
      | false => rfl
      | true =>
        have htimer := h₂.timer_of_held he
        simp only [TimerMap.put, hkey, if_true] at htimer
        cases htimer
    have horders : ∀ e, s₂.Holds hash e → e.armingOrder ≠ m.last + 1 := fun e he =>
      h.orders_of_last_lt (Nat.lt_succ_self _) e (hsub e he)
    have hfresh : s₂.armings.get? (m.last + 1) = none := by
      cases hget : s₂.armings.get? (m.last + 1) with
      | none => rfl
      | some hh =>
        obtain ⟨e, he, horder, -⟩ := (h₂.shows.armings _ _).1 hget
        exact absurd horder (horders e he)
    let entry : TimerEntry K M := ⟨key, deadline, m.last + 1, message⟩
    obtain ⟨s₃, hinstall, hgains⟩ := install_gains h₂.filed entry hfresh
      fun he => horders entry he rfl
    have hinstall' : s₂.install (hash key) ⟨key, deadline, m.last + 1, message⟩ = .ok s₃ := hinstall
    refine ⟨s₃, ?_, ?_⟩
    · simp only [TimerStore.replace, hmint, hremove, hinstall']
    · have h₃ := h₂.gain hkeys horders le_rfl hgains
      rw [TimerMap.put_put] at h₃
      exact h₃

end Operations

theorem takeDue [ReflBEq K] (h : s.Refines hash m) (now : Instant) :
    ∃ due : List (ℕ × ℕ), (s.takeDue now).1 = due.map Prod.snd ∧
      due.Pairwise (fun p q => p.1 < q.1 ∨ p.1 = q.1 ∧ p.2 < q.2) ∧
      (∀ d a, (d, a) ∈ due ↔ ∃ k t, m.timers k = some t ∧ t.arming = a ∧ t.DueAt now d) ∧
      (s.takeDue now).2.Refines hash (m.captureAll now) := by
  -- every arming is below the bound of the range
  have hbound : ∀ d a : ℕ, a ≤ m.last → (toLex (d, a) ≤ toLex (now, u64Max) ↔ d ≤ now) := by
    intro d a ha
    have hmax := ha.trans h.limit
    rw [Prod.Lex.toLex_le_toLex]
    show d < (now : ℕ) ∨ d = now ∧ a ≤ u64Max ↔ d ≤ now
    rw [and_iff_left hmax]
    exact Nat.le_iff_lt_or_eq.symm
  have hkeys : ∀ d a, toLex (d, a) ∈ s.deadlines.keys ↔ s.deadlines.get? (toLex (d, a)) = some () :=
    fun d a => OrdMap.mem_keys.trans ⟨fun ⟨_, hget⟩ => hget, fun hget => ⟨(), hget⟩⟩
  have hmem : ∀ d a, toLex (d, a) ∈ s.due now ↔
      s.deadlines.get? (toLex (d, a)) = some () ∧ toLex (d, a) ≤ toLex (now, u64Max) := by
    intro d a
    rw [due, List.mem_filter, hkeys, decide_eq_true_iff]
  have hminted : ∀ d a, s.deadlines.get? (toLex (d, a)) = some () → a ≤ m.last := by
    intro d a hget
    obtain ⟨e, he, rfl, -⟩ := h.shows.deadlines d a hget
    exact h.shows.minted e he
  refine ⟨(s.due now).map ofLex, ?_, ?_, ?_, ⟨h.filed.home, h.filed.once⟩, ?_, h.last, h.limit⟩
  · rw [List.map_map]
    rfl
  · rw [List.pairwise_map]
    have hsorted : (s.due now).Pairwise (· < ·) := by
      refine List.Pairwise.filter _ ?_
      rw [OrdMap.keys, List.pairwise_map]
      exact s.deadlines.sorted
    exact hsorted.imp fun hlt => Prod.Lex.lt_iff.1 hlt
  · intro d a
    have hmap : (d, a) ∈ (s.due now).map ofLex ↔ toLex (d, a) ∈ s.due now :=
      List.mem_map_of_injective ofLex.injective (a := toLex (d, a))
    rw [hmap, hmem]
    constructor
    · rintro ⟨hget, hle⟩
      obtain ⟨k, t, hk, harming, hdeadline, hcaptured⟩ := (h.shows.pending_iff d a).1 hget
      exact ⟨k, t, hk, harming, hdeadline, (hbound d a (hminted d a hget)).1 hle, hcaptured⟩
    · rintro ⟨k, t, hk, harming, hdeadline, hle, hcaptured⟩
      have hget := (h.shows.pending_iff d a).2 ⟨k, t, hk, harming, hdeadline, hcaptured⟩
      exact ⟨hget, (hbound d a (hminted d a hget)).2 hle⟩
  · have hget : ∀ d a, (s.takeDue now).2.deadlines.get? (toLex (d, a)) = some () ↔
        toLex (d, a) ∉ s.due now ∧ s.deadlines.get? (toLex (d, a)) = some () :=
      fun d a => OrdMap.get?_foldl_erase_eq_some_iff _
    refine h.shows.capture (fun d a ha => ?_) fun d a hpending => ((hget d a).1 hpending).2
    have hdue := (hmem d a).trans (and_congr_right' (hbound d a ha))
    by_cases hd : d ≤ now
    · rw [if_pos hd, Option.eq_none_iff_forall_ne_some]
      rintro ⟨⟩ hpending
      obtain ⟨hnot, hget⟩ := (hget d a).1 hpending
      exact hnot (hdue.2 ⟨hget, hd⟩)
    · rw [if_neg hd]
      refine Option.ext fun _ => (hget d a).trans (and_iff_right ?_)
      intro hmem
      exact hd (hdue.1 hmem).2

/-- The entry an arming index leads to. -/
theorem locateArming (h : s.Refines hash m) {a hh : ℕ} (hget : s.armings.get? a = some hh) :
    ∃ index bucket e, s.locateArming a = .ok (some ⟨hh, index⟩) ∧
      s.keyed.get? hh = some bucket ∧ bucket[index]? = some e ∧ e.armingOrder = a ∧
      s.Holds hash e ∧ hash e.key = hh := by
  obtain ⟨entry, hheld, horder, hhash⟩ := (h.shows.armings a hh).1 hget
  obtain ⟨index, bucket, e, hlocate, hbucket, he, horder⟩ :=
    locateArming_spec hget hheld hhash horder
  have hmem : e ∈ s.bucketAt hh := by
    rw [bucketAt_of_get? hbucket]
    exact List.mem_of_getElem? he
  exact ⟨index, bucket, e, hlocate, hbucket, he, horder, h.filed.holds_iff.2 ⟨hh, hmem⟩,
    h.filed.home hh e hmem⟩

/-- Rearming a captured entry takes it out of the indexes and puts it back under
its next deadline. -/
theorem rearm [EquivBEq K] (h : s.Refines hash m) {hh index : ℕ}
    {bucket : List (TimerEntry K M)} {e : TimerEntry K M} {deadline : Option Instant}
    (hbucket : s.keyed.get? hh = some bucket) (he : bucket[index]? = some e)
    (hheld : s.Holds hash e) (hcaptured : e.captured s.deadlines = true) :
    ({ s with
        keyed := s.keyed.insert hh (bucket.set index { e with deadline })
        deadlines := armDeadline s.deadlines e.armingOrder deadline } : TimerStore K M).Refines hash
      (m.put e.key (some { e.timer s.deadlines with deadline, captured := false })) := by
  let e' : TimerEntry K M := { e with deadline }
  obtain ⟨hfiled, hholds⟩ := rewrite_holds h.filed e'
    (armDeadline s.deadlines e.armingOrder deadline) hbucket he rfl
    fun x hx horder => h.shows.orders hx hheld horder
  refine ⟨hfiled, ?_, h.last, h.limit⟩
  have hindex : (s.armings.erase e.armingOrder).insert e.armingOrder (hash e.key) = s.armings := by
    apply OrdMap.ext_get?
    intro a
    rw [OrdMap.get?_insert, OrdMap.get?_erase]
    by_cases ha : a = e.armingOrder
    · rw [if_pos ha, ha, (h.shows.armings _ _).2 ⟨e, hheld, rfl, rfl⟩]
    · rw [if_neg ha, if_neg ha]
  have hpending : disarmDeadline s.deadlines e.armingOrder e.deadline = s.deadlines := by
    apply OrdMap.ext_get?
    intro p
    show (disarmDeadline s.deadlines e.armingOrder e.deadline).get? (toLex (p.1, p.2)) =
      s.deadlines.get? (toLex (p.1, p.2))
    rw [get?_disarmDeadline]
    split_ifs with hp
    · rw [TimerEntry.captured_of_deadline hp.1, ← hp.2, Option.isNone_iff_eq_none] at hcaptured
      exact hcaptured.symm
    · rfl
  have hkeys : ∀ x, s.Holds hash x ∧ x ≠ e → (x.key == e'.key) = false := by
    rintro x ⟨hx, hne⟩
    cases hkey : (x.key == e'.key) with
    | false => rfl
    | true => exact absurd (h.shows.keys hx hheld hkey) hne
  have horders : ∀ x, s.Holds hash x ∧ x ≠ e → x.armingOrder ≠ e'.armingOrder := by
    rintro x ⟨hx, hne⟩ horder
    exact hne (h.shows.orders hx hheld horder)
  have hshows := (h.shows.lose hheld).gain hkeys horders (h.shows.minted e hheld)
  rw [hpending, TimerMap.put_put] at hshows
  replace hindex : (s.armings.erase e.armingOrder).insert e'.armingOrder (hash e'.key) =
    s.armings := hindex
  rw [hindex, ← (funext fun x => propext (hholds x) :
    _ = fun x => (s.Holds hash x ∧ x ≠ e) ∨ x = e')] at hshows
  exact hshows

theorem deliverDue [EquivBEq K] (h : s.Refines hash m) (ceiling : Instant) (a : ℕ) (now : Instant)
    (clonePanics : Bool)
    (hcaptured : ∀ k t, m.timers k = some t → t.arming = a → t.captured = true) :
    ∃ delivery s' m', s.deliverDue ceiling a now clonePanics = .ok (delivery, s') ∧
      TimerMap.Step ceiling ⟨m, .deliverDue a now clonePanics, delivery.answer, m'⟩ ∧
      s'.Refines hash m' := by
  cases hget : s.armings.get? a with
  | none =>
    refine ⟨.message none, s, m, ?_, .missing m a now clonePanics ?_, h⟩
    · simp only [TimerStore.deliverDue, TimerStore.locateArming, hget]
    · rintro k t hk rfl
      obtain ⟨e, he, -, rfl⟩ := (h.shows.timers k t).1 hk
      have hsome := (h.shows.armings _ _).2 ⟨e, he, rfl, rfl⟩
      rw [show s.armings.get? e.armingOrder = none from hget] at hsome
      cases hsome
  | some hh =>
    obtain ⟨index, bucket, e, hlocate, hbucket, he, rfl, hheld, -⟩ := h.locateArming hget
    have htimer := h.timer_of_held hheld
    cases hmessage : e.message with
    | once message =>
      obtain ⟨s', hunlink, hloses⟩ := unlink_loses h.filed hbucket he
      refine ⟨.message (some message), s', _, ?_, .once m now clonePanics htimer hmessage,
        h.lose hheld hloses⟩
      simp only [TimerStore.deliverDue, hlocate, hbucket, he, hmessage, hunlink]
    | interval message clone period =>
      cases clonePanics with
      | true =>
        refine ⟨.clonePanicked, s, m, ?_, .retry m now htimer hmessage, h⟩
        simp only [TimerStore.deliverDue, hlocate, hbucket, he, hmessage, if_true]
      | false =>
        refine ⟨.message (some (clone message)), _, _, ?_, .interval m now htimer hmessage,
          h.rearm hbucket he hheld (hcaptured _ _ htimer rfl)⟩
        simp only [TimerStore.deliverDue, hlocate, hbucket, he, hmessage, Bool.false_eq_true,
          if_false]

/-- One call is one step of the map, and no expectation fails. -/
theorem call [EquivBEq K] (hlawful : ∀ a b : K, (a == b) = true → hash a = hash b)
    (h : s.Refines hash m) {ceiling : Instant} {op : TimerOp K M} {answer : TimerAnswer M}
    (hcaptured : ∀ a now clonePanics, op = .deliverDue a now clonePanics →
      ∀ k t, m.timers k = some t → t.arming = a → t.captured = true)
    (hcall : s.call hash ceiling op = some (s', answer)) :
    ∃ m', TimerMap.Step ceiling ⟨m, op, answer, m'⟩ ∧ s'.Refines hash m' := by
  cases op with
  | replace key deadline message =>
    rcases h.replace hlawful key deadline message with hfull | ⟨s₁, hreplace, h₁⟩
    · simp only [TimerStore.call, perform, hfull] at hcall
      cases hcall
    · simp only [TimerStore.call, perform, hreplace] at hcall
      cases hcall
      exact ⟨_, .replace m key deadline message, h₁⟩
  | remove key =>
    obtain ⟨s₁, hremove, h₁, -⟩ := h.removeHashed hlawful key
    simp only [TimerStore.call, perform, TimerStore.remove, hremove] at hcall
    cases hcall
    exact ⟨_, .remove m key, h₁⟩
  | clearAndDispose key message =>
    obtain ⟨s₁, hremove, h₁, -⟩ := h.removeHashed hlawful key
    simp only [TimerStore.call, perform, TimerStore.clearAndDispose, TimerStore.remove,
      hremove] at hcall
    cases hcall
    exact ⟨_, .clearAndDispose m key message, h₁⟩
  | clear =>
    cases hcall
    refine ⟨_, .clear m, ?_⟩
    have hempty : s.clear.Refines hash ⟨s.clear.armingOrders.current, fun _ => none⟩ :=
      .empty s.clear rfl rfl rfl (h.last ▸ h.limit)
    rw [show s.clear.armingOrders.current = m.last from h.last] at hempty
    exact hempty
  | takeDue now =>
    cases hcall
    obtain ⟨due, hdue, hsorted, hmem, h₁⟩ := h.takeDue now
    rw [hdue]
    exact ⟨_, .takeDue m now due hsorted hmem, h₁⟩
  | deliverDue a now clonePanics =>
    obtain ⟨delivery, s₁, m₁, hdeliver, hstep, h₁⟩ :=
      h.deliverDue ceiling a now clonePanics (hcaptured a now clonePanics rfl)
    simp only [TimerStore.call, perform, hdeliver] at hcall
    cases hcall
    exact ⟨m₁, hstep, h₁⟩

theorem timer_unique (h : s.Refines hash m) {k k' : K} {t t' : Timer M} (hk : m.timers k = some t)
    (hk' : m.timers k' = some t') (harming : t.arming = t'.arming) : t = t' := by
  obtain ⟨e, he, -, rfl⟩ := (h.shows.timers k t).1 hk
  obtain ⟨e', he', -, rfl⟩ := (h.shows.timers k' t').1 hk'
  rw [h.shows.orders he he' harming]

end Refines

end TimerStore

end Shelterwood
