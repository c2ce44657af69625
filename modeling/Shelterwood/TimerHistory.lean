/-
Shelterwood/TimerHistory.lean

What the callers of the timer store can observe.

A caller receives armings from `take_due` and hands them to `deliver_due`, and
between the two it may replace or remove their keys.  Delivering one capture of an
interval twice arms it twice: the deadline index then holds a deadline that no
timer has.  A caller that delivers each capture of a live interval once keeps the
store in step with the map of `TimerMap`.  Its histories are followed on the map,
where an arming goes from its `replace` to its last message.
-/
import Shelterwood.TimerMap

namespace Shelterwood

/-! ### Callers -/

/-- The store with the armings its caller received: all that were ever returned by
`take_due`, and those not delivered since. -/
structure TimerCaller (K M : Type) where
  store : TimerStore K M
  returned : List ℕ
  outstanding : List ℕ

def TimerMessage.isInterval {M : Type} : TimerMessage M → Bool
  | .once _ => false
  | .interval _ _ _ => true

namespace TimerCaller

variable {K M : Type}

def new : TimerCaller K M := ⟨.new, [], []⟩

/-- The caller's books after one call. -/
def record (c : TimerCaller K M) : TimerOp K M → TimerAnswer M → List ℕ × List ℕ
  | .takeDue _, .due armings => (c.returned ++ armings, c.outstanding ++ armings)
  | .deliverDue armingOrder _ _, .delivered _ =>
    (c.returned, c.outstanding.filter fun a => a ≠ armingOrder)
  | _, _ => (c.returned, c.outstanding)

def call [BEq K] (hash : K → ℕ) (ceiling : Instant) (c : TimerCaller K M) (op : TimerOp K M) :
    Option (TimerCaller K M × TimerAnswer M) :=
  match c.store.call hash ceiling op with
  | none => none
  | some (store, answer) => some (⟨store, (c.record op answer).1, (c.record op answer).2⟩, answer)

/-- Whether an operation delivers only armings of a list. -/
def delivers (armings : List ℕ) : TimerOp K M → Bool
  | .deliverDue armingOrder _ _ => armings.contains armingOrder
  | _ => true

/-- A call that delivers only armings some `take_due` returned. -/
def anyCapture [BEq K] (hash : K → ℕ) (ceiling : Instant) (c : TimerCaller K M)
    (op : TimerOp K M) : Option (TimerCaller K M × TimerAnswer M) :=
  if delivers c.returned op then c.call hash ceiling op else none

/-- Whether an arming is that of a live interval. -/
def recurs (c : TimerCaller K M) (a : ℕ) : Bool :=
  c.store.entries.any fun e => e.armingOrder == a && e.message.isInterval

/-- A call that delivers only armings some `take_due` returned, those of live intervals
only if since they were last delivered. -/
def onceACapture [BEq K] (hash : K → ℕ) (ceiling : Instant) (c : TimerCaller K M)
    (op : TimerOp K M) : Option (TimerCaller K M × TimerAnswer M) :=
  if delivers (c.returned.filter fun a => c.outstanding.contains a || !c.recurs a) op
  then c.call hash ceiling op else none

end TimerCaller

/-! ### The refinement for a caller -/

namespace TimerCaller

variable {K M : Type} [BEq K] {hash : K → ℕ} {c c' : TimerCaller K M} {m : TimerMap K M}

structure Refines (hash : K → ℕ) (c : TimerCaller K M) (m : TimerMap K M) : Prop where
  store : c.store.Refines hash m
  captured : ∀ k t, m.timers k = some t → t.arming ∈ c.returned →
    t.captured = true ∨ t.arming ∉ c.outstanding ∧ t.message.isInterval = true
  known : ∀ a ∈ c.returned, a ≤ m.last

theorem Refines.new : (TimerCaller.new : TimerCaller K M).Refines hash .new where
  store := .new
  captured := by rintro k t ⟨⟩
  known := by rintro a ⟨⟩

/-- The caller's books stay right. -/
theorem Refines.record {ceiling : Instant} (h : c.Refines hash m) {op : TimerOp K M}
    {answer : TimerAnswer M} {m' : TimerMap K M}
    (hstep : TimerMap.Step ceiling ⟨m, op, answer, m'⟩) :
    (∀ k t, m'.timers k = some t → t.arming ∈ (c.record op answer).1 →
      t.captured = true ∨
        t.arming ∉ (c.record op answer).2 ∧ t.message.isInterval = true) ∧
      ∀ a ∈ (c.record op answer).1, a ≤ m'.last := by
  have hput : ∀ key k t, (m.put key none).timers k = some t → m.timers k = some t := by
    intro key k t hk
    simp only [TimerMap.put] at hk
    split_ifs at hk
    exact hk
  -- a delivery only takes armings off the list
  have hdelivered : ∀ a k t, m.timers k = some t → t.arming ∈ c.returned → t.captured = true ∨
      t.arming ∉ c.outstanding.filter (fun y => y ≠ a) ∧ t.message.isInterval = true := by
    intro a k t hk hmem
    refine (h.captured k t hk hmem).imp_right ?_
    rintro ⟨hout, hinterval⟩
    exact ⟨fun hin => hout (List.mem_of_mem_filter hin), hinterval⟩
  cases hstep with
  | replace _ key deadline message =>
    refine ⟨fun k t hk hmem => ?_, fun a ha => Nat.le_succ_of_le (h.known a ha)⟩
    simp only [TimerMap.put] at hk
    split_ifs at hk
    · cases hk
      exact absurd (h.known _ hmem) (Nat.not_succ_le_self m.last)
    · exact h.captured k t hk hmem
  | remove _ key | clearAndDispose _ key =>
    exact ⟨fun k t hk => h.captured k t (hput key k t hk), h.known⟩
  | clear =>
    refine ⟨?_, h.known⟩
    rintro k t ⟨⟩
  | takeDue _ now due hsorted hdue =>
    have hfrom : ∀ a ∈ due.map Prod.snd, ∃ k t d, m.timers k = some t ∧ t.arming = a ∧
        t.DueAt now d := by
      intro a ha
      obtain ⟨⟨d, a⟩, hmem, rfl⟩ := List.mem_map.1 ha
      obtain ⟨k, t, hk, harming, ht⟩ := (hdue d a).1 hmem
      exact ⟨k, t, d, hk, harming, ht⟩
    refine ⟨fun k t hk hmem => ?_, fun a ha => ?_⟩
    · obtain ⟨t₀, hk₀, rfl⟩ := Option.map_eq_some_iff.1 hk
      by_cases hnow : t₀.arming ∈ due.map Prod.snd
      · obtain ⟨k', t', d, hk', harming, hdeadline, hle, -⟩ := hfrom _ hnow
        obtain rfl : t' = t₀ := h.store.timer_unique hk' hk₀ harming
        simp [Timer.capture, hdeadline, hle]
      · have hold : t₀.arming ∈ c.returned := (List.mem_append.1 hmem).resolve_right hnow
        refine (h.captured k t₀ hk₀ hold).imp ?_ ?_
        · intro hcaptured
          simp [Timer.capture, hcaptured]
        · rintro ⟨hout, hinterval⟩
          exact ⟨fun hin => (List.mem_append.1 hin).elim hout hnow, hinterval⟩
    · rcases List.mem_append.1 ha with ha | ha
      · exact h.known a ha
      · obtain ⟨k, t, d, hk, rfl, -⟩ := hfrom a ha
        obtain ⟨e, he, -, rfl⟩ := (h.store.shows.timers k t).1 hk
        exact h.store.shows.minted e he
  | missing _ a now clonePanics _ => exact ⟨hdelivered a, h.known⟩
  | @once _ now clonePanics k₀ t₀ message hk₀ hmessage =>
    exact ⟨fun k t hk => hdelivered _ k t (hput k₀ k t hk), h.known⟩
  | @interval _ now k₀ t₀ message clone period hk₀ hmessage =>
    refine ⟨fun k t hk hmem => ?_, h.known⟩
    simp only [TimerMap.put] at hk
    split_ifs at hk
    · cases hk
      exact .inr ⟨by simp [TimerCaller.record], by rw [hmessage]; rfl⟩
    · exact hdelivered _ k t hk hmem
  | retry => exact ⟨h.captured, h.known⟩

/-- A timer whose arming the caller may deliver has been captured. -/
theorem Refines.captured_of_allowed (h : c.Refines hash m) {k : K} {t : Timer M}
    (hk : m.timers k = some t) (hreturned : t.arming ∈ c.returned)
    (hallowed : t.arming ∈ c.outstanding ∨ c.recurs t.arming = false) : t.captured = true := by
  obtain hcaptured | ⟨hout, hinterval⟩ := h.captured k t hk hreturned
  · exact hcaptured
  · obtain ⟨e, he, -, rfl⟩ := (h.store.shows.timers k t).1 hk
    have hnot := List.any_eq_false.1 (hallowed.resolve_left hout) e
      (h.store.filed.mem_entries_iff.2 he)
    simp [show e.message.isInterval = true from hinterval, TimerEntry.timer] at hnot

theorem Refines.onceACapture [EquivBEq K]
    (hlawful : ∀ a b : K, (a == b) = true → hash a = hash b) (h : c.Refines hash m)
    {ceiling : Instant} {op : TimerOp K M} {answer : TimerAnswer M}
    (hop : c.onceACapture hash ceiling op = some (c', answer)) :
    ∃ m', TimerMap.Step ceiling ⟨m, op, answer, m'⟩ ∧ c'.Refines hash m' := by
  unfold TimerCaller.onceACapture at hop
  split_ifs at hop with hdelivers
  unfold TimerCaller.call at hop
  cases hcall : c.store.call hash ceiling op with
  | none => simp [hcall] at hop
  | some result =>
    obtain ⟨store, given⟩ := result
    simp only [hcall] at hop
    cases hop
    have hcaptured : ∀ a now clonePanics, op = .deliverDue a now clonePanics →
        ∀ k t, m.timers k = some t → t.arming = a → t.captured = true := by
      rintro a now clonePanics rfl k t hk rfl
      obtain ⟨hreturned, hallowed⟩ : t.arming ∈ c.returned ∧
          (t.arming ∈ c.outstanding ∨ c.recurs t.arming = false) := by
        simpa [delivers] using hdelivers
      exact h.captured_of_allowed hk hreturned hallowed
    obtain ⟨m', hstep, hstore⟩ := h.store.call hlawful hcaptured hcall
    obtain ⟨hbooks, hknown⟩ := h.record hstep
    exact ⟨m', hstep, hstore, hbooks, hknown⟩

end TimerCaller

/-! ### Histories -/

section History

variable {K M : Type}

/-- The message an event delivers for an arming. -/
def TimerOp.yields (a : ℕ) : TimerOp K M × TimerAnswer M → Option M
  | (.deliverDue a' _ _, .delivered message) => if a' = a then message else none
  | _ => none

/-- The messages a history delivers for an arming. -/
def TimerOp.yielded (a : ℕ) (events : List (TimerOp K M × TimerAnswer M)) : List M :=
  events.filterMap (TimerOp.yields a)

/-- Whether an operation ends the timer under a key. -/
def TimerOp.drops [BEq K] (key : K) : TimerOp K M → Bool
  | .replace k _ _ => key == k
  | .remove k => key == k
  | .clearAndDispose k _ => key == k
  | .clear => true
  | .takeDue _ => false
  | .deliverDue _ _ _ => false

end History

namespace TimerMap

variable {K M : Type} [BEq K] {ceiling : Instant} {m m' : TimerMap K M} {a : ℕ}
variable {e : Edge (TimerMap K M) (TimerOp K M) (TimerAnswer M)}
variable {tr : List (Edge (TimerMap K M) (TimerOp K M) (TimerAnswer M))}

/-- The armings of the map have been minted. -/
def Minted (m : TimerMap K M) : Prop := ∀ k t, m.timers k = some t → t.arming ≤ m.last

/-- The only timer of the arming is under the key and has the message. -/
def Owned (a : ℕ) (key : K) (message : TimerMessage M) (m : TimerMap K M) : Prop :=
  a ≤ m.last ∧ ∀ k t, m.timers k = some t → t.arming = a → (k == key) = true ∧ t.message = message

/-- The arming has no timer, and will not get one. -/
def Gone (a : ℕ) (m : TimerMap K M) : Prop :=
  a ≤ m.last ∧ ∀ k t, m.timers k = some t → t.arming ≠ a

/-- No deadline of the arming is before the bound. -/
def Waits (a : ℕ) (bound : Instant) (m : TimerMap K M) : Prop :=
  a ≤ m.last ∧ ∀ k t d, m.timers k = some t → t.arming = a → t.deadline = some d → bound ≤ d

/-! ### One step -/

theorem Step.last_le (h : Step ceiling e) : e.before.last ≤ e.after.last := by
  cases h with
  | replace m => exact Nat.le_succ _
  | _ => exact le_rfl

variable {key : K}

theorem put_cases {k : K} {t : Option (Timer M)} {t' : Timer M}
    (h : (m.put key t).timers k = some t') :
    (k == key) = true ∧ t = some t' ∨ (k == key) = false ∧ m.timers k = some t' := by
  unfold put at h
  cases hk : (k == key) <;> simp [hk] at h
  · exact .inr ⟨rfl, h⟩
  · exact .inl ⟨rfl, h⟩

/-- Where a timer comes from: it is new, or was there before, under the same message
and, unless its interval was just delivered, the same deadline. -/
theorem Step.origin (h : Step ceiling e) {k : K} {t' : Timer M}
    (ht' : e.after.timers k = some t') :
    (∃ key deadline, e.input = .replace key deadline t'.message ∧ (k == key) = true ∧
      t'.arming = e.before.last + 1) ∨
    ∃ k₀ t, e.before.timers k₀ = some t ∧ (k = k₀ ∨ (k == k₀) = true) ∧ t.arming = t'.arming ∧
      t.message = t'.message ∧
      (t'.deadline = t.deadline ∨ ∃ now message clone period,
        e.input = .deliverDue t.arming now false ∧ e.output = .delivered (some (clone message)) ∧
        t.message = .interval message clone period ∧
        t'.deadline = deadlineAfter ceiling now period) := by
  cases h with
  | replace m key deadline message =>
    rcases put_cases (m := m) ht' with ⟨hk, heq⟩ | ⟨-, hold⟩
    · cases heq
      exact .inl ⟨key, deadline, rfl, hk, rfl⟩
    · exact .inr ⟨k, t', hold, .inl rfl, rfl, rfl, .inl rfl⟩
  | remove | clearAndDispose | once =>
    rcases put_cases ht' with ⟨-, ⟨⟩⟩ | ⟨-, hold⟩
    exact .inr ⟨k, t', hold, .inl rfl, rfl, rfl, .inl rfl⟩
  | clear m => cases ht'
  | takeDue m now due hsorted hdue =>
    obtain ⟨t, hold, rfl⟩ := Option.map_eq_some_iff.1 ht'
    exact .inr ⟨k, t, hold, .inl rfl, rfl, rfl, .inl rfl⟩
  | missing | retry => exact .inr ⟨k, t', ht', .inl rfl, rfl, rfl, .inl rfl⟩
  | @interval m now k₀ t message clone period hk hmessage =>
    rcases put_cases ht' with ⟨hkey, heq⟩ | ⟨-, hold⟩
    · cases heq
      exact .inr ⟨k₀, t, hk, .inr hkey, rfl, rfl,
        .inr ⟨now, message, clone, period, rfl, rfl, hmessage, rfl⟩⟩
    · exact .inr ⟨k, t', hold, .inl rfl, rfl, rfl, .inl rfl⟩

/-- The same for an arming that was minted before the step. -/
theorem Step.origin_of_le (h : Step ceiling e) (ha : a ≤ e.before.last) {k : K} {t' : Timer M}
    (ht' : e.after.timers k = some t') (harming : t'.arming = a) :
    ∃ k₀ t, e.before.timers k₀ = some t ∧ (k = k₀ ∨ (k == k₀) = true) ∧ t.arming = a ∧
      t.message = t'.message ∧
      (t'.deadline = t.deadline ∨ TimerOp.yields a (e.input, e.output) ≠ none) := by
  rcases h.origin ht' with ⟨-, -, -, -, hnew⟩ | ⟨k₀, t, hold, hk, hsame, hmessage, hdeadline⟩
  · omega
  · refine ⟨k₀, t, hold, hk, hsame.trans harming, hmessage, hdeadline.imp_right ?_⟩
    rintro ⟨now, message, clone, period, hinput, houtput, -⟩
    rw [hinput, houtput, hsame, harming]
    simp [TimerOp.yields]

theorem Step.minted (h : Step ceiling e) (hm : e.before.Minted) : e.after.Minted := by
  intro k t ht
  have hle := h.last_le
  rcases h.origin ht with ⟨key, deadline, hinput, -, hnew⟩ | ⟨k₀, t₀, hold, -, hsame, -⟩
  · -- only a replace mints, and it counts
    cases h with
    | replace m => exact hnew.le
    | _ => cases hinput
  · rw [← hsame]
    exact (hm k₀ t₀ hold).trans hle

variable {message : TimerMessage M}

theorem Step.owned [EquivBEq K] (h : Step ceiling e) (ho : e.before.Owned a key message) :
    e.after.Owned a key message := by
  refine ⟨ho.1.trans h.last_le, fun k t ht harming => ?_⟩
  obtain ⟨k₀, t₀, hold, hk, harming₀, hmessage, -⟩ := h.origin_of_le ho.1 ht harming
  obtain ⟨hkey, hmessage₀⟩ := ho.2 k₀ t₀ hold harming₀
  refine ⟨?_, hmessage ▸ hmessage₀⟩
  rcases hk with rfl | hk
  · exact hkey
  · exact BEq.trans hk hkey

theorem Step.gone (h : Step ceiling e) (hg : e.before.Gone a) : e.after.Gone a := by
  refine ⟨hg.1.trans h.last_le, fun k t ht harming => ?_⟩
  obtain ⟨k₀, t₀, hold, -, harming₀, -⟩ := h.origin_of_le hg.1 ht harming
  exact hg.2 k₀ t₀ hold harming₀

theorem Step.waits (h : Step ceiling e) {bound : Instant} (hw : e.before.Waits a bound)
    (hquiet : TimerOp.yields a (e.input, e.output) = none) : e.after.Waits a bound := by
  refine ⟨hw.1.trans h.last_le, fun k t d ht harming hdeadline => ?_⟩
  obtain ⟨k₀, t₀, hold, -, harming₀, -, hsame | hyields⟩ := h.origin_of_le hw.1 ht harming
  · exact hw.2 k₀ t₀ d hold harming₀ (hsame ▸ hdeadline)
  · exact absurd hquiet hyields

/-- A message is delivered for a timer of the map. -/
theorem Step.yields_timer (h : Step ceiling e) {x : M}
    (hyields : TimerOp.yields a (e.input, e.output) = some x) :
    ∃ k t, e.before.timers k = some t ∧ t.arming = a ∧
      (t.message = .once x ∧ e.after = e.before.put k none ∨
        ∃ now message clone period, t.message = .interval message clone period ∧
          e.input = .deliverDue a now false ∧
          e.after = e.before.put k
            (some { t with deadline := deadlineAfter ceiling now period, captured := false })) := by
  cases h with
  | @once m now clonePanics k t message hk hmessage =>
    simp only [TimerOp.yields] at hyields
    split_ifs at hyields with ha
    cases hyields
    exact ⟨k, t, hk, ha, .inl ⟨hmessage, rfl⟩⟩
  | @interval m now k t message clone period hk hmessage =>
    simp only [TimerOp.yields] at hyields
    split_ifs at hyields with ha
    cases ha
    exact ⟨k, t, hk, rfl, .inr ⟨now, message, clone, period, hmessage, rfl, rfl⟩⟩
  | missing m a' now clonePanics hmiss =>
    simp only [TimerOp.yields] at hyields
    split_ifs at hyields
  | _ => cases hyields

theorem Step.quiet_of_gone (h : Step ceiling e) (hg : e.before.Gone a) :
    TimerOp.yields a (e.input, e.output) = none := by
  cases hyields : TimerOp.yields a (e.input, e.output) with
  | none => rfl
  | some x =>
    obtain ⟨k, t, hk, harming, -⟩ := h.yields_timer hyields
    exact absurd harming (hg.2 k t hk)

/-- Dropping its key ends an arming. -/
theorem Step.gone_of_drops [EquivBEq K] (h : Step ceiling e) (ho : e.before.Owned a key message)
    (hdrops : e.input.drops key = true) : e.after.Gone a := by
  refine ⟨ho.1.trans h.last_le, fun k t ht harming => ?_⟩
  have hkey := ((h.owned ho).2 k t ht harming).1
  have hput : ∀ {key' : K} {x : Option (Timer M)}, (key == key') = true →
      (e.before.put key' x).timers k = some t → x = some t := by
    intro key' x hsame hk
    rcases put_cases hk with ⟨-, heq⟩ | ⟨hne, -⟩
    · exact heq
    · rw [BEq.trans hkey hsame] at hne
      cases hne
  cases h with
  | replace m key' deadline message' =>
    have hnew : t.arming = m.last + 1 := by
      have heq := hput hdrops ht
      cases heq
      rfl
    have hle : a ≤ m.last := ho.1
    omega
  | remove | clearAndDispose => cases hput hdrops ht
  | clear m => cases ht
  | _ => cases hdrops

theorem Step.armed [EquivBEq K] (h : Step ceiling e) (hm : e.before.Minted)
    {deadline : Option Instant}
    (hevent : (e.input, e.output) = (.replace key deadline message, .armed a)) :
    a = e.before.last + 1 ∧ e.after.Owned a key message := by
  cases h with
  | replace m key' deadline' message' =>
    cases hevent
    refine ⟨rfl, le_rfl, fun k t ht harming => ?_⟩
    rcases put_cases (m := m) ht with ⟨hk, heq⟩ | ⟨-, hold⟩
    · cases heq
      exact ⟨hk, rfl⟩
    · have hle : t.arming ≤ m.last := hm k t hold
      omega
  | _ => cases hevent

/-! ### Whole runs -/

theorem run_minted (h : Run (Step ceiling) m tr m') (hm : m.Minted) : m'.Minted :=
  h.invariant hm fun _ he _ => he.minted

theorem run_last_le (h : Run (Step ceiling) m tr m') : m.last ≤ m'.last :=
  h.invariant le_rfl fun _ he _ hle => hle.trans he.last_le

theorem run_owned [EquivBEq K] (h : Run (Step ceiling) m tr m') (ho : m.Owned a key message) :
    m'.Owned a key message :=
  h.invariant ho fun _ he _ => he.owned

omit [BEq K] in
theorem yielded_cons_of_quiet {event : TimerOp K M × TimerAnswer M}
    {events : List (TimerOp K M × TimerAnswer M)} (h : TimerOp.yields a event = none) :
    TimerOp.yielded a (event :: events) = TimerOp.yielded a events :=
  List.filterMap_cons_none h

/-- Nothing is delivered for an arming that is not minted yet. -/
theorem run_quiet_of_last_lt (h : Run (Step ceiling) m tr m') (hm : m.Minted) (ha : m'.last < a) :
    TimerOp.yielded a (tr.map fun e => (e.input, e.output)) = [] := by
  induction h with
  | nil m => rfl
  | @cons e rest m' he hrest ih =>
    have hquiet : TimerOp.yields a (e.input, e.output) = none := by
      cases hyields : TimerOp.yields a (e.input, e.output) with
      | none => rfl
      | some x =>
        obtain ⟨k, t, hk, rfl, -⟩ := he.yields_timer hyields
        have hle := (hm k t hk).trans (he.last_le.trans (run_last_le hrest))
        omega
    rw [List.map_cons, yielded_cons_of_quiet hquiet]
    exact ih (he.minted hm) ha

/-- Nothing is delivered for an arming that is gone. -/
theorem run_quiet_of_gone (h : Run (Step ceiling) m tr m') (hg : m.Gone a) :
    TimerOp.yielded a (tr.map fun e => (e.input, e.output)) = [] := by
  induction h with
  | nil m => rfl
  | cons he _ ih =>
    rw [List.map_cons, yielded_cons_of_quiet (he.quiet_of_gone hg)]
    exact ih (he.gone hg)

/-- A one-shot delivers its message, and is then gone. -/
theorem run_once [EquivBEq K] (h : Run (Step ceiling) m tr m') {message : M}
    (ho : m.Owned a key (.once message)) :
    (TimerOp.yielded a (tr.map fun e => (e.input, e.output))).Sublist [message] := by
  induction h with
  | nil m => exact List.nil_sublist _
  | @cons e rest m' he hrest ih =>
    cases hyields : TimerOp.yields a (e.input, e.output) with
    | none =>
      rw [List.map_cons, yielded_cons_of_quiet hyields]
      exact ih (he.owned ho)
    | some x =>
      obtain ⟨k, t, hk, harming, ⟨hmessage, hafter⟩ | ⟨_, _, _, _, hmessage, -⟩⟩ :=
        he.yields_timer hyields
      · obtain ⟨hkey, hsame⟩ := ho.2 k t hk harming
        obtain rfl : message = x := TimerMessage.once.inj (hsame.symm.trans hmessage)
        -- the only timer of the arming was under this key
        have hgone : e.after.Gone a := by
          refine ⟨ho.1.trans he.last_le, fun k' t' ht' harming' => ?_⟩
          have hkey' := ((he.owned ho).2 k' t' ht' harming').1
          rw [hafter] at ht'
          rcases put_cases ht' with ⟨-, ⟨⟩⟩ | ⟨hne, -⟩
          rw [BEq.trans hkey' (BEq.symm hkey)] at hne
          cases hne
        have hrest := run_quiet_of_gone hrest hgone
        rw [List.map_cons, TimerOp.yielded, List.filterMap_cons_some hyields]
        exact (hrest ▸ List.Sublist.refl _ : (TimerOp.yielded a _).Sublist []).cons_cons message
      · rw [(ho.2 k t hk harming).2] at hmessage
        cases hmessage

/-- Between two deliveries an interval keeps its deadline. -/
theorem run_waits (h : Run (Step ceiling) m tr m') {bound : Instant} (hw : m.Waits a bound)
    (hquiet : TimerOp.yielded a (tr.map fun e => (e.input, e.output)) = []) : m'.Waits a bound :=
  h.invariant hw fun _ he hmem hw => he.waits hw
    (List.filterMap_eq_nil_iff.1 hquiet _ (List.mem_map_of_mem hmem))

end TimerMap

/-! ### What a history shows -/

section

variable {K M : Type}

/-- A one-shot arming yields its message at most once, and not after its key was
removed or replaced. -/
def OneShotsOnce [BEq K] (events : List (TimerOp K M × TimerAnswer M)) : Prop :=
  ∀ pre post key deadline message a,
    events = pre ++ (.replace key deadline (.once message), .armed a) :: post →
    (TimerOp.yielded a events).Sublist [message] ∧
      ∀ mid event rest, post = mid ++ event :: rest → event.1.drops key = true →
        TimerOp.yielded a rest = []

/-- An interval delivered at `t` is not captured again, before its next delivery,
until its period is over. -/
def IntervalsWait (events : List (TimerOp K M × TimerAnswer M)) : Prop :=
  ∀ pre mid rest post key deadline message clone period a t clonePanics delivered now due,
    events = pre ++ (.replace key deadline (.interval message clone period), .armed a) ::
      (mid ++ (.deliverDue a t clonePanics, .delivered (some delivered)) ::
        (rest ++ (.takeDue now, .due due) :: post)) →
    TimerOp.yielded a rest = [] → a ∈ due → t + period ≤ now

/-- The key index, the arming index and the deadline index describe the timers of the
map: no two entries have one key, every arming leads to its entry's bucket, and the
deadlines are those not captured yet. -/
structure TimerStore.Describes [BEq K] (hash : K → ℕ) (s : TimerStore K M) (m : TimerMap K M) :
    Prop where
  keys : s.entries.Pairwise fun e e' => (e.key == e'.key) = false
  timers : ∀ k t, m.timers k = some t ↔
    ∃ e ∈ s.entries, (e.key == k) = true ∧ t = e.timer s.deadlines
  armings : ∀ a h, s.armings.get? a = some h ↔
    ∃ e ∈ s.entries, e.armingOrder = a ∧ hash e.key = h
  deadlines : ∀ d a, s.deadlines.get? (toLex (d, a)) = some () ↔
    ∃ k t, m.timers k = some t ∧ t.arming = a ∧ t.deadline = some d ∧ t.captured = false

theorem TimerStore.Refines.describes [BEq K] [EquivBEq K] {hash : K → ℕ} {s : TimerStore K M}
    {m : TimerMap K M} (h : s.Refines hash m) : s.Describes hash m where
  keys := by
    refine h.filed.entries_nodup.imp_of_mem fun he he' hne => ?_
    rw [← Bool.not_eq_true]
    intro hkey
    exact hne (h.shows.keys (h.filed.mem_entries_iff.1 he) (h.filed.mem_entries_iff.1 he') hkey)
  timers := fun k t => by
    simp only [h.filed.mem_entries_iff]
    exact h.shows.timers k t
  armings := fun a hh => by
    simp only [h.filed.mem_entries_iff]
    exact h.shows.armings a hh
  deadlines := h.shows.pending_iff

end

namespace TimerMap

variable {K M : Type} [BEq K] [EquivBEq K] {ceiling : Instant} {m : TimerMap K M}
variable {tr : List (Edge (TimerMap K M) (TimerOp K M) (TimerAnswer M))}

omit [BEq K] [EquivBEq K] in
theorem minted_new : (TimerMap.new : TimerMap K M).Minted := by
  rintro k t ⟨⟩

theorem oneShotsOnce (h : Run (Step ceiling) .new tr m) :
    OneShotsOnce (tr.map fun e => (e.input, e.output)) := by
  intro pre post key deadline message a hevents
  obtain ⟨before, e, after, rfl, hpre, hevent, rfl, hbefore, he, hafter⟩ := h.split_map hevents
  have hminted := run_minted hbefore minted_new
  obtain ⟨ha, howned⟩ := he.armed hminted hevent
  constructor
  · have hquiet := run_quiet_of_last_lt hbefore minted_new (ha ▸ Nat.lt_succ_self _ : _ < a)
    rw [hpre] at hquiet
    rw [hevents, TimerOp.yielded, List.filterMap_append]
    rw [TimerOp.yielded] at hquiet
    rw [hquiet, List.nil_append]
    exact run_once hafter howned
  · intro mid event rest hpost hdrops
    obtain ⟨p, e', q, rfl, -, rfl, rfl, hp, he', hq⟩ := hafter.split_map hpost
    exact run_quiet_of_gone hq (he'.gone_of_drops (run_owned hp howned) hdrops)

theorem intervalsWait (h : Run (Step ceiling) .new tr m) :
    IntervalsWait (tr.map fun e => (e.input, e.output)) := by
  intro pre mid rest post key deadline message clone period a t clonePanics delivered now due
    hevents hquiet hdue
  obtain ⟨before, e, after, rfl, -, hevent, hrest, hbefore, he, hafter⟩ := h.split_map hevents
  obtain ⟨-, howned⟩ := he.armed (run_minted hbefore minted_new) hevent
  obtain ⟨p, e', q, rfl, -, hevent', hrest', hp, he', hq⟩ := hafter.split_map hrest
  have howned' := run_owned hp howned
  -- the delivery sets the next deadline
  have hwaits : e'.after.Waits a (t + period) := by
    refine ⟨(he'.owned howned').1, fun k t' d ht' harming hdeadline => ?_⟩
    have hyields : TimerOp.yields a (e'.input, e'.output) = some delivered := by
      rw [hevent']
      exact if_pos rfl
    obtain ⟨k₀, t₀, hk₀, harming₀, ⟨hmessage, -⟩ | ⟨t₁, message', clone', period', hmessage, hinput,
      hput⟩⟩ := he'.yields_timer hyields
    · rw [(howned'.2 k₀ t₀ hk₀ harming₀).2] at hmessage
      cases hmessage
    · obtain ⟨hkey₀, hsame⟩ := howned'.2 k₀ t₀ hk₀ harming₀
      cases hsame.symm.trans hmessage
      have ht : t₁ = t := by
        rw [show e'.input = .deliverDue a t clonePanics from congrArg Prod.fst hevent'] at hinput
        cases hinput
        rfl
      have hkey := ((he'.owned howned').2 k t' ht' harming).1
      rw [hput] at ht'
      rcases put_cases ht' with ⟨-, heq⟩ | ⟨hne, -⟩
      · cases heq
        rw [deadlineAfter_eq_some hdeadline, ht]
      · rw [BEq.trans hkey (BEq.symm hkey₀)] at hne
        cases hne
  obtain ⟨r, e'', w, rfl, hr, hevent'', -, hrun, he'', -⟩ := hq.split_map hrest'
  have hwaits' := run_waits hrun hwaits (hr ▸ hquiet)
  cases he'' with
  | takeDue m' now' pairs hsorted hpairs =>
    cases hevent''
    obtain ⟨⟨d, a⟩, hmem, rfl⟩ := List.mem_map.1 hdue
    obtain ⟨k, t', hk, harming, hdeadline, hle, -⟩ := (hpairs d a).1 hmem
    exact (hwaits'.2 k t' d hk harming hdeadline).trans hle
  | _ => cases hevent''

end TimerMap

/-! ### The store -/

/-- Delivering one capture of an interval twice arms it twice: the arming, delivered
at 6 with a period of 10, is captured at 15. -/
theorem timer_captured_early :
    ∃ tr c, Run (stepEdge fun c op => TimerCaller.anyCapture (fun _ => 0) 1000000000000 c op)
        (.new : TimerCaller (TimerKey Unit fun _ => ℕ) ℕ) tr c ∧
      tr.map Edge.input = [.replace ⟨(), 3⟩ (some 1) (.interval 7 id 10), .takeDue 1,
        .deliverDue 1 5 false, .deliverDue 1 6 false, .takeDue 15] ∧
      tr.map Edge.output = [.armed 1, .due [1], .delivered (some 7), .delivered (some 7),
        .due [1]] ∧
      ¬ IntervalsWait (tr.map fun e => (e.input, e.output)) := by
  have hexec : ∃ tr c, exec
      (fun c op => TimerCaller.anyCapture (fun _ => 0) 1000000000000 c op)
      (.new : TimerCaller (TimerKey Unit fun _ => ℕ) ℕ)
      [.replace ⟨(), 3⟩ (some 1) (.interval 7 id 10), .takeDue 1, .deliverDue 1 5 false,
        .deliverDue 1 6 false, .takeDue 15] = some (tr, c) ∧
      tr.map Edge.output = [.armed 1, .due [1], .delivered (some 7), .delivered (some 7),
        .due [1]] := ⟨_, _, rfl, by decide⟩
  obtain ⟨tr, c, hexec, houtputs⟩ := hexec
  refine ⟨tr, c, run_of_exec _ hexec, exec_inputs _ hexec, houtputs, fun hwait => ?_⟩
  have hevents : tr.map (fun e => (e.input, e.output)) =
      (tr.map Edge.input).zip (tr.map Edge.output) := by
    rw [List.zip_map']
  rw [exec_inputs _ hexec, houtputs] at hevents
  have hlate := hwait [] [_, _] [] [] ⟨(), 3⟩ (some 1) 7 id 10 1 6 false 7 15 [1] hevents rfl
    List.mem_cons_self
  exact absurd hlate (by decide)

/-- For a caller that delivers each capture of a live interval once, the store is
the map: its indexes describe the same timers after every call, so none of its
expectations fails, and it answers as the map does. -/
theorem timer_store_refines {T : Type} {V : T → Type} [DecidableEq T] [∀ t, BEq (V t)]
    [∀ t, EquivBEq (V t)] {M : Type} {hash : TimerKey T V → ℕ}
    (hlawful : ∀ a b : TimerKey T V, (a == b) = true → hash a = hash b) {ceiling : Instant}
    {tr : List (Edge (TimerCaller (TimerKey T V) M) (TimerOp (TimerKey T V) M) (TimerAnswer M))}
    {c : TimerCaller (TimerKey T V) M}
    (hrun : Run (stepEdge fun c op => TimerCaller.onceACapture hash ceiling c op) .new tr c) :
    (∃ abstract m, Run (TimerMap.Step ceiling) (.new : TimerMap (TimerKey T V) M) abstract m ∧
      abstract.map (fun e => (e.input, e.output)) = tr.map (fun e => (e.input, e.output)) ∧
      c.store.Describes hash m) ∧
    (∀ e ∈ tr, ∀ message, e.output ≠ .panicked message) ∧
    OneShotsOnce (tr.map fun e => (e.input, e.output)) ∧
    IntervalsWait (tr.map fun e => (e.input, e.output)) := by
  obtain ⟨abstract, m, habstract, hrefines, hsame⟩ := Run.simulate hrun
    (TimerCaller.Refines.new : (.new : TimerCaller (TimerKey T V) M).Refines hash .new)
    fun _ _ he h => h.onceACapture hlawful he
  refine ⟨⟨abstract, m, habstract, hsame, hrefines.store.describes⟩, ?_, ?_, ?_⟩
  · intro e he message houtput
    have hmem : (e.input, e.output) ∈ abstract.map fun e => (e.input, e.output) :=
      hsame ▸ List.mem_map_of_mem he
    obtain ⟨e', he', hevent⟩ := List.mem_map.1 hmem
    have hpanicked : e'.output = .panicked message := (congrArg Prod.snd hevent).trans houtput
    -- the map has no such answer
    cases habstract.edge_of_mem he' <;> cases hpanicked
  · exact hsame ▸ TimerMap.oneShotsOnce habstract
  · exact hsame ▸ TimerMap.intervalsWait habstract

/-- Three timers under two key types, all in one bucket.  The one-shot is replaced
after its capture and yields nothing; its successor yields its message, and nothing
when its capture is delivered again; the interval is rearmed after a clone that
panicked, and captured one period later. -/
theorem timer_store_refines_superseded :
    ∃ tr c, Run (stepEdge fun c op => TimerCaller.onceACapture (fun _ => 0) 1000000000000 c op)
        (.new : TimerCaller (TimerKey Bool fun _ => ℕ) ℕ) tr c ∧
      tr.map Edge.output = [.armed 1, .armed 2, .armed 3, .due [2, 1], .armed 4, .delivered none,
        .clonePanicked, .delivered (some 20), .due [3, 4], .delivered (some 30), .removed false,
        .due [2], .delivered (some 40), .delivered none] ∧
      ∃ abstract m, Run (TimerMap.Step 1000000000000)
          (.new : TimerMap (TimerKey Bool fun _ => ℕ) ℕ) abstract m ∧
        abstract.map (fun e => (e.input, e.output)) = tr.map (fun e => (e.input, e.output)) ∧
        c.store.Describes (fun _ => 0) m := by
  have hexec : ∃ tr c, exec
      (fun c op => TimerCaller.onceACapture (fun _ => 0) 1000000000000 c op)
      (.new : TimerCaller (TimerKey Bool fun _ => ℕ) ℕ)
      [.replace ⟨true, 1⟩ (some 5) (.once 10), .replace ⟨false, 1⟩ (some 4) (.interval 20 id 10),
        .replace ⟨true, 2⟩ (some 8) (.once 30), .takeDue 5,
        .replace ⟨true, 1⟩ (some 9) (.once 40), .deliverDue 1 5 false, .deliverDue 2 5 true,
        .deliverDue 2 6 false, .takeDue 15, .deliverDue 3 15 false, .remove ⟨true, 2⟩, .takeDue 16,
        .deliverDue 4 16 false, .deliverDue 4 17 false] = some (tr, c) ∧
      tr.map Edge.output = [.armed 1, .armed 2, .armed 3, .due [2, 1], .armed 4, .delivered none,
        .clonePanicked, .delivered (some 20), .due [3, 4], .delivered (some 30), .removed false,
        .due [2], .delivered (some 40), .delivered none] := ⟨_, _, rfl, by decide⟩
  obtain ⟨tr, c, hexec, houtputs⟩ := hexec
  have hrun := run_of_exec _ hexec
  obtain ⟨hmap, -⟩ := timer_store_refines (fun _ _ _ => rfl) hrun
  exact ⟨tr, c, hrun, houtputs, hmap⟩

end Shelterwood
