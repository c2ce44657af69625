/-
Shelterwood/RestartAccounting.lean

Restart accounting is exact.

The children of a scope share one window of charges, which forgets charges at its
front only.  The charges of a scope are made in the order of time, so the front
holds the oldest ones and what is left after a charge is every charge of the
history that is young enough (`Window`).

The three counters are told apart by the edges that reset them: a child's attempts
start over after a run that lasted, its restart count and the scope's total never
do.  All of them stay at the limit of a `u64` once they reach it.
-/
import Shelterwood.Restart
import Shelterwood.Trace

namespace Shelterwood

/-! ### Exits of the children of one scope -/

/-- One exit of a child, as its driver handles it. -/
structure RestartExit (C : Type) where
  child : C
  startedAt : Instant
  stoppedAt : Instant
  /-- Whether the exit is dispatched to a restart, and the time of that. -/
  restarts : Bool
  now : Instant
  nextDelay : RestartAttempt → Duration

/-- The run that ended lasted at least that long. -/
def RestartExit.Stable {C : Type} (e : RestartExit C) (within : Duration) : Prop :=
  within ≤ e.stoppedAt - e.startedAt

instance {C : Type} (e : RestartExit C) (within : Duration) : Decidable (e.Stable within) :=
  inferInstanceAs (Decidable (_ ≤ _))

/-- The restart states of the children and the window they share. -/
structure RestartBook (C : Type) where
  children : C → RestartState
  intensity : IntensityState

namespace RestartBook

variable {C : Type} [DecidableEq C]

omit [DecidableEq C] in
def new : RestartBook C := ⟨fun _ => .new, .new⟩

/-- Settles the run that ended and, if the exit restarts, schedules the restart.
The length of the deque is a `usize`, so a charge beyond that is no step. -/
def exit (policy : Intensity) (ceiling : Instant) (book : RestartBook C) (e : RestartExit C) :
    Option (RestartBook C × Option RestartDecision) :=
  let settled :=
    (book.children e.child).settleIfStable e.startedAt e.stoppedAt policy.within.value
  if e.restarts then
    let (decision, scheduled, intensity) :=
      scheduleRestart settled book.intensity policy e.nextDelay ceiling e.now
    if u64Max < intensity.charges.length then none
    else some (⟨Function.update book.children e.child scheduled, intensity⟩, some decision)
  else some (⟨Function.update book.children e.child settled, book.intensity⟩, none)

end RestartBook

/-! ### What the history says -/

section History

variable {C : Type} [DecidableEq C]

omit [DecidableEq C] in
/-- The times of all charges. -/
def chargeTimes (exits : List (RestartExit C)) : List Instant :=
  (exits.filter (·.restarts)).map (·.now)

/-- The restarts of one child. -/
def restartsOf (c : C) (exits : List (RestartExit C)) : ℕ :=
  exits.countP fun e => e.restarts && e.child = c

/-- The restarts of one child that no later run of it that lasted forgave. -/
def restartsSinceStable (within : Duration) (c : C) : List (RestartExit C) → ℕ
  | [] => 0
  | e :: later =>
    (if e.restarts ∧ e.child = c ∧ ∀ l ∈ later, l.child = c → ¬ l.Stable within then 1 else 0) +
      restartsSinceStable within c later

omit [DecidableEq C] in
theorem chargeTimes_append (exits : List (RestartExit C)) (e : RestartExit C) :
    chargeTimes (exits ++ [e]) = chargeTimes exits ++ if e.restarts then [e.now] else [] := by
  simp only [chargeTimes, List.filter_append, List.map_append]
  cases h : e.restarts <;> simp [h]

theorem restartsOf_append (c : C) (exits : List (RestartExit C)) (e : RestartExit C) :
    restartsOf c (exits ++ [e]) =
      restartsOf c exits + if e.restarts ∧ e.child = c then 1 else 0 := by
  simp only [restartsOf, List.countP_append, List.countP_singleton, Bool.and_eq_true,
    decide_eq_true_eq]

/-- A run that lasted forgives what came before it, and its own restart counts. -/
theorem restartsSinceStable_append (within : Duration) (c : C) (exits : List (RestartExit C))
    (e : RestartExit C) :
    restartsSinceStable within c (exits ++ [e]) =
      (if e.child = c ∧ e.Stable within then 0 else restartsSinceStable within c exits) +
        if e.restarts ∧ e.child = c then 1 else 0 := by
  induction exits with
  | nil => simp [restartsSinceStable]
  | cons a exits ih =>
    rw [List.cons_append, restartsSinceStable, ih, restartsSinceStable]
    by_cases hforgiven : e.child = c ∧ e.Stable within
    · -- `e` itself is a later run that lasted
      rw [if_pos hforgiven, if_pos hforgiven, if_neg, Nat.zero_add]
      rintro ⟨-, -, hlater⟩
      exact hlater e (by simp) hforgiven.1 hforgiven.2
    · rw [if_neg hforgiven, if_neg hforgiven, Nat.add_assoc]
      have hlater : (∀ l ∈ exits ++ [e], l.child = c → ¬ l.Stable within) ↔
          ∀ l ∈ exits, l.child = c → ¬ l.Stable within := by
        constructor
        · exact fun h l hl => h l (List.mem_append_left _ hl)
        · intro h l hl hc hstable
          rcases List.mem_append.1 hl with hl | hl
          · exact h l hl hc hstable
          · rw [List.mem_singleton.1 hl] at hc hstable
            exact hforgiven ⟨hc, hstable⟩
      simp only [hlater]

end History

/-! ### The window -/

/-- Dropping from the front of a list whose front fails first is filtering. -/
theorem dropWhile_eq_filter {α : Type} {p : α → Bool} {l : List α}
    (h : l.Pairwise fun a b => p b = true → p a = true) :
    l.dropWhile p = l.filter fun a => !p a := by
  induction l with
  | nil => rfl
  | cons a l ih =>
    obtain ⟨ha, hl⟩ := List.pairwise_cons.1 h
    by_cases hp : p a = true
    · rw [List.dropWhile_cons_of_pos hp, ih hl, List.filter_cons_of_neg (by simp [hp])]
    · have hkeep : l.filter (fun b => !p b) = l := by
        refine List.filter_eq_self.2 fun b hb => ?_
        rw [Bool.not_eq_true']
        exact Bool.eq_false_iff.2 fun hpb => hp (ha b hb hpb)
      rw [List.dropWhile_cons_of_neg hp, List.filter_cons_of_pos (by simp [hp]), hkeep]

/-- Among charges in the order of time, those that were young enough are thinned
from the front to those that still are. -/
theorem dropWhile_old {within last now : ℕ} {times : List ℕ} (hsorted : times.Pairwise (· ≤ ·))
    (hlast : ∀ t ∈ times, t ≤ last) (hle : last ≤ now) :
    ((times.filter fun t => last - t ≤ within).dropWhile fun t =>
        decide (t ≤ now) && decide (within < now - t)) =
      times.filter fun t => now - t ≤ within := by
  rw [dropWhile_eq_filter, List.filter_filter]
  · refine List.filter_congr fun t ht => ?_
    have htlast := hlast t ht
    rw [Bool.eq_iff_iff]
    simp only [Bool.not_and, Bool.or_eq_true, Bool.and_eq_true, Bool.not_eq_true',
      decide_eq_true_eq, decide_eq_false_iff_not]
    omega
  · refine List.Pairwise.imp (fun {a b} hab hold => ?_) (hsorted.sublist List.filter_sublist)
    simp only [Bool.and_eq_true, decide_eq_true_eq] at hold ⊢
    omega

/-- The deque holds the charges of the history that were young enough at the last
charge. -/
def Window (within : Duration) (times charges : List Instant) : Prop :=
  ∃ last, (∀ t ∈ times, t ≤ last) ∧ (∀ now, (∀ t ∈ times, t ≤ now) → last ≤ now) ∧
    charges = times.filter fun t => last - t ≤ within

theorem Window.nil (within : Duration) : Window within [] [] :=
  ⟨0, by simp, fun _ _ => Nat.zero_le _, rfl⟩

/-- A charge leaves every charge that is young enough now, and itself. -/
theorem Window.charge {policy : Intensity} {times : List Instant} {state : IntensityState}
    (h : Window policy.within.value times state.charges) (hsorted : times.Pairwise (· ≤ ·))
    {now : Instant} (hnow : ∀ t ∈ times, t ≤ now) :
    (state.charge policy now).2.charges =
        (times ++ [now]).filter (fun t => now - t ≤ policy.within.value) ∧
      Window policy.within.value (times ++ [now]) (state.charge policy now).2.charges := by
  obtain ⟨last, hlast, hleast, hcharges⟩ := h
  have hkept : (state.charge policy now).2.charges =
      (times ++ [now]).filter (fun t => now - t ≤ policy.within.value) := by
    show state.charges.dropWhile _ ++ [now] = _
    rw [hcharges, dropWhile_old hsorted hlast (hleast now hnow), List.filter_append]
    congr 1
    simp
  refine ⟨hkept, now, ?_, ?_, hkept⟩
  · intro t ht
    rcases List.mem_append.1 ht with ht | ht
    · exact hnow t ht
    · exact Nat.le_of_eq (List.mem_singleton.1 ht)
  · exact fun later hlater => hlater now (by simp)

/-! ### The books of a run -/

theorem saturatingSucc_min (n : ℕ) : saturatingSucc (min n u64Max) = min (n + 1) u64Max := by
  unfold saturatingSucc
  omega

/-- The books agree with the history. -/
structure RestartBook.Records {C : Type} [DecidableEq C] (policy : Intensity)
    (exits : List (RestartExit C)) (book : RestartBook C) : Prop where
  attempt : ∀ c, (book.children c).attempt.value =
    min (restartsSinceStable policy.within.value c exits) u64Max
  cumulative : ∀ c, (book.children c).cumulative.count = min (restartsOf c exits) u64Max
  total : book.intensity.totalRestarts.count = min (chargeTimes exits).length u64Max
  window : Window policy.within.value (chargeTimes exits) book.intensity.charges

/-- What a decision says about the history before its exit. -/
structure RestartDecision.Accounts {C : Type} [DecidableEq C] (policy : Intensity)
    (exits : List (RestartExit C)) (e : RestartExit C) (decision : RestartDecision) : Prop where
  /-- The charges so far, this one included, of age at most `within`. -/
  observed : decision.charge.inWindow =
    (chargeTimes (exits ++ [e])).countP fun t => e.now - t ≤ policy.within.value
  trips : decision.intensityTrip.isSome = true ↔ policy.maxRestarts < decision.charge.inWindow
  trip : ∀ trip, decision.intensityTrip = some trip →
    trip.observedRestarts = decision.charge.inWindow
  /-- One more than the child's restarts since its last run that lasted. -/
  attempt : decision.attempt.value =
    min (1 + if e.Stable policy.within.value then 0
      else restartsSinceStable policy.within.value e.child exits) u64Max
  restartCount : decision.restartCount.count = min (restartsOf e.child (exits ++ [e])) u64Max
  totalRestarts :
    decision.charge.totalRestarts.count = min (chargeTimes (exits ++ [e])).length u64Max

section Steps

variable {C : Type} [DecidableEq C] {policy : Intensity} {exits : List (RestartExit C)}
  {book : RestartBook C}

theorem RestartBook.Records.new : RestartBook.Records policy [] (RestartBook.new : RestartBook C) :=
  ⟨fun _ => by simp [RestartBook.new, RestartState.new, restartsSinceStable],
    fun _ => by simp [RestartBook.new, RestartState.new, restartsOf],
    by simp [RestartBook.new, IntensityState.new, chargeTimes],
    .nil _⟩

/-- Settling forgives the attempts of a run that lasted. -/
theorem RestartBook.Records.settled (h : book.Records policy exits) (e : RestartExit C) :
    let settled :=
      (book.children e.child).settleIfStable e.startedAt e.stoppedAt policy.within.value
    settled.attempt.value = min (if e.Stable policy.within.value then 0
        else restartsSinceStable policy.within.value e.child exits) u64Max ∧
      settled.cumulative.count = min (restartsOf e.child exits) u64Max := by
  intro settled
  by_cases hstable : e.Stable policy.within.value
  · have hlong : ¬ e.stoppedAt - e.startedAt < policy.within.value := Nat.not_lt.2 hstable
    simp only [settled, RestartState.settleIfStable, if_neg hlong, if_pos hstable]
    exact ⟨by simp, h.cumulative e.child⟩
  · have hshort : e.stoppedAt - e.startedAt < policy.within.value := Nat.not_le.1 hstable
    simp only [settled, RestartState.settleIfStable, if_pos hshort, if_neg hstable]
    exact ⟨h.attempt e.child, h.cumulative e.child⟩

/-- One exit keeps the books, and its decision says what they say. -/
theorem RestartBook.Records.exit {ceiling : Instant} (h : book.Records policy exits)
    (hsorted : (chargeTimes exits).Pairwise (· ≤ ·)) {e : RestartExit C}
    (hnow : e.restarts = true → ∀ t ∈ chargeTimes exits, t ≤ e.now) {book' : RestartBook C}
    {decision : Option RestartDecision}
    (hexit : book.exit policy ceiling e = some (book', decision)) :
    book'.Records policy (exits ++ [e]) ∧
      ∀ d, decision = some d → d.Accounts policy exits e := by
  obtain ⟨hattempt, hcumulative⟩ := h.settled e
  cases hrestarts : e.restarts with
  | false =>
    simp only [RestartBook.exit, hrestarts, Bool.false_eq_true, if_false] at hexit
    cases hexit
    refine ⟨⟨?_, ?_, ?_, ?_⟩, by rintro d ⟨⟩⟩
    · intro c
      rw [restartsSinceStable_append, hrestarts]
      by_cases hc : c = e.child
      · subst hc
        simp only [Function.update_self, hattempt]
        simp
      · simp only [Function.update_of_ne hc, h.attempt c]
        simp [Ne.symm hc]
    · intro c
      rw [restartsOf_append, hrestarts]
      by_cases hc : c = e.child
      · subst hc
        simp only [Function.update_self, hcumulative]
        simp
      · simp only [Function.update_of_ne hc, h.cumulative c]
        simp
    · rw [chargeTimes_append, hrestarts]
      simpa using h.total
    · rw [chargeTimes_append, hrestarts]
      simpa using h.window
  | true =>
    obtain ⟨hkept, hwindow⟩ := h.window.charge hsorted (hnow hrestarts)
    have hfull : ¬ u64Max < (book.intensity.charge policy e.now).2.charges.length := by
      intro hfull
      simp [RestartBook.exit, scheduleRestart, hrestarts, hfull] at hexit
    simp only [RestartBook.exit, scheduleRestart, hrestarts, hfull, if_true, if_false] at hexit
    cases hexit
    have htimes : chargeTimes (exits ++ [e]) = chargeTimes exits ++ [e.now] := by
      rw [chargeTimes_append, hrestarts, if_pos rfl]
    -- the deque is no longer than a `usize`, so its length is reported exactly
    have hwhole : min (book.intensity.charge policy e.now).2.charges.length u64Max =
        (chargeTimes (exits ++ [e])).countP fun t => e.now - t ≤ policy.within.value := by
      rw [Nat.min_eq_left (Nat.not_lt.1 hfull), hkept, htimes, List.countP_eq_length_filter]
    have hbumped : saturatingSucc book.intensity.totalRestarts.count =
        min (chargeTimes (exits ++ [e])).length u64Max := by
      rw [h.total, saturatingSucc_min, htimes, List.length_append, List.length_singleton]
    refine ⟨⟨?_, ?_, ?_, ?_⟩, ?_⟩
    · intro c
      rw [restartsSinceStable_append, hrestarts]
      by_cases hc : c = e.child
      · subst hc
        simp only [Function.update_self, RestartState.schedule, RestartAttempt.bump, hattempt,
          saturatingSucc_min]
        simp
      · simp only [Function.update_of_ne hc, h.attempt c]
        simp [Ne.symm hc]
    · intro c
      rw [restartsOf_append, hrestarts]
      by_cases hc : c = e.child
      · subst hc
        simp only [Function.update_self, RestartState.schedule, RestartCount.bump, hcumulative,
          saturatingSucc_min]
        simp
      · simp only [Function.update_of_ne hc, h.cumulative c]
        simp [Ne.symm hc]
    · exact hbumped
    · rw [htimes]
      exact hwindow
    · rintro d ⟨⟩
      refine ⟨hwhole, ?_, ?_, ?_, ?_, hbumped⟩
      · simp only [RestartDecision.intensityTrip, IntensityState.charge, decide_eq_true_eq]
        split_ifs with htrip
        · simpa using htrip
        · simpa using htrip
      · intro trip htrip
        simp only [RestartDecision.intensityTrip] at htrip
        split_ifs at htrip
        cases htrip
        rfl
      · simp only [RestartState.schedule, RestartAttempt.bump, hattempt, saturatingSucc_min,
          Nat.add_comm]
      · rw [restartsOf_append, hrestarts]
        simp only [RestartState.schedule, RestartCount.bump, hcumulative, saturatingSucc_min]
        simp

end Steps

/-- Restart accounting over every run: whatever the number of children and the
order of their exits, each decision counts the history exactly. -/
theorem restart_accounting {C : Type} [DecidableEq C] (policy : Intensity) (ceiling : Instant)
    {tr : List (Edge (RestartBook C) (RestartExit C) (Option RestartDecision))}
    {book : RestartBook C}
    (hrun : Run (stepEdge fun book e => RestartBook.exit policy ceiling book e) .new tr book)
    (htimes : (chargeTimes (tr.map Edge.input)).Pairwise (· ≤ ·)) :
    ∀ pre e post d, tr = pre ++ e :: post → e.output = some d →
      d.Accounts policy (pre.map Edge.input) e.input := by
  have hrecords : ∀ {pre : List (Edge (RestartBook C) (RestartExit C) (Option RestartDecision))}
      {book : RestartBook C},
      Run (stepEdge fun book e => RestartBook.exit policy ceiling book e) .new pre book →
      (chargeTimes (pre.map Edge.input)).Pairwise (· ≤ ·) →
      book.Records policy (pre.map Edge.input) := by
    intro pre book hpre
    refine Run.history hpre (fun _ => .new) ?_
    intro done a _ ha _ ih hsorted
    rw [List.map_append, List.map_cons, List.map_nil] at hsorted ⊢
    rw [chargeTimes_append] at hsorted
    obtain ⟨hdone, -, hcross⟩ := List.pairwise_append.1 hsorted
    refine ((ih hdone).exit hdone (fun hrestarts t ht => ?_) ha).1
    exact hcross t ht a.input.now (by simp [hrestarts])
  rintro pre e post d rfl hd
  obtain ⟨hpre, he, -⟩ := Run.split_at hrun
  rw [List.map_append, List.map_cons] at htimes
  have hsplit : (chargeTimes (pre.map Edge.input ++ [e.input])).Pairwise (· ≤ ·) := by
    refine List.Pairwise.sublist ?_ htimes
    exact ((List.Sublist.append_left (by simp) _).filter _).map _
  rw [chargeTimes_append] at hsplit
  obtain ⟨hdone, -, hcross⟩ := List.pairwise_append.1 hsplit
  refine ((hrecords hpre hdone).exit hdone (fun hrestarts t ht => ?_) he).2 d hd
  exact hcross t ht e.input.now (by simp [hrestarts])

/-- Two children restart within the window of one charge; a third restart comes
after a long run and finds the window empty again. -/
theorem restart_accounting_tripped :
    ∃ pre e post book d,
      Run (stepEdge fun (book : RestartBook Bool) e =>
          RestartBook.exit ⟨1, ⟨10, Nat.succ_ne_zero 9⟩⟩ (10 ^ 12) book e) .new (pre ++ e :: post)
            book ∧
        e.output = some d ∧ d.charge.inWindow = 2 ∧ d.attempt.value = 1 ∧
        d.Accounts ⟨1, ⟨10, Nat.succ_ne_zero 9⟩⟩ (pre.map Edge.input) e.input := by
  have hexec : ∃ pre e post book d, exec (fun (book : RestartBook Bool) e =>
        RestartBook.exit ⟨1, ⟨10, Nat.succ_ne_zero 9⟩⟩ (10 ^ 12) book e) .new
      [⟨false, 0, 5, true, 5, fun _ => 1⟩, ⟨true, 0, 8, true, 8, fun _ => 1⟩,
        ⟨false, 6, 30, true, 30, fun _ => 1⟩] = some (pre ++ e :: post, book) ∧
      e.output = some d ∧ d.charge.inWindow = 2 ∧ d.attempt.value = 1 ∧
      chargeTimes ((pre ++ e :: post).map Edge.input) = [5, 8, 30] :=
    ⟨[_], _, [_], _, _, rfl, rfl, rfl, rfl, rfl⟩
  obtain ⟨pre, e, post, book, d, hexec, hd, hwindow, hattempt, htimes⟩ := hexec
  have hrun := run_of_exec _ hexec
  refine ⟨pre, e, post, book, d, hrun, hd, hwindow, hattempt, ?_⟩
  refine restart_accounting _ _ hrun ?_ pre e post d rfl hd
  rw [htimes]
  decide

end Shelterwood
