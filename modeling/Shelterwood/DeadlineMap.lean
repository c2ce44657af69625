/-
Shelterwood/DeadlineMap.lean

The deadline queue is a finite map.

Cancelling a deadline only forgets its registration; its heap entry stays until it
reaches the head, or until the heap is more than twice as long as the map.  The
relation `Refines` says what the stale entries cannot disturb: every registration
has its entry, no two entries have one handle, and handles are minted in
increasing order.  Seen through it, the queue takes the steps of a map from
handles to deadlines and keys.
-/
import Shelterwood.Engine
import Shelterwood.MaxHeap
import Shelterwood.Trace
import Mathlib.Data.Prod.Lex

namespace Shelterwood

/-! ### The heap order -/

/-- The greatest entry has the least deadline and, among equals, the least
handle. -/
def DeadlineEntry.rank (e : DeadlineEntry) : Lex (ℕᵒᵈ × ℕᵒᵈ) :=
  toLex (OrderDual.toDual e.deadline, OrderDual.toDual e.handle.value)

theorem DeadlineEntry.rank_injective : Function.Injective DeadlineEntry.rank := by
  rintro ⟨d, ⟨h⟩⟩ ⟨d', ⟨h'⟩⟩ heq
  cases heq
  rfl

instance : LinearOrder DeadlineEntry :=
  LinearOrder.lift' DeadlineEntry.rank DeadlineEntry.rank_injective

theorem DeadlineEntry.le_iff {a b : DeadlineEntry} :
    a ≤ b ↔ b.deadline < a.deadline ∨
      b.deadline = a.deadline ∧ b.handle.value ≤ a.handle.value := by
  show a.rank ≤ b.rank ↔ _
  rw [DeadlineEntry.rank, DeadlineEntry.rank, Prod.Lex.toLex_le_toLex, OrderDual.toDual_lt_toDual,
    OrderDual.toDual_le_toDual, OrderDual.toDual_inj]
  exact or_congr_right (and_congr_left' eq_comm)

/-! ### The operations -/

namespace DeadlineQueue

variable {K : Type}

def isActive (q : DeadlineQueue K) (handle : DeadlineHandle) : Bool :=
  (q.registrations.get? handle.value).isSome

def pruneStaleHead (q : DeadlineQueue K) : DeadlineQueue K :=
  { q with entries := MaxHeap.pruneHead (fun entry => !q.isActive entry.handle) q.entries }

def nextDeadline (q : DeadlineQueue K) : Option Instant × DeadlineQueue K :=
  ((MaxHeap.peek q.pruneStaleHead.entries).map (·.deadline), q.pruneStaleHead)

def popDue (q : DeadlineQueue K) (now : Instant) : Option K × DeadlineQueue K :=
  match MaxHeap.peek q.pruneStaleHead.entries with
  | none => (none, q.pruneStaleHead)
  | some entry =>
    if entry.deadline ≤ now then
      (q.registrations.get? entry.handle.value,
        { q with
          entries := MaxHeap.pop q.pruneStaleHead.entries
          registrations := q.registrations.erase entry.handle.value })
    else (none, q.pruneStaleHead)

end DeadlineQueue

inductive DeadlineOp (K : Type)
  | push (deadline : Instant) (key : K)
  | cancel (handle : DeadlineHandle)
  | nextDeadline
  | popDue (now : Instant)

inductive DeadlineAnswer (K : Type)
  | armed (handle : DeadlineHandle)
  | cancelled (removed : Bool)
  | next (deadline : Option Instant)
  | due (key : Option K)
  deriving DecidableEq

/-- One operation of the queue.  A mint past the counter's limit aborts. -/
def DeadlineQueue.apply {K : Type} (q : DeadlineQueue K) :
    DeadlineOp K → Option (DeadlineQueue K × DeadlineAnswer K)
  | .push deadline key =>
    match q.push deadline key with
    | .error _ => none
    | .ok (handle, q) => some (q, .armed handle)
  | .cancel handle => some (q.cancel handle, .cancelled (q.isActive handle))
  | .nextDeadline => some (q.nextDeadline.2, .next q.nextDeadline.1)
  | .popDue now => some ((q.popDue now).2, .due (q.popDue now).1)

/-! ### The map -/

/-- The last handle minted, and the live deadlines. -/
structure DeadlineMap (K : Type) where
  last : ℕ
  live : OrdMap ℕ (Instant × K)

namespace DeadlineMap

variable {K : Type}

def new : DeadlineMap K := ⟨0, .empty⟩

/-- What the map allows: a push takes the next handle, so none is used twice. -/
inductive Step : Edge (DeadlineMap K) (DeadlineOp K) (DeadlineAnswer K) → Prop
  | push (m : DeadlineMap K) (deadline : Instant) (key : K) :
      Step ⟨m, .push deadline key, .armed ⟨m.last + 1⟩,
        ⟨m.last + 1, m.live.insert (m.last + 1) (deadline, key)⟩⟩
  | cancel (m : DeadlineMap K) (handle : DeadlineHandle) :
      Step ⟨m, .cancel handle, .cancelled (m.live.get? handle.value).isSome,
        { m with live := m.live.erase handle.value }⟩
  | nextSome (m : DeadlineMap K) {h : ℕ} {t : Instant} {k : K} :
      m.live.get? h = some (t, k) →
      (∀ h' t' k', m.live.get? h' = some (t', k') → t ≤ t') →
      Step ⟨m, .nextDeadline, .next (some t), m⟩
  | nextNone (m : DeadlineMap K) : (∀ h, m.live.get? h = none) →
      Step ⟨m, .nextDeadline, .next none, m⟩
  /-- The live deadline that is least by time and handle. -/
  | due (m : DeadlineMap K) (now : Instant) {h : ℕ} {t : Instant} {k : K} :
      m.live.get? h = some (t, k) → t ≤ now →
      (∀ h' t' k', m.live.get? h' = some (t', k') → t < t' ∨ t = t' ∧ h ≤ h') →
      Step ⟨m, .popDue now, .due (some k), { m with live := m.live.erase h }⟩
  | notDue (m : DeadlineMap K) (now : Instant) :
      (∀ h t k, m.live.get? h = some (t, k) → now < t) → Step ⟨m, .popDue now, .due none, m⟩

end DeadlineMap

/-! ### The relation -/

namespace DeadlineQueue

variable {K : Type} {q : DeadlineQueue K} {m : DeadlineMap K}

structure Refines (q : DeadlineQueue K) (m : DeadlineMap K) : Prop where
  last : q.registrationIds.current = m.last
  live : ∀ h t k, m.live.get? h = some (t, k) ↔
    q.registrations.get? h = some k ∧ ⟨t, ⟨h⟩⟩ ∈ q.entries
  entered : ∀ h k, q.registrations.get? h = some k → ∃ t, ⟨t, ⟨h⟩⟩ ∈ q.entries
  once : (q.entries.map fun e => e.handle.value).Nodup
  minted : ∀ e ∈ q.entries, e.handle.value ≤ m.last

theorem Refines.new : (DeadlineQueue.new : DeadlineQueue K).Refines .new where
  last := rfl
  live := by simp [DeadlineQueue.new, DeadlineMap.new]
  entered := by simp [DeadlineQueue.new]
  once := .nil
  minted := by rintro e ⟨⟩

theorem isActive_iff {handle : DeadlineHandle} :
    q.isActive handle = true ↔ ∃ k, q.registrations.get? handle.value = some k := by
  rw [isActive, Option.isSome_iff_exists]

namespace Refines

theorem get?_eq_none_iff (h : q.Refines m) (i : ℕ) :
    m.live.get? i = none ↔ q.registrations.get? i = none := by
  constructor
  · intro hnone
    cases hget : q.registrations.get? i with
    | none => rfl
    | some k =>
      obtain ⟨t, ht⟩ := h.entered i k hget
      rw [(h.live i t k).2 ⟨hget, ht⟩] at hnone
      cases hnone
  · intro hnone
    cases hget : m.live.get? i with
    | none => rfl
    | some p =>
      rw [((h.live i p.1 p.2).1 hget).1] at hnone
      cases hnone

theorem isSome_eq (h : q.Refines m) (i : ℕ) :
    (m.live.get? i).isSome = (q.registrations.get? i).isSome := by
  have hnone := h.get?_eq_none_iff i
  cases hm : m.live.get? i <;> cases hq : q.registrations.get? i <;> simp_all

/-- The heap may lose stale entries. -/
theorem thin (h : q.Refines m) {entries : List DeadlineEntry} (hsub : entries.Sublist q.entries)
    (hkeep : ∀ e ∈ q.entries, q.isActive e.handle = true → e ∈ entries) :
    ({ q with entries } : DeadlineQueue K).Refines m where
  last := h.last
  live := fun i t k => by
    rw [h.live]
    refine and_congr_right fun hget => ⟨fun hmem => ?_, fun hmem => hsub.subset hmem⟩
    exact hkeep _ hmem (isActive_iff.2 ⟨k, hget⟩)
  entered := fun i k hget => by
    obtain ⟨t, ht⟩ := h.entered i k hget
    exact ⟨t, hkeep _ ht (isActive_iff.2 ⟨k, hget⟩)⟩
  once := (hsub.map _).nodup h.once
  minted := fun e he => h.minted e (hsub.subset he)

/-- Forgetting one registration. -/
theorem erase (h : q.Refines m) (i : ℕ) :
    ({ q with registrations := q.registrations.erase i } : DeadlineQueue K).Refines
      { m with live := m.live.erase i } where
  last := h.last
  live := fun j t k => by
    simp only [OrdMap.get?_erase]
    by_cases hj : j = i
    · simp [hj]
    · simpa [hj] using h.live j t k
  entered := fun j k hget => by
    simp only [OrdMap.get?_erase] at hget
    split_ifs at hget
    exact h.entered j k hget
  once := h.once
  minted := h.minted

theorem pruneStaleHead (h : q.Refines m) : q.pruneStaleHead.Refines m :=
  h.thin (MaxHeap.pruneHead_sublist _ _) fun _ he hactive =>
    (MaxHeap.mem_pruneHead (by simp [hactive])).2 he

theorem compactIfSparse (h : q.Refines m) : q.compactIfSparse.Refines m := by
  unfold DeadlineQueue.compactIfSparse
  split_ifs
  · exact h.thin List.filter_sublist fun e he hactive => List.mem_filter.2 ⟨he, hactive⟩
  · exact h

theorem cancel (h : q.Refines m) (handle : DeadlineHandle) :
    (q.cancel handle).Refines { m with live := m.live.erase handle.value } := by
  unfold DeadlineQueue.cancel
  split_ifs with hactive
  · exact (h.erase handle.value).compactIfSparse
  · -- a stale handle: there is nothing to forget
    have hnone : m.live.get? handle.value = none := by
      rw [h.get?_eq_none_iff]
      simpa using hactive
    have hsame : m.live.erase handle.value = m.live := by
      apply OrdMap.ext_get?
      intro i
      rw [OrdMap.get?_erase]
      split_ifs with hi
      · rw [hi, hnone]
      · rfl
    rw [hsame]
    exact h

theorem push (h : q.Refines m) {deadline : Instant} {key : K} {handle : DeadlineHandle}
    {q' : DeadlineQueue K} (hpush : q.push deadline key = .ok (handle, q')) :
    handle = ⟨m.last + 1⟩ ∧
      q'.Refines ⟨m.last + 1, m.live.insert (m.last + 1) (deadline, key)⟩ := by
  unfold DeadlineQueue.push at hpush
  split at hpush
  · cases hpush
  · next minted counter hmint =>
      cases hpush
      obtain ⟨rfl, rfl, -⟩ := MonotonicCounter.mint_eq_ok_iff.1 hmint
      rw [h.last]
      have hfresh : ∀ t, (⟨t, ⟨m.last + 1⟩⟩ : DeadlineEntry) ∉ q.entries := by
        intro t ht
        have hle := h.minted _ ht
        simp only at hle
        omega
      refine ⟨rfl, rfl, ?_, ?_, ?_, ?_⟩
      · intro i t k
        simp only [OrdMap.get?_insert, List.mem_cons, DeadlineEntry.mk.injEq,
          DeadlineHandle.mk.injEq]
        by_cases hi : i = m.last + 1
        · subst hi
          simp only [if_true, Option.some.injEq, Prod.mk.injEq, and_true, hfresh, or_false]
          exact ⟨fun hp => ⟨hp.2, hp.1.symm⟩, fun hp => ⟨hp.2.symm, hp.1⟩⟩
        · simpa [hi] using h.live i t k
      · intro i k hget
        simp only [OrdMap.get?_insert] at hget
        split_ifs at hget with hi
        · exact ⟨deadline, by simp [hi]⟩
        · obtain ⟨t, ht⟩ := h.entered i k hget
          exact ⟨t, List.mem_cons_of_mem _ ht⟩
      · refine List.nodup_cons.2 ⟨?_, h.once⟩
        intro hmem
        obtain ⟨⟨t, ⟨i⟩⟩, he, hi⟩ := List.mem_map.1 hmem
        simp only at hi
        exact hfresh t (hi ▸ he)
      · intro e he
        rcases List.mem_cons.1 he with rfl | he
        · exact le_rfl
        · exact Nat.le_succ_of_le (h.minted e he)

/-- The head after pruning is the least live deadline. -/
theorem head (h : q.Refines m) {top : DeadlineEntry}
    (htop : MaxHeap.peek q.pruneStaleHead.entries = some top) :
    (∃ k, q.registrations.get? top.handle.value = some k ∧
      m.live.get? top.handle.value = some (top.deadline, k)) ∧
    ∀ i t k, m.live.get? i = some (t, k) →
      top.deadline < t ∨ top.deadline = t ∧ top.handle.value ≤ i := by
  have hlive := MaxHeap.head_pruneHead htop
  simp only [Bool.not_eq_false'] at hlive
  obtain ⟨k, hk⟩ := isActive_iff.1 hlive
  obtain ⟨hmem, hgreatest⟩ := MaxHeap.peek_eq_some_iff.1 htop
  refine ⟨⟨k, hk, ((h.pruneStaleHead.live _ _ _).2 ⟨hk, hmem⟩)⟩, ?_⟩
  intro i t k' hget
  have hentry := ((h.pruneStaleHead.live i t k').1 hget).2
  exact DeadlineEntry.le_iff.1 (hgreatest _ hentry)

theorem no_head (h : q.Refines m) (htop : MaxHeap.peek q.pruneStaleHead.entries = none) (i : ℕ) :
    m.live.get? i = none := by
  rw [MaxHeap.peek_eq_none_iff] at htop
  cases hget : m.live.get? i with
  | none => rfl
  | some p =>
    have hentry := ((h.pruneStaleHead.live i p.1 p.2).1 hget).2
    rw [htop] at hentry
    cases hentry

/-- Taking out the head with its registration. -/
theorem popped (h : q.Refines m) {top : DeadlineEntry}
    (htop : MaxHeap.peek q.pruneStaleHead.entries = some top) :
    ({ q with
        entries := MaxHeap.pop q.pruneStaleHead.entries
        registrations := q.registrations.erase top.handle.value } : DeadlineQueue K).Refines
      { m with live := m.live.erase top.handle.value } := by
  refine (h.pruneStaleHead.erase top.handle.value).thin (MaxHeap.pop_sublist _) ?_
  intro e he hactive
  refine MaxHeap.mem_pop htop ?_ he
  rintro rfl
  obtain ⟨k, hk⟩ := isActive_iff.1 hactive
  rw [OrdMap.get?_erase, if_pos rfl] at hk
  cases hk

/-- One operation is one step of the map. -/
theorem apply (h : q.Refines m) {op : DeadlineOp K} {q' : DeadlineQueue K}
    {answer : DeadlineAnswer K} (hop : q.apply op = some (q', answer)) :
    ∃ m', DeadlineMap.Step ⟨m, op, answer, m'⟩ ∧ q'.Refines m' := by
  cases op with
  | push deadline key =>
    simp only [DeadlineQueue.apply] at hop
    split at hop
    · cases hop
    · next handle pushed hpush =>
        cases hop
        obtain ⟨rfl, hpushed⟩ := h.push hpush
        exact ⟨_, .push m deadline key, hpushed⟩
  | cancel handle =>
    cases hop
    rw [isActive, ← h.isSome_eq]
    exact ⟨_, .cancel m handle, h.cancel handle⟩
  | nextDeadline =>
    cases hop
    refine ⟨m, ?_, h.pruneStaleHead⟩
    unfold DeadlineQueue.nextDeadline
    cases htop : MaxHeap.peek q.pruneStaleHead.entries with
    | none => exact .nextNone m (h.no_head htop)
    | some top =>
      obtain ⟨⟨k, -, hget⟩, hleast⟩ := h.head htop
      refine .nextSome m hget fun i t k' hi => ?_
      rcases hleast i t k' hi with hlt | ⟨heq, -⟩
      · exact Nat.le_of_lt hlt
      · exact Nat.le_of_eq heq
  | popDue now =>
    cases hop
    unfold DeadlineQueue.popDue
    cases htop : MaxHeap.peek q.pruneStaleHead.entries with
    | none =>
      refine ⟨m, .notDue m now fun i t k hget => ?_, h.pruneStaleHead⟩
      rw [h.no_head htop] at hget
      cases hget
    | some top =>
      obtain ⟨⟨k, hk, hget⟩, hleast⟩ := h.head htop
      by_cases hdue : top.deadline ≤ now
      · simp only [if_pos hdue, hk]
        exact ⟨_, .due m now hget hdue hleast, h.popped htop⟩
      · simp only [if_neg hdue]
        refine ⟨m, .notDue m now fun i t k' hi => ?_, h.pruneStaleHead⟩
        rcases hleast i t k' hi with hlt | ⟨heq, -⟩
        · exact Nat.lt_trans (Nat.not_le.1 hdue) hlt
        · exact heq ▸ Nat.not_le.1 hdue

/-- Every live handle has exactly one entry. -/
theorem one_entry (h : q.Refines m) {i : ℕ} (hlive : (q.registrations.get? i).isSome = true) :
    (q.entries.countP fun e => e.handle.value = i) = 1 := by
  obtain ⟨k, hk⟩ := Option.isSome_iff_exists.1 hlive
  obtain ⟨t, ht⟩ := h.entered i k hk
  have hmem : i ∈ q.entries.map fun e => e.handle.value := List.mem_map.2 ⟨_, ht, rfl⟩
  have hcount := List.count_eq_one_of_mem h.once hmem
  rw [List.count, List.countP_map] at hcount
  rw [← hcount]
  refine List.countP_congr fun e _ => ?_
  simp

/-- A heap without stale entries is no longer than the map. -/
theorem length_le (h : q.Refines m) (hactive : ∀ e ∈ q.entries, q.isActive e.handle = true) :
    q.entries.length ≤ q.registrations.size := by
  have hsub : (q.entries.map fun e => e.handle.value) ⊆ q.registrations.keys := by
    intro i hi
    obtain ⟨e, he, rfl⟩ := List.mem_map.1 hi
    exact OrdMap.mem_keys.2 (isActive_iff.1 (hactive e he))
  have hle := (List.subperm_of_subset h.once hsub).length_le
  rwa [List.length_map, OrdMap.keys, List.length_map] at hle

/-- Compaction bounds the heap by twice the map. -/
theorem sparse (h : q.Refines m) :
    q.compactIfSparse.entries.length ≤ 2 * q.compactIfSparse.registrations.size := by
  have hcompact := h.compactIfSparse
  by_cases hsparse : q.registrations.size * 2 < q.entries.length
  · have hle : q.compactIfSparse.entries.length ≤ q.compactIfSparse.registrations.size := by
      refine hcompact.length_le fun e he => ?_
      simp only [DeadlineQueue.compactIfSparse, if_pos hsparse] at he ⊢
      exact (List.mem_filter.1 he).2
    omega
  · simp only [DeadlineQueue.compactIfSparse, if_neg hsparse]
    omega

end Refines

end DeadlineQueue

/-- The queue answers every sequence of operations as the map does.  Every live
handle has exactly one heap entry, and right after a successful cancel the heap is
at most twice as long as the map. -/
theorem deadline_queue_refines {K : Type}
    {tr : List (Edge (DeadlineQueue K) (DeadlineOp K) (DeadlineAnswer K))} {q : DeadlineQueue K}
    (hrun : Run (stepEdge fun q op => DeadlineQueue.apply q op) .new tr q) :
    (∃ abstract m, Run DeadlineMap.Step (.new : DeadlineMap K) abstract m ∧
      abstract.map (fun e => (e.input, e.output)) = tr.map (fun e => (e.input, e.output)) ∧
      (∀ h t k, m.live.get? h = some (t, k) ↔
        q.registrations.get? h = some k ∧ ⟨t, ⟨h⟩⟩ ∈ q.entries) ∧
      ∀ h k, q.registrations.get? h = some k → ∃ t, m.live.get? h = some (t, k)) ∧
    (∀ h, (q.registrations.get? h).isSome = true →
      (q.entries.countP fun e => e.handle.value = h) = 1) ∧
    ∀ e ∈ tr, ∀ handle, e.input = .cancel handle → e.output = .cancelled true →
      e.after.entries.length ≤ 2 * e.after.registrations.size := by
  have hmatch : ∀ {pre : List (Edge (DeadlineQueue K) (DeadlineOp K) (DeadlineAnswer K))}
      {q : DeadlineQueue K}, Run (stepEdge fun q op => DeadlineQueue.apply q op) .new pre q →
      ∃ abstract m, Run DeadlineMap.Step (.new : DeadlineMap K) abstract m ∧ q.Refines m ∧
        abstract.map (fun e => (e.input, e.output)) = pre.map (fun e => (e.input, e.output)) :=
    fun hpre => Run.simulate hpre DeadlineQueue.Refines.new fun _ _ he h => h.apply he
  obtain ⟨abstract, m, habstract, hm, hsame⟩ := hmatch hrun
  refine ⟨⟨abstract, m, habstract, hsame, hm.live, ?_⟩, fun h => hm.one_entry, ?_⟩
  · intro h k hget
    obtain ⟨t, ht⟩ := hm.entered h k hget
    exact ⟨t, (hm.live h t k).2 ⟨hget, ht⟩⟩
  · intro e he handle hinput houtput
    obtain ⟨pre, post, -, hpre, hedge, -⟩ := Run.mem_split hrun he
    obtain ⟨-, m', -, hbefore, -⟩ := hmatch hpre
    obtain ⟨before, input, output, after⟩ := e
    subst hinput houtput
    replace hedge : before.apply (.cancel handle) = some (after, .cancelled true) := hedge
    simp only [DeadlineQueue.apply, Option.some.injEq, Prod.mk.injEq,
      DeadlineAnswer.cancelled.injEq] at hedge
    obtain ⟨rfl, hactive⟩ := hedge
    have hcancel : before.cancel handle =
        ({ before with registrations := before.registrations.erase handle.value } :
          DeadlineQueue K).compactIfSparse := if_pos hactive
    rw [hcancel]
    exact (hbefore.erase handle.value).sparse

/-- The earliest of three deadlines is cancelled, twice; the next one is due and
the last one is not.  The map allows the same answers. -/
theorem deadline_queue_refines_cancelled :
    ∃ tr q, Run (stepEdge fun q op => DeadlineQueue.apply q op) (.new : DeadlineQueue ℕ) tr q ∧
      tr.map Edge.output = [.armed ⟨1⟩, .armed ⟨2⟩, .armed ⟨3⟩, .cancelled true, .cancelled false,
        .next (some 5), .due (some 10), .due none] ∧
      ∃ abstract m, Run DeadlineMap.Step (.new : DeadlineMap ℕ) abstract m ∧
        abstract.map (fun e => (e.input, e.output)) = tr.map (fun e => (e.input, e.output)) := by
  have hexec : ∃ tr q, exec (fun q op => DeadlineQueue.apply q op) (.new : DeadlineQueue ℕ)
      [.push 5 10, .push 3 20, .push 9 30, .cancel ⟨2⟩, .cancel ⟨2⟩, .nextDeadline, .popDue 6,
        .popDue 6] = some (tr, q) ∧
      tr.map Edge.output = [.armed ⟨1⟩, .armed ⟨2⟩, .armed ⟨3⟩, .cancelled true, .cancelled false,
        .next (some 5), .due (some 10), .due none] :=
    ⟨_, _, rfl, by decide⟩
  obtain ⟨tr, q, hexec, houtputs⟩ := hexec
  have hrun := run_of_exec _ hexec
  obtain ⟨⟨abstract, m, habstract, hsame, -⟩, -⟩ := deadline_queue_refines hrun
  exact ⟨tr, q, hrun, houtputs, abstract, m, habstract, hsame⟩

end Shelterwood
