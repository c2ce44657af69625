/-
Shelterwood/Epochs.lean

The epoch plane of a scope: which incarnation is live and which have ended.

Epochs are minted in strictly increasing order from `first`, so a plane is
nothing but a count of the epochs that ended, by finishing or by being vacated,
and a flag that says whether the next one is running.  `ScopeEpochs.ended` is
that count; every operation is described by it below, and the epoch a shutdown
request lands on is always the one after it.
-/
import Shelterwood.Identity
import Mathlib.Order.Lattice
import Mathlib.Data.Nat.Basic

namespace Shelterwood

/-- One scope incarnation's ownership token: a `u64`, counted from one. -/
structure Epoch where
  value : ℕ
  pos : 0 < value
  le_max : value ≤ u64Max
  deriving DecidableEq, Repr

namespace Epoch

theorem value_injective : Function.Injective value := by
  rintro ⟨a, _, _⟩ ⟨b, _, _⟩ h
  cases h
  rfl

instance : LinearOrder Epoch := LinearOrder.lift' value value_injective

theorem le_iff {a b : Epoch} : a ≤ b ↔ a.value ≤ b.value := Iff.rfl

theorem lt_iff {a b : Epoch} : a < b ↔ a.value < b.value := Iff.rfl

theorem eq_iff {a b : Epoch} : a = b ↔ a.value = b.value := value_injective.eq_iff.symm

/-- The first epoch a scope can mint. -/
def first : Epoch := ⟨1, by decide, by decide⟩

theorem successor_inRange {current next : ℕ} (h : MonotonicCounter.successor current = .ok next) :
    0 < next ∧ next ≤ u64Max := by
  obtain ⟨rfl, hlt⟩ := MonotonicCounter.successor_eq_ok_iff.mp h
  omega

def successor (e : Epoch) : Except Fault Epoch :=
  match h : MonotonicCounter.successor e.value with
  | .ok next => .ok ⟨next, (successor_inRange h).1, (successor_inRange h).2⟩
  | .error fault => .error fault

/-- The epoch minted after `previous`, or the first with no predecessor. -/
def after : Option Epoch → Except Fault Epoch
  | none => .ok first
  | some previous => successor previous

theorem successor_eq_ok_iff {e next : Epoch} :
    successor e = .ok next ↔ next.value = e.value + 1 := by
  unfold successor
  split
  · next value h =>
      obtain ⟨rfl, -⟩ := MonotonicCounter.successor_eq_ok_iff.mp h
      simp [eq_iff, eq_comm]
  · next fault h =>
      -- at the limit there is no next epoch to compare with
      have hmax := next.le_max
      have hlimit : ¬ e.value < u64Max := by
        intro hlt
        rw [MonotonicCounter.successor, if_pos hlt] at h
        cases h
      simp only [reduceCtorEq, false_iff]
      omega

end Epoch

/-- The epoch a scope shutdown request lands on. -/
structure RequestTarget where
  epoch : Epoch
  /-- The target incarnation has not begun. -/
  pendingIncarnation : Bool
  deriving DecidableEq, Repr

/-- Cross-incarnation liveness, encoded once. -/
inductive ScopeEpochs
  | idle (lastStopped : Option Epoch)
  | live (current : Epoch) (lastStopped : Option Epoch)
  deriving DecidableEq, Repr

namespace ScopeEpochs

def new : ScopeEpochs := .idle none

/-- Mints the next epoch, unless one is live. -/
def begin : ScopeEpochs → Except Fault (Option Epoch × ScopeEpochs)
  | .live current lastStopped => .ok (none, .live current lastStopped)
  | .idle lastStopped =>
    match Epoch.after lastStopped with
    | .ok current => .ok (some current, .live current lastStopped)
    | .error fault => .error fault

def liveEpoch : ScopeEpochs → Option Epoch
  | .idle _ => none
  | .live current _ => some current

def requestTarget : ScopeEpochs → Except Fault RequestTarget
  | .live current _ => .ok ⟨current, false⟩
  | .idle lastStopped =>
    match Epoch.after lastStopped with
    | .ok epoch => .ok ⟨epoch, true⟩
    | .error fault => .error fault

def finish (epoch : Epoch) : ScopeEpochs → Bool × ScopeEpochs
  | .live current lastStopped =>
    if current = epoch then (true, .idle (some epoch)) else (false, .live current lastStopped)
  | .idle lastStopped => (false, .idle lastStopped)

/-- Marks the next unminted epoch finished without it ever running. -/
def vacate (epoch : Epoch) : ScopeEpochs → Except Fault (Bool × ScopeEpochs)
  | .idle lastStopped =>
    match Epoch.after lastStopped with
    | .ok next =>
      if next = epoch then .ok (true, .idle (some epoch)) else .ok (false, .idle lastStopped)
    | .error fault => .error fault
  | .live current lastStopped => .ok (false, .live current lastStopped)

def isCurrent (epochs : ScopeEpochs) (epoch : Epoch) : Bool := epochs.liveEpoch = some epoch

/-- The derived order of `Option` puts `none` below every epoch. -/
def requestIsPending (epoch : Epoch) : ScopeEpochs → Bool
  | .idle none => true
  | .idle (some lastStopped) => lastStopped < epoch
  | .live _ _ => false

def lastStopped : ScopeEpochs → Option Epoch
  | .idle lastStopped => lastStopped
  | .live _ lastStopped => lastStopped

def finished (epochs : ScopeEpochs) (epoch : Epoch) : Bool :=
  match epochs.lastStopped with
  | some lastStopped => epoch ≤ lastStopped
  | none => false

/-! ### The plane as a count -/

/-- How many epochs have ended. -/
def ended (epochs : ScopeEpochs) : ℕ := (epochs.lastStopped.map Epoch.value).getD 0

/-- A live epoch is the one after those that ended. -/
def Wf (epochs : ScopeEpochs) : Prop :=
  ∀ current, epochs.liveEpoch = some current → current.value = epochs.ended + 1

variable {epochs epochs' : ScopeEpochs} {epoch : Epoch}

@[simp] theorem ended_idle_none : (idle none).ended = 0 := rfl

@[simp] theorem ended_idle_some : (idle (some epoch)).ended = epoch.value := rfl

theorem after_eq_ok {last : Option Epoch} {next : Epoch} (h : Epoch.after last = .ok next) :
    next.value = (idle last).ended + 1 := by
  cases last with
  | none =>
    cases h
    rfl
  | some previous => exact Epoch.successor_eq_ok_iff.mp h

/-- Minting fails only at the counter's limit. -/
theorem after_eq_error {last : Option Epoch} {fault : Fault}
    (h : Epoch.after last = .error fault) : fault = .exhausted := by
  cases last with
  | none => cases h
  | some previous =>
    simp only [Epoch.after, Epoch.successor] at h
    split at h
    · cases h
    · next fault' hfault =>
        cases h
        rw [MonotonicCounter.successor] at hfault
        split_ifs at hfault
        cases hfault
        rfl

theorem finished_iff : epochs.finished epoch = true ↔ epoch.value ≤ epochs.ended := by
  unfold finished ended
  cases epochs.lastStopped with
  | none => simp [epoch.pos.ne']
  | some last => simp [Epoch.le_iff]

theorem requestIsPending_iff :
    epochs.requestIsPending epoch = true ↔
      epochs.liveEpoch = none ∧ epochs.ended < epoch.value := by
  match epochs with
  | .idle none => simp [requestIsPending, liveEpoch, epoch.pos]
  | .idle (some last) => simp [requestIsPending, liveEpoch, Epoch.lt_iff]
  | .live current last => simp [requestIsPending, liveEpoch]

theorem begin_cases {minted : Option Epoch} (h : epochs.begin = .ok (minted, epochs')) :
    (epochs.liveEpoch ≠ none ∧ minted = none ∧ epochs' = epochs) ∨
      ∃ epoch, epochs.liveEpoch = none ∧ minted = some epoch ∧
        epoch.value = epochs.ended + 1 ∧ epochs'.liveEpoch = some epoch ∧
        epochs'.ended = epochs.ended := by
  cases epochs with
  | live current last =>
    cases h
    exact .inl ⟨by simp [liveEpoch], rfl, rfl⟩
  | idle last =>
    cases hafter : Epoch.after last with
    | error fault => simp [begin, hafter] at h
    | ok next =>
      simp only [begin, hafter] at h
      cases h
      exact .inr ⟨next, rfl, rfl, after_eq_ok hafter, rfl, rfl⟩

theorem begin_eq_error {fault : Fault} (h : epochs.begin = .error fault) : fault = .exhausted := by
  cases epochs with
  | live current last => cases h
  | idle last =>
    cases hafter : Epoch.after last with
    | error fault' =>
      simp only [begin, hafter, Except.error.injEq] at h
      rw [← h]
      exact after_eq_error hafter
    | ok next => simp [begin, hafter] at h

theorem requestTarget_eq_ok {target : RequestTarget} (hwf : epochs.Wf)
    (h : epochs.requestTarget = .ok target) :
    target.epoch.value = epochs.ended + 1 ∧
      target.pendingIncarnation = epochs.liveEpoch.isNone := by
  cases epochs with
  | live current last =>
    cases h
    exact ⟨hwf current rfl, rfl⟩
  | idle last =>
    cases hafter : Epoch.after last with
    | error fault => simp [requestTarget, hafter] at h
    | ok next =>
      simp only [requestTarget, hafter] at h
      cases h
      exact ⟨after_eq_ok hafter, rfl⟩

theorem finish_cases (epochs : ScopeEpochs) (epoch : Epoch) :
    (epochs.liveEpoch = some epoch ∧ epochs.finish epoch = (true, idle (some epoch))) ∨
      (epochs.liveEpoch ≠ some epoch ∧ epochs.finish epoch = (false, epochs)) := by
  cases epochs with
  | idle last => exact .inr ⟨by simp [liveEpoch], rfl⟩
  | live current last =>
    by_cases heq : current = epoch
    · exact .inl ⟨by simp [liveEpoch, heq], by simp [finish, heq]⟩
    · exact .inr ⟨by simp [liveEpoch, heq], by simp [finish, heq]⟩

theorem vacate_cases {vacated : Bool} (h : epochs.vacate epoch = .ok (vacated, epochs')) :
    (epochs.liveEpoch = none ∧ epoch.value = epochs.ended + 1 ∧ vacated = true ∧
        epochs' = idle (some epoch)) ∨
      (vacated = false ∧ epochs' = epochs) := by
  cases epochs with
  | live current last =>
    cases h
    exact .inr ⟨rfl, rfl⟩
  | idle last =>
    cases hafter : Epoch.after last with
    | error fault => simp [vacate, hafter] at h
    | ok next =>
      simp only [vacate, hafter] at h
      split_ifs at h with heq
      · subst heq
        cases h
        exact .inl ⟨rfl, after_eq_ok hafter, rfl, rfl⟩
      · cases h
        exact .inr ⟨rfl, rfl⟩

theorem after_of_value {last : Option Epoch} (h : epoch.value = (idle last).ended + 1) :
    Epoch.after last = .ok epoch := by
  cases last with
  | none =>
    have heq : Epoch.first = epoch := by
      rw [Epoch.eq_iff, h]
      rfl
    rw [← heq]
    rfl
  | some previous => exact Epoch.successor_eq_ok_iff.mpr h

/-- The epoch after those that ended is the plane's target. -/
theorem requestTarget_of_value (hwf : epochs.Wf) (h : epoch.value = epochs.ended + 1) :
    epochs.requestTarget = .ok ⟨epoch, epochs.liveEpoch.isNone⟩ := by
  cases epochs with
  | live current last =>
    have heq : current = epoch := by rw [Epoch.eq_iff, hwf current rfl, h]
    rw [heq]
    rfl
  | idle last => simp [requestTarget, after_of_value h, liveEpoch]

/-- On an idle plane the epoch after those that ended can be vacated. -/
theorem vacate_of_value (hidle : epochs.liveEpoch = none) (h : epoch.value = epochs.ended + 1) :
    epochs.vacate epoch = .ok (true, idle (some epoch)) := by
  cases epochs with
  | live current last => cases hidle
  | idle last => simp [vacate, after_of_value h]

end ScopeEpochs

end Shelterwood
