/-
Shelterwood/TimerStore.lean

Keyed timer storage of a raw incarnation.

A timer is held in the bucket of its key's hash.  Two indexes point at it: the
arming index, from its arming order to the hash, and the deadline index, an
ordered set of deadlines and arming orders.  The three are written one after the
other, and `Filed` says what they agree on between operations.  Keys are erased:
equality first compares the key types and then asks the user's `Eq`, so the
development assumes of it no more than that it is an equivalence the hash respects.
-/
import Shelterwood.Engine
import Shelterwood.SwapRemove
import Mathlib.Data.Prod.Lex

namespace Shelterwood

/-! ### Keys -/

/-- An erased timer key: a value under its type's identity. -/
structure TimerKey (T : Type) (V : T → Type) where
  typeId : T
  value : V typeId

namespace TimerKey

variable {T : Type} {V : T → Type} [DecidableEq T]

def downcast? (key : TimerKey T V) (typeId : T) : Option (V typeId) :=
  if h : key.typeId = typeId then some (h ▸ key.value) else none

variable [∀ t, BEq (V t)]

instance : BEq (TimerKey T V) := ⟨fun a b => a.downcast? b.typeId == some b.value⟩

theorem beq_of_typeId {t : T} (v w : V t) : ((⟨t, v⟩ : TimerKey T V) == ⟨t, w⟩) = (v == w) := by
  show (downcast? ⟨t, v⟩ t == some w) = _
  rw [downcast?, dif_pos rfl]
  rfl

theorem typeId_eq_of_beq {a b : TimerKey T V} (h : (a == b) = true) : a.typeId = b.typeId := by
  by_contra hne
  replace h : (a.downcast? b.typeId == some b.value) = true := h
  rw [downcast?, dif_neg hne] at h
  cases h

instance [∀ t, EquivBEq (V t)] : EquivBEq (TimerKey T V) where
  rfl := by
    rintro ⟨t, v⟩
    rw [beq_of_typeId]
    exact BEq.rfl
  symm := by
    rintro ⟨t, v⟩ ⟨t', w⟩ h
    obtain rfl : t = t' := typeId_eq_of_beq h
    rw [beq_of_typeId] at h ⊢
    exact BEq.symm h
  trans := by
    rintro ⟨t, v⟩ ⟨t', w⟩ ⟨t'', x⟩ h h'
    obtain rfl : t = t' := typeId_eq_of_beq h
    obtain rfl : t = t'' := typeId_eq_of_beq h'
    rw [beq_of_typeId] at h h' ⊢
    exact BEq.trans h h'

end TimerKey

/-! ### The store -/

inductive TimerMessage (M : Type)
  | once (message : M)
  | interval (message : M) (clone : M → M) (period : Duration)

structure TimerEntry (K M : Type) where
  key : K
  /-- `none` when the requested delay overflows the clock. -/
  deadline : Option Instant
  armingOrder : ℕ
  message : TimerMessage M

structure TimerLocation where
  hash : ℕ
  index : ℕ

structure TimerStore (K M : Type) where
  armingOrders : MonotonicCounter
  keyed : OrdMap ℕ (List (TimerEntry K M))
  armings : OrdMap ℕ ℕ
  deadlines : OrdMap (Lex (ℕ × ℕ)) Unit

namespace TimerStore

variable {K M : Type}

def new : TimerStore K M := ⟨.new, .empty, .empty, .empty⟩

def clear (s : TimerStore K M) : TimerStore K M :=
  { s with keyed := .empty, armings := .empty, deadlines := .empty }

def locate (s : TimerStore K M) (hash : ℕ) (predicate : TimerEntry K M → Bool) :
    Option TimerLocation :=
  match s.keyed.get? hash with
  | none => none
  | some bucket => (bucket.findIdx? predicate).map fun index => ⟨hash, index⟩

def disarmDeadline (deadlines : OrdMap (Lex (ℕ × ℕ)) Unit) (armingOrder : ℕ) :
    Option Instant → OrdMap (Lex (ℕ × ℕ)) Unit
  | none => deadlines
  | some deadline => deadlines.erase (toLex (deadline, armingOrder))

def armDeadline (deadlines : OrdMap (Lex (ℕ × ℕ)) Unit) (armingOrder : ℕ) :
    Option Instant → OrdMap (Lex (ℕ × ℕ)) Unit
  | none => deadlines
  | some deadline => deadlines.insert (toLex (deadline, armingOrder)) ()

def unlink (s : TimerStore K M) (location : TimerLocation) :
    Except Fault (TimerEntry K M × TimerStore K M) :=
  match s.keyed.get? location.hash with
  | none => .error (.panicked "a timer location must reference a key bucket")
  | some bucket =>
    match swapRemove bucket location.index with
    | none => .error (.panicked "swap_remove index should be < len")
    | some (entry, rest) =>
      .ok (entry,
        { s with
          keyed :=
            if rest.isEmpty then s.keyed.erase location.hash
            else s.keyed.insert location.hash rest
          armings := s.armings.erase entry.armingOrder
          deadlines := disarmDeadline s.deadlines entry.armingOrder entry.deadline })

def takeHashed [BEq K] (s : TimerStore K M) (hash : ℕ) (key : K) :
    Except Fault (Option (TimerEntry K M) × TimerStore K M) :=
  match s.locate hash fun entry => entry.key == key with
  | none => .ok (none, s)
  | some location =>
    match s.unlink location with
    | .error fault => .error fault
    | .ok (entry, s) => .ok (some entry, s)

def removeHashed [BEq K] (s : TimerStore K M) (hash : ℕ) (key : K) :
    Except Fault (Bool × TimerStore K M) :=
  match s.takeHashed hash key with
  | .error fault => .error fault
  | .ok (none, s) => .ok (false, s)
  | .ok (some _, s) => .ok (true, s)

def remove [BEq K] (hash : K → ℕ) (s : TimerStore K M) (key : K) :
    Except Fault (Bool × TimerStore K M) :=
  s.removeHashed (hash key) key

/-- A zero-period interval only forgets its key; the message is destroyed. -/
def clearAndDispose [BEq K] (hash : K → ℕ) (s : TimerStore K M) (key : K) (_message : M) :
    Except Fault (TimerStore K M) :=
  match s.remove hash key with
  | .error fault => .error fault
  | .ok (_, s) => .ok s

/-- The part of `replace` that no callback interrupts: the new entry goes to the end
of its bucket and into both indexes. -/
def install (s : TimerStore K M) (hash : ℕ) (entry : TimerEntry K M) :
    Except Fault (TimerStore K M) :=
  if (s.armings.get? entry.armingOrder).isSome then
    .error (.panicked "assertion failed: previous.is_none()")
  else
    .ok
      { s with
        keyed := s.keyed.insert hash ((s.keyed.get? hash).getD [] ++ [entry])
        armings := s.armings.insert entry.armingOrder hash
        deadlines := armDeadline s.deadlines entry.armingOrder entry.deadline }

def replace [BEq K] (hash : K → ℕ) (s : TimerStore K M) (key : K) (deadline : Option Instant)
    (message : TimerMessage M) : Except Fault (ℕ × TimerStore K M) :=
  match s.armingOrders.mint with
  | .error fault => .error fault
  | .ok (armingOrder, armingOrders) =>
    match ({ s with armingOrders } : TimerStore K M).removeHashed (hash key) key with
    | .error fault => .error fault
    | .ok (_, s) =>
      match s.install (hash key) ⟨key, deadline, armingOrder, message⟩ with
      | .error fault => .error fault
      | .ok s => .ok (armingOrder, s)

/-- The location of a known arming order.  An index that leads nowhere panics. -/
def locateArming (s : TimerStore K M) (armingOrder : ℕ) : Except Fault (Option TimerLocation) :=
  match s.armings.get? armingOrder with
  | none => .ok none
  | some hash =>
    match s.keyed.get? hash with
    | none => .error (.panicked "an arming index must reference a key bucket")
    | some bucket =>
      match bucket.findIdx? fun entry => entry.armingOrder == armingOrder with
      | none => .error (.panicked "an arming index must reference a timer")
      | some index => .ok (some ⟨hash, index⟩)

/-- Every entry of every bucket. -/
def entries (s : TimerStore K M) : List (TimerEntry K M) := s.keyed.entries.flatMap Prod.snd

/-- The deadlines up to `(now, ArmingOrder::MAX)`. -/
def due (s : TimerStore K M) (now : Instant) : List (Lex (ℕ × ℕ)) :=
  s.deadlines.keys.filter fun deadline => deadline ≤ toLex (now, u64Max)

def takeDue (s : TimerStore K M) (now : Instant) : List ℕ × TimerStore K M :=
  ((s.due now).map fun deadline => (ofLex deadline).2,
    { s with deadlines := (s.due now).foldl OrdMap.erase s.deadlines })

/-- What one delivery came to. -/
inductive Delivery (M : Type)
  | message (message : Option M)
  | clonePanicked

/-- Resolves one captured arming.  `clonePanics` is the outcome of the user's clone;
the entry is written only after it returned. -/
def deliverDue (ceiling : Instant) (s : TimerStore K M) (armingOrder : ℕ) (now : Instant)
    (clonePanics : Bool) : Except Fault (Delivery M × TimerStore K M) :=
  match s.locateArming armingOrder with
  | .error fault => .error fault
  | .ok none => .ok (.message none, s)
  | .ok (some location) =>
    match s.keyed.get? location.hash with
    | none => .error (.panicked "a timer location must reference a key bucket")
    | some bucket =>
      match bucket[location.index]? with
      | none => .error (.panicked "a timer location must reference a timer")
      | some entry =>
        match entry.message with
        | .interval message clone period =>
          if clonePanics then .ok (.clonePanicked, s)
          else
            let deadline := deadlineAfter ceiling now period
            .ok (.message (some (clone message)),
              { s with
                keyed := s.keyed.insert location.hash
                  (bucket.set location.index { entry with deadline })
                deadlines := armDeadline s.deadlines armingOrder deadline })
        | .once _ =>
          match s.unlink location with
          | .error fault => .error fault
          | .ok (entry, s) =>
            match entry.message with
            | .once message => .ok (.message (some message), s)
            | .interval .. => .ok (.message none, s)

/-! ### The deadline index -/

theorem get?_armDeadline (deadlines : OrdMap (Lex (ℕ × ℕ)) Unit) (a a' d : ℕ)
    (deadline : Option Instant) :
    (armDeadline deadlines a deadline).get? (toLex (d, a')) =
      if deadline = some d ∧ a' = a then some () else deadlines.get? (toLex (d, a')) := by
  cases deadline with
  | none => simp [armDeadline]
  | some d' =>
    rw [armDeadline, OrdMap.get?_insert]
    simp only [toLex_inj, Prod.mk.injEq, Option.some.injEq, eq_comm (a := d)]

theorem get?_disarmDeadline (deadlines : OrdMap (Lex (ℕ × ℕ)) Unit) (a a' d : ℕ)
    (deadline : Option Instant) :
    (disarmDeadline deadlines a deadline).get? (toLex (d, a')) =
      if deadline = some d ∧ a' = a then none else deadlines.get? (toLex (d, a')) := by
  cases deadline with
  | none => simp [disarmDeadline]
  | some d' =>
    rw [disarmDeadline, OrdMap.get?_erase]
    simp only [toLex_inj, Prod.mk.injEq, Option.some.injEq, eq_comm (a := d)]

/-! ### Buckets -/

/-- The bucket of a hash; one that is not stored reads as empty. -/
def bucketAt (s : TimerStore K M) (h : ℕ) : List (TimerEntry K M) := (s.keyed.get? h).getD []

variable {bucket : List (TimerEntry K M)} {h : ℕ}

theorem bucketAt_of_get? {s : TimerStore K M} (hget : s.keyed.get? h = some bucket) :
    s.bucketAt h = bucket := by
  rw [bucketAt, hget]
  rfl

variable (hash : K → ℕ)

/-- The store holds an entry, in the bucket of its key. -/
def Holds (s : TimerStore K M) (entry : TimerEntry K M) : Prop :=
  entry ∈ s.bucketAt (hash entry.key)

/-- Every entry is in the bucket of its key, once. -/
structure Filed (s : TimerStore K M) : Prop where
  home : ∀ h, ∀ entry ∈ s.bucketAt h, hash entry.key = h
  once : ∀ h, (s.bucketAt h).Nodup

/-- `s'` is `s` without one entry, in all three indexes. -/
structure Loses (s : TimerStore K M) (entry : TimerEntry K M) (s' : TimerStore K M) : Prop where
  filed : s'.Filed hash
  holds : ∀ e, s'.Holds hash e ↔ s.Holds hash e ∧ e ≠ entry
  armings : s'.armings = s.armings.erase entry.armingOrder
  deadlines : s'.deadlines = disarmDeadline s.deadlines entry.armingOrder entry.deadline
  armingOrders : s'.armingOrders = s.armingOrders

/-- `s'` is `s` with one entry more, in all three indexes. -/
structure Gains (s : TimerStore K M) (entry : TimerEntry K M) (s' : TimerStore K M) : Prop where
  filed : s'.Filed hash
  holds : ∀ e, s'.Holds hash e ↔ s.Holds hash e ∨ e = entry
  armings : s'.armings = s.armings.insert entry.armingOrder (hash entry.key)
  deadlines : s'.deadlines = armDeadline s.deadlines entry.armingOrder entry.deadline
  armingOrders : s'.armingOrders = s.armingOrders

variable {hash} {s s' : TimerStore K M}

variable {entry : TimerEntry K M}

theorem Filed.holds_iff (hf : s.Filed hash) : s.Holds hash entry ↔ ∃ h, entry ∈ s.bucketAt h := by
  constructor
  · intro h
    exact ⟨_, h⟩
  · rintro ⟨h, hmem⟩
    show entry ∈ s.bucketAt (hash entry.key)
    rwa [hf.home h entry hmem]

theorem mem_entries : entry ∈ s.entries ↔ ∃ h, entry ∈ s.bucketAt h := by
  unfold entries bucketAt
  rw [List.mem_flatMap]
  constructor
  · rintro ⟨⟨h, bucket⟩, hmem, hentry⟩
    refine ⟨h, ?_⟩
    rw [OrdMap.get?_eq_some_iff.2 hmem]
    exact hentry
  · rintro ⟨h, hentry⟩
    cases hget : s.keyed.get? h with
    | none =>
      rw [hget] at hentry
      cases hentry
    | some bucket =>
      rw [hget] at hentry
      exact ⟨(h, bucket), OrdMap.get?_eq_some_iff.1 hget, hentry⟩

theorem Filed.mem_entries_iff (hf : s.Filed hash) : entry ∈ s.entries ↔ s.Holds hash entry :=
  mem_entries.trans hf.holds_iff.symm

/-- No entry is stored twice. -/
theorem Filed.entries_nodup (hf : s.Filed hash) : s.entries.Nodup := by
  have hbucket : ∀ p ∈ s.keyed.entries, s.bucketAt p.1 = p.2 := fun p hp =>
    bucketAt_of_get? (OrdMap.get?_eq_some_iff.2 hp)
  refine List.pairwise_flatMap.2 ⟨?_, ?_⟩
  · intro p hp
    exact hbucket p hp ▸ hf.once p.1
  · refine s.keyed.sorted.imp_of_mem fun {p q} hp hq hlt e he e' he' heq => ?_
    have hleft := hf.home p.1 e (hbucket p hp ▸ he)
    have hright := hf.home q.1 e' (hbucket q hq ▸ he')
    rw [heq, hright] at hleft
    exact Nat.ne_of_lt hlt hleft.symm

/-- Writing one bucket. -/
theorem Filed.write (hf : s.Filed hash) (hat : s'.bucketAt = Function.update s.bucketAt h bucket)
    (hhome : ∀ entry ∈ bucket, hash entry.key = h) (honce : bucket.Nodup) : s'.Filed hash where
  home := fun h' entry hmem => by
    rw [hat] at hmem
    by_cases hh : h' = h
    · subst hh
      rw [Function.update_self] at hmem
      exact hhome entry hmem
    · rw [Function.update_of_ne hh] at hmem
      exact hf.home h' entry hmem
  once := fun h' => by
    rw [hat]
    by_cases hh : h' = h
    · subst hh
      rwa [Function.update_self]
    · rw [Function.update_of_ne hh]
      exact hf.once h'

theorem holds_write (hat : s'.bucketAt = Function.update s.bucketAt h bucket)
    (entry : TimerEntry K M) :
    s'.Holds hash entry ↔
      hash entry.key = h ∧ entry ∈ bucket ∨ hash entry.key ≠ h ∧ s.Holds hash entry := by
  unfold Holds
  rw [hat]
  by_cases hh : hash entry.key = h
  · subst hh
    simp
  · simp [hh]

theorem bucketAt_insert (s : TimerStore K M) (h : ℕ) (bucket : List (TimerEntry K M)) :
    ({ s with keyed := s.keyed.insert h bucket } : TimerStore K M).bucketAt =
      Function.update s.bucketAt h bucket := by
  funext h'
  unfold bucketAt
  by_cases hh : h' = h
  · subst hh
    simp
  · rw [OrdMap.get?_insert_of_ne _ _ hh, Function.update_of_ne hh]

theorem bucketAt_erase (s : TimerStore K M) (h : ℕ) :
    ({ s with keyed := s.keyed.erase h } : TimerStore K M).bucketAt =
      Function.update s.bucketAt h [] := by
  funext h'
  unfold bucketAt
  rw [OrdMap.get?_erase]
  by_cases hh : h' = h
  · subst hh
    simp
  · rw [if_neg hh, Function.update_of_ne hh]

/-! ### What each function does -/

theorem unlink_loses (hf : s.Filed hash) {index : ℕ} (hget : s.keyed.get? h = some bucket)
    (hentry : bucket[index]? = some entry) :
    ∃ s', s.unlink ⟨h, index⟩ = .ok (entry, s') ∧ s.Loses hash entry s' := by
  obtain ⟨rest, hrest, hperm⟩ := swapRemove_perm hentry
  have hbucket := bucketAt_of_get? hget
  have honce : (entry :: rest).Nodup := hperm.nodup_iff.1 (hbucket ▸ hf.once h)
  have hhome : ∀ e ∈ bucket, hash e.key = h := fun e he => hf.home h e (hbucket ▸ he)
  have hrestHome : ∀ e ∈ rest, hash e.key = h := fun e he =>
    hhome e (hperm.mem_iff.2 (List.mem_cons_of_mem _ he))
  refine ⟨_, by simp only [unlink, hget, hrest]; rfl, ?_⟩
  -- an emptied bucket is dropped, which reads as an empty one
  have hat : (⟨s.armingOrders,
      if rest.isEmpty then s.keyed.erase h else s.keyed.insert h rest,
      s.armings.erase entry.armingOrder,
      disarmDeadline s.deadlines entry.armingOrder entry.deadline⟩ : TimerStore K M).bucketAt =
        Function.update s.bucketAt h rest := by
    cases rest with
    | nil => exact bucketAt_erase s h
    | cons e tail => exact bucketAt_insert s h (e :: tail)
  refine ⟨hf.write hat hrestHome (List.nodup_cons.1 honce).2, ?_, rfl, rfl, rfl⟩
  intro e
  rw [holds_write hat]
  constructor
  · rintro (⟨hh, hmem⟩ | ⟨hh, hheld⟩)
    · refine ⟨?_, ?_⟩
      · show e ∈ s.bucketAt (hash e.key)
        rw [hh, hbucket]
        exact hperm.mem_iff.2 (List.mem_cons_of_mem _ hmem)
      · rintro rfl
        exact (List.nodup_cons.1 honce).1 hmem
    · refine ⟨hheld, ?_⟩
      rintro rfl
      exact hh (hhome e (hperm.mem_iff.2 List.mem_cons_self))
  · rintro ⟨hheld, hne⟩
    by_cases hh : hash e.key = h
    · have hmem : e ∈ bucket := by
        rw [← hbucket, ← hh]
        exact hheld
      rcases List.mem_cons.1 (hperm.mem_iff.1 hmem) with heq | hrestMem
      · exact absurd heq hne
      · exact .inl ⟨hh, hrestMem⟩
    · exact .inr ⟨hh, hheld⟩

theorem locate_eq_some {p : TimerEntry K M → Bool} {location : TimerLocation}
    (hloc : s.locate h p = some location) :
    location.hash = h ∧ ∃ bucket entry, s.keyed.get? h = some bucket ∧
      bucket[location.index]? = some entry ∧ p entry = true := by
  unfold locate at hloc
  cases hget : s.keyed.get? h with
  | none => simp [hget] at hloc
  | some bucket =>
    simp only [hget, Option.map_eq_some_iff] at hloc
    obtain ⟨index, hindex, rfl⟩ := hloc
    obtain ⟨hlt, hp, -⟩ := List.findIdx?_eq_some_iff_getElem.1 hindex
    exact ⟨rfl, bucket, bucket[index], rfl, List.getElem?_eq_getElem hlt, hp⟩

theorem locate_eq_none {p : TimerEntry K M → Bool} (hloc : s.locate h p = none) :
    ∀ entry ∈ s.bucketAt h, p entry = false := by
  unfold locate at hloc
  unfold bucketAt
  cases hget : s.keyed.get? h with
  | none =>
    rintro entry ⟨⟩
  | some bucket =>
    simp only [hget, Option.map_eq_none_iff] at hloc
    exact List.findIdx?_eq_none_iff.1 hloc

section Remove

variable [BEq K] (hlawful : ∀ a b : K, (a == b) = true → hash a = hash b)
include hlawful

/-- Removing a key takes out its entry, or finds none. -/
theorem removeHashed_spec (hf : s.Filed hash) (key : K) :
    ∃ found s', s.removeHashed (hash key) key = .ok (found, s') ∧
      ((found = false ∧ s' = s ∧ ∀ e, s.Holds hash e → (e.key == key) = false) ∨
        ∃ e, found = true ∧ s.Holds hash e ∧ (e.key == key) = true ∧ s.Loses hash e s') := by
  unfold removeHashed takeHashed
  cases hloc : s.locate (hash key) (fun entry => entry.key == key) with
  | none =>
    refine ⟨false, s, rfl, .inl ⟨rfl, rfl, fun e hheld => ?_⟩⟩
    cases hkey : (e.key == key) with
    | false => rfl
    | true =>
      have hmem : e ∈ s.bucketAt (hash key) := hlawful _ _ hkey ▸ hheld
      rw [← hkey]
      exact locate_eq_none hloc e hmem
  | some location =>
    obtain ⟨hhash, bucket, e, hget, hentry, hkey⟩ := locate_eq_some hloc
    obtain ⟨s', hunlink, hloses⟩ := unlink_loses hf hget hentry
    obtain ⟨h, index⟩ := location
    obtain rfl : h = hash key := hhash
    refine ⟨true, s', by simp only [hunlink], .inr ⟨e, rfl, ?_, hkey, hloses⟩⟩
    show e ∈ s.bucketAt (hash e.key)
    rw [hlawful _ _ hkey, bucketAt_of_get? hget]
    exact List.mem_of_getElem? hentry

end Remove

/-- Installing an entry whose arming order is new. -/
theorem install_gains (hf : s.Filed hash) (entry : TimerEntry K M)
    (hfresh : s.armings.get? entry.armingOrder = none) (hnot : ¬ s.Holds hash entry) :
    ∃ s', s.install (hash entry.key) entry = .ok s' ∧ s.Gains hash entry s' := by
  refine ⟨_, by simp only [install, hfresh, Option.isSome_none, Bool.false_eq_true, if_false]; rfl,
    ?_⟩
  have hat := bucketAt_insert s (hash entry.key) (s.bucketAt (hash entry.key) ++ [entry])
  refine ⟨hf.write hat ?_ ?_, ?_, rfl, rfl, rfl⟩
  · intro e he
    rcases List.mem_append.1 he with hmem | hmem
    · exact hf.home _ e hmem
    · rw [List.mem_singleton.1 hmem]
  · rw [List.nodup_append]
    refine ⟨hf.once _, List.nodup_singleton _, ?_⟩
    intro e he e' he'
    rw [List.mem_singleton.1 he']
    rintro rfl
    exact hnot he
  · intro e
    refine (holds_write hat e).trans ?_
    constructor
    · rintro (⟨hh, hmem⟩ | ⟨-, hheld⟩)
      · rcases List.mem_append.1 hmem with hmem | hmem
        · left
          show e ∈ s.bucketAt (hash e.key)
          rwa [hh]
        · exact .inr (List.mem_singleton.1 hmem)
      · exact .inl hheld
    · rintro (hheld | rfl)
      · by_cases hh : hash e.key = hash entry.key
        · exact .inl ⟨hh, List.mem_append_left _ (hh ▸ hheld)⟩
        · exact .inr ⟨hh, hheld⟩
      · exact .inl ⟨rfl, List.mem_append_right _ List.mem_cons_self⟩

/-- A known arming order leads to its entry. -/
theorem locateArming_spec {armingOrder : ℕ} (harming : s.armings.get? armingOrder = some h)
    (hheld : s.Holds hash entry) (hhash : hash entry.key = h)
    (horder : entry.armingOrder = armingOrder) :
    ∃ index bucket e, s.locateArming armingOrder = .ok (some ⟨h, index⟩) ∧
      s.keyed.get? h = some bucket ∧ bucket[index]? = some e ∧ e.armingOrder = armingOrder := by
  have hmem : entry ∈ s.bucketAt h := hhash ▸ hheld
  cases hget : s.keyed.get? h with
  | none =>
    rw [bucketAt, hget] at hmem
    cases hmem
  | some bucket =>
    rw [bucketAt_of_get? hget] at hmem
    cases hindex : bucket.findIdx? (fun entry => entry.armingOrder == armingOrder) with
    | none =>
      have hmiss := List.findIdx?_eq_none_iff.1 hindex entry hmem
      simp [horder] at hmiss
    | some index =>
      obtain ⟨hlt, hp, -⟩ := List.findIdx?_eq_some_iff_getElem.1 hindex
      refine ⟨index, bucket, bucket[index], ?_, rfl, List.getElem?_eq_getElem hlt,
        by simpa using hp⟩
      simp only [locateArming, harming, hget, hindex]

/-- Rewriting an entry under its key and arming order. -/
theorem rewrite_holds (hf : s.Filed hash) {index : ℕ} (entry' : TimerEntry K M)
    (deadlines : OrdMap (Lex (ℕ × ℕ)) Unit) (hget : s.keyed.get? h = some bucket)
    (hentry : bucket[index]? = some entry) (hkey : entry'.key = entry.key)
    (horders : ∀ e, s.Holds hash e → e.armingOrder = entry'.armingOrder → e = entry) :
    ({ s with keyed := s.keyed.insert h (bucket.set index entry'), deadlines } :
      TimerStore K M).Filed hash ∧
    ∀ e, ({ s with keyed := s.keyed.insert h (bucket.set index entry'), deadlines } :
      TimerStore K M).Holds hash e ↔ s.Holds hash e ∧ e ≠ entry ∨ e = entry' := by
  obtain ⟨rest, hperm, hset⟩ := set_perm hentry
  have hbucket := bucketAt_of_get? hget
  have honce : (entry :: rest).Nodup := hperm.nodup_iff.1 (hbucket ▸ hf.once h)
  have hhome : ∀ e ∈ bucket, hash e.key = h := fun e he => hf.home h e (hbucket ▸ he)
  have hentryHome : hash entry.key = h := hhome entry (List.mem_of_getElem? hentry)
  have hheld : ∀ e ∈ rest, s.Holds hash e := fun e he => by
    have hmem : e ∈ bucket := hperm.mem_iff.2 (List.mem_cons_of_mem _ he)
    show e ∈ s.bucketAt (hash e.key)
    rw [hhome e hmem, hbucket]
    exact hmem
  have hnew : entry' ∉ rest := fun hmem =>
    (List.nodup_cons.1 honce).1 (horders entry' (hheld entry' hmem) rfl ▸ hmem)
  have hat := bucketAt_insert s h (bucket.set index entry')
  refine ⟨hf.write hat ?_ ?_, fun e => (holds_write hat e).trans ?_⟩
  · intro e he
    rcases List.mem_cons.1 ((hset entry').mem_iff.1 he) with rfl | hmem
    · rw [hkey, hentryHome]
    · exact hhome e (hperm.mem_iff.2 (List.mem_cons_of_mem _ hmem))
  · exact (hset entry').nodup_iff.2 (List.nodup_cons.2 ⟨hnew, (List.nodup_cons.1 honce).2⟩)
  · rw [(hset entry').mem_iff, List.mem_cons]
    constructor
    · rintro (⟨-, heq | hmem⟩ | ⟨hh, hother⟩)
      · exact .inr heq
      · refine .inl ⟨hheld e hmem, ?_⟩
        rintro rfl
        exact (List.nodup_cons.1 honce).1 hmem
      · refine .inl ⟨hother, ?_⟩
        rintro rfl
        exact hh hentryHome
    · rintro (⟨hother, hne⟩ | rfl)
      · by_cases hh : hash e.key = h
        · have hmem : e ∈ bucket := by
            rw [← hbucket, ← hh]
            exact hother
          rcases List.mem_cons.1 (hperm.mem_iff.1 hmem) with heq | hrest
          · exact absurd heq hne
          · exact .inl ⟨hh, .inr hrest⟩
        · exact .inr ⟨hh, hother⟩
      · exact .inl ⟨by rw [hkey, hentryHome], .inl rfl⟩

end TimerStore

end Shelterwood
