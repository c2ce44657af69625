/-
Shelterwood/OrdMap.lean

Finite maps over a linear order, kept as a key-sorted entry list.

The map is the list model of an ordered tree map: besides lookup, insertion
and erasure it answers the three range queries such a map is used for, namely
the next key after a given one, the previous key before it, and the last key.
Sortedness is a field of the structure, so every value of the type is a map
and two maps with equal lookups are equal (`OrdMap.ext_get?`).

Everything is read through `get?`: `get?_eq_some_iff` identifies lookups with
entries, and the later results never look at the list again.  `sumBy` adds up
a weight over the entries; potential arguments over a map compare two such sums
key by key (`sumBy_le_sumBy`, `sumBy_lt_sumBy`).
-/
import Mathlib.Data.List.Sort
import Mathlib.Order.Defs.LinearOrder
import Mathlib.Algebra.BigOperators.Group.List.Basic
import Mathlib.Algebra.GroupWithZero.Nat
import Mathlib.Algebra.Order.BigOperators.Group.Finset

/-- A finite map over a linear order: the entries in strictly increasing key
order. -/
structure OrdMap (K : Type*) (V : Type*) [LinearOrder K] where
  /-- The key-value pairs. -/
  entries : List (K × V)
  /-- The keys increase strictly along the list. -/
  sorted : entries.Pairwise fun a b => a.1 < b.1

namespace OrdMap

variable {K : Type*} [LinearOrder K] {V : Type*}

/-! ### The operations -/

instance [DecidableEq V] : DecidableEq (OrdMap K V) := fun m m' =>
  decidable_of_iff (m.entries = m'.entries)
    ⟨fun h => by cases m; cases m'; cases h; rfl, fun h => h ▸ rfl⟩

/-- The empty map. -/
def empty : OrdMap K V := ⟨[], List.Pairwise.nil⟩

/-- The value stored at a key. -/
def get? (m : OrdMap K V) (k : K) : Option V :=
  (m.entries.find? fun e => e.1 = k).map Prod.snd

/-- The keys, in increasing order. -/
def keys (m : OrdMap K V) : List K := m.entries.map Prod.fst

/-- Insertion into a sorted entry list, replacing the entry at the key. -/
def insertEntry (k : K) (v : V) : List (K × V) → List (K × V)
  | [] => [(k, v)]
  | e :: rest =>
    if k < e.1 then (k, v) :: e :: rest
    else if k = e.1 then (k, v) :: rest
    else e :: insertEntry k v rest

variable {k : K} {e : K × V} {l : List (K × V)} {v : V}

theorem mem_insertEntry_imp (h : e ∈ insertEntry k v l) : e = (k, v) ∨ e ∈ l := by
  induction l with
  | nil => simpa [insertEntry] using h
  | cons a rest ih =>
    rw [insertEntry] at h
    split_ifs at h with h₁ h₂
    · simpa using h
    · rcases List.mem_cons.mp h with h | h
      · exact .inl h
      · exact .inr (List.mem_cons_of_mem _ h)
    · rcases List.mem_cons.mp h with h | h
      · exact .inr (h ▸ List.mem_cons_self)
      · exact (ih h).imp_right (List.mem_cons_of_mem _)

theorem insertEntry_sorted (k : K) (v : V) (h : l.Pairwise fun a b => a.1 < b.1) :
    (insertEntry k v l).Pairwise fun a b => a.1 < b.1 := by
  induction l with
  | nil => simp [insertEntry]
  | cons a rest ih =>
    obtain ⟨ha, hrest⟩ := List.pairwise_cons.mp h
    rw [insertEntry]
    split_ifs with h₁ h₂
    · refine List.pairwise_cons.mpr ⟨?_, h⟩
      intro e he
      rcases List.mem_cons.mp he with rfl | he
      · exact h₁
      · exact h₁.trans (ha e he)
    · subst h₂
      exact List.pairwise_cons.mpr ⟨ha, hrest⟩
    · refine List.pairwise_cons.mpr ⟨?_, ih hrest⟩
      intro e he
      rcases mem_insertEntry_imp he with rfl | he
      · exact lt_of_le_of_ne (not_lt.mp h₁) (Ne.symm h₂)
      · exact ha e he

/-- Stores a value at a key. -/
def insert (m : OrdMap K V) (k : K) (v : V) : OrdMap K V :=
  ⟨insertEntry k v m.entries, insertEntry_sorted k v m.sorted⟩

/-- Removes a key. -/
def erase (m : OrdMap K V) (k : K) : OrdMap K V :=
  ⟨m.entries.filter fun e => e.1 ≠ k, m.sorted.filter _⟩

/-- Changes the value at a stored key. -/
def update (m : OrdMap K V) (k : K) (f : V → V) : OrdMap K V :=
  match m.get? k with
  | some v => m.insert k (f v)
  | none => m

/-- Changes every value. -/
def mapValues (m : OrdMap K V) (f : K → V → V) : OrdMap K V :=
  ⟨m.entries.map fun e => (e.1, f e.1 e.2), by
    rw [List.pairwise_map]
    exact m.sorted⟩

/-- The keys after a key, in increasing order. -/
def keysAfter (m : OrdMap K V) (k : K) : List K :=
  (m.entries.filter fun e => k < e.1).map Prod.fst

/-- The least key after a key. -/
def nextKey (m : OrdMap K V) (k : K) : Option K :=
  (m.entries.find? fun e => k < e.1).map Prod.fst

/-- The greatest key before a key. -/
def previousKey (m : OrdMap K V) (k : K) : Option K :=
  (m.entries.reverse.find? fun e => e.1 < k).map Prod.fst

/-- The greatest key. -/
def lastKey (m : OrdMap K V) : Option K :=
  (m.entries.reverse.find? fun _ => true).map Prod.fst

/-- The first entry at or after a key whose value passes a test. -/
def findFrom (m : OrdMap K V) (k : K) (p : V → Bool) : Option (K × V) :=
  m.entries.find? fun e => k ≤ e.1 && p e.2

/-- The last entry at or before a key whose value passes a test. -/
def findDownFrom (m : OrdMap K V) (k : K) (p : V → Bool) : Option (K × V) :=
  m.entries.reverse.find? fun e => e.1 ≤ k && p e.2

/-- Whether every stored value satisfies a test. -/
def all (m : OrdMap K V) (p : V → Bool) : Bool := m.entries.all fun e => p e.2

/-- Whether the map has no entry. -/
def isEmpty (m : OrdMap K V) : Bool := m.entries.isEmpty

/-- The number of entries. -/
def size (m : OrdMap K V) : ℕ := m.entries.length

/-- The sum of a weight over the entries. -/
def sumBy (m : OrdMap K V) (w : K → V → ℕ) : ℕ :=
  (m.entries.map fun e => w e.1 e.2).sum

/-! ### Searching a sorted list -/

/-- On a list sorted by an asymmetric relation, `find?` returns the member
that passes the test and has no passing member before it. -/
theorem find?_eq_some_iff_of_pairwise {α : Type*} {r : α → α → Prop}
    (hasymm : ∀ a b, r a b → ¬ r b a) {p : α → Bool} {l : List α}
    (hl : l.Pairwise r) {e : α} :
    l.find? p = some e ↔ e ∈ l ∧ p e = true ∧ ∀ a ∈ l, r a e → p a = false := by
  induction l with
  | nil => simp
  | cons x rest ih =>
    obtain ⟨hx, hrest⟩ := List.pairwise_cons.mp hl
    rw [List.find?_cons]
    cases hp : p x with
    | true =>
      -- the head passes: by asymmetry no later member comes before it
      constructor
      · intro h
        cases h
        refine ⟨List.mem_cons_self, hp, ?_⟩
        intro a ha hr
        rcases List.mem_cons.mp ha with rfl | ha
        · exact absurd hr (hasymm _ _ hr)
        · exact absurd hr (hasymm _ _ (hx a ha))
      · rintro ⟨he, hpe, hmin⟩
        rcases List.mem_cons.mp he with rfl | he
        · rfl
        · have := hmin x List.mem_cons_self (hx e he)
          rw [hp] at this
          cases this
    | false =>
      -- the head fails, so it constrains nothing and the tail decides
      simp only
      rw [ih hrest]
      constructor
      · rintro ⟨he, hpe, hmin⟩
        refine ⟨List.mem_cons_of_mem _ he, hpe, ?_⟩
        intro a ha hr
        rcases List.mem_cons.mp ha with rfl | ha
        · exact hp
        · exact hmin a ha hr
      · rintro ⟨he, hpe, hmin⟩
        rcases List.mem_cons.mp he with rfl | he
        · rw [hp] at hpe
          cases hpe
        · exact ⟨he, hpe, fun a ha => hmin a (List.mem_cons_of_mem _ ha)⟩

/-- Searching the entries upwards. -/
theorem find?_entries_eq_some_iff (m : OrdMap K V) {p : K × V → Bool} :
    m.entries.find? p = some e ↔
      e ∈ m.entries ∧ p e = true ∧ ∀ a ∈ m.entries, a.1 < e.1 → p a = false :=
  find?_eq_some_iff_of_pairwise (fun _ _ h => h.not_gt) m.sorted

/-- Searching the entries downwards. -/
theorem find?_reverse_eq_some_iff (m : OrdMap K V) {p : K × V → Bool} :
    m.entries.reverse.find? p = some e ↔
      e ∈ m.entries ∧ p e = true ∧ ∀ a ∈ m.entries, e.1 < a.1 → p a = false := by
  rw [find?_eq_some_iff_of_pairwise (r := fun a b : K × V => b.1 < a.1)
    (fun _ _ h => h.not_gt) (List.pairwise_reverse.mpr m.sorted)]
  simp only [List.mem_reverse]

/-! ### Lookup -/

variable {m : OrdMap K V}

/-- A lookup finds exactly the stored entry. -/
theorem get?_eq_some_iff : m.get? k = some v ↔ (k, v) ∈ m.entries := by
  unfold get?
  rw [Option.map_eq_some_iff]
  constructor
  · rintro ⟨⟨k', v'⟩, hfind, rfl⟩
    obtain ⟨hmem, hk, -⟩ := m.find?_entries_eq_some_iff.mp hfind
    simp only [decide_eq_true_eq] at hk
    exact hk ▸ hmem
  · intro hmem
    refine ⟨(k, v), m.find?_entries_eq_some_iff.mpr ⟨hmem, by simp, ?_⟩, rfl⟩
    intro a _ hlt
    simpa using hlt.ne

theorem get?_eq_none_iff : m.get? k = none ↔ ∀ v, (k, v) ∉ m.entries := by
  rw [Option.eq_none_iff_forall_ne_some]
  simp only [ne_eq, get?_eq_some_iff]

variable {m' : OrdMap K V}

/-- Two maps with the same lookups are equal. -/
theorem ext_get? (h : ∀ k, m.get? k = m'.get? k) : m = m' := by
  have hmem : ∀ e, e ∈ m.entries ↔ e ∈ m'.entries := by
    rintro ⟨k, v⟩
    rw [← get?_eq_some_iff, ← get?_eq_some_iff, h]
  -- equal as sets without repetition, both sorted: equal as lists
  have hnodup : ∀ m : OrdMap K V, m.entries.Nodup :=
    fun m => m.sorted.imp fun hlt heq => absurd (heq ▸ hlt) (lt_irrefl _)
  have hperm : m.entries.Perm m'.entries :=
    (List.perm_ext_iff_of_nodup (hnodup m) (hnodup m')).mpr hmem
  have heq : m.entries = m'.entries :=
    hperm.eq_of_pairwise (fun a b _ _ hab hba => absurd hab hba.not_gt) m.sorted m'.sorted
  cases m
  cases m'
  cases heq
  rfl

@[simp] theorem get?_empty (k : K) : (empty : OrdMap K V).get? k = none := rfl

theorem mem_insertEntry_of_ne (he : e.1 ≠ k) (h : e ∈ l) : e ∈ insertEntry k v l := by
  induction l with
  | nil => cases h
  | cons a rest ih =>
    rw [insertEntry]
    split_ifs with h₁ h₂
    · exact List.mem_cons_of_mem _ h
    · rcases List.mem_cons.mp h with rfl | h
      · exact absurd h₂.symm he
      · exact List.mem_cons_of_mem _ h
    · rcases List.mem_cons.mp h with rfl | h
      · exact List.mem_cons_self
      · exact List.mem_cons_of_mem _ (ih h)

theorem self_mem_insertEntry (k : K) (v : V) (l : List (K × V)) :
    (k, v) ∈ insertEntry k v l := by
  induction l with
  | nil => simp [insertEntry]
  | cons a rest ih =>
    rw [insertEntry]
    split_ifs
    · exact List.mem_cons_self
    · exact List.mem_cons_self
    · exact List.mem_cons_of_mem _ ih

@[simp] theorem get?_insert_self (m : OrdMap K V) (k : K) (v : V) :
    (m.insert k v).get? k = some v :=
  get?_eq_some_iff.mpr (self_mem_insertEntry k v m.entries)

@[simp] theorem get?_insert_of_ne (m : OrdMap K V) {k' : K} (v : V) (h : k' ≠ k) :
    (m.insert k v).get? k' = m.get? k' := by
  ext u
  rw [get?_eq_some_iff, get?_eq_some_iff]
  constructor
  · intro hmem
    rcases mem_insertEntry_imp hmem with heq | hmem
    · exact absurd (congrArg Prod.fst heq) h
    · exact hmem
  · exact mem_insertEntry_of_ne h

theorem get?_insert (m : OrdMap K V) (k k' : K) (v : V) :
    (m.insert k v).get? k' = if k' = k then some v else m.get? k' := by
  split_ifs with h
  · rw [h, get?_insert_self]
  · exact get?_insert_of_ne m v h

theorem get?_erase (m : OrdMap K V) (k k' : K) :
    (m.erase k).get? k' = if k' = k then none else m.get? k' := by
  ext u
  rw [get?_eq_some_iff]
  split_ifs with h
  · simp [erase, h]
  · rw [get?_eq_some_iff]
    simp [erase, h]

theorem get?_foldl_erase_eq_some_iff (m : OrdMap K V) {ks : List K} :
    (ks.foldl erase m).get? k = some v ↔ k ∉ ks ∧ m.get? k = some v := by
  induction ks generalizing m with
  | nil => simp
  | cons k' rest ih =>
    rw [List.foldl_cons, ih, get?_erase]
    by_cases hk : k = k' <;> simp [hk]

theorem get?_update (m : OrdMap K V) (k k' : K) (f : V → V) :
    (m.update k f).get? k' = if k' = k then (m.get? k).map f else m.get? k' := by
  unfold update
  cases hk : m.get? k with
  | some v => exact get?_insert m k k' (f v)
  | none =>
    split_ifs with h
    · rw [h, hk]
      rfl
    · rfl

theorem get?_mapValues (m : OrdMap K V) (f : K → V → V) (k : K) :
    (m.mapValues f).get? k = (m.get? k).map (f k) := by
  apply Option.ext
  intro v
  rw [get?_eq_some_iff, Option.map_eq_some_iff]
  simp only [mapValues, List.mem_map, Prod.mk.injEq, Prod.exists, get?_eq_some_iff]
  constructor
  · rintro ⟨k', v', hmem, rfl, rfl⟩
    exact ⟨v', hmem, rfl⟩
  · rintro ⟨v', hmem, rfl⟩
    exact ⟨k, v', hmem, rfl, rfl⟩

theorem mem_keys : k ∈ m.keys ↔ ∃ v, m.get? k = some v := by
  simp only [keys, List.mem_map, get?_eq_some_iff]
  constructor
  · rintro ⟨⟨k', v⟩, hmem, rfl⟩
    exact ⟨v, hmem⟩
  · rintro ⟨v, hmem⟩
    exact ⟨(k, v), hmem, rfl⟩

variable {p : V → Bool}

theorem all_eq_true_iff : m.all p = true ↔ ∀ k v, m.get? k = some v → p v = true := by
  simp only [all, List.all_eq_true, get?_eq_some_iff, Prod.forall]

/-! ### Range queries -/

variable {j : K}

theorem nextKey_eq_some_iff :
    m.nextKey k = some j ↔
      (∃ v, m.get? j = some v) ∧ k < j ∧ ∀ i v, m.get? i = some v → k < i → j ≤ i := by
  unfold nextKey
  rw [Option.map_eq_some_iff]
  simp only [find?_entries_eq_some_iff, decide_eq_true_eq, decide_eq_false_iff_not,
    get?_eq_some_iff]
  constructor
  · rintro ⟨⟨j', v⟩, ⟨hmem, hlt, hmin⟩, rfl⟩
    refine ⟨⟨v, hmem⟩, hlt, ?_⟩
    intro i u hi hki
    exact not_lt.mp fun hij => hmin (i, u) hi hij hki
  · rintro ⟨⟨v, hmem⟩, hlt, hmin⟩
    refine ⟨(j, v), ⟨hmem, hlt, ?_⟩, rfl⟩
    rintro ⟨i, u⟩ hi hij hki
    exact absurd (hmin i u hi hki) hij.not_ge

theorem nextKey_eq_none_iff : m.nextKey k = none ↔ ∀ i v, m.get? i = some v → i ≤ k := by
  simp [nextKey, get?_eq_some_iff]

theorem previousKey_eq_some_iff :
    m.previousKey k = some j ↔
      (∃ v, m.get? j = some v) ∧ j < k ∧ ∀ i v, m.get? i = some v → i < k → i ≤ j := by
  unfold previousKey
  rw [Option.map_eq_some_iff]
  simp only [find?_reverse_eq_some_iff, decide_eq_true_eq, decide_eq_false_iff_not,
    get?_eq_some_iff]
  constructor
  · rintro ⟨⟨j', v⟩, ⟨hmem, hlt, hmax⟩, rfl⟩
    refine ⟨⟨v, hmem⟩, hlt, ?_⟩
    intro i u hi hik
    exact not_lt.mp fun hij => hmax (i, u) hi hij hik
  · rintro ⟨⟨v, hmem⟩, hlt, hmax⟩
    refine ⟨(j, v), ⟨hmem, hlt, ?_⟩, rfl⟩
    rintro ⟨i, u⟩ hi hji hik
    exact absurd (hmax i u hi hik) hji.not_ge

theorem previousKey_eq_none_iff : m.previousKey k = none ↔ ∀ i v, m.get? i = some v → k ≤ i := by
  simp [previousKey, get?_eq_some_iff]

theorem lastKey_eq_some_iff :
    m.lastKey = some j ↔
      (∃ v, m.get? j = some v) ∧ ∀ i v, m.get? i = some v → i ≤ j := by
  unfold lastKey
  rw [Option.map_eq_some_iff]
  simp only [find?_reverse_eq_some_iff, get?_eq_some_iff]
  constructor
  · rintro ⟨⟨j', v⟩, ⟨hmem, -, hmax⟩, rfl⟩
    refine ⟨⟨v, hmem⟩, ?_⟩
    intro i u hi
    exact not_lt.mp fun hij => absurd (hmax (i, u) hi hij) (by simp)
  · rintro ⟨⟨v, hmem⟩, hmax⟩
    refine ⟨(j, v), ⟨hmem, trivial, ?_⟩, rfl⟩
    rintro ⟨i, u⟩ hi hji
    exact absurd (hmax i u hi) hji.not_ge

theorem lastKey_eq_none_iff : m.lastKey = none ↔ ∀ k, m.get? k = none := by
  simp only [lastKey, Option.map_eq_none_iff, get?_eq_none_iff]
  constructor
  · intro h k v hmem
    have := List.find?_eq_none.mp h (k, v) (List.mem_reverse.mpr hmem)
    exact this rfl
  · intro h
    exact List.find?_eq_none.mpr fun e he => absurd (List.mem_reverse.mp he) (h e.1 e.2)

theorem findFrom_eq_some_iff :
    m.findFrom k p = some (j, v) ↔
      m.get? j = some v ∧ k ≤ j ∧ p v = true ∧
        ∀ i u, m.get? i = some u → k ≤ i → i < j → p u = false := by
  unfold findFrom
  simp only [find?_entries_eq_some_iff, Bool.and_eq_true, decide_eq_true_eq,
    Bool.and_eq_false_iff, decide_eq_false_iff_not, get?_eq_some_iff, Prod.forall]
  constructor
  · rintro ⟨hmem, ⟨hkj, hp⟩, hmin⟩
    exact ⟨hmem, hkj, hp, fun i u hi hki hij => (hmin i u hi hij).resolve_left fun h => h hki⟩
  · rintro ⟨hmem, hkj, hp, hmin⟩
    refine ⟨hmem, ⟨hkj, hp⟩, ?_⟩
    intro i u hi hij
    by_cases hki : k ≤ i
    · exact .inr (hmin i u hi hki hij)
    · exact .inl hki

theorem findFrom_eq_none_iff :
    m.findFrom k p = none ↔ ∀ i u, m.get? i = some u → k ≤ i → p u = false := by
  simp [findFrom, get?_eq_some_iff]

theorem findDownFrom_eq_some_iff :
    m.findDownFrom k p = some (j, v) ↔
      m.get? j = some v ∧ j ≤ k ∧ p v = true ∧
        ∀ i u, m.get? i = some u → i ≤ k → j < i → p u = false := by
  unfold findDownFrom
  simp only [find?_reverse_eq_some_iff, Bool.and_eq_true, decide_eq_true_eq,
    Bool.and_eq_false_iff, decide_eq_false_iff_not, get?_eq_some_iff, Prod.forall]
  constructor
  · rintro ⟨hmem, ⟨hjk, hp⟩, hmax⟩
    exact ⟨hmem, hjk, hp, fun i u hi hik hji => (hmax i u hi hji).resolve_left fun h => h hik⟩
  · rintro ⟨hmem, hjk, hp, hmax⟩
    refine ⟨hmem, ⟨hjk, hp⟩, ?_⟩
    intro i u hi hji
    by_cases hik : i ≤ k
    · exact .inr (hmax i u hi hik hji)
    · exact .inl hik

theorem findDownFrom_eq_none_iff :
    m.findDownFrom k p = none ↔ ∀ i u, m.get? i = some u → i ≤ k → p u = false := by
  simp [findDownFrom, get?_eq_some_iff]

/-! ### Walking a map key by key

A cursor loop tests the entry at its key and otherwise moves to the next (or
previous) key.  These lemmas say that such a loop computes `findFrom` (or
`findDownFrom`), and that each move leaves strictly fewer keys to visit. -/

theorem findFrom_self (hget : m.get? k = some v) (hp : p v = true) : m.findFrom k p = some (k, v) :=
  findFrom_eq_some_iff.mpr ⟨hget, le_rfl, hp, fun _ _ _ hki hik => absurd hik hki.not_gt⟩

theorem findFrom_next (hp : ∀ v, m.get? k = some v → p v = false) :
    m.findFrom k p = (m.nextKey k).bind fun n => m.findFrom n p := by
  cases hnext : m.nextKey k with
  | none =>
    rw [Option.bind_none, findFrom_eq_none_iff]
    intro i u hi hki
    obtain rfl : i = k := le_antisymm (nextKey_eq_none_iff.mp hnext i u hi) hki
    exact hp u hi
  | some n =>
    obtain ⟨-, hkn, hmin⟩ := nextKey_eq_some_iff.mp hnext
    -- a key at or after `k` is `k` itself or at or after its successor
    have hsplit : ∀ i u, m.get? i = some u → k ≤ i → i = k ∨ n ≤ i := by
      intro i u hi hki
      rcases hki.eq_or_lt with h | h
      · exact .inl h.symm
      · exact .inr (hmin i u hi h)
    rw [Option.bind_some]
    ext ⟨j, v⟩
    rw [findFrom_eq_some_iff, findFrom_eq_some_iff]
    constructor
    · rintro ⟨hj, hkj, hpv, hfirst⟩
      have hnj : n ≤ j := by
        rcases hsplit j v hj hkj with rfl | h
        · rw [hp v hj] at hpv
          cases hpv
        · exact h
      exact ⟨hj, hnj, hpv, fun i u hi hni => hfirst i u hi (hkn.le.trans hni)⟩
    · rintro ⟨hj, hnj, hpv, hfirst⟩
      refine ⟨hj, hkn.le.trans hnj, hpv, ?_⟩
      intro i u hi hki hij
      rcases hsplit i u hi hki with rfl | h
      · exact hp u hi
      · exact hfirst i u hi h hij

theorem findDownFrom_self (hget : m.get? k = some v) (hp : p v = true) :
    m.findDownFrom k p = some (k, v) :=
  findDownFrom_eq_some_iff.mpr ⟨hget, le_rfl, hp, fun _ _ _ hik hki => absurd hki hik.not_gt⟩

theorem findDownFrom_previous (hp : ∀ v, m.get? k = some v → p v = false) :
    m.findDownFrom k p = (m.previousKey k).bind fun n => m.findDownFrom n p := by
  cases hprev : m.previousKey k with
  | none =>
    rw [Option.bind_none, findDownFrom_eq_none_iff]
    intro i u hi hik
    obtain rfl : i = k := le_antisymm hik (previousKey_eq_none_iff.mp hprev i u hi)
    exact hp u hi
  | some n =>
    obtain ⟨-, hnk, hmax⟩ := previousKey_eq_some_iff.mp hprev
    -- a key at or before `k` is `k` itself or at or before its predecessor
    have hsplit : ∀ i u, m.get? i = some u → i ≤ k → i = k ∨ i ≤ n := by
      intro i u hi hik
      rcases hik.eq_or_lt with h | h
      · exact .inl h
      · exact .inr (hmax i u hi h)
    rw [Option.bind_some]
    ext ⟨j, v⟩
    rw [findDownFrom_eq_some_iff, findDownFrom_eq_some_iff]
    constructor
    · rintro ⟨hj, hjk, hpv, hlast⟩
      have hjn : j ≤ n := by
        rcases hsplit j v hj hjk with rfl | h
        · rw [hp v hj] at hpv
          cases hpv
        · exact h
      exact ⟨hj, hjn, hpv, fun i u hi hin => hlast i u hi (hin.trans hnk.le)⟩
    · rintro ⟨hj, hjn, hpv, hlast⟩
      refine ⟨hj, hjn.trans hnk.le, hpv, ?_⟩
      intro i u hi hik hji
      rcases hsplit i u hi hik with rfl | h
      · exact hp u hi
      · exact hlast i u hi h hji

/-- The number of entries whose key passes a test. -/
def countKeys (m : OrdMap K V) (q : K → Bool) : ℕ := m.entries.countP fun e => q e.1

theorem countKeys_le_size (m : OrdMap K V) (q : K → Bool) : m.countKeys q ≤ m.size :=
  List.countP_le_length

/-- Dropping a stored key from the counted set lowers the count. -/
theorem countKeys_lt {q q' : K → Bool} (hsub : ∀ k, q' k → q k) (hget : m.get? k = some v)
    (hq : q k = true) (hq' : q' k = false) : m.countKeys q' < m.countKeys q := by
  -- the smaller set is counted inside the larger one
  have hfilter : (m.entries.filter fun e => q e.1).filter (fun e => q' e.1)
      = m.entries.filter fun e => q' e.1 := by
    rw [List.filter_filter]
    refine List.filter_congr fun e _ => ?_
    cases h : q' e.1 with
    | false => simp
    | true => simp [hsub e.1 h]
  unfold countKeys
  rw [List.countP_eq_length_filter, List.countP_eq_length_filter, ← hfilter,
    List.length_filter_lt_length_iff_exists]
  exact ⟨(k, v), List.mem_filter.mpr ⟨get?_eq_some_iff.mp hget, hq⟩, by simp [hq']⟩

theorem countKeys_nextKey_lt {n : K} (h : m.nextKey k = some n) :
    (m.countKeys fun i => n < i) < m.countKeys fun i => k < i := by
  obtain ⟨⟨v, hn⟩, hkn, -⟩ := nextKey_eq_some_iff.mp h
  refine countKeys_lt (fun i hi => ?_) hn (by simpa using hkn) (by simp)
  simp only [decide_eq_true_eq] at hi ⊢
  exact hkn.trans hi

theorem countKeys_previousKey_lt {n : K} (h : m.previousKey k = some n) :
    (m.countKeys fun i => i < n) < m.countKeys fun i => i < k := by
  obtain ⟨⟨v, hn⟩, hnk, -⟩ := previousKey_eq_some_iff.mp h
  refine countKeys_lt (fun i hi => ?_) hn (by simpa using hnk) (by simp)
  simp only [decide_eq_true_eq] at hi ⊢
  exact hi.trans hnk

/-! ### Sums over the entries -/

/-- The weight of what is stored at a key; nothing weighs nothing. -/
def weightAt (m : OrdMap K V) (w : K → V → ℕ) (k : K) : ℕ := (m.get? k).elim 0 (w k)

variable {w : K → V → ℕ}

theorem weightAt_of_some (h : m.get? k = some v) : m.weightAt w k = w k v := by
  simp [weightAt, h]

theorem weightAt_of_none (h : m.get? k = none) : m.weightAt w k = 0 := by
  simp [weightAt, h]

theorem keys_nodup (m : OrdMap K V) : m.keys.Nodup :=
  List.Nodup.map_on (fun e he e' he' hk => by
    have h : m.get? e.1 = some e.2 := get?_eq_some_iff.mpr he
    have h' : m.get? e.1 = some e'.2 := hk ▸ get?_eq_some_iff.mpr he'
    exact Prod.ext hk (Option.some.inj (h.symm.trans h')))
    (m.sorted.imp fun hlt heq => hlt.ne (congrArg Prod.fst heq))

/-- The sum over the entries is a sum over any finite set that has the keys. -/
theorem sumBy_eq_sum (m : OrdMap K V) (w : K → V → ℕ) {t : Finset K} (ht : m.keys.toFinset ⊆ t) :
    m.sumBy w = ∑ k ∈ t, m.weightAt w k := by
  have hentries : m.sumBy w = (m.keys.map (m.weightAt w)).sum := by
    unfold sumBy keys
    rw [List.map_map]
    congr 1
    refine List.map_congr_left fun e he => ?_
    exact (weightAt_of_some (get?_eq_some_iff.mpr he)).symm
  have houtside : ∀ k ∈ t, k ∉ m.keys.toFinset → m.weightAt w k = 0 := by
    intro k _ hk
    rw [List.mem_toFinset, mem_keys, not_exists] at hk
    exact weightAt_of_none (Option.eq_none_iff_forall_ne_some.mpr hk)
  calc m.sumBy w = (m.keys.map (m.weightAt w)).sum := hentries
    _ = ∑ k ∈ m.keys.toFinset, m.weightAt w k := (List.sum_toFinset _ m.keys_nodup).symm
    _ = ∑ k ∈ t, m.weightAt w k := Finset.sum_subset ht houtside

/-- A sum that is dominated at every key is dominated. -/
theorem sumBy_le_sumBy {w' : K → V → ℕ} (h : ∀ k, m'.weightAt w' k ≤ m.weightAt w k) :
    m'.sumBy w' ≤ m.sumBy w := by
  have hsub : m.keys.toFinset ⊆ m.keys.toFinset ∪ m'.keys.toFinset := Finset.subset_union_left
  have hsub' : m'.keys.toFinset ⊆ m.keys.toFinset ∪ m'.keys.toFinset := Finset.subset_union_right
  rw [m'.sumBy_eq_sum w' hsub', m.sumBy_eq_sum w hsub]
  exact Finset.sum_le_sum fun k _ => h k

/-- It is dominated strictly if it is so at one key. -/
theorem sumBy_lt_sumBy {w' : K → V → ℕ} (h : ∀ k, m'.weightAt w' k ≤ m.weightAt w k)
    (hk : m'.weightAt w' k < m.weightAt w k) : m'.sumBy w' < m.sumBy w := by
  -- a key that outweighs another value is stored
  have hmem : k ∈ m.keys.toFinset := by
    rw [List.mem_toFinset, mem_keys]
    by_contra hnone
    rw [weightAt_of_none (Option.eq_none_iff_forall_ne_some.mpr (not_exists.mp hnone))] at hk
    omega
  have hsub : m.keys.toFinset ⊆ m.keys.toFinset ∪ m'.keys.toFinset := Finset.subset_union_left
  have hsub' : m'.keys.toFinset ⊆ m.keys.toFinset ∪ m'.keys.toFinset := Finset.subset_union_right
  rw [m'.sumBy_eq_sum w' hsub', m.sumBy_eq_sum w hsub]
  exact Finset.sum_lt_sum (fun k _ => h k) ⟨k, Finset.mem_union_left _ hmem, hk⟩

end OrdMap
