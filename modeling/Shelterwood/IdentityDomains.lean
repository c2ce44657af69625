/-
Shelterwood/IdentityDomains.lean

Identity domains: who owns a membership lineage, and what an order between two
memberships means.

A lineage is minted once, from a counter all domains share, and handed out with
its first membership.  A declaration-time domain mints one membership for each id
it declares and offers it to a stable domain, which either adopts its lineage or
mints the successor of the one it tracks.  An eviction forgets a lineage.  So at
every moment a lineage is tracked by at most one stable domain, for one id, or is
still on offer, and once forgotten it never comes back.  Distinctness and order
follow from that.
-/
import Shelterwood.Identity
import Shelterwood.Trace
import Mathlib.Data.Nat.Basic
import Mathlib.Logic.Function.Basic
import Mathlib.Order.RelClasses

namespace Shelterwood

/-! ### Fences -/

/-- `self` replaced `other` under the same child id and stable owning scope. -/
def Membership.supersedes (self other : Membership) : Bool :=
  self.lineage = other.lineage && other.generation < self.generation

/-- `self` is a newer incarnation of `other`. -/
def Incarnation.supersedes (self other : Incarnation) : Bool :=
  self.membership = other.membership && other.generation < self.generation

/-- A source of the memberships of one lineage. -/
structure FenceCounter where
  lineage : ℕ
  generations : MonotonicCounter
  deriving DecidableEq, Repr

namespace FenceCounter

def new (lineage : ℕ) : FenceCounter := ⟨lineage, .new⟩

def fromFence (fence : Membership) : FenceCounter := ⟨fence.lineage, ⟨fence.generation⟩⟩

def mint (c : FenceCounter) : Except Fault (Membership × FenceCounter) :=
  match c.generations.mint with
  | .ok (generation, generations) => .ok (⟨c.lineage, generation⟩, { c with generations })
  | .error fault => .error fault

def issued (c : FenceCounter) : Membership := ⟨c.lineage, c.generations.current⟩

/-- The counter after a mint. -/
def next (c : FenceCounter) : FenceCounter := ⟨c.lineage, ⟨c.generations.current + 1⟩⟩

theorem mint_eq_ok {c c' : FenceCounter} {membership : Membership}
    (h : c.mint = .ok (membership, c')) : c' = c.next ∧ membership = c.next.issued := by
  unfold mint at h
  cases hmint : c.generations.mint with
  | error fault =>
    rw [hmint] at h
    cases h
  | ok minted =>
    obtain ⟨generation, generations⟩ := minted
    rw [hmint] at h
    obtain ⟨rfl, rfl, -⟩ := MonotonicCounter.mint_eq_ok_iff.mp hmint
    cases h
    exact ⟨rfl, rfl⟩

end FenceCounter

/-- Linear authority to reconcile one declaration-time membership. -/
structure ProvisionalMembership where
  id : ChildId
  membership : Membership
  deriving DecidableEq, Repr

/-- An inseparable identity grant. -/
structure MintedMembership where
  provisional : ProvisionalMembership
  incarnationCounter : IncarnationCounter
  deriving DecidableEq, Repr

def MintedMembership.new (id : ChildId) (membership : Membership) : MintedMembership :=
  ⟨⟨id, membership⟩, ⟨membership, .new⟩⟩

inductive MembershipReconciliation
  | adopted
  | minted (identity : MintedMembership)
  deriving DecidableEq, Repr

/-- The identity domain owned by one scope membership. -/
structure ScopeIdentity where
  memberships : ChildId → Option FenceCounter

namespace ScopeIdentity

def new : ScopeIdentity := ⟨fun _ => none⟩

def set (s : ScopeIdentity) (id : ChildId) (counter : Option FenceCounter) : ScopeIdentity :=
  ⟨Function.update s.memberships id counter⟩

/-- A counter for a lineage of its own. -/
def freshCounter (lineages : MonotonicCounter) : Except Fault (FenceCounter × MonotonicCounter) :=
  match lineages.mint with
  | .ok (lineage, lineages) => .ok (.new lineage, lineages)
  | .error fault => .error fault

/-- The counter of an id, a fresh one if the id is not tracked. -/
def counterFor (s : ScopeIdentity) (id : ChildId) (lineages : MonotonicCounter) :
    Except Fault (FenceCounter × MonotonicCounter) :=
  match s.memberships id with
  | some counter => .ok (counter, lineages)
  | none => freshCounter lineages

/-- Mints a membership; `lineages` is the counter all domains share. -/
def mintMembership (s : ScopeIdentity) (id : ChildId) (lineages : MonotonicCounter) :
    Except Fault (MintedMembership × ScopeIdentity × MonotonicCounter) :=
  match s.counterFor id lineages with
  | .error fault => .error fault
  | .ok (counter, lineages) =>
    match counter.mint with
    | .error fault => .error fault
    | .ok (fence, counter) => .ok (.new id fence, s.set id (some counter), lineages)

/-- Reconciles a declaration-time membership with this stable scope. -/
def adoptOrMintMembership (s : ScopeIdentity) (provisional : ProvisionalMembership) :
    Except Fault (MembershipReconciliation × ScopeIdentity) :=
  match s.memberships provisional.id with
  | some counter =>
    match counter.mint with
    | .error fault => .error fault
    | .ok (membership, counter) =>
      .ok (.minted (.new provisional.id membership), s.set provisional.id (some counter))
  | none => .ok (.adopted, s.set provisional.id (some (.fromFence provisional.membership)))

def evict (s : ScopeIdentity) (id : ChildId) (membership : Membership) : ScopeIdentity :=
  match s.memberships id with
  | some counter => if counter.issued = membership then s.set id none else s
  | none => s

end ScopeIdentity

/-! ### Families of domains -/

/-- The identity state of a process with domains `D`. -/
structure IdentityWorld (D : Type*) where
  /-- The counter all domains share. -/
  lineages : MonotonicCounter
  domains : D → ScopeIdentity
  /-- What was minted and not yet reconciled, with the domain it came from. -/
  provisionals : List (D × ProvisionalMembership)
  /-- The counters handed out with the memberships. -/
  counters : List IncarnationCounter

inductive IdentityStep (D : Type*)
  | mint (d : D) (id : ChildId)
  | adoptOrMint (d source : D) (provisional : ProvisionalMembership)
  | evict (d : D) (id : ChildId) (membership : Membership)
  | incarnate (k : ℕ)
  deriving DecidableEq

def IdentityStep.mints {D : Type*} [DecidableEq D] (d : D) (id : ChildId) : IdentityStep D → Bool
  | .mint d' id' => d' = d && id' = id
  | _ => false

inductive IdentityOutput
  | issued (membership : Membership)
  | adopted
  | evicted
  | incarnation (incarnation : Incarnation)
  deriving DecidableEq, Repr

variable {D : Type*} [DecidableEq D]

namespace IdentityWorld

def new : IdentityWorld D := ⟨.new, fun _ => .new, [], []⟩

def setDomain (w : IdentityWorld D) (d : D) (s : ScopeIdentity) : IdentityWorld D :=
  { w with domains := Function.update w.domains d s }

/-- Hands out a grant. -/
def issue (w : IdentityWorld D) (d : D) (identity : MintedMembership) : IdentityWorld D :=
  { w with
    provisionals := w.provisionals ++ [(d, identity.provisional)]
    counters := w.counters ++ [identity.incarnationCounter] }

end IdentityWorld

/-- One operation.  A provisional token can be reconciled once, and a step that
exhausts a counter aborts the process. -/
def IdentityStep.apply (w : IdentityWorld D) :
    IdentityStep D → Option (IdentityWorld D × IdentityOutput)
  | .mint d id =>
    match (w.domains d).mintMembership id w.lineages with
    | .error _ => none
    | .ok (identity, s, lineages) =>
      some (({ w with lineages }.setDomain d s).issue d identity,
        .issued identity.provisional.membership)
  | .adoptOrMint d source provisional =>
    if (source, provisional) ∈ w.provisionals then
      match (w.domains d).adoptOrMintMembership provisional with
      | .error _ => none
      | .ok (.adopted, s) =>
        some ({ w with provisionals := w.provisionals.erase (source, provisional) }.setDomain
          d s, .adopted)
      | .ok (.minted identity, s) =>
        some (({ w with provisionals := w.provisionals.erase (source, provisional) }.setDomain
          d s).issue d identity, .issued identity.provisional.membership)
    else none
  | .evict d id membership =>
    some (w.setDomain d ((w.domains d).evict id membership), .evicted)
  | .incarnate k =>
    match w.counters[k]? with
    | none => none
    | some counter =>
      match counter.mint with
      | .error _ => none
      | .ok (incarnation, counter) =>
        some ({ w with counters := w.counters.set k counter }, .incarnation incarnation)

abbrev IdentityEdge (D : Type*) := Edge (IdentityWorld D) (IdentityStep D) IdentityOutput

def IdentityRun : List (IdentityEdge D) → IdentityWorld D → Prop :=
  Run (stepEdge fun w step => IdentityStep.apply w step) .new

namespace IdentityEdge

/-- The membership an operation issued. -/
def issued (e : IdentityEdge D) : Option Membership :=
  match e.output with
  | .issued membership => some membership
  | _ => none

/-- The membership an operation gave a domain for an id: one it minted, or the
one it adopted. -/
def grant (e : IdentityEdge D) : Option (D × ChildId × Membership) :=
  match e.input, e.output with
  | .mint d id, .issued membership => some (d, id, membership)
  | .adoptOrMint d _ provisional, .issued membership => some (d, provisional.id, membership)
  | .adoptOrMint d _ provisional, .adopted => some (d, provisional.id, provisional.membership)
  | _, _ => none

/-- The grants of one domain for one id. -/
def grantTo (d : D) (id : ChildId) (e : IdentityEdge D) : Option Membership :=
  match e.grant with
  | some (d', id', membership) => if d' = d ∧ id' = id then some membership else none
  | none => none

/-- The operation is a mint of the id by the domain. -/
def mints (d : D) (id : ChildId) (e : IdentityEdge D) : Bool := e.input.mints d id

/-- The operation forgets the lineage the domain tracks for the id. -/
def evicts (d : D) (id : ChildId) (e : IdentityEdge D) : Bool :=
  match e.input with
  | .evict d' id' _ =>
    d' = d && id' = id && ((e.before.domains d).memberships id).isSome &&
      ((e.after.domains d).memberships id).isNone
  | _ => false

end IdentityEdge

/-- What the builders guarantee: only what declaration-time domains minted is
reconciled, by stable domains, and a declaration-time domain mints an id once. -/
structure Disciplined (declares : D → Bool) (tr : List (IdentityEdge D)) : Prop where
  donors : ∀ e ∈ tr, ∀ d source provisional, e.input = .adoptOrMint d source provisional →
    declares source = true ∧ declares d = false
  once : ∀ d id, declares d = true → tr.countP (IdentityEdge.mints d id) ≤ 1

/-! ### What one operation does -/

namespace IdentityWorld

/-- The counter a domain tracks for an id. -/
def entry (w : IdentityWorld D) (d : D) (id : ChildId) : Option FenceCounter :=
  (w.domains d).memberships id

/-- The domains with one entry replaced. -/
def setEntry (w : IdentityWorld D) (d : D) (id : ChildId) (counter : Option FenceCounter) :
    IdentityWorld D := w.setDomain d ((w.domains d).set id counter)

variable (w : IdentityWorld D) (d : D) (id : ChildId) (counter : Option FenceCounter)

theorem entry_setEntry (d' : D) (id' : ChildId) :
    (w.setEntry d id counter).entry d' id' =
      if d' = d ∧ id' = id then counter else w.entry d' id' := by
  by_cases hd : d' = d
  · subst hd
    by_cases hid : id' = id
    · subst hid
      simp [entry, setEntry, setDomain, ScopeIdentity.set]
    · simp [entry, setEntry, setDomain, ScopeIdentity.set, hid]
  · simp [entry, setEntry, setDomain, hd]

theorem entry_setEntry_self : (w.setEntry d id counter).entry d id = counter := by
  rw [entry_setEntry, if_pos ⟨rfl, rfl⟩]

omit [DecidableEq D] in
@[simp] theorem entry_issue (identity : MintedMembership) (d' : D) (id' : ChildId) :
    (w.issue d identity).entry d' id' = w.entry d' id' := rfl

end IdentityWorld

/-- The operations, by what they do. -/
inductive IdentityMove (w : IdentityWorld D) :
    IdentityStep D → IdentityOutput → IdentityWorld D → Prop
  | mintNext {d : D} {id : ChildId} {c : FenceCounter} : w.entry d id = some c →
      IdentityMove w (.mint d id) (.issued c.next.issued)
        ((w.setEntry d id (some c.next)).issue d (.new id c.next.issued))
  | mintFresh {d : D} {id : ChildId} {lineage : ℕ} : w.entry d id = none →
      lineage = w.lineages.current + 1 →
      IdentityMove w (.mint d id) (.issued ⟨lineage, 1⟩)
        (({ w with lineages := ⟨lineage⟩ }.setEntry d id (some ⟨lineage, ⟨1⟩⟩)).issue d
          (.new id ⟨lineage, 1⟩))
  | adopt {d source : D} {p : ProvisionalMembership} : (source, p) ∈ w.provisionals →
      w.entry d p.id = none →
      IdentityMove w (.adoptOrMint d source p) .adopted
        ({ w with provisionals := w.provisionals.erase (source, p) }.setEntry d p.id
          (some (.fromFence p.membership)))
  | adoptNext {d source : D} {p : ProvisionalMembership} {c : FenceCounter} :
      (source, p) ∈ w.provisionals → w.entry d p.id = some c →
      IdentityMove w (.adoptOrMint d source p) (.issued c.next.issued)
        (({ w with provisionals := w.provisionals.erase (source, p) }.setEntry d p.id
          (some c.next)).issue d (.new p.id c.next.issued))
  | evict {d : D} {id : ChildId} {c : FenceCounter} : w.entry d id = some c →
      IdentityMove w (.evict d id c.issued) .evicted (w.setEntry d id none)
  | ignore {d : D} {id : ChildId} {membership : Membership} :
      (∀ c, w.entry d id = some c → c.issued ≠ membership) →
      IdentityMove w (.evict d id membership) .evicted w
  | incarnate {k : ℕ} {c : IncarnationCounter} : w.counters[k]? = some c →
      IdentityMove w (.incarnate k) (.incarnation ⟨c.membership, c.generations.current + 1⟩)
        { w with counters := w.counters.set k ⟨c.membership, ⟨c.generations.current + 1⟩⟩ }

section Moves

variable {w w' : IdentityWorld D} {output : IdentityOutput}

theorem identityMove_mint {d : D} {id : ChildId}
    (h : IdentityStep.apply w (.mint d id) = some (w', output)) :
    IdentityMove w (.mint d id) output w' := by
  simp only [IdentityStep.apply, ScopeIdentity.mintMembership, ScopeIdentity.counterFor] at h
  cases hentry : (w.domains d).memberships id with
  | some c =>
    simp only [hentry] at h
    cases hmint : c.mint with
    | error fault =>
      rw [hmint] at h
      cases h
    | ok minted =>
      obtain ⟨membership, c'⟩ := minted
      obtain ⟨rfl, rfl⟩ := FenceCounter.mint_eq_ok hmint
      rw [hmint] at h
      cases h
      exact .mintNext hentry
  | none =>
    simp only [hentry, ScopeIdentity.freshCounter] at h
    cases hlineage : w.lineages.mint with
    | error fault =>
      rw [hlineage] at h
      cases h
    | ok minted =>
      obtain ⟨lineage, lineages⟩ := minted
      obtain ⟨hfresh, rfl, -⟩ := MonotonicCounter.mint_eq_ok_iff.mp hlineage
      rw [hlineage] at h
      cases h
      exact .mintFresh hentry hfresh

theorem identityMove_adoptOrMint {d source : D} {p : ProvisionalMembership}
    (h : IdentityStep.apply w (.adoptOrMint d source p) = some (w', output)) :
    IdentityMove w (.adoptOrMint d source p) output w' := by
  simp only [IdentityStep.apply, ScopeIdentity.adoptOrMintMembership] at h
  split_ifs at h with hoffered
  cases hentry : (w.domains d).memberships p.id with
  | none =>
    simp only [hentry] at h
    cases h
    exact .adopt hoffered hentry
  | some c =>
    simp only [hentry] at h
    cases hmint : c.mint with
    | error fault =>
      rw [hmint] at h
      cases h
    | ok minted =>
      obtain ⟨membership, c'⟩ := minted
      obtain ⟨rfl, rfl⟩ := FenceCounter.mint_eq_ok hmint
      rw [hmint] at h
      cases h
      exact .adoptNext hoffered hentry

theorem setDomain_self (w : IdentityWorld D) (d : D) : w.setDomain d (w.domains d) = w := by
  simp [IdentityWorld.setDomain]

theorem identityMove_evict {d : D} {id : ChildId} {membership : Membership}
    (h : IdentityStep.apply w (.evict d id membership) = some (w', output)) :
    IdentityMove w (.evict d id membership) output w' := by
  simp only [IdentityStep.apply, ScopeIdentity.evict] at h
  cases hentry : (w.domains d).memberships id with
  | none =>
    simp only [hentry, setDomain_self] at h
    cases h
    exact .ignore fun c hc => by cases hentry.symm.trans hc
  | some c =>
    simp only [hentry] at h
    by_cases hissued : c.issued = membership
    · rw [if_pos hissued] at h
      cases h
      subst hissued
      exact .evict hentry
    · rw [if_neg hissued, setDomain_self] at h
      cases h
      exact .ignore fun c' hc => by cases hentry.symm.trans hc; exact hissued

theorem identityMove_incarnate {k : ℕ}
    (h : IdentityStep.apply w (.incarnate k) = some (w', output)) :
    IdentityMove w (.incarnate k) output w' := by
  simp only [IdentityStep.apply, IncarnationCounter.mint] at h
  cases hcounter : w.counters[k]? with
  | none =>
    rw [hcounter] at h
    cases h
  | some c =>
    simp only [hcounter] at h
    cases hmint : c.generations.mint with
    | error fault =>
      rw [hmint] at h
      cases h
    | ok minted =>
      obtain ⟨generation, generations⟩ := minted
      obtain ⟨rfl, rfl, -⟩ := MonotonicCounter.mint_eq_ok_iff.mp hmint
      rw [hmint] at h
      cases h
      exact .incarnate hcounter

theorem identityMove_of_edge {e : IdentityEdge D}
    (he : stepEdge IdentityStep.apply e) :
    IdentityMove e.before e.input e.output e.after := by
  obtain ⟨w, step, output, w'⟩ := e
  cases step with
  | mint d id => exact identityMove_mint he
  | adoptOrMint d source p => exact identityMove_adoptOrMint he
  | evict d id membership => exact identityMove_evict he
  | incarnate k => exact identityMove_incarnate he

end Moves

namespace IdentityMove

variable {w w' : IdentityWorld D} {step : IdentityStep D} {output : IdentityOutput}

theorem lineages_le (h : IdentityMove w step output w') :
    w.lineages.current ≤ w'.lineages.current := by
  cases h with
  | mintFresh _ hfresh =>
    rw [hfresh]
    exact Nat.le_succ _
  | _ => exact Nat.le_refl _

/-- Where an entry comes from: it was there, perhaps one generation earlier, its
lineage is fresh, or it was adopted. -/
theorem entry_cases (h : IdentityMove w step output w') {d : D} {id : ChildId} {c : FenceCounter}
    (hentry : w'.entry d id = some c) :
    (∃ c₀, w.entry d id = some c₀ ∧ c₀.lineage = c.lineage ∧
        c₀.generations.current ≤ c.generations.current) ∨
      (step = .mint d id ∧ c = ⟨w.lineages.current + 1, ⟨1⟩⟩ ∧
        w'.lineages.current = w.lineages.current + 1) ∨
      ∃ source p, step = .adoptOrMint d source p ∧ p.id = id ∧ (source, p) ∈ w.provisionals ∧
        c = .fromFence p.membership := by
  cases h with
  | @mintNext _ _ c' hc | @adoptNext _ _ _ c' _ hc =>
    rw [IdentityWorld.entry_issue, IdentityWorld.entry_setEntry] at hentry
    split_ifs at hentry with hsame
    · obtain ⟨rfl, rfl⟩ := hsame
      cases hentry
      exact .inl ⟨c', hc, rfl, Nat.le_succ _⟩
    · exact .inl ⟨c, hentry, rfl, Nat.le_refl _⟩
  | mintFresh hnone hfresh =>
    rw [IdentityWorld.entry_issue, IdentityWorld.entry_setEntry] at hentry
    split_ifs at hentry with hsame
    · obtain ⟨rfl, rfl⟩ := hsame
      cases hentry
      exact .inr (.inl ⟨rfl, by rw [hfresh], hfresh⟩)
    · exact .inl ⟨c, hentry, rfl, Nat.le_refl _⟩
  | @adopt d' source p hoffered hnone =>
    rw [IdentityWorld.entry_setEntry] at hentry
    split_ifs at hentry with hsame
    · obtain ⟨rfl, rfl⟩ := hsame
      cases hentry
      exact .inr (.inr ⟨source, p, rfl, rfl, hoffered, rfl⟩)
    · exact .inl ⟨c, hentry, rfl, Nat.le_refl _⟩
  | evict hc =>
    rw [IdentityWorld.entry_setEntry] at hentry
    split_ifs at hentry
    exact .inl ⟨c, hentry, rfl, Nat.le_refl _⟩
  | ignore | incarnate => exact .inl ⟨c, hentry, rfl, Nat.le_refl _⟩

/-- Where an entry goes: it stays, perhaps a generation later, or is evicted. -/
theorem entry_kept (h : IdentityMove w step output w') {d : D} {id : ChildId} {c : FenceCounter}
    (hentry : w.entry d id = some c) :
    (∃ c', w'.entry d id = some c' ∧ c'.lineage = c.lineage ∧
        c.generations.current ≤ c'.generations.current) ∨
      step = .evict d id c.issued ∧ w' = w.setEntry d id none := by
  cases h with
  | mintNext hc | adoptNext _ hc =>
    rw [IdentityWorld.entry_issue, IdentityWorld.entry_setEntry]
    split_ifs with hsame
    · obtain ⟨rfl, rfl⟩ := hsame
      cases hentry.symm.trans hc
      exact .inl ⟨c.next, rfl, rfl, Nat.le_succ _⟩
    · exact .inl ⟨c, hentry, rfl, Nat.le_refl _⟩
  | mintFresh hnone hfresh =>
    rw [IdentityWorld.entry_issue, IdentityWorld.entry_setEntry]
    split_ifs with hsame
    · obtain ⟨rfl, rfl⟩ := hsame
      cases hentry.symm.trans hnone
    · exact .inl ⟨c, hentry, rfl, Nat.le_refl _⟩
  | adopt hoffered hnone =>
    rw [IdentityWorld.entry_setEntry]
    split_ifs with hsame
    · obtain ⟨rfl, rfl⟩ := hsame
      cases hentry.symm.trans hnone
    · exact .inl ⟨c, hentry, rfl, Nat.le_refl _⟩
  | @evict d' id' c' hc =>
    by_cases hsame : d = d' ∧ id = id'
    · obtain ⟨rfl, rfl⟩ := hsame
      cases hentry.symm.trans hc
      exact .inr ⟨rfl, rfl⟩
    · rw [IdentityWorld.entry_setEntry, if_neg hsame]
      exact .inl ⟨c, hentry, rfl, Nat.le_refl _⟩
  | ignore | incarnate => exact .inl ⟨c, hentry, rfl, Nat.le_refl _⟩

/-- Where an offer comes from: it was there, it repeats the lineage of an entry,
or its lineage is fresh. -/
theorem offer_cases (h : IdentityMove w step output w') {x : D × ProvisionalMembership}
    (hx : x ∈ w'.provisionals) :
    x ∈ w.provisionals ∨
      (∃ c, w.entry x.1 x.2.id = some c ∧ c.lineage = x.2.membership.lineage ∧
        (step = .mint x.1 x.2.id ∨
          ∃ source p, step = .adoptOrMint x.1 source p)) ∨
      (step = .mint x.1 x.2.id ∧ x.2.membership = ⟨w.lineages.current + 1, 1⟩ ∧
        w'.lineages.current = w.lineages.current + 1) := by
  cases h with
  | @mintNext d id c hc =>
    rcases List.mem_append.mp hx with hold | hnew
    · exact .inl hold
    · obtain rfl := List.mem_singleton.mp hnew
      exact .inr (.inl ⟨c, hc, rfl, .inl rfl⟩)
  | mintFresh hnone hfresh =>
    rcases List.mem_append.mp hx with hold | hnew
    · exact .inl hold
    · obtain rfl := List.mem_singleton.mp hnew
      exact .inr (.inr ⟨rfl, by rw [hfresh]; rfl, hfresh⟩)
  | adopt hoffered hnone => exact .inl (List.mem_of_mem_erase hx)
  | @adoptNext d source p c hoffered hc =>
    rcases List.mem_append.mp hx with hold | hnew
    · exact .inl (List.mem_of_mem_erase hold)
    · obtain rfl := List.mem_singleton.mp hnew
      exact .inr (.inl ⟨c, hc, rfl, .inr ⟨source, p, rfl⟩⟩)
  | evict | ignore | incarnate => exact .inl hx

end IdentityMove

/-- What a grant leaves: the domain tracks the granted membership. -/
theorem entry_of_grant {e : IdentityEdge D} {d : D} {id : ChildId} {membership : Membership}
    (he : stepEdge IdentityStep.apply e)
    (hgrant : IdentityEdge.grant e = some (d, id, membership)) :
    e.after.entry d id = some (.fromFence membership) := by
  obtain ⟨w, step, output, w'⟩ := e
  have hmove : IdentityMove w step output w' := identityMove_of_edge he
  cases hmove with
  | mintNext | mintFresh | adopt | adoptNext =>
    cases hgrant
    exact IdentityWorld.entry_setEntry_self ..
  | evict | ignore | incarnate => cases hgrant

/-! ### A lineage has one id -/

namespace IdentityWorld

/-- The lineage is tracked or on offer for the id. -/
def Holds (w : IdentityWorld D) (id : ChildId) (lineage : ℕ) : Prop :=
  (∃ d c, w.entry d id = some c ∧ c.lineage = lineage) ∨
    ∃ x ∈ w.provisionals, x.2.id = id ∧ x.2.membership.lineage = lineage

/-- Every lineage in use was minted, and for one id. -/
structure Labelled (w : IdentityWorld D) : Prop where
  bounded : ∀ id lineage, w.Holds id lineage → lineage ≤ w.lineages.current
  unique : ∀ id id' lineage, w.Holds id lineage → w.Holds id' lineage → id = id'

/-- If the lineage is in use, then for that id. -/
def Named (w : IdentityWorld D) (id : ChildId) (lineage : ℕ) : Prop :=
  lineage ≤ w.lineages.current ∧ ∀ id', w.Holds id' lineage → id' = id

omit [DecidableEq D] in
theorem Labelled.named {w : IdentityWorld D} (h : w.Labelled) {id : ChildId} {lineage : ℕ}
    (hholds : w.Holds id lineage) : w.Named id lineage :=
  ⟨h.bounded id lineage hholds, fun id' hid' => h.unique id' id lineage hid' hholds⟩

end IdentityWorld

section Labels

variable {w w' : IdentityWorld D} {step : IdentityStep D} {output : IdentityOutput}

/-- A lineage comes into use when it is minted. -/
theorem IdentityMove.holds_cases (h : IdentityMove w step output w') {id : ChildId} {lineage : ℕ}
    (hholds : w'.Holds id lineage) :
    w.Holds id lineage ∨
      lineage = w.lineages.current + 1 ∧ w'.lineages.current = lineage ∧
        ∃ d, step = .mint d id := by
  rcases hholds with ⟨d, c, hentry, rfl⟩ | ⟨x, hx, rfl, rfl⟩
  · rcases h.entry_cases hentry with ⟨c₀, hc₀, hlineage, -⟩ | ⟨hstep, rfl, hcurrent⟩ |
      ⟨source, p, hstep, rfl, hoffered, rfl⟩
    · exact .inl (.inl ⟨d, c₀, hc₀, hlineage⟩)
    · exact .inr ⟨rfl, hcurrent, d, hstep⟩
    · exact .inl (.inr ⟨(source, p), hoffered, rfl, rfl⟩)
  · rcases h.offer_cases hx with hold | ⟨c, hc, hlineage, -⟩ | ⟨hstep, hfresh, hcurrent⟩
    · exact .inl (.inr ⟨x, hold, rfl, rfl⟩)
    · exact .inl (.inl ⟨x.1, c, hc, hlineage⟩)
    · exact .inr ⟨by rw [hfresh], by rw [hfresh]; exact hcurrent, x.1, hstep⟩

theorem IdentityWorld.Labelled.move (hw : w.Labelled) (h : IdentityMove w step output w') :
    w'.Labelled := by
  constructor
  · intro id lineage hholds
    rcases h.holds_cases hholds with hold | ⟨-, hcurrent, -⟩
    · exact (hw.bounded id lineage hold).trans h.lineages_le
    · exact hcurrent.ge
  · intro id id' lineage hid hid'
    rcases h.holds_cases hid with hold | ⟨hfresh, -, d, hstep⟩
    · rcases h.holds_cases hid' with hold' | ⟨hfresh, -⟩
      · exact hw.unique id id' lineage hold hold'
      · exact absurd (hw.bounded id lineage hold) (by omega)
    · rcases h.holds_cases hid' with hold' | ⟨-, -, d', hstep'⟩
      · exact absurd (hw.bounded id' lineage hold') (by omega)
      · rw [hstep] at hstep'
        cases hstep'
        rfl

theorem IdentityWorld.Named.move {id : ChildId} {lineage : ℕ} (hw : w.Named id lineage)
    (h : IdentityMove w step output w') : w'.Named id lineage := by
  refine ⟨hw.1.trans h.lineages_le, fun id' hholds => ?_⟩
  rcases h.holds_cases hholds with hold | ⟨hfresh, -⟩
  · exact hw.2 id' hold
  · exact absurd hw.1 (by omega)

end Labels

/-! ### A lineage has one stable owner -/

/-- What the builders guarantee of a single operation. -/
def IdentityStep.Lawful (declares : D → Bool) (w : IdentityWorld D) : IdentityStep D → Prop
  | .mint d id => declares d = true → w.entry d id = none
  | .adoptOrMint d source _ => declares source = true ∧ declares d = false
  | _ => True

namespace IdentityWorld

/-- Stable domains track the lineage only at `P`, and it is not on offer. -/
structure Confined (declares : D → Bool) (w : IdentityWorld D) (lineage : ℕ)
    (P : D → ChildId → Prop) : Prop where
  bounded : lineage ≤ w.lineages.current
  tracked : ∀ d id c, declares d = false → w.entry d id = some c → c.lineage = lineage → P d id
  withdrawn : ∀ x ∈ w.provisionals, declares x.1 = true → x.2.membership.lineage ≠ lineage

/-- Every tracked lineage has one stable owner, and every offered one none. -/
structure Fenced (declares : D → Bool) (w : IdentityWorld D) : Prop where
  owned : ∀ d id c, declares d = false → w.entry d id = some c →
    w.Confined declares c.lineage fun d' id' => d' = d ∧ id' = id
  labelled : w.Labelled
  single : w.provisionals.Pairwise fun x y =>
    declares x.1 = true → declares y.1 = true → x.2.membership.lineage ≠ y.2.membership.lineage

omit [DecidableEq D] in
theorem Fenced.bounded {declares : D → Bool} {w : IdentityWorld D} (hw : w.Fenced declares)
    (x : D × ProvisionalMembership) (hx : x ∈ w.provisionals) :
    x.2.membership.lineage ≤ w.lineages.current :=
  hw.labelled.bounded x.2.id _ (.inr ⟨x, hx, rfl, rfl⟩)

/-- No membership of the lineage is newer than the tracked or offered one. -/
structure Covers (declares : D → Bool) (w : IdentityWorld D) (m : Membership) : Prop where
  bounded : m.lineage ≤ w.lineages.current
  tracked : ∀ d id c, declares d = false → w.entry d id = some c → c.lineage = m.lineage →
    m.generation ≤ c.generations.current
  offered : ∀ x ∈ w.provisionals, declares x.1 = true → x.2.membership.lineage = m.lineage →
    m.generation ≤ x.2.membership.generation

end IdentityWorld

section Owners

variable {declares : D → Bool} {w w' : IdentityWorld D}
variable {step : IdentityStep D} {output : IdentityOutput}

/-- A declaration-time domain offers what it had on offer, or a fresh lineage. -/
theorem IdentityMove.declared_cases (h : IdentityMove w step output w')
    (hlawful : step.Lawful declares w) {x : D × ProvisionalMembership}
    (hx : x ∈ w'.provisionals) (hdeclares : declares x.1 = true) :
    x ∈ w.provisionals ∨ x.2.membership = ⟨w.lineages.current + 1, 1⟩ := by
  rcases h.offer_cases hx with hold | ⟨c, hc, -, hstep | ⟨source, p, hstep⟩⟩ | ⟨-, hfresh, -⟩
  · exact .inl hold
  · -- a second mint of the id
    rw [hstep] at hlawful
    rw [hlawful hdeclares] at hc
    cases hc
  · rw [hstep] at hlawful
    rw [hlawful.2] at hdeclares
    cases hdeclares
  · exact .inr hfresh

theorem IdentityWorld.Confined.move {lineage : ℕ} {P : D → ChildId → Prop}
    (hw : w.Confined declares lineage P) (h : IdentityMove w step output w')
    (hlawful : step.Lawful declares w) : w'.Confined declares lineage P := by
  have hbounded := hw.bounded
  refine ⟨hbounded.trans h.lineages_le, ?_, ?_⟩
  · intro d id c hstable hentry hlineage
    rcases h.entry_cases hentry with ⟨c₀, hc₀, hsame, -⟩ | ⟨-, rfl, -⟩ |
      ⟨source, p, rfl, -, hoffered, rfl⟩
    · exact hw.tracked d id c₀ hstable hc₀ (hsame.trans hlineage)
    · replace hlineage : w.lineages.current + 1 = lineage := hlineage
      omega
    · exact absurd hlineage (hw.withdrawn (source, p) hoffered hlawful.1)
  · intro x hx hdeclares hlineage
    rcases h.declared_cases hlawful hx hdeclares with hold | hfresh
    · exact hw.withdrawn x hold hdeclares hlineage
    · rw [hfresh] at hlineage
      replace hlineage : w.lineages.current + 1 = lineage := hlineage
      omega

/-- An eviction leaves the lineage without an owner. -/
theorem IdentityWorld.Confined.evicted {lineage : ℕ} {d : D} {id : ChildId}
    (hw : w.Confined declares lineage fun d' id' => d' = d ∧ id' = id) :
    (w.setEntry d id none).Confined declares lineage fun _ _ => False := by
  refine ⟨hw.bounded, ?_, hw.withdrawn⟩
  intro d' id' c hstable hentry hlineage
  rw [IdentityWorld.entry_setEntry] at hentry
  split_ifs at hentry with hsame
  exact hsame (hw.tracked d' id' c hstable hentry hlineage)

theorem IdentityWorld.Covers.move {m : Membership} (hw : w.Covers declares m)
    (h : IdentityMove w step output w') (hlawful : step.Lawful declares w) :
    w'.Covers declares m := by
  have hbounded := hw.bounded
  refine ⟨hbounded.trans h.lineages_le, ?_, ?_⟩
  · intro d id c hstable hentry hlineage
    rcases h.entry_cases hentry with ⟨c₀, hc₀, hsame, hle⟩ | ⟨-, rfl, -⟩ |
      ⟨source, p, rfl, -, hoffered, rfl⟩
    · exact (hw.tracked d id c₀ hstable hc₀ (hsame.trans hlineage)).trans hle
    · replace hlineage : w.lineages.current + 1 = m.lineage := hlineage
      omega
    · exact hw.offered (source, p) hoffered hlawful.1 hlineage
  · intro x hx hdeclares hlineage
    rcases h.declared_cases hlawful hx hdeclares with hold | hfresh
    · exact hw.offered x hold hdeclares hlineage
    · rw [hfresh] at hlineage
      replace hlineage : w.lineages.current + 1 = m.lineage := hlineage
      omega

/-- What was on offer and is taken is on offer no more. -/
theorem IdentityWorld.Fenced.taken (hw : w.Fenced declares) {x y : D × ProvisionalMembership}
    (hx : x ∈ w.provisionals) (hdeclares : declares x.1 = true)
    (hy : y ∈ w.provisionals.erase x) (hdeclares' : declares y.1 = true) :
    y.2.membership.lineage ≠ x.2.membership.lineage := by
  obtain ⟨before, after, -, hsplit, herase⟩ := List.exists_erase_eq hx
  have hsingle := hw.single
  rw [hsplit] at hsingle
  obtain ⟨-, hrest, hcross⟩ := List.pairwise_append.mp hsingle
  rw [herase] at hy
  rcases List.mem_append.mp hy with hbefore | hafter
  · exact hcross y hbefore x List.mem_cons_self hdeclares' hdeclares
  · exact ((List.pairwise_cons.mp hrest).1 y hafter hdeclares hdeclares').symm

/-- An offer that is not fresh repeats no other: only declaration-time domains
count, and they offer fresh lineages. -/
theorem IdentityMove.single (hw : w.Fenced declares) (h : IdentityMove w step output w')
    (hlawful : step.Lawful declares w) :
    w'.provisionals.Pairwise fun x y => declares x.1 = true → declares y.1 = true →
      x.2.membership.lineage ≠ y.2.membership.lineage := by
  cases h with
  | @mintNext d id c hc =>
    refine List.pairwise_append.mpr ⟨hw.single, List.pairwise_singleton .., ?_⟩
    rintro x hx y hy - hdeclares
    obtain rfl := List.mem_singleton.mp hy
    rw [hlawful hdeclares] at hc
    cases hc
  | @mintFresh d id lineage hnone hfresh =>
    refine List.pairwise_append.mpr ⟨hw.single, List.pairwise_singleton .., ?_⟩
    rintro x hx y hy - - hsame
    obtain rfl := List.mem_singleton.mp hy
    have hbounded := hw.bounded x hx
    replace hsame : x.2.membership.lineage = lineage := hsame
    omega
  | adopt hoffered hnone => exact hw.single.sublist List.erase_sublist
  | adoptNext hoffered hc =>
    refine List.pairwise_append.mpr
      ⟨hw.single.sublist List.erase_sublist, List.pairwise_singleton .., ?_⟩
    rintro x hx y hy - hdeclares
    obtain rfl := List.mem_singleton.mp hy
    rw [hlawful.2] at hdeclares
    cases hdeclares
  | evict | ignore | incarnate => exact hw.single

theorem IdentityWorld.Fenced.move (hw : w.Fenced declares) (h : IdentityMove w step output w')
    (hlawful : step.Lawful declares w) : w'.Fenced declares := by
  refine ⟨?_, hw.labelled.move h, h.single hw hlawful⟩
  · intro d id c hstable hentry
    rcases h.entry_cases hentry with ⟨c₀, hc₀, hsame, -⟩ | ⟨rfl, rfl, hcurrent⟩ |
      ⟨source, p, rfl, rfl, hoffered, rfl⟩
    · rw [← hsame]
      exact (hw.owned d id c₀ hstable hc₀).move h hlawful
    · -- a fresh lineage is tracked nowhere else
      refine ⟨hcurrent.ge, ?_, ?_⟩
      · intro d' id' c' hstable' hentry' hlineage
        replace hlineage : c'.lineage = w.lineages.current + 1 := hlineage
        rcases h.entry_cases hentry' with ⟨c₀, hc₀, hsame, -⟩ | ⟨hstep, -⟩ |
          ⟨source, p, hstep, -⟩
        · have hbounded := (hw.owned d' id' c₀ hstable' hc₀).bounded
          omega
        · cases hstep
          exact ⟨rfl, rfl⟩
        · cases hstep
      · intro x hx hdeclares hlineage
        replace hlineage : x.2.membership.lineage = w.lineages.current + 1 := hlineage
        rcases h.offer_cases hx with hold | ⟨c₀, hc₀, hsame, hstep | ⟨source, p, hstep⟩⟩ |
          ⟨hstep, -, -⟩
        · have hbounded := hw.bounded x hold
          omega
        · cases hstep
          rw [hstable] at hdeclares
          cases hdeclares
        · cases hstep
        · cases hstep
          rw [hstable] at hdeclares
          cases hdeclares
    · -- an adopted lineage was on offer, so nobody tracked it
      refine ⟨(hw.bounded (source, p) hoffered).trans h.lineages_le, ?_, ?_⟩
      · intro d' id' c' hstable' hentry' hlineage
        rcases h.entry_cases hentry' with ⟨c₀, hc₀, hsame, -⟩ | ⟨hstep, -⟩ |
          ⟨source', p', hstep, hid, -⟩
        · exact absurd (hlineage.symm.trans hsame.symm)
            ((hw.owned d' id' c₀ hstable' hc₀).withdrawn (source, p) hoffered hlawful.1)
        · cases hstep
        · cases hstep
          exact ⟨rfl, hid.symm⟩
      · intro x hx hdeclares hlineage
        have hx' : x ∈ w.provisionals.erase (source, p) ∨ declares x.1 = false := by
          cases h with
          | adopt => exact .inl hx
          | adoptNext =>
            rcases List.mem_append.mp hx with hold | hnew
            · exact .inl hold
            · obtain rfl := List.mem_singleton.mp hnew
              exact .inr hlawful.2
        rcases hx' with herased | hnot
        · exact hw.taken hoffered hlawful.1 herased hdeclares hlineage
        · rw [hnot] at hdeclares
          cases hdeclares

omit [DecidableEq D] in
/-- What a stable domain tracks is the newest of its lineage. -/
theorem IdentityWorld.Fenced.covers_entry (hw : w.Fenced declares) {d : D} {id : ChildId}
    {c : FenceCounter} (hstable : declares d = false) (hentry : w.entry d id = some c) :
    w.Covers declares c.issued := by
  have howned := hw.owned d id c hstable hentry
  refine ⟨howned.bounded, ?_, ?_⟩
  · intro d' id' c' hstable' hentry' hlineage
    obtain ⟨rfl, rfl⟩ := howned.tracked d' id' c' hstable' hentry' hlineage
    cases hentry.symm.trans hentry'
    exact Nat.le_refl _
  · intro x hx hdeclares hlineage
    exact absurd hlineage (howned.withdrawn x hx hdeclares)

/-- A first membership is the newest of its lineage. -/
theorem IdentityMove.covers_fresh (hw : w.Fenced declares) (h : IdentityMove w step output w')
    (hlawful : step.Lawful declares w) (hcurrent : w'.lineages.current = w.lineages.current + 1) :
    w'.Covers declares ⟨w.lineages.current + 1, 1⟩ := by
  refine ⟨hcurrent.ge, ?_, ?_⟩
  · intro d id c hstable hentry hlineage
    replace hlineage : c.lineage = w.lineages.current + 1 := hlineage
    rcases h.entry_cases hentry with ⟨c₀, hc₀, hsame, -⟩ | ⟨-, rfl, -⟩ |
      ⟨source, p, rfl, -, hoffered, rfl⟩
    · have hbounded := (hw.owned d id c₀ hstable hc₀).bounded
      omega
    · exact Nat.le_refl _
    · have hbounded := hw.bounded (source, p) hoffered
      replace hlineage : p.membership.lineage = w.lineages.current + 1 := hlineage
      replace hbounded : p.membership.lineage ≤ w.lineages.current := hbounded
      omega
  · intro x hx hdeclares hlineage
    replace hlineage : x.2.membership.lineage = w.lineages.current + 1 := hlineage
    rcases h.declared_cases hlawful hx hdeclares with hold | hfresh
    · have hbounded := hw.bounded x hold
      omega
    · rw [hfresh]

/-- An issued membership is new, and the newest of its lineage. -/
theorem IdentityMove.issued_new (hw : w.Fenced declares) (h : IdentityMove w step output w')
    (hlawful : step.Lawful declares w) {m : Membership} (hissued : output = .issued m) :
    ¬ w.Covers declares m ∧ w'.Covers declares m := by
  have hw' := hw.move h hlawful
  cases h with
  | @mintNext d id c hc =>
    cases hissued
    have hstable : declares d = false := by
      cases hdeclares : declares d with
      | false => rfl
      | true =>
        rw [hlawful hdeclares] at hc
        cases hc
    refine ⟨fun hcovers => ?_, hw'.covers_entry hstable (IdentityWorld.entry_setEntry_self ..)⟩
    exact absurd (hcovers.tracked d id c hstable hc rfl) (Nat.not_succ_le_self _)
  | mintFresh hnone hfresh =>
    cases hissued
    subst hfresh
    refine ⟨fun hcovers => Nat.not_succ_le_self _ hcovers.bounded, ?_⟩
    exact IdentityMove.covers_fresh hw (.mintFresh hnone rfl) hlawful rfl
  | adopt | evict | ignore | incarnate => cases hissued
  | @adoptNext d source p c hoffered hc =>
    cases hissued
    refine ⟨fun hcovers => ?_, hw'.covers_entry hlawful.2 (IdentityWorld.entry_setEntry_self ..)⟩
    exact absurd (hcovers.tracked d p.id c hlawful.2 hc rfl) (Nat.not_succ_le_self _)

end Owners

end Shelterwood
