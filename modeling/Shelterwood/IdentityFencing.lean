/-
Shelterwood/IdentityFencing.lean

Membership identity over whole runs of a family of domains.

The discipline of the builders makes every operation lawful, so the ownership
invariant holds throughout.  Two grants are then compared by following the
lineage of the first one to the second: along an undisturbed entry it is the same
lineage with a larger generation, and past an eviction, or at another owner, it
is another lineage.
-/
import Shelterwood.IdentityDomains

namespace Shelterwood

variable {D : Type*} [DecidableEq D]

/-! ### Runs -/

section Runs

variable {declares : D → Bool} {tr : List (IdentityEdge D)} {w : IdentityWorld D}

theorem Disciplined.left {tr₁ tr₂ : List (IdentityEdge D)}
    (h : Disciplined declares (tr₁ ++ tr₂)) : Disciplined declares tr₁ := by
  refine ⟨fun e he => h.donors e (List.mem_append_left _ he), fun d id hdeclares => ?_⟩
  have honce := h.once d id hdeclares
  rw [List.countP_append] at honce
  omega

/-- What a declaration-time domain tracks, it minted. -/
theorem minted_of_entry (h : IdentityRun tr w) (hlaw : Disciplined declares tr) {d : D}
    {id : ChildId} (hdeclares : declares d = true) (hentry : w.entry d id ≠ none) :
    ∃ e ∈ tr, IdentityEdge.mints d id e = true := by
  refine h.history (fun habs => absurd rfl habs) ?_ hentry
  intro pre e _ he hmem ih hafter
  obtain ⟨c, hc⟩ := Option.ne_none_iff_exists'.mp hafter
  rcases (identityMove_of_edge he).entry_cases hc with ⟨c₀, hc₀, -⟩ | ⟨hstep, -⟩ |
    ⟨source, p, hstep, -⟩
  · obtain ⟨e', he', hmints⟩ := ih (by rw [hc₀]; exact Option.some_ne_none c₀)
    exact ⟨e', List.mem_append_left _ he', hmints⟩
  · exact ⟨e, List.mem_append_right _ List.mem_cons_self,
      by simp [IdentityEdge.mints, IdentityStep.mints, hstep]⟩
  · rw [(hlaw.donors e hmem d source p hstep).2] at hdeclares
    cases hdeclares

theorem lawful_of_run (h : IdentityRun tr w) (hlaw : Disciplined declares tr)
    {e : IdentityEdge D} (hmem : e ∈ tr) : e.input.Lawful declares e.before := by
  obtain ⟨pre, post, rfl, hpre, -, -⟩ := h.mem_split hmem
  cases hinput : e.input with
  | mint d id =>
    intro hdeclares
    by_contra hentry
    -- the entry was minted before, and this is the second mint
    obtain ⟨e', he', hmints⟩ := minted_of_entry hpre hlaw.left hdeclares hentry
    have hfirst : 0 < pre.countP (IdentityEdge.mints d id) :=
      List.countP_pos_iff.mpr ⟨e', he', hmints⟩
    have hthis : IdentityEdge.mints d id e = true := by
      simp [IdentityEdge.mints, IdentityStep.mints, hinput]
    have honce := hlaw.once d id hdeclares
    rw [List.countP_append, List.countP_cons, if_pos hthis] at honce
    omega
  | adoptOrMint d source p => exact hlaw.donors e hmem d source p hinput
  | evict | incarnate => trivial

omit [DecidableEq D] in
theorem fenced_new : (IdentityWorld.new : IdentityWorld D).Fenced declares := by
  refine ⟨by rintro d id c - ⟨⟩, ?_, List.Pairwise.nil⟩
  constructor
  · rintro id lineage (⟨d, c, hentry, -⟩ | ⟨x, hx, -⟩)
    · cases hentry
    · cases hx
  · rintro id id' lineage (⟨d, c, hentry, -⟩ | ⟨x, hx, -⟩)
    · cases hentry
    · cases hx

theorem fenced_of_run (h : IdentityRun tr w) (hlaw : Disciplined declares tr) :
    w.Fenced declares := by
  refine h.invariant fenced_new ?_
  intro e he hmem hbefore
  exact hbefore.move (identityMove_of_edge he) (lawful_of_run h hlaw hmem)

/-- Issued memberships are pairwise distinct. -/
theorem issued_nodup (h : IdentityRun tr w) (hlaw : Disciplined declares tr) :
    (tr.filterMap IdentityEdge.issued).Nodup := by
  have hboth : w.Fenced declares ∧ (tr.filterMap IdentityEdge.issued).Nodup ∧
      ∀ m ∈ tr.filterMap IdentityEdge.issued, w.Covers declares m := by
    refine h.history ?_ ?_
    · exact ⟨fenced_new, List.nodup_nil, by rintro m ⟨⟩⟩
    rintro pre e - he hmem ⟨hfenced, hnodup, hcovers⟩
    have hmove := identityMove_of_edge he
    have hlawful := lawful_of_run h hlaw hmem
    have hkept : ∀ m ∈ pre.filterMap IdentityEdge.issued, e.after.Covers declares m :=
      fun m hm => (hcovers m hm).move hmove hlawful
    rw [List.filterMap_append]
    cases houtput : e.output with
    | issued m =>
      have hsingle : [e].filterMap IdentityEdge.issued = [m] := by
        simp [IdentityEdge.issued, houtput]
      obtain ⟨hnew, hnewest⟩ := hmove.issued_new hfenced hlawful houtput
      rw [hsingle]
      refine ⟨hfenced.move hmove hlawful, ?_, ?_⟩
      · refine List.nodup_append.mpr ⟨hnodup, List.pairwise_singleton .., ?_⟩
        rintro m' hm' _ hm rfl
        obtain rfl := List.mem_singleton.mp hm
        exact hnew (hcovers m' hm')
      · intro m' hm'
        rcases List.mem_append.mp hm' with hold | hm
        · exact hkept m' hold
        · obtain rfl := List.mem_singleton.mp hm
          exact hnewest
    | _ =>
      have hnone : [e].filterMap IdentityEdge.issued = [] := by
        simp [IdentityEdge.issued, houtput]
      rw [hnone, List.append_nil]
      exact ⟨hfenced.move hmove hlawful, hnodup, hkept⟩
  exact hboth.2.1

end Runs

/-! ### Two grants -/

section Segments

variable {declares : D → Bool} {tr : List (IdentityEdge D)} {w w' : IdentityWorld D}

theorem named_of_segment
    (h : Run (stepEdge IdentityStep.apply) w tr w') {id : ChildId}
    {lineage : ℕ} (hw : w.Named id lineage) : w'.Named id lineage :=
  h.invariant hw fun _ he _ hbefore =>
    hbefore.move (identityMove_of_edge he)

theorem confined_of_segment
    (h : Run (stepEdge IdentityStep.apply) w tr w')
    (hlawful : ∀ e ∈ tr, e.input.Lawful declares e.before) {lineage : ℕ}
    {P : D → ChildId → Prop} (hw : w.Confined declares lineage P) :
    w'.Confined declares lineage P :=
  h.invariant hw fun e he hmem hbefore =>
    hbefore.move (identityMove_of_edge he) (hlawful e hmem)

/-- An effective eviction removes the entry. -/
theorem evicted_of_edge {v : IdentityEdge D} {d : D} {id : ChildId}
    (he : stepEdge IdentityStep.apply v)
    (hevicts : IdentityEdge.evicts d id v = true) : v.after = v.before.setEntry d id none := by
  obtain ⟨hsome, hnone⟩ : ∃ c, v.before.entry d id = some c ∧ v.after.entry d id = none := by
    unfold IdentityEdge.evicts at hevicts
    cases hinput : v.input with
    | evict d' id' membership =>
      simp only [hinput, Bool.and_eq_true, Option.isNone_iff_eq_none] at hevicts
      obtain ⟨c, hc⟩ := Option.isSome_iff_exists.mp hevicts.1.2
      exact ⟨c, hc, hevicts.2⟩
    | _ =>
      simp only [hinput] at hevicts
      cases hevicts
  rcases (identityMove_of_edge he).entry_kept hnone.1 with ⟨c', hc', -⟩ | ⟨-, hafter⟩
  · cases hnone.2.symm.trans hc'
  · exact hafter

/-- Until it is evicted, an entry keeps its lineage and only counts up. -/
theorem entry_of_segment
    (h : Run (stepEdge IdentityStep.apply) w tr w') {d : D} {id : ChildId}
    {c : FenceCounter} (hc : w.entry d id = some c)
    (hkept : ∀ v ∈ tr, IdentityEdge.evicts d id v = false) :
    ∃ c', w'.entry d id = some c' ∧ c'.lineage = c.lineage ∧
      c.generations.current ≤ c'.generations.current := by
  refine h.invariant ⟨c, hc, rfl, Nat.le_refl _⟩ ?_
  rintro e he hmem ⟨c', hc', hlineage, hle⟩
  rcases (identityMove_of_edge he).entry_kept hc' with ⟨c'', hc'', hsame, hle'⟩ | ⟨hstep, hafter⟩
  · exact ⟨c'', hc'', hsame.trans hlineage, hle.trans hle'⟩
  · have hevicts : IdentityEdge.evicts d id e = true := by
      have hnone : e.after.entry d id = none := by
        rw [hafter]
        exact IdentityWorld.entry_setEntry_self ..
      simp only [IdentityWorld.entry] at hc' hnone
      simp [IdentityEdge.evicts, hstep, hc', hnone]
    rw [hkept e hmem] at hevicts
    cases hevicts

end Segments

/-! ### The order -/

theorem Membership.supersedes_iff (m n : Membership) :
    m.supersedes n = true ↔ m.lineage = n.lineage ∧ n.generation < m.generation := by
  simp [Membership.supersedes]

/-- Replacement is a strict partial order. -/
theorem supersedes_isStrictOrder :
    IsStrictOrder Membership fun m n => m.supersedes n = true := by
  refine { irrefl := ?_, trans := ?_ }
  · intro m h
    exact Nat.lt_irrefl _ (m.supersedes_iff m |>.mp h).2
  · intro m n k hmn hnk
    obtain ⟨hlineage, hlt⟩ := (m.supersedes_iff n).mp hmn
    obtain ⟨hlineage', hlt'⟩ := (n.supersedes_iff k).mp hnk
    exact (m.supersedes_iff k).mpr ⟨hlineage.trans hlineage', hlt'.trans hlt⟩

/-- Neither membership replaced the other. -/
def Membership.Incomparable (m n : Membership) : Prop :=
  m.supersedes n = false ∧ n.supersedes m = false

theorem Membership.incomparable_of_lineage {m n : Membership} (h : n.lineage ≠ m.lineage) :
    m.Incomparable n := by
  constructor
  · simp [Membership.supersedes, h.symm]
  · simp [Membership.supersedes, h]

section Pairs

variable {declares : D → Bool} {pre mid post : List (IdentityEdge D)} {e f : IdentityEdge D}
variable {w : IdentityWorld D} {d d' : D} {id id' : ChildId} {m n : Membership}

/-- A grant for a tracked id is the next of its lineage. -/
theorem grant_next {c : FenceCounter}
    (hf : stepEdge IdentityStep.apply f)
    (hgrant : IdentityEdge.grant f = some (d, id, n)) (hc : f.before.entry d id = some c) :
    n = c.next.issued := by
  obtain ⟨w, step, output, w'⟩ := f
  have hmove : IdentityMove w step output w' := identityMove_of_edge hf
  cases hmove with
  | mintNext hentry | adoptNext _ hentry =>
    cases hgrant
    cases hc.symm.trans hentry
    rfl
  | mintFresh hnone | adopt _ hnone =>
    cases hgrant
    cases hc.symm.trans hnone
  | evict | ignore | incarnate => cases hgrant

/-- Without an eviction in between, the later grant replaces the earlier one. -/
theorem supersedes_of_kept (h : IdentityRun (pre ++ e :: (mid ++ f :: post)) w)
    (hgrant : IdentityEdge.grant e = some (d, id, m))
    (hgrant' : IdentityEdge.grant f = some (d, id, n))
    (hkept : ∀ v ∈ mid, IdentityEdge.evicts d id v = false) :
    n.supersedes m = true ∧ m.supersedes n = false := by
  obtain ⟨-, he, hrest⟩ := h.split_at
  obtain ⟨hmid, hf, -⟩ := hrest.split_at
  obtain ⟨c, hc, hlineage, hle⟩ := entry_of_segment hmid (entry_of_grant he hgrant) hkept
  have hnext := grant_next hf hgrant' hc
  subst hnext
  have hsupersedes : c.next.issued.supersedes m = true :=
    (Membership.supersedes_iff _ _).mpr ⟨hlineage, Nat.lt_succ_of_le hle⟩
  refine ⟨hsupersedes, ?_⟩
  -- the order is asymmetric
  rw [← Bool.not_eq_true]
  intro habs
  have hstrict := supersedes_isStrictOrder
  exact hstrict.irrefl _ (hstrict.trans _ _ _ hsupersedes habs)

section Owned

variable (h : IdentityRun (pre ++ e :: (mid ++ f :: post)) w)
variable (hlaw : Disciplined declares (pre ++ e :: (mid ++ f :: post)))

include h hlaw

/-- The operations after the first grant, up to the second, are lawful. -/
theorem lawful_between : ∀ v ∈ mid ++ [f], v.input.Lawful declares v.before := by
  intro v hv
  refine lawful_of_run h hlaw (List.mem_append_right _ (List.mem_cons_of_mem _ ?_))
  rcases List.mem_append.mp hv with hmem | hmem
  · exact List.mem_append_left _ hmem
  · obtain rfl := List.mem_singleton.mp hmem
    exact List.mem_append_right _ List.mem_cons_self

/-- A stable grant's lineage is confined to its domain and id. -/
theorem confined_of_grant (hgrant : IdentityEdge.grant e = some (d, id, m))
    (hstable : declares d = false) :
    e.after.Confined declares m.lineage fun d' id' => d' = d ∧ id' = id := by
  obtain ⟨hpre, he, -⟩ := h.split_at
  have hsplit : pre ++ e :: (mid ++ f :: post) = (pre ++ [e]) ++ (mid ++ f :: post) := by simp
  rw [hsplit] at hlaw
  exact (fenced_of_run (hpre.snoc he) hlaw.left).owned d id _ hstable (entry_of_grant he hgrant)

/-- Grants of different stable domains are of different lineages. -/
theorem lineage_ne_of_domain (hgrant : IdentityEdge.grant e = some (d, id, m))
    (hgrant' : IdentityEdge.grant f = some (d', id', n)) (hstable : declares d = false)
    (hstable' : declares d' = false) (hne : d ≠ d') : n.lineage ≠ m.lineage := by
  obtain ⟨-, he, hrest⟩ := h.split_at
  obtain ⟨hmid, hf, -⟩ := hrest.split_at
  have hconfined := confined_of_segment (hmid.snoc hf) (lawful_between h hlaw)
    (confined_of_grant h hlaw hgrant hstable)
  intro hsame
  exact hne (hconfined.tracked d' id' _ hstable' (entry_of_grant hf hgrant') hsame).1.symm

/-- Grants of one stable domain with an eviction in between are of different
lineages. -/
theorem lineage_ne_of_evicted (hgrant : IdentityEdge.grant e = some (d, id, m))
    (hgrant' : IdentityEdge.grant f = some (d, id, n)) (hstable : declares d = false)
    (hevicted : ∃ v ∈ mid, IdentityEdge.evicts d id v = true) : n.lineage ≠ m.lineage := by
  obtain ⟨v, hv, hevicts⟩ := hevicted
  have hconfined := confined_of_grant h hlaw hgrant hstable
  obtain ⟨before, after, rfl⟩ := List.append_of_mem hv
  have hlawful := lawful_between h hlaw
  obtain ⟨-, he, hrest⟩ := h.split_at
  obtain ⟨hmid, hf, -⟩ := hrest.split_at
  obtain ⟨hbefore, hvedge, hafter⟩ := hmid.split_at
  -- follow the lineage to the eviction, and past it
  have hup := confined_of_segment hbefore
    (fun x hx => hlawful x (List.mem_append_left _ (List.mem_append_left _ hx))) hconfined
  have hforgotten : v.after.Confined declares m.lineage fun _ _ => False := by
    rw [evicted_of_edge hvedge hevicts]
    exact hup.evicted
  have hpast := confined_of_segment (hafter.snoc hf) (fun x hx => hlawful x (by
    rcases List.mem_append.mp hx with hmem | hmem
    · exact List.mem_append_left _ (List.mem_append_right _ (List.mem_cons_of_mem _ hmem))
    · exact List.mem_append_right _ hmem)) hforgotten
  intro hsame
  exact hpast.tracked d id _ hstable (entry_of_grant hf hgrant') hsame

/-- Grants for different ids are of different lineages. -/
theorem lineage_ne_of_id (hgrant : IdentityEdge.grant e = some (d, id, m))
    (hgrant' : IdentityEdge.grant f = some (d', id', n)) (hne : id ≠ id') :
    n.lineage ≠ m.lineage := by
  obtain ⟨hpre, he, hrest⟩ := h.split_at
  obtain ⟨hmid, hf, -⟩ := hrest.split_at
  have hsplit : pre ++ e :: (mid ++ f :: post) = (pre ++ [e]) ++ (mid ++ f :: post) := by simp
  rw [hsplit] at hlaw
  have hlabelled := (fenced_of_run (hpre.snoc he) hlaw.left).labelled
  have hnamed : e.after.Named id m.lineage :=
    hlabelled.named (.inl ⟨d, _, entry_of_grant he hgrant, rfl⟩)
  have hlater := named_of_segment (hmid.snoc hf) hnamed
  intro hsame
  exact hne (hlater.2 id' (.inl ⟨d', _, entry_of_grant hf hgrant', hsame⟩)).symm

end Owned

end Pairs

/-! ### Evictions and incarnations -/

section Tokens

variable {tr : List (IdentityEdge D)} {w w' : IdentityWorld D}

variable {id : ChildId} {c : FenceCounter}

/-- The entry of one place after the entry of another was replaced. -/
theorem replaced_cases {d d' : D} {id' : ChildId} {c' : FenceCounter}
    {before : Option FenceCounter} (hc : (if d = d' ∧ id = id' then some c' else before) = some c) :
    (if d' = d ∧ id' = id then some c'.issued else none) = some c.issued ∨
      (if d' = d ∧ id' = id then some c'.issued else none) = none ∧ before = some c := by
  by_cases hsame : d = d' ∧ id = id'
  · rw [if_pos hsame] at hc
    cases hc
    exact .inl (if_pos ⟨hsame.1.symm, hsame.2.symm⟩)
  · rw [if_neg hsame] at hc
    exact .inr ⟨if_neg fun hback => hsame ⟨hback.1.symm, hback.2.symm⟩, hc⟩

variable {e : IdentityEdge D}

/-- A tracked membership was granted just now or was tracked before. -/
theorem grantTo_cases {d : D} (he : stepEdge IdentityStep.apply e)
    (hc : e.after.entry d id = some c) :
    IdentityEdge.grantTo d id e = some c.issued ∨
      IdentityEdge.grantTo d id e = none ∧ e.before.entry d id = some c := by
  obtain ⟨w, step, output, w'⟩ := e
  have hmove : IdentityMove w step output w' := identityMove_of_edge he
  cases hmove with
  | mintNext | mintFresh | adoptNext =>
    rw [IdentityWorld.entry_issue, IdentityWorld.entry_setEntry] at hc
    exact replaced_cases hc
  | adopt hoffered hnone =>
    rw [IdentityWorld.entry_setEntry] at hc
    exact replaced_cases hc
  | evict hentry =>
    rw [IdentityWorld.entry_setEntry] at hc
    split_ifs at hc
    exact .inr ⟨rfl, hc⟩
  | ignore | incarnate => exact .inr ⟨rfl, hc⟩

/-- What a domain tracks for an id is the last membership it got for it. -/
theorem lastGrant_of_entry (h : IdentityRun tr w) {d : D} (hc : w.entry d id = some c) :
    (tr.filterMap (IdentityEdge.grantTo d id)).getLast? = some c.issued := by
  refine h.history (by rintro c ⟨⟩) ?_ c hc
  intro pre e _ he _ ih c hc
  rcases grantTo_cases he hc with hgrant | ⟨hnone, hbefore⟩
  · simp [hgrant]
  · simp [hnone, ih c hbefore]

/-- Only the last granted membership can be evicted. -/
theorem unchanged_of_stale {pre post : List (IdentityEdge D)}
    (h : IdentityRun (pre ++ e :: post) w) {d : D} {m : Membership}
    (hinput : e.input = .evict d id m)
    (hstale : (pre.filterMap (IdentityEdge.grantTo d id)).getLast? ≠ some m) :
    e.after = e.before := by
  obtain ⟨hpre, he, -⟩ := h.split_at
  have hmove := identityMove_of_edge he
  rw [hinput] at hmove
  generalize e.output = output, e.after = after at hmove
  cases hmove with
  | evict hc => exact absurd (lastGrant_of_entry hpre hc) hstale
  | ignore hother => rfl

/-- Every issued membership has its counter, in the order of issue. -/
theorem counters_of_run (h : IdentityRun tr w) :
    w.counters.map IncarnationCounter.membership = tr.filterMap IdentityEdge.issued := by
  refine h.history rfl ?_
  intro pre e _ he _ ih
  rw [List.filterMap_append]
  obtain ⟨w, step, output, w'⟩ := e
  have hmove : IdentityMove w step output w' := identityMove_of_edge he
  cases hmove with
  | @incarnate k c hc =>
    obtain ⟨hk, hget⟩ := List.getElem?_eq_some_iff.mp hc
    have hsame : (w.counters.map IncarnationCounter.membership).set k c.membership =
        w.counters.map IncarnationCounter.membership := by
      rw [← hget, ← List.getElem_map IncarnationCounter.membership, List.set_getElem_self]
      simpa using hk
    rw [List.map_set, hsame, ih]
    exact (List.append_nil _).symm
  | evict | ignore | adopt => exact ih.trans (List.append_nil _).symm
  | mintNext | mintFresh | adoptNext =>
    show (w.counters ++ [_]).map IncarnationCounter.membership = _
    rw [List.map_append, ih]
    rfl

/-- A counter keeps its membership and only counts up. -/
theorem counter_of_segment
    (h : Run (stepEdge IdentityStep.apply) w tr w') {k : ℕ}
    {c : IncarnationCounter} (hc : w.counters[k]? = some c) :
    ∃ c', w'.counters[k]? = some c' ∧ c'.membership = c.membership ∧
      c.generations.current ≤ c'.generations.current := by
  refine h.invariant ⟨c, hc, rfl, Nat.le_refl _⟩ ?_
  rintro ⟨w, step, output, w'⟩ he - ⟨c', hc', hmembership, hle⟩
  have hmove : IdentityMove w step output w' := identityMove_of_edge he
  have hlt : k < w.counters.length := (List.getElem?_eq_some_iff.mp hc').1
  cases hmove with
  | @incarnate k' c₀ hk' =>
    rw [List.getElem?_set]
    by_cases hsame : k' = k
    · subst hsame
      cases hc'.symm.trans hk'
      rw [if_pos rfl, if_pos hlt]
      exact ⟨_, rfl, hmembership, Nat.le_succ_of_le hle⟩
    · rw [if_neg hsame]
      exact ⟨c', hc', hmembership, hle⟩
  | evict | ignore | adopt => exact ⟨c', hc', hmembership, hle⟩
  | mintNext | mintFresh | adoptNext =>
    exact ⟨c', (List.getElem?_append_left hlt).trans hc', hmembership, hle⟩

/-- An incarnation comes from one counter, which counts it. -/
theorem counter_of_incarnation {i : Incarnation}
    (he : stepEdge IdentityStep.apply e)
    (houtput : e.output = .incarnation i) :
    ∃ (k : ℕ) (c : IncarnationCounter), e.before.counters[k]? = some c ∧
      i = ⟨c.membership, c.generations.current + 1⟩ ∧
      e.after.counters[k]? = some (⟨i.membership, ⟨i.generation⟩⟩ : IncarnationCounter) := by
  obtain ⟨w, step, output, w'⟩ := e
  have hmove : IdentityMove w step output w' := identityMove_of_edge he
  subst houtput
  cases hmove with
  | @incarnate k c hc =>
    refine ⟨k, c, hc, rfl, ?_⟩
    rw [List.getElem?_set, if_pos rfl, if_pos (List.getElem?_eq_some_iff.mp hc).1]

/-- Incarnations of one membership are ordered by minting. -/
theorem incarnation_supersedes {declares : D → Bool} {pre mid post : List (IdentityEdge D)}
    {f : IdentityEdge D} (h : IdentityRun (pre ++ e :: (mid ++ f :: post)) w)
    (hlaw : Disciplined declares (pre ++ e :: (mid ++ f :: post))) {i j : Incarnation}
    (hi : e.output = .incarnation i) (hj : f.output = .incarnation j)
    (hsame : i.membership = j.membership) : j.supersedes i = true ∧ i.supersedes j = false := by
  have hsplit : pre ++ e :: (mid ++ f :: post) = (pre ++ [e] ++ mid) ++ (f :: post) := by simp
  obtain ⟨hpre, he, hrest⟩ := h.split_at
  obtain ⟨hmid, hf, -⟩ := hrest.split_at
  obtain ⟨k, c, hc, rfl, hafter⟩ := counter_of_incarnation he hi
  obtain ⟨k', c', hc', rfl, -⟩ := counter_of_incarnation hf hj
  obtain ⟨c₁, hc₁, hmembership, hle⟩ := counter_of_segment hmid hafter
  -- the memberships of the counters are distinct, so it is one counter
  have hrun := (hpre.snoc he).append hmid
  have hnodup : (f.before.counters.map IncarnationCounter.membership).Nodup := by
    rw [hsplit] at hlaw
    rw [counters_of_run hrun]
    exact issued_nodup hrun hlaw.left
  have hk : k = k' := by
    have hlt : k < (f.before.counters.map IncarnationCounter.membership).length := by
      rw [List.length_map]
      exact (List.getElem?_eq_some_iff.mp hc₁).1
    refine (List.getElem?_inj hlt hnodup).mp ?_
    rw [List.getElem?_map, List.getElem?_map, hc₁, hc']
    exact congrArg some (hmembership.trans hsame)
  subst hk
  obtain rfl : c₁ = c' := Option.some.inj (hc₁.symm.trans hc')
  replace hsame : c.membership = c₁.membership := hsame
  have hlt : c.generations.current + 1 ≤ c₁.generations.current := hle
  simp only [Incarnation.supersedes, hsame, decide_true, Bool.true_and, decide_eq_true_eq,
    decide_eq_false_iff_not]
  omega

end Tokens

/-- **Membership identity fencing.**  In any interleaving over any family of
domains that keeps the builders' discipline, issued memberships are distinct and
replacement is a strict partial order; what one stable domain got for one id is
ordered by time up to an eviction; across evictions, ids and stable domains
nothing is ordered; a stale eviction changes nothing; and incarnations are
ordered within a membership only, by minting. -/
theorem membership_identity_fencing {declares : D → Bool} {tr : List (IdentityEdge D)}
    {w : IdentityWorld D} (hrun : IdentityRun tr w) (hlaw : Disciplined declares tr) :
    (tr.filterMap IdentityEdge.issued).Nodup ∧
    IsStrictOrder Membership (fun m n => m.supersedes n = true) ∧
    (∀ (pre : List (IdentityEdge D)) (e : IdentityEdge D) (mid : List (IdentityEdge D))
        (f : IdentityEdge D) (post : List (IdentityEdge D)) (d d' : D) (id id' : ChildId)
        (m n : Membership),
      tr = pre ++ e :: (mid ++ f :: post) → IdentityEdge.grant e = some (d, id, m) →
      IdentityEdge.grant f = some (d', id', n) →
      (d = d' → id = id' → declares d = false →
        (∀ v ∈ mid, IdentityEdge.evicts d id v = false) →
          n.supersedes m = true ∧ m.supersedes n = false) ∧
      (d = d' → id = id' → declares d = false →
        (∃ v ∈ mid, IdentityEdge.evicts d id v = true) → m.Incomparable n) ∧
      (id ≠ id' → m.Incomparable n) ∧
      (d ≠ d' → declares d = false → declares d' = false → m.Incomparable n)) ∧
    (∀ (pre : List (IdentityEdge D)) (e : IdentityEdge D) (post : List (IdentityEdge D)) (d : D)
        (id : ChildId) (m : Membership),
      tr = pre ++ e :: post → e.input = .evict d id m →
      (pre.filterMap (IdentityEdge.grantTo d id)).getLast? ≠ some m → e.after = e.before) ∧
    (∀ (pre : List (IdentityEdge D)) (e : IdentityEdge D) (mid : List (IdentityEdge D))
        (f : IdentityEdge D) (post : List (IdentityEdge D)) (i j : Incarnation),
      tr = pre ++ e :: (mid ++ f :: post) → e.output = .incarnation i →
      f.output = .incarnation j →
      (i.membership = j.membership → j.supersedes i = true ∧ i.supersedes j = false) ∧
      (i.membership ≠ j.membership → j.supersedes i = false ∧ i.supersedes j = false)) := by
  refine ⟨issued_nodup hrun hlaw, supersedes_isStrictOrder, ?_, ?_, ?_⟩
  · rintro pre e mid f post d d' id id' m n rfl hgrant hgrant'
    refine ⟨?_, ?_, ?_, ?_⟩
    · rintro rfl rfl - hkept
      exact supersedes_of_kept hrun hgrant hgrant' hkept
    · rintro rfl rfl hstable hevicted
      exact Membership.incomparable_of_lineage
        (lineage_ne_of_evicted hrun hlaw hgrant hgrant' hstable hevicted)
    · intro hne
      exact Membership.incomparable_of_lineage (lineage_ne_of_id hrun hlaw hgrant hgrant' hne)
    · intro hne hstable hstable'
      exact Membership.incomparable_of_lineage
        (lineage_ne_of_domain hrun hlaw hgrant hgrant' hstable hstable' hne)
  · rintro pre e post d id m rfl hinput hstale
    exact unchanged_of_stale hrun hinput hstale
  · rintro pre e mid f post i j rfl hi hj
    refine ⟨incarnation_supersedes hrun hlaw hi hj, fun hne => ?_⟩
    simp [Incarnation.supersedes, hne, hne.symm]

/-- Two declarations of one child meet a stable scope (domain 0), which mints in
between, ignores a stale eviction and forgets the first lineage. -/
def fencingSteps : List (IdentityStep (Fin 3)) :=
  [.mint 1 ⟨"a"⟩, .adoptOrMint 0 1 ⟨⟨"a"⟩, ⟨1, 1⟩⟩, .incarnate 0, .mint 0 ⟨"a"⟩,
    .evict 0 ⟨"a"⟩ ⟨1, 1⟩, .evict 0 ⟨"a"⟩ ⟨1, 2⟩, .mint 2 ⟨"a"⟩,
    .adoptOrMint 0 2 ⟨⟨"a"⟩, ⟨2, 1⟩⟩, .incarnate 0]

theorem membership_identity_fencing_readded :
    ∃ (tr : List (IdentityEdge (Fin 3))) (w : IdentityWorld (Fin 3)),
      IdentityRun tr w ∧ Disciplined (fun d => d ≠ 0) tr ∧
      tr.filterMap IdentityEdge.issued = [⟨1, 1⟩, ⟨1, 2⟩, ⟨2, 1⟩] ∧
      (tr.filterMap IdentityEdge.issued).Nodup ∧
      ∃ pre e mid f post, tr = pre ++ e :: (mid ++ f :: post) ∧
        IdentityEdge.grant e = some (0, ⟨"a"⟩, ⟨1, 2⟩) ∧
        IdentityEdge.grant f = some (0, ⟨"a"⟩, ⟨2, 1⟩) ∧
        Membership.Incomparable ⟨1, 2⟩ ⟨2, 1⟩ := by
  have hexec : ∃ pre e mid f post w, exec (fun w step => IdentityStep.apply w step) .new
      fencingSteps = some (pre ++ e :: (mid ++ f :: post), w) ∧
      (pre ++ e :: (mid ++ f :: post)).filterMap IdentityEdge.issued =
        [⟨1, 1⟩, ⟨1, 2⟩, ⟨2, 1⟩] ∧
      IdentityEdge.grant e = some (0, ⟨"a"⟩, ⟨1, 2⟩) ∧
      IdentityEdge.grant f = some (0, ⟨"a"⟩, ⟨2, 1⟩) ∧
      ∃ v ∈ mid, IdentityEdge.evicts 0 ⟨"a"⟩ v = true :=
    ⟨[_, _, _], _, [_, _, _], _, [_], _, rfl, by decide, rfl, rfl, _,
      List.mem_cons_of_mem _ List.mem_cons_self, rfl⟩
  obtain ⟨pre, e, mid, f, post, w, hexec, hissued, he, hf, hevicted⟩ := hexec
  generalize htr : pre ++ e :: (mid ++ f :: post) = tr at hexec hissued
  have hinputs := exec_inputs _ hexec
  have hlaw : Disciplined (fun d => d ≠ 0) tr := by
    constructor
    · intro e he d source p hinput
      have hmem : e.input ∈ fencingSteps := hinputs ▸ List.mem_map_of_mem he
      rw [hinput] at hmem
      simp [fencingSteps] at hmem
      obtain ⟨rfl, rfl, -⟩ | ⟨rfl, rfl, -⟩ := hmem <;> decide
    · intro d id hdeclares
      have hcount : tr.countP (IdentityEdge.mints d id) =
          fencingSteps.countP (IdentityStep.mints d id) := by
        rw [← hinputs, List.countP_map]
        rfl
      rw [hcount]
      clear hcount
      by_cases hid : (⟨"a"⟩ : ChildId) = id
      · subst hid
        revert d
        decide
      · simp [fencingSteps, IdentityStep.mints, hid]
  have hrun := run_of_exec _ hexec
  obtain ⟨hnodup, -, hordered, -⟩ := membership_identity_fencing hrun hlaw
  have hgrants := hordered pre e mid f post 0 0 ⟨"a"⟩ ⟨"a"⟩ _ _ htr.symm he hf
  exact ⟨tr, w, hrun, hlaw, hissued, hnodup, pre, e, mid, f, post, htr.symm, he, hf,
    hgrants.2.1 rfl rfl rfl hevicted⟩

end Shelterwood
