/-
Shelterwood/TreeShape.lean

The shape of a resident forest, and what its projections depend on.

A forest is well linked when its parent links have no cycle, an announced child
scope is linked to the scope that announced it, and no membership has two
residencies.  Then the chain of a scope is its whole way to the root, and the
recursive projection is the fixed point of one level of it (`projectLocked_eq`).

One level of the projection reads the scope's own row and the faces of its
announced children.  A change to other cells is invisible there; a change to some
rows can only reach the projections of scopes above them
(`projectLocked_congr`).
-/
import Shelterwood.ObservationTree

namespace Shelterwood

variable [TokioBroadcast LifecycleEvent]

/-! ### Views of a cell -/

namespace TreeCell

/-- What a scope's own projection shows of its cell. -/
def row (cell : TreeCell) :
    ScopeState × ScopeFlavor × Intensity × TotalRestarts × ℕ × List Membership :=
  (cell.scope.record.state, cell.flavor, cell.intensity, cell.scope.record.totalRestarts,
    cell.lifecycleSeq, (cell.currentChildren.filter (·.announced)).map ResidentChild.member)

/-- What the projection of the announcing scope shows of a child's cell. -/
def face (cell : TreeCell) : ChildId × MemberRecord × ResolvedCommonOptions × ℕ :=
  (cell.scope.member.id, cell.scope.member.record, cell.options, cell.lifecycleSeq)

/-- What belongs to the event stream and the hubs. -/
def log (cell : TreeCell) : ChildId × ℕ × LifecycleHub × Option SnapshotHubState × Bool :=
  (cell.scope.member.id, cell.lifecycleSeq, cell.lifecycle, cell.snapshots, cell.scope.closed)

/-- The residency edges. -/
def shape (cell : TreeCell) : Option Membership × List ResidentChild :=
  (cell.parent, cell.currentChildren)

end TreeCell

namespace Forest

@[simp]
theorem modify_arena (f : Forest) (m : Membership) (g : TreeCell → TreeCell) :
    (f.modify m g).arena = f.arena := rfl

@[simp]
theorem modify_unwound (f : Forest) (m : Membership) (g : TreeCell → TreeCell) :
    (f.modify m g).unwound = f.unwound := rfl

@[simp]
theorem modify_emitted (f : Forest) (m : Membership) (g : TreeCell → TreeCell) :
    (f.modify m g).emitted = f.emitted := rfl

@[simp]
theorem modify_cells_self (f : Forest) (m : Membership) (g : TreeCell → TreeCell) :
    (f.modify m g).cells m = g (f.cells m) := Function.update_self ..

variable {m : Membership}

theorem modify_cells_of_ne (f : Forest) {x : Membership} (g : TreeCell → TreeCell) (h : x ≠ m) :
    (f.modify m g).cells x = f.cells x := Function.update_of_ne h ..

/-- A view that the change keeps at its cell is kept everywhere. -/
theorem view_modify {β : Type} (view : TreeCell → β) (f : Forest) (m : Membership)
    (g : TreeCell → TreeCell) (h : view (g (f.cells m)) = view (f.cells m)) (x : Membership) :
    view ((f.modify m g).cells x) = view (f.cells x) := by
  by_cases hx : x = m
  · subst hx
    rw [modify_cells_self, h]
  · rw [modify_cells_of_ne f g hx]

/-! ### Well linked forests -/

def residents (f : Forest) (s : Membership) : List Membership :=
  (f.cells s).currentChildren.map ResidentChild.member

variable {f : Forest} {s : Membership}

theorem mem_residents_of_announced (h : m ∈ f.announcedChildren s) : m ∈ f.residents s := by
  obtain ⟨r, hr, rfl⟩ := List.mem_map.1 h
  exact List.mem_map_of_mem (List.mem_of_mem_filter hr)

/-- The member has left `reserved`, or its admission unwound. -/
def Entered (f : Forest) (m : Membership) : Prop :=
  (f.member m).record.stage ≠ .reserved ∨ m ∈ f.unwound

structure WellLinked (f : Forest) : Prop where
  acyclic : Acyclic f.parentOf
  /-- Only scopes have parents. -/
  listed : ∀ c p, f.parentOf c = some p → c ∈ f.arena
  /-- A scope reports to the scope it is resident in, if to any. -/
  held : ∀ c p, f.parentOf c = some p → c ∈ f.residents p
  /-- An announced child scope does report. -/
  linked : ∀ s m, m ∈ f.announcedChildren s → m ∈ f.arena → f.parentOf m = some s
  nodup : ∀ s, (f.residents s).Nodup
  /-- A membership is resident in one scope at most. -/
  single : ∀ s s' m, m ∈ f.residents s → m ∈ f.residents s' → s = s'
  /-- A resident has left `reserved`, unless its admission unwound. -/
  entered : ∀ s m, m ∈ f.residents s → f.Entered m
  /-- Only scopes have residents. -/
  owner : ∀ s m, m ∈ f.residents s → s ∈ f.arena

theorem IsNew.residents (h : f.IsNew) (s : Membership) : f.residents s = [] := by
  obtain ⟨id, options, flavor, intensity, hcell⟩ := h.cells s
  simp [Forest.residents, hcell, TreeCell.new]

theorem IsNew.parentOf (h : f.IsNew) (s : Membership) : f.parentOf s = none := by
  obtain ⟨id, options, flavor, intensity, hcell⟩ := h.cells s
  simp [Forest.parentOf, hcell, TreeCell.new]

theorem IsNew.wellLinked (h : f.IsNew) : f.WellLinked where
  acyclic := ⟨fun _ => 0, fun c p hp => by rw [h.parentOf] at hp; cases hp⟩
  listed := fun c p hp => by rw [h.parentOf] at hp; cases hp
  held := fun c p hp => by rw [h.parentOf] at hp; cases hp
  linked := fun s m hm _ => by
    have hres := mem_residents_of_announced hm
    rw [h.residents] at hres
    cases hres
  nodup := fun s => by rw [h.residents]; exact List.nodup_nil
  single := fun s _ m hm => by rw [h.residents] at hm; cases hm
  entered := fun s m hm => by rw [h.residents] at hm; cases hm
  owner := fun s m hm => by rw [h.residents] at hm; cases hm

/-- The residency edges are kept, and no member goes back to `reserved`. -/
structure SameShape (f f' : Forest) : Prop where
  arena : f'.arena = f.arena
  unwound : f'.unwound = f.unwound
  shape : ∀ m, (f'.cells m).shape = (f.cells m).shape
  entered : ∀ m, (f.member m).record.stage ≠ .reserved →
    (f'.member m).record.stage ≠ .reserved

namespace SameShape

variable {f f' : Forest} (h : f.SameShape f')
include h

theorem parentOf (m : Membership) : f'.parentOf m = f.parentOf m :=
  congrArg Prod.fst (h.shape m)

theorem currentChildren (m : Membership) :
    (f'.cells m).currentChildren = (f.cells m).currentChildren :=
  congrArg Prod.snd (h.shape m)

theorem residents (m : Membership) : f'.residents m = f.residents m := by
  simp only [Forest.residents, h.currentChildren]

theorem announcedChildren (m : Membership) : f'.announcedChildren m = f.announcedChildren m := by
  simp only [Forest.announcedChildren, h.currentChildren]

theorem ancestors (m : Membership) : f'.ancestors m = f.ancestors m := by
  simp only [Forest.ancestors, h.arena]
  exact climb_congr h.parentOf _ m

theorem chain (m : Membership) : f'.chain m = f.chain m := by
  simp only [Forest.chain, h.ancestors]

theorem entered_mono {m : Membership} (hm : f.Entered m) : f'.Entered m :=
  hm.imp (h.entered m) fun hunwound => h.unwound ▸ hunwound

theorem wellLinked (hf : f.WellLinked) : f'.WellLinked where
  acyclic := hf.acyclic.mono fun c p hp => by rwa [h.parentOf] at hp
  listed := fun c p hp => by
    rw [h.parentOf] at hp
    rw [h.arena]
    exact hf.listed c p hp
  held := fun c p hp => by
    rw [h.parentOf] at hp
    rw [h.residents]
    exact hf.held c p hp
  linked := fun s m hm hscope => by
    rw [h.announcedChildren] at hm
    rw [h.arena] at hscope
    rw [h.parentOf]
    exact hf.linked s m hm hscope
  nodup := fun s => by rw [h.residents]; exact hf.nodup s
  single := fun s s' m hm hm' => by
    rw [h.residents] at hm hm'
    exact hf.single s s' m hm hm'
  entered := fun s m hm => by
    rw [h.residents] at hm
    exact h.entered_mono (hf.entered s m hm)
  owner := fun s m hm => by
    rw [h.residents] at hm
    rw [h.arena]
    exact hf.owner s m hm

end SameShape

theorem SameShape.refl (f : Forest) : f.SameShape f := ⟨rfl, rfl, fun _ => rfl, fun _ => id⟩

variable {f' : Forest}

theorem SameShape.trans {f'' : Forest} (h : f.SameShape f') (h' : f'.SameShape f'') :
    f.SameShape f'' where
  arena := h'.arena.trans h.arena
  unwound := h'.unwound.trans h.unwound
  shape := fun m => (h'.shape m).trans (h.shape m)
  entered := fun m hm => h'.entered m (h.entered m hm)

/-- A change that keeps the edges of its cell and does not reserve it again. -/
theorem sameShape_modify (f : Forest) (m : Membership) (g : TreeCell → TreeCell)
    (hshape : (g (f.cells m)).shape = (f.cells m).shape)
    (hentered : (f.member m).record.stage ≠ .reserved →
      (g (f.cells m)).scope.member.record.stage ≠ .reserved) :
    f.SameShape (f.modify m g) where
  arena := rfl
  unwound := rfl
  shape := view_modify TreeCell.shape f m g hshape
  entered := fun x hx => by
    by_cases h : x = m
    · subst h
      simpa only [member, modify_cells_self] using hentered hx
    · simpa only [member, modify_cells_of_ne f g h] using hx

/-! ### Chains -/

namespace WellLinked

variable {f : Forest} (hf : f.WellLinked)
include hf

theorem chain_climbs (s : Membership) : Climbs f.parentOf s (f.chain s) :=
  climb_climbs hf.acyclic hf.listed s

theorem chain_nodup (s : Membership) : (f.chain s).Nodup := by
  obtain ⟨rank, hrank⟩ := hf.acyclic
  exact (hf.chain_climbs s).nodup hrank

variable {s : Membership}

/-- A chain consists of scopes. -/
theorem mem_arena_of_mem_chain {x : Membership} (hs : s ∈ f.arena) (hx : x ∈ f.chain s) :
    x ∈ f.arena := by
  have hclimbs := hf.chain_climbs s
  generalize f.chain s = chain at hclimbs hx
  induction hclimbs with
  | root _ => rwa [List.mem_singleton.1 hx]
  | @link c p chain hlink _ ih =>
    rcases List.mem_cons.1 hx with rfl | hx
    · exact hs
    · exact ih (hf.owner p c (hf.held c p hlink)) hx

/-- A resident with a parent link is not above the scope it is resident in. -/
theorem parentOf_of_mem_chain {m : Membership} (hm : m ∈ f.residents s) (hchain : m ∈ f.chain s) :
    f.parentOf m = none := by
  obtain ⟨rank, hrank⟩ := hf.acyclic
  cases hp : f.parentOf m with
  | none => rfl
  | some p =>
    have hps : p = s := hf.single p s m (hf.held m p hp) hm
    subst hps
    have hlt := hrank m p hp
    have hle := (hf.chain_climbs p).rank_le hrank m hchain
    omega

/-- A forest of which no link of the chain changed has the same chain. -/
theorem chain_eq {f' : Forest} (hf' : f'.WellLinked)
    (hsame : ∀ x ∈ f.chain s, f'.parentOf x = f.parentOf x) : f'.chain s = f.chain s :=
  ((hf.chain_climbs s).congr hsame).unique (hf'.chain_climbs s)

/-- A scope that announced a scope of the chain is on the chain. -/
theorem mem_chain_of_announced {x p : Membership} (hx : x ∈ f.chain s)
    (hannounced : x ∈ f.announcedChildren p) (hscope : x ∈ f.arena) : p ∈ f.chain s :=
  (hf.chain_climbs s).mem_parent hx (hf.linked p x hannounced hscope)

end WellLinked

/-- Closed under the scopes that announce a scope of it. -/
def UpClosed (f : Forest) (R : Membership → Prop) : Prop :=
  ∀ s m, m ∈ f.announcedChildren s → m ∈ f.arena → R m → R s

theorem WellLinked.upClosed_chain (hf : f.WellLinked) (s : Membership) :
    f.UpClosed (· ∈ f.chain s) :=
  fun _ _ hannounced hscope hx => hf.mem_chain_of_announced hx hannounced hscope

theorem upClosed_empty (f : Forest) : f.UpClosed fun _ => False := fun _ _ _ _ h => h

/-! ### Projections -/

/-- One level of the projection reads the nested snapshots of announced child
scopes only. -/
theorem projectWith_congr (f : Forest) {nested nested' : Membership → Option ScopeSnapshot}
    (h : ∀ m ∈ f.announcedChildren s, m ∈ f.arena → nested m = nested' m) :
    f.projectWith nested s = f.projectWith nested' s := by
  have hchildren : (f.announcedChildren s).map (f.childSnapshotLocked nested) =
      (f.announcedChildren s).map (f.childSnapshotLocked nested') := by
    apply List.map_congr_left
    intro m hm
    by_cases hscope : m ∈ f.arena
    · simp only [childSnapshotLocked, h m hm hscope]
    · have hprojects : f.projects m = false := by simp [projects, isScope, hscope]
      simp only [childSnapshotLocked, hprojects, Bool.false_eq_true, if_false]
  simp only [projectWith, hchildren]

/-- Deeper than its rank, a scope's projection does not depend on the depth. -/
theorem projectWithin_eq_of_rank (hf : f.WellLinked) {rank : Membership → ℕ}
    (hrank : Ranked f.parentOf rank) :
    ∀ (n n' : ℕ) (s : Membership), rank s ≤ n → rank s ≤ n' →
      f.projectWithin n s = f.projectWithin n' s := by
  -- an announced child scope has a lower rank, so depth zero has none to show
  have hlower : ∀ {s m : Membership}, m ∈ f.announcedChildren s → m ∈ f.arena →
      rank m < rank s := fun hm hscope => hrank _ _ (hf.linked _ _ hm hscope)
  intro n
  induction n with
  | zero =>
    intro n' s hn _
    cases n' with
    | zero => rfl
    | succ n' =>
      apply projectWith_congr
      intro m hm hscope
      exact absurd (hlower hm hscope) (by omega)
  | succ n ih =>
    intro n' s hn hn'
    cases n' with
    | zero =>
      apply projectWith_congr
      intro m hm hscope
      exact absurd (hlower hm hscope) (by omega)
    | succ n' =>
      apply projectWith_congr
      intro m hm hscope
      have hlt := hlower hm hscope
      exact congrArg some (ih n' m (by omega) (by omega))

/-- The recursive projection is one level over itself. -/
theorem projectLocked_eq (hf : f.WellLinked) (s : Membership) :
    f.projectLocked s = f.projectWith (fun c => some (f.projectLocked c)) s := by
  obtain ⟨rank, hrank⟩ := hf.acyclic
  have hamong := hrank.among hf.listed
  have hbound := rankAmong_le f.arena rank
  exact projectWithin_eq_of_rank hf hamong f.arena.length (f.arena.length + 1) s (hbound s)
    (Nat.le_succ_of_le (hbound s))

/-- One level of the projection is the same. -/
def SameRow (f f' : Forest) (s : Membership) : Prop :=
  ∀ nested, f'.projectWith nested s = f.projectWith nested s

theorem childSnapshotLocked_congr (harena : f'.arena = f.arena)
    (hface : (f'.cells m).face = (f.cells m).face) (nested : Membership → Option ScopeSnapshot) :
    f'.childSnapshotLocked nested m = f.childSnapshotLocked nested m := by
  simp only [TreeCell.face, Prod.mk.injEq] at hface
  obtain ⟨hid, hrecord, hoptions, hseq⟩ := hface
  have hscope : f'.isScope m = f.isScope m := by simp only [isScope, harena]
  have hprojects : f'.projects m = f.projects m := by
    simp only [projects, hscope, member, hrecord]
  simp only [childSnapshotLocked, member, hscope, hprojects, hid, hrecord, hoptions, hseq]

/-- A level depends on the scope's row and its announced children's faces. -/
theorem sameRow_of (harena : f'.arena = f.arena) (hrow : (f'.cells s).row = (f.cells s).row)
    (hface : ∀ m ∈ f.announcedChildren s, (f'.cells m).face = (f.cells m).face) :
    f.SameRow f' s := by
  intro nested
  simp only [TreeCell.row, Prod.mk.injEq] at hrow
  obtain ⟨hstate, hflavor, hintensity, htotal, hseq, hchildren⟩ := hrow
  replace hchildren : f'.announcedChildren s = f.announcedChildren s := hchildren
  have hmap : (f.announcedChildren s).map (f'.childSnapshotLocked nested) =
      (f.announcedChildren s).map (f.childSnapshotLocked nested) :=
    List.map_congr_left fun m hm => childSnapshotLocked_congr harena (hface m hm) nested
  simp only [projectWith, hstate, hflavor, hintensity, htotal, hseq, hchildren, hmap]

/-- A change of one cell reaches its own level, if it changes its row, and the
levels that announce it, if it changes its face. -/
theorem sameRow_modify (f : Forest) (m : Membership) (g : TreeCell → TreeCell)
    (hrow : s = m → (g (f.cells m)).row = (f.cells m).row)
    (hface : m ∈ f.announcedChildren s → (g (f.cells m)).face = (f.cells m).face) :
    f.SameRow (f.modify m g) s := by
  refine sameRow_of (f.modify_arena m g) ?_ ?_
  · by_cases h : s = m
    · subst h
      rw [modify_cells_self]
      exact hrow rfl
    · rw [modify_cells_of_ne f g h]
  · intro x hx
    by_cases h : x = m
    · subst h
      rw [modify_cells_self]
      exact hface hx
    · rw [modify_cells_of_ne f g h]

/-- Rows that changed below no scope outside `R` leave its projections alone. -/
theorem projectLocked_congr (harena : f'.arena = f.arena) {R : Membership → Prop}
    (hup : f.UpClosed R) (hrows : ∀ s, ¬ R s → f.SameRow f' s) (hs : ¬ R s) :
    f'.projectLocked s = f.projectLocked s := by
  have hwithin : ∀ (n : ℕ) (s : Membership), ¬ R s →
      f'.projectWithin n s = f.projectWithin n s := by
    intro n
    induction n with
    | zero => exact fun s hs => hrows s hs _
    | succ n ih =>
      intro s hs
      show f'.projectWith _ s = f.projectWith _ s
      rw [hrows s hs]
      apply projectWith_congr
      intro m hm hscope
      exact congrArg some (ih m fun hR => hs (hup s m hm hscope hR))
  simp only [projectLocked, harena]
  exact hwithin _ s hs

theorem projectLocked_congr_all (harena : f'.arena = f.arena) (hrows : ∀ s, f.SameRow f' s)
    (s : Membership) : f'.projectLocked s = f.projectLocked s :=
  projectLocked_congr harena f.upClosed_empty (fun s _ => hrows s) id

end Forest

end Shelterwood
