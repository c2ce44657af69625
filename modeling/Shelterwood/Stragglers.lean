/-
Shelterwood/Stragglers.lean

The stragglers of a scope whose shutdown deadline expired.

`collect_stragglers` walks the residents of a scope depth first.  Whether a node is
reported is read off the length of the output, before and after its subtree was visited.
The specification knows no output: `branches` lists every node in preorder with the
nodes above it, and the report is the branches that pass through live nodes only and end
at a live node without a live child.
-/
import Shelterwood.Member
import Mathlib.Data.List.Chain

namespace Shelterwood

/-- A resident, with the residents of its own scope if it is one. -/
inductive ResidentTree
  | resident (member : MemberCell) (scope : Option (List ResidentTree))

/-- A child path and membership that exceeded a scope shutdown deadline. -/
structure ShutdownStraggler where
  path : List ChildId
  membership : Membership
  deriving DecidableEq, Repr

def MemberCell.terminalOrDisposalPending (member : MemberCell) : Bool :=
  member.terminalDisposalPending || member.record.stage.isTerminal

mutual

/-- The loop over the residents of a scope with this path. -/
def collectStragglers : List ResidentTree → List ChildId → List ShutdownStraggler →
    List ShutdownStraggler
  | [], _, out => out
  | child :: rest, path, out => collectStragglers rest path (collectChild child path out)

/-- One round of the loop. -/
def collectChild : ResidentTree → List ChildId → List ShutdownStraggler → List ShutdownStraggler
  | .resident member scope, path, out =>
    if member.terminalOrDisposalPending then out
    else
      let visited :=
        match scope with
        | none => out
        | some nested => collectStragglers nested (path ++ [member.id]) out
      if visited.length = out.length then
        visited ++ [⟨path ++ [member.id], member.membership⟩]
      else visited

end

/-! ### The nodes of a tree -/

namespace ResidentTree

def member : ResidentTree → MemberCell
  | .resident member _ => member

def children : ResidentTree → List ResidentTree
  | .resident _ scope => scope.getD []

def Live (t : ResidentTree) : Prop := t.member.terminalOrDisposalPending = false

instance : DecidablePred Live := fun _ => inferInstanceAs (Decidable (_ = _))

end ResidentTree

/-- A node, and the nodes above it from the outermost on. -/
structure Branch where
  above : List ResidentTree
  node : ResidentTree

namespace Branch

/-- The node is live, under live nodes, and has no live child. -/
def Reported (b : Branch) : Prop :=
  (∀ t ∈ b.above, t.Live) ∧ b.node.Live ∧ ∀ t ∈ b.node.children, ¬ t.Live

instance : DecidablePred Reported := fun _ => inferInstanceAs (Decidable (_ ∧ _ ∧ _))

/-- The node of `b` is a proper ancestor of the node of `b'`. -/
def IsAncestor (b b' : Branch) : Prop := b.above ++ [b.node] <+: b'.above

/-- The entry of a node under a scope with this path. -/
def straggler (path : List ChildId) (b : Branch) : ShutdownStraggler :=
  ⟨path ++ (b.above ++ [b.node]).map fun t => t.member.id, b.node.member.membership⟩

def under (t : ResidentTree) (b : Branch) : Branch := ⟨t :: b.above, b.node⟩

end Branch

mutual

/-- Every node of some trees, in preorder. -/
def branches : List ResidentTree → List Branch
  | [] => []
  | t :: rest => branchesOf t ++ branches rest

def branchesOf : ResidentTree → List Branch
  | .resident member none => [⟨[], .resident member none⟩]
  | .resident member (some nested) =>
    ⟨[], .resident member (some nested)⟩ ::
      (branches nested).map (Branch.under (.resident member (some nested)))

end

theorem branchesOf_eq (t : ResidentTree) :
    branchesOf t = ⟨[], t⟩ :: (branches t.children).map (Branch.under t) := by
  obtain ⟨member, _ | nested⟩ := t
  · simp [branchesOf, branches, ResidentTree.children]
  · rw [branchesOf, ResidentTree.children, Option.getD_some]

theorem mem_branches {ts : List ResidentTree} {b : Branch} :
    b ∈ branches ts ↔ ∃ t ∈ ts, b ∈ branchesOf t := by
  induction ts with
  | nil => simp [branches]
  | cons t rest ih => simp [branches, ih]

theorem mem_branchesOf {t : ResidentTree} {b : Branch} :
    b ∈ branchesOf t ↔ b = ⟨[], t⟩ ∨ ∃ b' ∈ branches t.children, Branch.under t b' = b := by
  rw [branchesOf_eq, List.mem_cons, List.mem_map]

/-- Induction along a branch, from its outermost node down. -/
@[elab_as_elim]
theorem branch_induction {P : List ResidentTree → Branch → Prop}
    (node : ∀ ts t, t ∈ ts → P ts ⟨[], t⟩)
    (under : ∀ ts t b, t ∈ ts → b ∈ branches t.children → P t.children b →
      P ts (Branch.under t b)) {ts : List ResidentTree} {b : Branch} (h : b ∈ branches ts) :
    P ts b := by
  obtain ⟨above, last⟩ := b
  induction above generalizing ts with
  | nil =>
    obtain ⟨t, ht, hb⟩ := mem_branches.1 h
    rcases mem_branchesOf.1 hb with heq | ⟨b', -, heq⟩
    · cases heq
      exact node ts last ht
    · cases heq
  | cons first above ih =>
    obtain ⟨t, ht, hb⟩ := mem_branches.1 h
    rcases mem_branchesOf.1 hb with heq | ⟨b', hb', heq⟩
    · cases heq
    · cases heq
      exact under ts first _ ht hb' (ih hb')

/-- Below the node of a branch the branches go on. -/
theorem branches_extend {ts : List ResidentTree} {b d : Branch} (h : b ∈ branches ts)
    (hd : d ∈ branchesOf b.node) : ⟨b.above ++ d.above, d.node⟩ ∈ branches ts := by
  revert hd
  refine branch_induction ?_ ?_ h
  · intro ts t ht hd
    exact mem_branches.2 ⟨t, ht, hd⟩
  · intro ts t b ht _ ih hd
    exact mem_branches.2 ⟨t, ht, mem_branchesOf.2 (.inr ⟨_, ih hd, rfl⟩)⟩

/-- Each node of a branch is a child of the one above it. -/
theorem branch_chain {ts : List ResidentTree} {b : Branch} (h : b ∈ branches ts) :
    (∀ t, (b.above ++ [b.node]).head? = some t → t ∈ ts) ∧
      (b.above ++ [b.node]).IsChain fun t c => c ∈ t.children := by
  refine branch_induction ?_ ?_ h
  · intro ts t ht
    refine ⟨?_, .singleton t⟩
    rintro _ ⟨⟩
    exact ht
  · rintro ts t b ht - ⟨hhead, hchain⟩
    refine ⟨?_, List.isChain_cons.2 ⟨hhead, hchain⟩⟩
    rintro _ ⟨⟩
    exact ht

/-! ### What is reported -/

mutual

/-- Under a live node something is reported. -/
theorem exists_reported : ∀ t : ResidentTree, t.Live →
    ∃ b ∈ branchesOf t, b.Reported ∧ (b = ⟨[], t⟩ ∨ [t] <+: b.above)
  | .resident member none, hlive =>
    ⟨_, mem_branchesOf.2 (.inl rfl), ⟨by simp, hlive, by simp [ResidentTree.children]⟩, .inl rfl⟩
  | .resident member (some nested), hlive => by
    rcases exists_reported_child nested with hnone | ⟨b, hb, hreported⟩
    · exact ⟨_, mem_branchesOf.2 (.inl rfl), ⟨by simp, hlive, hnone⟩, .inl rfl⟩
    · refine ⟨_, mem_branchesOf.2 (.inr ⟨b, hb, rfl⟩), ⟨?_, hreported.2⟩, .inr ⟨b.above, rfl⟩⟩
      exact List.forall_mem_cons.2 ⟨hlive, hreported.1⟩

theorem exists_reported_child : ∀ ts : List ResidentTree,
    (∀ t ∈ ts, ¬ t.Live) ∨ ∃ b ∈ branches ts, b.Reported
  | [] => .inl (by simp)
  | t :: rest => by
    by_cases hlive : t.Live
    · obtain ⟨b, hb, hreported, -⟩ := exists_reported t hlive
      exact .inr ⟨b, mem_branches.2 ⟨t, List.mem_cons_self, hb⟩, hreported⟩
    · rcases exists_reported_child rest with hnone | ⟨b, hb, hreported⟩
      · exact .inl (List.forall_mem_cons.2 ⟨hlive, hnone⟩)
      · obtain ⟨t', ht', hb'⟩ := mem_branches.1 hb
        exact .inr ⟨b, mem_branches.2 ⟨t', List.mem_cons_of_mem t ht', hb'⟩, hreported⟩

end

/-- The reported branches of some trees. -/
def reported (ts : List ResidentTree) : List Branch :=
  (branches ts).filter fun b => b.Reported

theorem reported_eq_nil_iff {ts : List ResidentTree} : reported ts = [] ↔ ∀ t ∈ ts, ¬ t.Live := by
  simp only [reported, List.filter_eq_nil_iff, decide_eq_true_eq]
  constructor
  · intro h
    exact (exists_reported_child ts).resolve_right fun ⟨b, hb, hreported⟩ => h b hb hreported
  · intro h b hb hreported
    obtain ⟨t, ht, hbt⟩ := mem_branches.1 hb
    rcases mem_branchesOf.1 hbt with rfl | ⟨b', -, rfl⟩
    · exact h t ht hreported.2.1
    · exact h t ht (hreported.1 t List.mem_cons_self)

theorem reported_under {t : ResidentTree} (hlive : t.Live) :
    ((branches t.children).map (Branch.under t)).filter (fun b => b.Reported) =
      (reported t.children).map (Branch.under t) := by
  rw [List.filter_map]
  congr 2
  funext b
  exact decide_eq_decide.2 (by simp [Branch.Reported, Branch.under, hlive])

/-- What one node adds to the report. -/
theorem reported_branchesOf (t : ResidentTree) : (branchesOf t).filter (fun b => b.Reported) =
    if t.Live then
      if reported t.children = [] then [⟨[], t⟩] else (reported t.children).map (Branch.under t)
    else [] := by
  split_ifs with hlive hnone
  · have hself : (⟨[], t⟩ : Branch).Reported := ⟨by simp, hlive, reported_eq_nil_iff.1 hnone⟩
    rw [branchesOf_eq, List.filter_cons_of_pos (by simpa using hself), reported_under hlive, hnone]
    rfl
  · have hself : ¬ (⟨[], t⟩ : Branch).Reported := fun h => hnone (reported_eq_nil_iff.2 h.2.2)
    rw [branchesOf_eq, List.filter_cons_of_neg (by simpa using hself), reported_under hlive]
  · have hdead := reported_eq_nil_iff.2 (List.forall_mem_singleton.2 hlive)
    rwa [reported, branches, branches, List.append_nil] at hdead

/-- The loop body adds an entry for a live node, or those of its subtree. -/
theorem entry_or_subtree {member : MemberCell} {scope : Option (List ResidentTree)}
    {path : List ChildId} {out visited : List ShutdownStraggler}
    (hvisited : visited = out ++
      (reported (scope.getD [])).map (Branch.straggler (path ++ [member.id]))) :
    (if member.terminalOrDisposalPending then out
      else if visited.length = out.length then
        visited ++ [⟨path ++ [member.id], member.membership⟩]
      else visited) =
      out ++ ((branchesOf (.resident member scope)).filter fun b => b.Reported).map
        (Branch.straggler path) := by
  have hentries : ∀ b, Branch.straggler path (Branch.under (.resident member scope) b) =
      Branch.straggler (path ++ [member.id]) b := fun b => by
    simp [Branch.straggler, Branch.under, ResidentTree.member]
  rw [hvisited, reported_branchesOf]
  cases hdead : member.terminalOrDisposalPending with
  | true =>
    have hlive : ¬ (ResidentTree.resident member scope).Live := fun h => by
      rw [ResidentTree.Live, ResidentTree.member, hdead] at h
      cases h
    simp [hlive]
  | false =>
    have hlive : (ResidentTree.resident member scope).Live := hdead
    by_cases hnone : reported (scope.getD []) = []
    · simp [hlive, hnone, ResidentTree.children, Branch.straggler, ResidentTree.member]
    · simp [hlive, hnone, ResidentTree.children, Function.comp_def, hentries]

mutual

theorem collectStragglers_eq : ∀ (ts : List ResidentTree) (path : List ChildId)
    (out : List ShutdownStraggler),
    collectStragglers ts path out = out ++ (reported ts).map (Branch.straggler path)
  | [], path, out => by simp [collectStragglers, reported, branches]
  | t :: rest, path, out => by
    rw [collectStragglers, collectStragglers_eq rest, collectChild_eq t]
    simp only [reported, branches, List.filter_append, List.map_append, List.append_assoc]

theorem collectChild_eq : ∀ (t : ResidentTree) (path : List ChildId)
    (out : List ShutdownStraggler), collectChild t path out =
      out ++ ((branchesOf t).filter fun b => b.Reported).map (Branch.straggler path)
  | .resident member none, path, out => by
    rw [collectChild]
    exact entry_or_subtree (by simp [reported, branches])
  | .resident member (some nested), path, out => by
    rw [collectChild]
    exact entry_or_subtree (collectStragglers_eq nested (path ++ [member.id]) out)

end

/-- **The report is a complete antichain**: in preorder, every live node under live nodes
that has no live child.  None is below another, and every live node under live nodes is
reported or has a reported node below it. -/
theorem straggler_report (ts : List ResidentTree) (path : List ChildId)
    (out : List ShutdownStraggler) :
    collectStragglers ts path out =
      out ++ ((branches ts).filter fun b => b.Reported).map (Branch.straggler path) ∧
    (∀ b ∈ branches ts, ∀ b' ∈ branches ts, b.Reported → b'.Reported → ¬ b.IsAncestor b') ∧
    (∀ b ∈ branches ts, (∀ t ∈ b.above, t.Live) → b.node.Live →
      ∃ b' ∈ branches ts, b'.Reported ∧ (b' = b ∨ b.IsAncestor b')) ∧
    (collectStragglers ts path [] = [] ↔ ∀ t ∈ ts, ¬ t.Live) := by
  refine ⟨collectStragglers_eq ts path out, ?_, ?_, ?_⟩
  · rintro b - b' hb' ⟨-, -, hnone⟩ ⟨habove, hnode, -⟩ ⟨rest, hrest⟩
    -- the next node on the way down is a live child
    have hchain := (branch_chain hb').2
    rw [← hrest, List.append_assoc, List.append_assoc] at hchain
    have hlive : ∀ t ∈ rest ++ [b'.node], t.Live := by
      intro t ht
      rcases List.mem_append.1 ht with ht | ht
      · exact habove t (hrest ▸ List.mem_append_right _ ht)
      · exact List.mem_singleton.1 ht ▸ hnode
    obtain ⟨next, others, hnext⟩ := List.exists_cons_of_ne_nil
      (List.append_ne_nil_of_right_ne_nil rest (List.cons_ne_nil b'.node []))
    rw [hnext] at hchain hlive
    exact hnone next (List.isChain_append_cons_cons.1 hchain).2.1 (hlive next List.mem_cons_self)
  · intro b hb habove hnode
    obtain ⟨d, hd, hreported, hbelow⟩ := exists_reported b.node hnode
    refine ⟨_, branches_extend hb hd, ⟨?_, hreported.2⟩, ?_⟩
    · exact List.forall_mem_append.2 ⟨habove, hreported.1⟩
    · rcases hbelow with rfl | ⟨rest, hrest⟩
      · exact .inl (by simp)
      · exact .inr ⟨rest, by rw [List.append_assoc, hrest]⟩
  · rw [collectStragglers_eq, List.nil_append, List.map_eq_nil_iff, reported_eq_nil_iff]

end Shelterwood
