import SymbolRecovery.Context.Forest
import SymbolRecovery.Proofs.Nest

/-!
The walk through the forest of scopes. Going through all scopes backwards gives for each of them
the scope itself and then what is below its children, one child after another. Main statement: the
walk meets the scopes in the order in which they were found, and so none of them twice; and it
meets the children of every scope that it meets.
-/
namespace SymbolRecovery

def Scope.link (s : Scope) : Link :=
  { parent := s.parent, children := s.children, position := s.position }

namespace Context

/-- How the scopes of a context lie within one another. -/
def nest (c : Context) : Nest where
  links := c.arena.map Scope.link
  top := c.top
  frames := c.stack.map (·.scope)

def below (c : Context) (id : ScopeId) : List ScopeId := (c.subtree id).map (·.2)

end Context

theorem getElem?_foldScopes {α : Type} (f : ScopeId → Scope → List α → α) (scopes : List Scope)
    (base i : Nat) :
    (foldScopes f base scopes)[i]? = scopes[i]?.map fun s =>
      f (base + i) s (s.children.filterMap fun child =>
        if base + i < child then (foldScopes f base scopes)[child - base]? else none) := by
  induction scopes generalizing base i with
  | nil => rfl
  | cons s later ih =>
    have shift : ∀ (j : Nat) (children : List ScopeId),
        (children.filterMap fun child =>
          if base + j < child then (foldScopes f (base + 1) later)[child - (base + 1)]? else none) =
        children.filterMap fun child =>
          if base + j < child then (foldScopes f base (s :: later))[child - base]? else none := by
      intro j children
      congr 1
      funext child
      split
      · next behind =>
        have next : child - base = child - (base + 1) + 1 := by omega
        rw [next, foldScopes, List.getElem?_cons_succ]
      · rfl
    cases i with
    | zero =>
      rw [List.getElem?_cons_zero, Option.map_some, ← shift 0]
      rfl
    | succ i =>
      have same : base + 1 + i = base + (i + 1) := by omega
      rw [foldScopes, List.getElem?_cons_succ, List.getElem?_cons_succ, ih]
      simp only [same, shift]
      rfl

namespace Context
variable {c : Context} {id last x : ScopeId}

theorem below_of_children {children : List ScopeId} (behind : ∀ child ∈ children, id < child) :
    ((children.filterMap fun child => if id < child then c.subtrees[child]? else none).flatten.map
      fun entry => (entry.1 + 1, entry.2)).map (·.2) = children.flatMap c.below := by
  induction children with
  | nil => rfl
  | cons child later ih =>
    rw [List.forall_mem_cons] at behind
    have rest := ih behind.2
    rw [List.filterMap_cons, if_pos behind.1, List.flatMap_cons, ← rest]
    unfold below subtree
    cases c.subtrees[child]? with
    | none => rfl
    | some entries => simp

theorem below_eq (ordered : c.nest.Ordered) (known : id < c.nest.size) :
    c.below id = id :: (c.nest.children id).flatMap c.below := by
  have behind : ∀ child ∈ c.nest.children id, id < child := by
    intro child member
    exact ordered.owner_lt (ordered.child_iff.1 member)
  have inside : id < c.arena.length := by simpa [nest, Nest.size] using known
  have there := List.getElem?_eq_getElem inside
  have children : c.nest.children id = c.arena[id].children := by
    simp [Nest.children, nest, there, Scope.link]
  rw [← below_of_children behind, children]
  simp only [below, subtree]
  rw [subtrees, getElem?_foldScopes, there]
  simp

theorem lt_size_of_child (ordered : c.nest.Ordered) {child : ScopeId}
    (member : child ∈ c.nest.children id) : child < c.nest.size :=
  Nest.lt_size_of_parent? (ordered.child_iff.1 member)

theorem induction_on_children {motive : ∀ id, id < c.nest.size → Prop} (ordered : c.nest.Ordered)
    (step : ∀ id known, (∀ child (listed : child ∈ c.nest.children id),
      motive child (lt_size_of_child ordered listed)) → motive id known) :
    ∀ id known, motive id known := by
  intro id known
  induction left : c.nest.size - id using Nat.strongRecOn generalizing id with
  | ind k ih =>
    refine step id known ?_
    intro child listed
    have found := lt_size_of_child ordered listed
    have behind := ordered.owner_lt (ordered.child_iff.1 listed)
    exact ih (c.nest.size - child) (by omega) child found rfl

theorem le_of_mem_below (ordered : c.nest.Ordered) (known : id < c.nest.size)
    (member : x ∈ c.below id) : id ≤ x := by
  induction id, known using induction_on_children ordered with
  | step id known ih =>
    rw [below_eq ordered known] at member
    rcases List.mem_cons.1 member with root | later
    · exact Nat.le_of_eq root.symm
    · obtain ⟨child, listed, inside⟩ := List.mem_flatMap.1 later
      have behind := ordered.owner_lt (ordered.child_iff.1 listed)
      exact Nat.le_trans (Nat.le_of_lt behind) (ih child listed inside)

theorem lt_of_mem_below (ordered : c.nest.Ordered) (known : id < c.nest.size)
    (behind : id < last) (outside : ¬ c.nest.Within id last) (member : x ∈ c.below id) :
    x < last := by
  induction id, known using induction_on_children ordered with
  | step id known ih =>
    rw [below_eq ordered known] at member
    rcases List.mem_cons.1 member with root | later
    · rw [root]
      exact behind
    · obtain ⟨child, listed, inside⟩ := List.mem_flatMap.1 later
      have owned := ordered.child_iff.1 listed
      have after := ordered.owner_lt owned
      have before : child < last := by
        refine Nat.lt_of_not_le ?_
        intro within
        exact outside (ordered.within_parent owned behind within)
      refine ih child listed before ?_ inside
      intro within
      exact outside ⟨within.1, fun owner has =>
        Nat.le_trans (Nat.le_of_lt after) (within.2 owner has)⟩

theorem below_ascends (ordered : c.nest.Ordered) (known : id < c.nest.size) :
    (c.below id).Pairwise (· < ·) := by
  induction id, known using induction_on_children ordered with
  | step id known ih =>
    rw [below_eq ordered known, List.pairwise_cons, List.pairwise_flatMap]
    refine ⟨?_, ih, ?_⟩
    · intro x later
      obtain ⟨child, listed, inside⟩ := List.mem_flatMap.1 later
      have behind := ordered.owner_lt (ordered.child_iff.1 listed)
      have after := le_of_mem_below ordered (lt_size_of_child ordered listed) inside
      exact Nat.lt_of_lt_of_le behind after
    · refine (ordered.children_ascend id).imp_of_mem ?_
      intro first second listed also ascends x inside y within
      have owned := ordered.child_iff.1 listed
      have outside : ¬ c.nest.Within first second := by
        intro lies
        have before := lies.2 id (ordered.child_iff.1 also)
        have after := ordered.owner_lt owned
        omega
      have before :=
        lt_of_mem_below ordered (lt_size_of_child ordered listed) ascends outside inside
      have after := le_of_mem_below ordered (lt_size_of_child ordered also) within
      exact Nat.lt_of_lt_of_le before after

/-- The walk meets the scopes in the order in which they were found. -/
theorem walk_ascends (ordered : c.nest.Ordered) : c.walk.Pairwise (· < ·) := by
  change (c.top.flatMap c.below).Pairwise (· < ·)
  rw [List.pairwise_flatMap]
  constructor
  · intro id root
    exact below_ascends ordered (ordered.root root).1
  · refine List.Pairwise.imp_of_mem ?_ ordered.top_ascends
    intro first second root also ascends x inside y within
    have outside : ¬ c.nest.Within first second := fun lies => lies.1 also
    have before := lt_of_mem_below ordered (ordered.root root).1 ascends outside inside
    have after := le_of_mem_below ordered (ordered.root also).1 within
    exact Nat.lt_of_lt_of_le before after

theorem mem_below_self (ordered : c.nest.Ordered) (known : id < c.nest.size) :
    id ∈ c.below id := by
  rw [below_eq ordered known]
  exact List.mem_cons_self

theorem below_closed (ordered : c.nest.Ordered) (known : id < c.nest.size)
    (member : x ∈ c.below id) :
    x < c.nest.size ∧ ∀ child ∈ c.nest.children x, child ∈ c.below id := by
  induction id, known using induction_on_children ordered with
  | step id known ih =>
    rw [below_eq ordered known] at member ⊢
    rcases List.mem_cons.1 member with root | later
    · rw [root]
      refine ⟨known, ?_⟩
      intro child listed
      have found := lt_size_of_child ordered listed
      exact List.mem_cons_of_mem _
        (List.mem_flatMap.2 ⟨child, listed, mem_below_self ordered found⟩)
    · obtain ⟨between, listed, inside⟩ := List.mem_flatMap.1 later
      obtain ⟨found, closed⟩ := ih between listed inside
      refine ⟨found, ?_⟩
      intro child member
      exact List.mem_cons_of_mem _ (List.mem_flatMap.2 ⟨between, listed, closed child member⟩)

theorem mem_walk_of_top (ordered : c.nest.Ordered) (root : id ∈ c.top) : id ∈ c.walk :=
  List.mem_flatMap.2 ⟨id, root, mem_below_self ordered (ordered.root root).1⟩

theorem walk_closed (ordered : c.nest.Ordered) (member : x ∈ c.walk) :
    x < c.nest.size ∧ ∀ child ∈ c.nest.children x, child ∈ c.walk := by
  obtain ⟨root, top, inside⟩ := List.mem_flatMap.1 member
  obtain ⟨found, closed⟩ := below_closed ordered (ordered.root top).1 inside
  refine ⟨found, ?_⟩
  intro child listed
  exact List.mem_flatMap.2 ⟨root, top, closed child listed⟩

end Context
end SymbolRecovery
