import SymbolRecovery.Proofs.Retention
import SymbolRecovery.Proofs.Waiting

/-!
References to scopes. The forest and the list of unresolved items name scopes by their place, so
they could name some that are not there. Main statements: no history of operations leads to such a
context; and where there is no such reference, a scope that is put on the stack alone leaves the
walk as it was.
-/
namespace SymbolRecovery

namespace Nest
variable {n : Nest}

structure Grounded (n : Nest) : Prop where
  top : ∀ id ∈ n.top, id < n.size
  children : ∀ id, ∀ child ∈ n.children id, child < n.size

theorem Grounded.hold (grounded : n.Grounded) (position : Int) : (n.hold position).Grounded where
  top := by
    intro id listed
    rw [size_hold]
    exact Nat.lt_succ_of_lt (grounded.top id listed)
  children := by
    intro id child listed
    rw [children_hold] at listed
    rw [size_hold]
    exact Nat.lt_succ_of_lt (grounded.children id child listed)

theorem Grounded.enter (grounded : n.Grounded) (position : Int) : (n.enter position).Grounded where
  top := by
    intro id listed
    rw [top_enter] at listed
    rw [size_enter]
    split at listed
    · rcases List.mem_append.1 listed with old | new
      · exact Nat.lt_succ_of_lt (grounded.top id old)
      · rw [List.mem_singleton.1 new]
        exact Nat.lt_succ_self _
    · exact Nat.lt_succ_of_lt (grounded.top id listed)
  children := by
    intro id child listed
    rw [size_enter]
    simp only [Nest.children, getElem?_links_enter] at listed
    have old : ∀ child ∈ n.children id, child < n.size + 1 := fun child member =>
      Nat.lt_succ_of_lt (grounded.children id child member)
    split at listed
    · cases listed
    · unfold Nest.children at old
      cases here : n.links[id]? with
      | none => simp [here] at listed
      | some link =>
        simp only [here, Option.map_some, Option.getD_some] at listed old
        split at listed
        · rcases List.mem_append.1 listed with before | new
          · exact old child before
          · rw [List.mem_singleton.1 new]
            exact Nat.lt_succ_self _
        · exact old child listed

end Nest

namespace Context
variable {c : Context} {id : Nat}

theorem size_nest (c : Context) : c.nest.size = c.arena.length := List.length_map _

structure Grounded (c : Context) : Prop where
  nest : c.nest.Grounded
  waiting : ∀ item ∈ c.unresolved, (c.spot? item).isSome

theorem nest_retryUnresolved (c : Context) : c.retryUnresolved.2.nest = c.nest := by
  have keeps : ∀ (items : List Item) (address : Item → Option Int) (d : Context),
      (items.foldl (fun d item => d.setItemAddress (address item) item) d).nest = d.nest := by
    intro items address d
    induction items generalizing d with
    | nil => rfl
    | cons item rest ih =>
      rw [List.foldl_cons, ih]
      cases item with
      | contribution group index =>
        unfold setItemAddress
        dsimp only
        split <;> rfl
      | symbol id => rfl
      | scope id =>
        have blind : (d.arena.modify id fun s => { s with address := address (.scope id) }).map
            Scope.link = d.arena.map Scope.link := by
          apply map_modify_of_blind
          exact fun s => rfl
        simp only [setItemAddress, modifyScope, Context.nest, blind]
  exact keeps c.unresolved c.itemAddress? c

theorem nest_grounded_operate (grounded : c.nest.Grounded) (o : Operation) :
    (c.operate o).nest.Grounded := by
  cases o with
  | dispatch cursor =>
    rw [operate_dispatch, Cursor.effect]
    split
    · next r found =>
      rcases nest_perform c r cursor.position with ⟨form, -, moves⟩ | ⟨-, frames, moves⟩
      · rw [moves]
        split
        · exact grounded.enter _
        · exact grounded.hold _
      · rw [moves]
        exact ⟨grounded.top, grounded.children⟩
    · exact grounded
  | addSection s =>
    rw [operate, (c.sameScopes_addSection s).nest_eq]
    exact grounded
  | setLayout layout => exact grounded
  | resolve =>
    obtain ⟨sections, addresses, same⟩ := c.resolveSections_eq
    rw [operate, same]
    exact grounded
  | retry =>
    rw [operate, nest_retryUnresolved]
    exact grounded

theorem Grounded.operate (grounded : c.Grounded) (o : Operation) : (c.operate o).Grounded where
  nest := nest_grounded_operate grounded.nest o
  waiting := by
    intro item waits
    by_cases again : o = .retry
    · subst again
      obtain ⟨groups, arena, symbols, same⟩ := c.retryUnresolved_eq
      rw [Context.operate, same] at waits
      rw [Context.operate, spot?_retry_isSome]
      exact grounded.waiting item (List.mem_filter.1 waits).1
    · have gains := c.gains_operate again
      rw [isSome_spot?_operate]
      rw [gains.unresolved_eq, List.mem_append] at waits
      rcases waits with before | new
      · exact .inl (grounded.waiting item before)
      · obtain ⟨f, adds, -, same⟩ := mem_waiting_iff.1 new
        exact .inr ⟨f, adds, same⟩

theorem grounded_operateAll (layout : Option LoadLayout) (options : Options)
    (history : List Operation) : (operateAll { layout, options } history).Grounded := by
  induction history using List.reverseRecOn with
  | nil =>
    refine ⟨⟨?_, ?_⟩, ?_⟩
    · intro id listed
      cases listed
    · simp [operateAll, Context.nest, Nest.children]
    · intro item waits
      cases waits
  | append_singleton history o ih =>
    rw [operateAll_concat]
    exact ih.operate o

theorem getElem?_subtrees (c : Context) (id : Nat) :
    c.subtrees[id]? = c.arena[id]?.map fun s =>
      (0, id) :: (s.children.filterMap fun child =>
        if id < child then c.subtrees[child]? else none).flatten.map fun entry =>
          (entry.1 + 1, entry.2) := by
  unfold subtrees
  rw [getElem?_foldScopes]
  simp only [Nat.zero_add, Nat.sub_zero]

theorem getElem?_subtrees_pushScope (grounded : c.Grounded) (s : Scope) (endKinds : List Kind)
    (endOffset : Option Int) (old : id < c.arena.length) :
    (c.pushScope s endKinds endOffset).subtrees[id]? = c.subtrees[id]? := by
  induction left : c.arena.length - id using Nat.strongRecOn generalizing id with
  | ind k ih =>
    have there := List.getElem?_eq_getElem old
    have children : c.nest.children id = c.arena[id].children := by
      simp [Nest.children, Context.nest, there, Scope.link]
    have later : ∀ child ∈ c.arena[id].children,
        (if id < child then (c.pushScope s endKinds endOffset).subtrees[child]? else none) =
          if id < child then c.subtrees[child]? else none := by
      intro child listed
      have known : child < c.arena.length :=
        c.size_nest ▸ grounded.nest.children id child (children ▸ listed)
      split
      · next behind => exact ih (c.arena.length - child) (by omega) known rfl
      · rfl
    rw [getElem?_subtrees, getElem?_subtrees, arena_pushScope, List.getElem?_append_left old,
      there, Option.map_some, Option.map_some, List.filterMap_congr later]

theorem walk_pushScope (grounded : c.Grounded) (s : Scope) (endKinds : List Kind)
    (endOffset : Option Int) : (c.pushScope s endKinds endOffset).walk = c.walk := by
  refine List.flatMap_congr ?_
  intro id listed
  have known : id < c.arena.length := c.size_nest ▸ grounded.nest.top id listed
  rw [getElem?_subtrees_pushScope grounded s endKinds endOffset known]

theorem lt_of_mem_subtree {depth x : Nat} (member : (depth, x) ∈ (c.subtrees[id]?).getD []) :
    x < c.arena.length := by
  induction left : c.arena.length - id using Nat.strongRecOn generalizing id depth with
  | ind k ih =>
    rw [getElem?_subtrees] at member
    cases here : c.arena[id]? with
    | none => simp [here] at member
    | some s =>
      have old := (List.getElem?_eq_some_iff.1 here).1
      rw [here, Option.map_some, Option.getD_some, List.mem_cons] at member
      rcases member with root | later
      · cases root
        exact old
      · simp only [List.mem_map, List.mem_flatten, List.mem_filterMap] at later
        obtain ⟨⟨lower, y⟩, ⟨entries, ⟨child, -, found⟩, inside⟩, same⟩ := later
        cases same
        split at found
        · next behind =>
          have below : (lower, y) ∈ (c.subtrees[child]?).getD [] := by
            rw [found]
            exact inside
          exact ih (c.arena.length - child) (by omega) below rfl
        · cases found

theorem lt_of_mem_walk (member : id ∈ c.walk) : id < c.arena.length := by
  obtain ⟨root, -, inside⟩ := List.mem_flatMap.1 member
  obtain ⟨⟨depth, x⟩, listed, rfl⟩ := List.mem_map.1 inside
  exact lt_of_mem_subtree listed

end Context
end SymbolRecovery
