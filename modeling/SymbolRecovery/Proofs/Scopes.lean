import SymbolRecovery.Proofs.Effect

/-!
What effects do to scopes. Records that describe something touch the scopes only by adding to
their symbols; a begin record adds one scope and one frame; an end record takes frames away and
closes one scope. Main statements: for each of these, arena, top level and stack afterwards.
-/
namespace SymbolRecovery

def Scope.withoutSymbols (s : Scope) : Scope := { s with symbols := [] }

theorem map_modify_of_comm {α β : Type} {f : α → β} {g : α → α} {h : β → β}
    (comm : ∀ a, f (g a) = h (f a)) (l : List α) (i : Nat) :
    (l.modify i g).map f = (l.map f).modify i h := by
  apply List.ext_getElem?
  intro j
  simp only [List.getElem?_map, List.getElem?_modify]
  cases l[j]? with
  | none => rfl
  | some a => by_cases here : i = j <;> simp [here, comm]

theorem map_modify_of_blind {α β : Type} {f : α → β} {g : α → α} (blind : ∀ a, f (g a) = f a)
    (l : List α) (i : Nat) : (l.modify i g).map f = l.map f :=
  (map_modify_of_comm (h := fun b => b) blind l i).trans (List.modify_id i _)

theorem map_mapIdx_of_blind {α β : Type} {f : α → β} {g : Nat → α → α}
    (blind : ∀ i a, f (g i a) = f a) (l : List α) : (l.mapIdx g).map f = l.map f := by
  apply List.ext_getElem?
  intro i
  rw [List.getElem?_map, List.getElem?_mapIdx, Option.map_map, List.getElem?_map]
  congr 1
  funext a
  exact blind i a

theorem modify_length_append {α : Type} (l r : List α) (a : α) (f : α → α) :
    (l ++ a :: r).modify l.length f = l ++ f a :: r := by
  rw [List.modify_eq_take_cons_drop (by simp)]
  simp

namespace Context

structure SameScopes (c d : Context) : Prop where
  layout_eq : d.layout = c.layout
  options_eq : d.options = c.options
  arena_eq : d.arena.map Scope.withoutSymbols = c.arena.map Scope.withoutSymbols
  top_eq : d.top = c.top
  stack_eq : d.stack = c.stack

theorem SameScopes.refl (c : Context) : c.SameScopes c := ⟨rfl, rfl, rfl, rfl, rfl⟩

theorem SameScopes.trans {c d e : Context} (first : c.SameScopes d) (second : d.SameScopes e) :
    c.SameScopes e :=
  ⟨second.layout_eq.trans first.layout_eq, second.options_eq.trans first.options_eq,
    second.arena_eq.trans first.arena_eq, second.top_eq.trans first.top_eq,
    second.stack_eq.trans first.stack_eq⟩

theorem SameScopes.map_arena {α : Type} {f : Scope → α} {c d : Context} (same : c.SameScopes d)
    (blind : ∀ s symbols, f { s with symbols } = f s) : d.arena.map f = c.arena.map f := by
  have alike : f = f ∘ Scope.withoutSymbols := funext fun s => (blind s []).symm
  rw [alike, ← List.map_map, ← List.map_map, same.arena_eq]

variable (c : Context)

theorem sameScopes_resolveSection (s : ImageSection) : c.SameScopes (c.resolveSection s) := by
  unfold resolveSection
  split
  · exact .refl c
  · exact ⟨rfl, rfl, rfl, rfl, rfl⟩

theorem sameScopes_addSection (s : ImageSection) : c.SameScopes (c.addSection s) := by
  refine SameScopes.trans ?_ (sameScopes_resolveSection _ s)
  exact ⟨rfl, rfl, rfl, rfl, rfl⟩

theorem sameScopes_await (item : Item) (address : Option Int) :
    c.SameScopes (c.await item address) := by
  cases address with
  | none => exact ⟨rfl, rfl, rfl, rfl, rfl⟩
  | some address => exact .refl c

theorem sameScopes_addContribution (name : String) (characteristics : Int)
    (part : Contribution) : c.SameScopes (c.addContribution name characteristics part) := by
  refine SameScopes.trans ?_ (sameScopes_await _ _ _)
  exact ⟨rfl, rfl, rfl, rfl, rfl⟩

theorem sameScopes_addSymbol (s : Symbol) : c.SameScopes (c.addSymbol s) := by
  unfold addSymbol
  cases c.currentScope? with
  | none => exact ⟨rfl, rfl, rfl, rfl, rfl⟩
  | some scope =>
    refine ⟨rfl, rfl, ?_, rfl, rfl⟩
    apply map_modify_of_blind
    exact fun s => rfl

theorem sameScopes_describeUnit (position language machine : Int) (version : String) :
    c.SameScopes (c.describeUnit position language machine version) := by
  unfold describeUnit
  split <;> exact ⟨rfl, rfl, rfl, rfl, rfl⟩

theorem sameScopes_make (change : Change) : c.SameScopes (c.make change) := by
  cases change with
  | addSection s => exact sameScopes_addSection c s
  | addContribution group characteristics part => exact sameScopes_addContribution c _ _ _
  | addSymbol s => exact .trans (sameScopes_await c _ _) (sameScopes_addSymbol _ _)
  | addUnit u => exact ⟨rfl, rfl, rfl, rfl, rfl⟩
  | describeUnit position language machine version =>
    exact sameScopes_describeUnit c position language machine version

def newFrame (form : ScopeForm) (endOffset : Option Int) : OpenScope :=
  { scope := c.arena.length, endKinds := form.endKinds, endOffset, below := c.currentScope? }

def found (form : ScopeForm) (s : Scope) : Scope :=
  let address := if form.addressed then c.translate s.sectionIndex s.offset else s.address
  { s with address, parent := c.currentScope?, module := c.currentModule? }

@[simp] theorem stack_pushScope (s : Scope) (form : ScopeForm) (endOffset : Option Int) :
    (c.pushScope s form.endKinds endOffset).stack = c.newFrame form endOffset :: c.stack := rfl

@[simp] theorem arena_pushScope (s : Scope) (endKinds : List Kind) (endOffset : Option Int) :
    (c.pushScope s endKinds endOffset).arena = c.arena ++ [s] := rfl

@[simp] theorem top_pushScope (s : Scope) (endKinds : List Kind) (endOffset : Option Int) :
    (c.pushScope s endKinds endOffset).top = c.top := rfl

theorem await_eq (item : Item) (address : Option Int) :
    ∃ unresolved, c.await item address = { c with unresolved } := by
  cases address with
  | none => exact ⟨_, rfl⟩
  | some address => exact ⟨_, rfl⟩

theorem length_arena_attachScope : c.attachScope.arena.length = c.arena.length := by
  unfold attachScope
  cases c.currentScope? with
  | none => rfl
  | some parent => exact List.length_modify _ _ _

theorem map_arena_attachScope {α : Type} {f : Scope → α}
    (blind : ∀ s children, f { s with children } = f s) :
    c.attachScope.arena.map f = c.arena.map f := by
  unfold attachScope
  cases c.currentScope? with
  | none => rfl
  | some parent =>
    apply map_modify_of_blind
    exact fun s => blind s _

theorem stack_attachScope : c.attachScope.stack = c.stack := by
  unfold attachScope
  cases c.currentScope? <;> rfl

theorem openScope_eq (form : ScopeForm) (s : Scope) (endOffset : Option Int) :
    c.openScope s form.endKinds endOffset =
      { c.attachScope with
        arena := c.attachScope.arena ++
          [{ s with parent := c.currentScope?, module := c.currentModule? }]
        stack := c.newFrame form endOffset :: c.stack } := by
  simp only [openScope, pushScope, length_arena_attachScope, stack_attachScope, currentScope?,
    newFrame]

theorem enterScope_eq (form : ScopeForm) (s : Scope) (endOffset : Option Int) :
    ∃ unresolved, c.enterScope form s endOffset =
      { c.attachScope with
        arena := c.attachScope.arena ++ [c.found form s]
        stack := c.newFrame form endOffset :: c.stack
        unresolved } := by
  unfold enterScope found
  cases form.addressed with
  | true =>
    obtain ⟨unresolved, waits⟩ :=
      c.await_eq (.scope c.arena.length) (c.translate s.sectionIndex s.offset)
    refine ⟨unresolved, ?_⟩
    simp only [↓reduceIte, locateScope, waits, openScope_eq, attachScope, currentScope?]
    cases c.stack.head? <;> rfl
  | false => exact ⟨c.attachScope.unresolved, openScope_eq c form s endOffset⟩

theorem closeScope_eq (kind : Kind) :
    c.closeScope kind =
      { c with
        stack := (c.unwinding kind).remaining
        arena := match (c.unwinding kind).closed with
          | some o => c.arena.modify o.scope fun s => { s with closed := true }
          | none => c.arena } := by
  simp only [closeScope]
  cases (c.unwinding kind).closed <;> rfl

theorem map_arena_closeScope {α : Type} {f : Scope → α}
    (blind : ∀ s, f { s with closed := true } = f s) (kind : Kind) :
    (c.closeScope kind).arena.map f = c.arena.map f := by
  rw [closeScope_eq]
  cases (c.unwinding kind).closed with
  | none => rfl
  | some o =>
    apply map_modify_of_blind
    exact blind

@[simp] theorem options_perform (effect : Effect) : (c.perform effect).options = c.options := by
  cases effect with
  | ignored => rfl
  | refused cause => rfl
  | describes change => exact (c.sameScopes_make change).options_eq
  | holds form placeholder cause => rfl
  | opens form s endOffset =>
    obtain ⟨unresolved, enters⟩ := c.enterScope_eq form s endOffset
    simp only [perform, enters, attachScope]
    split <;> rfl
  | closes kind => rw [perform, closeScope_eq]

end Context

theorem unwind_parts (kind : Kind) (stack : List OpenScope) :
    stack = (unwind kind stack).discarded ++ (unwind kind stack).closed.toList ++
      (unwind kind stack).remaining := by
  induction stack with
  | nil => rfl
  | cons top below ih =>
    unfold unwind
    split
    · rfl
    · dsimp only
      rw [List.cons_append, List.cons_append, ← ih]

end SymbolRecovery
