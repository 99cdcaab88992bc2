import SymbolRecovery.Proofs.Balance
import SymbolRecovery.Proofs.Interior

/-!
What there is outside of all scopes, as a context of its own. Main statements: outside of all scopes
it does not matter to what a record tells how the scopes were gone through; a scope that is gone
through is there like one that is opened and closed at once; and the items that are left stand for
what they stood for.
-/
namespace SymbolRecovery

inductive Referent where
  | contribution (group : String) (part : Contribution)
  | symbol (s : Symbol)
  | scope (s : Scope)
deriving Repr, DecidableEq

def Referent.emptied : Referent → Referent
  | scope s => scope s.emptied
  | referent => referent

theorem getElem?_filterMap_of_isSome {α β : Type} {f : α → Option β} {l : List α}
    (there : ∀ a ∈ l, (f a).isSome) (i : Nat) : (l.filterMap f)[i]? = l[i]?.bind f := by
  induction l generalizing i with
  | nil => rfl
  | cons a rest ih =>
    obtain ⟨b, image⟩ := Option.isSome_iff_exists.1 (there a List.mem_cons_self)
    rw [List.filterMap_cons_some image]
    cases i with
    | zero => simp [image]
    | succ i => exact ih (fun a member => there a (List.mem_cons_of_mem _ member)) i

theorem getElem?_filter_of_countP {α : Type} {p : α → Bool} {l : List α} {i : Nat} {a : α}
    (here : l[i]? = some a) (holds : p a = true) :
    (l.filter p)[(l.take i).countP p]? = some a := by
  induction l generalizing i with
  | nil => simp at here
  | cons first rest ih =>
    cases i with
    | zero =>
      cases here
      simp [holds]
    | succ i =>
      have later := ih here
      cases front : p first <;> simp [front, later]

namespace Context

def isOuter (c : Context) : Item → Bool
  | .contribution .. => true
  | .symbol id => c.symbols[id]?.any fun s => s.scope.isNone
  | .scope id => id ∈ c.top

def renumbered (c : Context) : Item → Item
  | .contribution group index => .contribution group index
  | .symbol id => .symbol ((c.symbols.take id).countP fun s => s.scope.isNone)
  | .scope id => .scope (c.top.idxOf id)

/-- What there is outside of all scopes. -/
def outermost (options : Options) (c : Context) : Context :=
  { c with
    options
    arena := c.top.filterMap fun id => c.arena[id]?.map Scope.emptied
    top := List.range c.top.length
    symbols := c.symbols.filter fun s => s.scope.isNone
    stack := []
    unresolved := (c.unresolved.filter c.isOuter).map c.renumbered }

structure Outside (c : Context) : Prop where
  stack_eq : c.stack = []
  top_known : ∀ id ∈ c.top, id < c.arena.length
  unresolved_known : ∀ item ∈ c.unresolved, ¬ c.IsNew item

variable {c d : Context} {options : Options} {form : ScopeForm} {s : Scope} {kind : Kind}

theorem outside_fresh (layout : Option LoadLayout) (options : Options) :
    Outside { layout, options } :=
  ⟨rfl, by simp, by simp⟩

theorem currentScope?_of_empty (stack : c.stack = []) : c.currentScope? = none := by
  rw [currentScope?, stack]
  rfl

theorem outer_unresolved_of_grown (outside : c.Outside) {more : List Symbol} {found : List ScopeId}
    (symbols : d.symbols = c.symbols ++ more) (top : d.top = c.top ++ found)
    (new : ∀ id ∈ found, c.arena.length ≤ id) :
    (c.unresolved.filter d.isOuter).map d.renumbered =
      (c.unresolved.filter c.isOuter).map c.renumbered := by
  have alike : ∀ item, ¬ c.IsNew item → d.isOuter item = c.isOuter item := by
    intro item old
    cases item with
    | contribution group index => rfl
    | symbol id =>
      have here : id < c.symbols.length := Nat.not_le.1 old
      rw [isOuter, isOuter, symbols, List.getElem?_append_left here]
    | scope id =>
      have here : id < c.arena.length := Nat.not_le.1 old
      have elsewhere : id ∉ found := fun member => Nat.not_le.2 here (new id member)
      simp [isOuter, top, elsewhere]
  have same : c.unresolved.filter d.isOuter = c.unresolved.filter c.isOuter :=
    List.filter_congr fun item member => alike item (outside.unresolved_known item member)
  rw [same]
  apply List.map_congr_left
  intro item member
  obtain ⟨waits, outer⟩ := List.mem_filter.1 member
  cases item with
  | contribution group index => rfl
  | symbol id =>
    have here : id < c.symbols.length := Nat.not_le.1 (outside.unresolved_known _ waits)
    rw [renumbered, renumbered, symbols, List.take_append_of_le_length (Nat.le_of_lt here)]
  | scope id =>
    have here : id ∈ c.top := of_decide_eq_true outer
    rw [renumbered, renumbered, top, List.idxOf_append, if_pos here]

theorem outer_unresolved_of_added (options : Options) (outside : c.Outside) {more : List Symbol}
    {found : List ScopeId} (symbols : d.symbols = c.symbols ++ more) (top : d.top = c.top ++ found)
    (new : ∀ id ∈ found, c.arena.length ≤ id) {late : Bool} {item place : Item}
    (waits : d.unresolved = c.unresolved ++ if late then [item] else [])
    (outer : d.isOuter item = true) (moves : d.renumbered item = place) :
    (d.unresolved.filter d.isOuter).map d.renumbered =
      (c.outermost options).unresolved ++ if late then [place] else [] := by
  rw [waits, List.filter_append, List.map_append, outer_unresolved_of_grown outside symbols top new]
  cases late with
  | false => rfl
  | true => simp [outermost, outer, moves]

theorem Outside.of_added (outside : c.Outside) (stack : d.stack = [])
    (top : ∀ id ∈ d.top, id < d.arena.length) (arena : c.arena.length ≤ d.arena.length)
    (symbols : c.symbols.length ≤ d.symbols.length) {late : Bool} {item : Item}
    (waits : d.unresolved = c.unresolved ++ if late then [item] else [])
    (there : ¬ d.IsNew item) : d.Outside where
  stack_eq := stack
  top_known := top
  unresolved_known := by
    intro other member new
    rw [waits] at member
    rcases List.mem_append.1 member with old | added
    · exact outside.unresolved_known other old (new.of_le arena symbols)
    · cases late with
      | false => cases added
      | true => exact there (List.mem_singleton.1 added ▸ new)

theorem make_addSymbol_of_empty (stack : c.stack = []) (s : Symbol) :
    c.make (.addSymbol s) = { c with
      symbols := c.symbols ++ [{ s with
        address := c.translate s.sectionIndex s.offset, scope := none
        module := c.currentModule? }]
      unresolved := c.unresolved ++ if (c.translate s.sectionIndex s.offset).isNone
        then [.symbol c.symbols.length] else [] } := by
  simp only [make, locateSymbol, await_eq_append, addSymbol, currentScope?, stack, List.head?_nil,
    Option.map_none]
  rfl

theorem outside_make (outside : c.Outside) (change : Change) : (c.make change).Outside := by
  cases change with
  | addSection s =>
    obtain ⟨sections, addresses, same⟩ := c.addSection_eq s
    rw [make, same]
    exact ⟨outside.stack_eq, outside.top_known, outside.unresolved_known⟩
  | addContribution group characteristics part =>
    simp only [make, addContribution, await_eq_append]
    exact outside.of_added outside.stack_eq outside.top_known (Nat.le_refl _) (Nat.le_refl _) rfl id
  | addSymbol s =>
    rw [make_addSymbol_of_empty outside.stack_eq]
    exact outside.of_added outside.stack_eq outside.top_known (Nat.le_refl _) (by simp) rfl
      (by simp [IsNew])
  | addUnit u => exact ⟨outside.stack_eq, outside.top_known, outside.unresolved_known⟩
  | describeUnit position language machine version =>
    simp only [make, describeUnit]
    split <;> exact ⟨outside.stack_eq, outside.top_known, outside.unresolved_known⟩

theorem outermost_addSymbol (outside : c.Outside) (s : Symbol) :
    (c.make (.addSymbol s)).outermost options = (c.outermost options).make (.addSymbol s) := by
  have added := make_addSymbol_of_empty outside.stack_eq s
  rw [@make_addSymbol_of_empty (c.outermost options) rfl]
  generalize c.make (.addSymbol s) = d at added
  have top : d.top = c.top ++ [] := by rw [added, List.append_nil]
  have unresolved := outer_unresolved_of_added options outside (congrArg Context.symbols added) top
    (by simp) (congrArg Context.unresolved added) (by simp [added, isOuter])
    (by rw [added, renumbered, List.take_left, List.countP_eq_length_filter])
  rw [outermost, unresolved, added]
  simp [outermost, List.filter_append, translate, currentModule?, currentUnit?]

theorem outermost_make (outside : c.Outside) (change : Change) :
    (c.make change).outermost options = (c.outermost options).make change := by
  cases change with
  | addSection s =>
    simp only [make, addSection, resolveSection]
    have known : (c.outermost options).layout = c.layout := rfl
    simp only [loadBase?, known]
    cases c.layout.bind (· s.index) <;> rfl
  | addContribution group characteristics part =>
    simp only [make, addContribution, await_eq_append, outermost, List.filter_append,
      List.map_append, translate]
    cases c.addresses.get? part.sectionIndex <;> rfl
  | addSymbol s => exact outermost_addSymbol outside s
  | addUnit u => rfl
  | describeUnit position language machine version =>
    simp only [make, describeUnit]
    have units : (c.outermost options).units = c.units := rfl
    rw [units]
    cases c.units.isEmpty <;> rfl

theorem enterScope_of_empty (stack : c.stack = []) (form : ScopeForm) (s : Scope)
    (endOffset : Option Int) :
    c.enterScope form s endOffset = { c with
      top := c.top ++ [c.arena.length]
      arena := c.arena ++ [c.found form s]
      stack := [c.newFrame form endOffset]
      unresolved := c.unresolved ++
        if form.addressed && (c.translate s.sectionIndex s.offset).isNone
          then [.scope c.arena.length] else [] } := by
  unfold enterScope found newFrame
  cases addressed : form.addressed with
  | true =>
    simp only [↓reduceIte, locateScope, await_eq_append, openScope, pushScope, attachScope,
      currentScope?, stack, List.head?_nil, Option.map_none, Bool.true_and]
    rfl
  | false =>
    simp only [Bool.false_eq_true, ↓reduceIte, openScope, pushScope, attachScope, currentScope?,
      stack, List.head?_nil, Option.map_none, Bool.false_and, List.append_nil]

theorem closeScope_enterScope (stack : c.stack = []) (s : Scope) (endOffset : Option Int)
    (fits : kind ∈ form.endKinds) :
    (c.enterScope form s endOffset).closeScope kind = { c with
      top := c.top ++ [c.arena.length]
      arena := c.arena ++ [{ c.found form s with closed := true }]
      unresolved := c.unresolved ++
        if form.addressed && (c.translate s.sectionIndex s.offset).isNone
          then [.scope c.arena.length] else [] } := by
  have entered := enterScope_of_empty stack form s endOffset
  rw [closeScope_of_fits (congrArg Context.stack entered) fits, entered]
  simp only [newFrame, modify_length_append, ← stack]

theorem outside_scope (outside : c.Outside) (s : Scope) (endOffset : Option Int)
    (fits : kind ∈ form.endKinds) :
    ((c.enterScope form s endOffset).closeScope kind).Outside := by
  rw [closeScope_enterScope outside.stack_eq s endOffset fits]
  refine outside.of_added outside.stack_eq (fun id member => ?_) (by simp) (Nat.le_refl _) rfl
    (by simp [IsNew])
  rw [List.length_append, List.length_singleton]
  rcases List.mem_append.1 member with old | last
  · exact Nat.lt_succ_of_lt (outside.top_known id old)
  · exact List.mem_singleton.1 last ▸ Nat.lt_succ_self _

theorem found_outermost (stack : c.stack = []) (form : ScopeForm) (s : Scope) :
    (c.outermost options).found form s = c.found form s := by
  simp only [found, currentScope?_of_empty stack]
  rfl

theorem isSome_emptied_of_top (outside : c.Outside) :
    ∀ id ∈ c.top, (c.arena[id]?.map Scope.emptied).isSome := by
  intro id member
  simp [outside.top_known id member]

theorem length_arena_outermost (options : Options) (outside : c.Outside) :
    (c.outermost options).arena.length = c.top.length := by
  rw [outermost, List.length_filterMap_eq_countP,
    List.countP_eq_length.2 (isSome_emptied_of_top outside)]

theorem outermost_scope (options : Options) (outside : c.Outside) (endOffset : Option Int)
    (fits : kind ∈ form.endKinds) (children : s.children = []) (symbols : s.symbols = []) :
    ((c.enterScope form s endOffset).closeScope kind).outermost options =
      ((c.outermost options).enterScope form s endOffset).closeScope kind := by
  have passed := closeScope_enterScope outside.stack_eq s endOffset fits
  have again := @closeScope_enterScope (c.outermost options) form kind rfl s endOffset fits
  have size := length_arena_outermost options outside
  have shut : ({ c.found form s with closed := true } : Scope).emptied =
      { c.found form s with closed := true } := by
    simp [Scope.emptied, found, children, symbols]
  rw [again, size, found_outermost outside.stack_eq]
  generalize (c.enterScope form s endOffset).closeScope kind = d at passed
  have fresh : c.arena.length ∉ c.top := fun member =>
    Nat.lt_irrefl _ (outside.top_known _ member)
  have none : d.symbols = c.symbols ++ [] := by rw [passed, List.append_nil]
  have unresolved := outer_unresolved_of_added options outside none (congrArg Context.top passed)
    (by simp) (congrArg Context.unresolved passed) (by simp [passed, isOuter])
    (by rw [passed, renumbered, List.idxOf_append, if_neg fresh])
  have old : c.top.filterMap (fun id => d.arena[id]?.map Scope.emptied) =
      c.top.filterMap fun id => c.arena[id]?.map Scope.emptied := by
    apply List.filterMap_congr
    intro id member
    rw [passed, List.getElem?_append_left (outside.top_known id member)]
  rw [outermost, unresolved, congrArg Context.top passed, List.filterMap_append, old, passed]
  simp [outermost, List.range_succ, shut, translate]

theorem outermost_of_inside (options : Options) (outside : c.Outside) (inside : c.Inside d)
    (stack : d.stack = []) :
    d.Outside ∧ d.outermost options = c.outermost options := by
  obtain ⟨added, symbols, owned⟩ := inside.symbols_eq
  obtain ⟨found, waits, known⟩ := inside.unresolved_eq
  have grows : ∀ {item}, d.IsNew item → c.IsNew item :=
    fun new => new.of_le inside.length_arena_le inside.length_symbols_le
  constructor
  · refine ⟨stack, fun id member => ?_, fun item member new => ?_⟩
    · rw [inside.top_eq] at member
      exact Nat.lt_of_lt_of_le (outside.top_known id member) inside.length_arena_le
    · rw [waits] at member
      rcases List.mem_append.1 member with old | later
      · exact outside.unresolved_known item old (grows new)
      · exact (known item later).2 new
  · have top : d.top = c.top ++ [] := by rw [inside.top_eq, List.append_nil]
    have grown := outer_unresolved_of_grown outside symbols top (by simp)
    have scopes : d.top.filterMap (fun id => d.arena[id]?.map Scope.emptied) =
        c.top.filterMap fun id => c.arena[id]?.map Scope.emptied := by
      rw [inside.top_eq]
      exact List.filterMap_congr fun id member => inside.arena_eq id (outside.top_known id member)
    have dropped : added.filter (fun s => s.scope.isNone) = [] := by
      rw [List.filter_eq_nil_iff]
      intro s member
      simp [owned s member]
    have hidden : found.filter d.isOuter = [] := by
      rw [List.filter_eq_nil_iff]
      intro item member
      have new := (known item member).1
      cases item with
      | contribution group index => exact new.elim
      | symbol id =>
        rw [isOuter, symbols, List.getElem?_append_right new]
        cases here : added[id - c.symbols.length]? with
        | none => simp
        | some s => simp [owned s (List.mem_of_getElem? here)]
      | scope id =>
        have elsewhere : id ∉ c.top := fun top =>
          Nat.not_le.2 (outside.top_known id top) new
        simp [isOuter, inside.top_eq, elsewhere]
    rw [outermost, waits, List.filter_append, List.map_append, grown, hidden, scopes, symbols,
      List.filter_append, dropped, inside.top_eq, inside.layout_eq, inside.sections_eq,
      inside.addresses_eq, inside.groups_eq, inside.units_eq, List.map_nil, List.append_nil,
      List.append_nil]
    rfl

def referent? (c : Context) : Item → Option Referent
  | .contribution group index =>
    ((c.groups.get? group).bind fun g => g.contributions[index]?).map (.contribution group)
  | .symbol id => c.symbols[id]?.map .symbol
  | .scope id => c.arena[id]?.map .scope

theorem getElem?_arena_outermost (options : Options) (outside : c.Outside) (i : Nat) :
    (c.outermost options).arena[i]? =
      c.top[i]?.bind fun id => c.arena[id]?.map Scope.emptied :=
  getElem?_filterMap_of_isSome (isSome_emptied_of_top outside) i

theorem scopes_outermost (options : Options) (outside : c.Outside) :
    (c.outermost options).top.map (c.outermost options).scope? =
      c.top.map fun id => (c.scope? id).map Scope.emptied := by
  apply List.ext_getElem?
  intro i
  have top : (c.outermost options).top = List.range c.top.length := rfl
  have looked := getElem?_arena_outermost options outside i
  by_cases inside : i < c.top.length
  · rw [List.getElem?_eq_getElem inside, Option.bind_some] at looked
    simp [top, inside, looked, scope?]
  · simp [top, inside]

theorem referent?_renumbered (options : Options) (outside : c.Outside) {item : Item}
    (outer : c.isOuter item = true) :
    (c.outermost options).referent? (c.renumbered item) =
      (c.referent? item).map Referent.emptied := by
  cases item with
  | contribution group index =>
    simp only [referent?, renumbered, Option.map_map]
    rfl
  | symbol id =>
    obtain ⟨s, here, alone⟩ := (Option.any_eq_true _ _).1 outer
    have place : (c.outermost options).symbols[(c.symbols.take id).countP _]? = some s :=
      getElem?_filter_of_countP here alone
    simp only [referent?, renumbered, here, place]
    rfl
  | scope id =>
    have member : id ∈ c.top := of_decide_eq_true outer
    have place : c.top[c.top.idxOf id]? = some id := List.getElem?_idxOf member
    simp only [referent?, renumbered, getElem?_arena_outermost options outside, place,
      Option.bind_some, Option.map_map]
    rfl

end Context
end SymbolRecovery
