import SymbolRecovery.Proofs.Classes
import SymbolRecovery.Proofs.Requests

/-!
What lies between a begin record and its end record. Main statement: going over it leaves alone what
is outside of the scope, if no record in it tells of sections, groups or compile units; the scopes
that were there get no more than children and symbols, and what is added is known to be inside.
-/
namespace SymbolRecovery

def Kind.scopeless : List Kind := [imageSection, sectionGroup, objectName, compiler]

/-- Words in which every begin record is accepted and points at the end record that matches it.
Inside of a scope there are no records of the kinds without scope. -/
inductive Bracketed : Bool → List Record → Prop where
  | empty {inside : Bool} : Bracketed inside []
  | neutral {inside : Bool} {r : Record} {word : List Record} (inert : r.IsNeutral)
      (plain : inside = true → r.kind ∉ Kind.scopeless) (later : Bracketed inside word) :
      Bracketed inside (r :: word)
  | scope {inside : Bool} {b e : Record} {form : ScopeForm} {inner word : List Record}
      (opens : ScopeForm.ofKind? b.kind = some form) (right : b.malformation? form = none)
      (points : b.endOffset ≠ 0) (pointed : e.offset = some b.endOffset)
      (ends : e.IsEnd) (fits : e.kind ∈ form.endKinds)
      (within : Bracketed true inner) (later : Bracketed inside word) :
      Bracketed inside (b :: inner ++ e :: word)

def Scope.emptied (s : Scope) : Scope := { s with children := [], symbols := [] }

theorem Record.effect_of_plain {r : Record} (inert : r.IsNeutral) (plain : r.kind ∉ Kind.scopeless)
    (position : Nat) :
    r.effect position = .ignored ∨ (∃ cause, r.effect position = .refused cause) ∨
      ∃ s, r.effect position = .describes (.addSymbol s) := by
  rcases effect_of_isNeutral inert position with asks | refused | ⟨change, asks⟩
  · exact .inl asks
  · exact .inr (.inl refused)
  · obtain ⟨subject, given, -, read⟩ := effect_eq_describes.1 asks
    have told : Subject.ofKind? r.kind = some subject := by
      simp only [Role.ofKind?, ofKind?_of_not_isBegin inert.1] at given
      split at given
      · cases given
      · simpa using given
    simp only [Kind.scopeless, List.mem_cons, List.not_mem_nil, or_false, not_or] at plain
    have symbol : subject = .symbol := by
      simp only [Subject.ofKind?, plain, ↓reduceIte, Option.ite_none_right_eq_some,
        Option.some.injEq] at told
      exact told.2.symm
    subst symbol
    cases known : Subject.readSymbol r position with
    | error e => simp [Subject.read, known, Except.map] at read
    | ok s =>
      simp only [Subject.read, known, Except.map, Except.ok.injEq] at read
      exact .inr (.inr ⟨s, read ▸ asks⟩)

namespace Context

def goOver (c : Context) (position : Nat) (word : List Record) : Context :=
  c.performAll ((word.zipIdx position).map fun visit => visit.1.effect visit.2)

@[simp] theorem goOver_nil (c : Context) (position : Nat) : c.goOver position [] = c := rfl

@[simp] theorem goOver_cons (c : Context) (position : Nat) (r : Record) (word : List Record) :
    c.goOver position (r :: word) = (c.perform (r.effect position)).goOver (position + 1) word :=
  rfl

theorem goOver_append (c : Context) (position : Nat) (u v : List Record) :
    c.goOver position (u ++ v) = (c.goOver position u).goOver (position + u.length) v := by
  simp only [goOver, performAll, List.zipIdx_append, List.map_append, List.foldl_append]

def IsNew (c : Context) : Item → Prop
  | .contribution .. => False
  | .symbol id => c.symbols.length ≤ id
  | .scope id => c.arena.length ≤ id

structure Inside (c d : Context) : Prop where
  layout_eq : d.layout = c.layout
  sections_eq : d.sections = c.sections
  addresses_eq : d.addresses = c.addresses
  groups_eq : d.groups = c.groups
  units_eq : d.units = c.units
  top_eq : d.top = c.top
  arena_eq : ∀ id, id < c.arena.length →
    d.arena[id]?.map Scope.emptied = c.arena[id]?.map Scope.emptied
  symbols_eq : ∃ new, d.symbols = c.symbols ++ new ∧ ∀ s ∈ new, s.scope ≠ none
  unresolved_eq : ∃ new, d.unresolved = c.unresolved ++ new ∧
    ∀ item ∈ new, c.IsNew item ∧ ¬ d.IsNew item

variable {c d e : Context} {o : OpenScope} {below : List OpenScope}

theorem IsNew.of_le (arena : c.arena.length ≤ d.arena.length)
    (symbols : c.symbols.length ≤ d.symbols.length) {item : Item} (new : d.IsNew item) :
    c.IsNew item := by
  cases item with
  | contribution group index => exact new
  | symbol id => exact Nat.le_trans symbols new
  | scope id => exact Nat.le_trans arena new

theorem Inside.length_arena_le (inside : c.Inside d) : c.arena.length ≤ d.arena.length := by
  by_contra shorter
  have lost := inside.arena_eq d.arena.length (by omega)
  rw [List.getElem?_eq_none (Nat.le_refl _), List.getElem?_eq_getElem (by omega)] at lost
  cases lost

theorem Inside.length_symbols_le (inside : c.Inside d) : c.symbols.length ≤ d.symbols.length := by
  obtain ⟨new, same, -⟩ := inside.symbols_eq
  rw [same, List.length_append]
  exact Nat.le_add_right _ _

theorem Inside.refl (c : Context) : c.Inside c where
  layout_eq := rfl
  sections_eq := rfl
  addresses_eq := rfl
  groups_eq := rfl
  units_eq := rfl
  top_eq := rfl
  arena_eq := fun _ _ => rfl
  symbols_eq := ⟨[], by simp, by simp⟩
  unresolved_eq := ⟨[], by simp, by simp⟩

theorem Inside.trans (first : c.Inside d) (second : d.Inside e) : c.Inside e where
  layout_eq := second.layout_eq.trans first.layout_eq
  sections_eq := second.sections_eq.trans first.sections_eq
  addresses_eq := second.addresses_eq.trans first.addresses_eq
  groups_eq := second.groups_eq.trans first.groups_eq
  units_eq := second.units_eq.trans first.units_eq
  top_eq := second.top_eq.trans first.top_eq
  arena_eq := fun id old =>
    (second.arena_eq id (Nat.lt_of_lt_of_le old first.length_arena_le)).trans
      (first.arena_eq id old)
  symbols_eq := by
    obtain ⟨early, before, owned⟩ := first.symbols_eq
    obtain ⟨late, after, nested⟩ := second.symbols_eq
    refine ⟨early ++ late, by rw [after, before, List.append_assoc], ?_⟩
    intro s member
    rcases List.mem_append.1 member with first | second
    · exact owned s first
    · exact nested s second
  unresolved_eq := by
    obtain ⟨early, before, known⟩ := first.unresolved_eq
    obtain ⟨late, after, found⟩ := second.unresolved_eq
    refine ⟨early ++ late, by rw [after, before, List.append_assoc], ?_⟩
    intro item member
    rcases List.mem_append.1 member with mine | yours
    · obtain ⟨new, old⟩ := known item mine
      exact ⟨new, fun later =>
        old (later.of_le second.length_arena_le second.length_symbols_le)⟩
    · obtain ⟨new, old⟩ := found item yours
      exact ⟨new.of_le first.length_arena_le first.length_symbols_le, old⟩

theorem map_getElem?_modify {α β : Type} {f : α → β} {g : α → α} (blind : ∀ a, f (g a) = f a)
    (l : List α) (i j : Nat) : (l.modify i g)[j]?.map f = l[j]?.map f := by
  rw [← List.getElem?_map, map_modify_of_blind blind, List.getElem?_map]

theorem inside_addSymbol (stack : c.stack = o :: below) (s : Symbol) :
    c.Inside (c.make (.addSymbol s)) := by
  have added : c.make (.addSymbol s) = { c with
      arena := c.arena.modify o.scope fun p => { p with symbols := p.symbols ++ [c.symbols.length] }
      symbols := c.symbols ++ [{ s with
        address := c.translate s.sectionIndex s.offset, scope := some o.scope,
        module := c.currentModule? }]
      unresolved := c.unresolved ++ if (c.translate s.sectionIndex s.offset).isNone
        then [.symbol c.symbols.length] else [] } := by
    simp only [make, locateSymbol, await_eq_append, addSymbol, currentScope?, stack, modifyScope,
      List.head?_cons, Option.map_some]
    rfl
  rw [added]
  refine { Inside.refl c with
    arena_eq := fun id _ => ?_, symbols_eq := ⟨_, rfl, by simp⟩, unresolved_eq := ⟨_, rfl, ?_⟩ }
  · apply map_getElem?_modify
    exact fun p => rfl
  · intro item waits
    split at waits
    · rw [List.mem_singleton.1 waits]
      simp [IsNew]
    · cases waits

theorem inside_enterScope (stack : c.stack = o :: below) (form : ScopeForm) (s : Scope)
    (endOffset : Option Int) : c.Inside (c.enterScope form s endOffset) := by
  obtain ⟨unresolved, enters⟩ := c.enterScope_eq form s endOffset
  have waits := c.unresolved_enterScope form s endOffset
  simp only [attachScope, currentScope?, stack, modifyScope, List.head?_cons,
    Option.map_some] at enters
  rw [enters] at waits ⊢
  refine { Inside.refl c with
    arena_eq := fun id old => ?_
    symbols_eq := ⟨[], by simp, by simp⟩
    unresolved_eq := ⟨_, waits, ?_⟩ }
  · rw [List.getElem?_append_left (by rwa [List.length_modify])]
    apply map_getElem?_modify
    exact fun p => rfl
  · intro item waiting
    obtain ⟨f, same, rfl⟩ := Option.map_eq_some_iff.1 (Option.mem_toList.1 waiting)
    cases (Option.filter_eq_some_iff.1 same).1
    simp [IsNew]

theorem closeScope_of_fits {kind : Kind} (stack : c.stack = o :: below)
    (fits : kind ∈ o.endKinds) :
    c.closeScope kind = { c with
      stack := below, arena := c.arena.modify o.scope fun s => { s with closed := true } } := by
  rw [closeScope_eq, unwinding, stack]
  simp [unwind, OpenScope.closedBy, fits]

theorem Inside.closeScope (inside : c.Inside d) {kind : Kind} (stack : d.stack = o :: below)
    (fits : kind ∈ o.endKinds) (new : c.arena.length ≤ o.scope) :
    c.Inside (d.closeScope kind) := by
  rw [closeScope_of_fits stack fits]
  refine { inside with arena_eq := fun id old => ?_, unresolved_eq := ?_ }
  · have other : o.scope ≠ id := Nat.ne_of_gt (Nat.lt_of_lt_of_le old new)
    dsimp only
    rw [List.getElem?_modify_ne _ _ other]
    exact inside.arena_eq id old
  · obtain ⟨added, same, known⟩ := inside.unresolved_eq
    refine ⟨added, same, fun item member => ⟨(known item member).1, fun later => ?_⟩⟩
    have was : d.IsNew item := later.of_le (by simp) (by simp)
    exact (known item member).2 was

theorem Inside.close_both (inside : c.Inside d) {kind : Kind} {under : List OpenScope}
    (stack : c.stack = o :: below) (same : d.stack = o :: under) (fits : kind ∈ o.endKinds) :
    (c.closeScope kind).Inside (d.closeScope kind) := by
  rw [closeScope_of_fits stack fits, closeScope_of_fits same fits]
  refine { inside with arena_eq := fun id old => ?_, unresolved_eq := ?_ }
  · have alike := inside.arena_eq id (by simpa using old)
    have shut : ∀ l : List Scope,
        (l.modify o.scope fun s => { s with closed := true })[id]?.map Scope.emptied =
          (l[id]?.map Scope.emptied).map fun s =>
            if o.scope = id then { s with closed := true } else s := by
      intro l
      rw [List.getElem?_modify]
      cases l[id]? with
      | none => rfl
      | some s => by_cases here : o.scope = id <;> simp [here, Scope.emptied]
    rw [shut, shut, alike]
  · obtain ⟨added, grown, known⟩ := inside.unresolved_eq
    refine ⟨added, grown, fun item member => ?_⟩
    obtain ⟨new, old⟩ := known item member
    exact ⟨new.of_le (by simp) (by simp), fun later => old (later.of_le (by simp) (by simp))⟩

theorem inside_goOver {inside : Bool} {word : List Record} (bracketed : Bracketed inside word)
    (within : inside = true) (stack : c.stack = o :: below) (position : Nat) :
    c.Inside (c.goOver position word) ∧ (c.goOver position word).stack = c.stack := by
  induction bracketed generalizing c o below position with
  | empty => exact ⟨.refl c, rfl⟩
  | @neutral inside r word inert plain later ih =>
    have same := c.sameScopes_of_neutral inert position
    have first : c.Inside (c.perform (r.effect position)) := by
      rcases r.effect_of_plain inert (plain within) position with asks | ⟨cause, asks⟩ | ⟨s, asks⟩
      · exact asks ▸ .refl c
      · exact asks ▸ .refl c
      · exact asks ▸ inside_addSymbol stack s
    obtain ⟨rest, kept⟩ := ih within (same.stack_eq.trans stack) (position + 1)
    exact ⟨first.trans rest, kept.trans same.stack_eq⟩
  | @scope _ b e form inner word opens right points pointed ends fits between later inward ih =>
    obtain ⟨s, asks, -⟩ := b.effect_of_wellFormed opens right position
    have first : c.Inside (c.perform (b.effect position)) := asks ▸ inside_enterScope stack form s _
    obtain ⟨endOffset, opened⟩ := stack_of_begin (c := c) opens position
    obtain ⟨second, kept⟩ := inward rfl opened (position + 1)
    have last := (first.trans second).closeScope (kept.trans opened) fits (Nat.le_refl _)
    have closed := congrArg Context.stack (closeScope_of_fits (kept.trans opened) fits)
    obtain ⟨rest, again⟩ := ih within (closed.trans stack) (position + 1 + inner.length + 1)
    rw [List.cons_append, goOver_cons, goOver_append, goOver_cons, Record.effect_of_isEnd ends]
    exact ⟨last.trans rest, again.trans closed⟩

end Context
end SymbolRecovery
