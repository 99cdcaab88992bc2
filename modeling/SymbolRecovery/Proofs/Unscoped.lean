import SymbolRecovery.Proofs.Classes
import SymbolRecovery.Proofs.Placement

/-!
What is found without regard to scopes. Begin and end records leave it alone, whether or not they
are accepted and whatever they do to the stack, and what the other records add to it does not depend
on the scopes. Main statement: descending runs over records that differ in begin and end records
alone find the same sections, groups and compile units, and the same symbols but for their scopes.
-/
namespace SymbolRecovery
open Lookup (standard)

namespace Record

/-- The record has to do with scopes by its kind, accepted or not. -/
def IsScoping (r : Record) : Prop := r.kind ∈ Kind.scopeBegins ∨ r.kind ∈ Kind.scopeEnds

instance (r : Record) : Decidable r.IsScoping := inferInstanceAs (Decidable (_ ∨ _))

end Record

def Symbol.unscoped (s : Symbol) : Symbol := { s with scope := none }

def Item.isScope : Item → Bool
  | scope _ => true
  | contribution .. | symbol _ => false

def Effect.change? : Effect → Option Change
  | describes change => some change
  | _ => none

theorem Record.change?_of_isScoping {r : Record} (scoping : r.IsScoping) (position : Nat) :
    (r.effect position).change? = none := by
  cases asks : r.effect position with
  | describes change =>
    obtain ⟨subject, given, -⟩ := effect_eq_describes.1 asks
    rcases scoping with begins | ends
    · obtain ⟨form, opens⟩ := isBegin_iff.1 begins
      simp [Role.ofKind?, opens] at given
    · unfold Role.ofKind? at given
      split at given
      · cases given
      · simp [ends] at given
  | _ => rfl

namespace Context

def withoutScopes (c : Context) : Context :=
  { c with
    options := {}
    arena := []
    top := []
    stack := []
    symbols := c.symbols.map Symbol.unscoped
    unresolved := c.unresolved.filter fun item => !item.isScope }

variable (c : Context)

theorem withoutScopes_await (item : Item) (kept : item.isScope = false) (address : Option Int) :
    (c.await item address).withoutScopes = c.withoutScopes.await item address := by
  cases address with
  | none => simp [await, withoutScopes, kept]
  | some address => rfl

theorem withoutScopes_addSection (s : ImageSection) :
    (c.addSection s).withoutScopes = c.withoutScopes.addSection s := by
  simp only [addSection, resolveSection]
  have known : c.withoutScopes.layout = c.layout := rfl
  simp only [loadBase?, known]
  cases c.layout.bind (· s.index) <;> rfl

theorem withoutScopes_addSymbol (s : Symbol) :
    (c.addSymbol s).withoutScopes = c.withoutScopes.addSymbol s := by
  obtain ⟨arena, -, adds⟩ := c.addSymbol_eq s
  rw [adds]
  simp only [withoutScopes, List.map_append]
  rfl

theorem withoutScopes_describeUnit (position language machine : Int) (version : String) :
    (c.describeUnit position language machine version).withoutScopes =
      c.withoutScopes.describeUnit position language machine version := by
  simp only [describeUnit]
  cases empty : c.units.isEmpty with
  | true => simp [withoutScopes, empty, addUnit]
  | false => simp [withoutScopes, empty]

theorem withoutScopes_make (change : Change) :
    (c.make change).withoutScopes = c.withoutScopes.make change := by
  cases change with
  | addSection s => exact c.withoutScopes_addSection s
  | addContribution group characteristics part => exact withoutScopes_await _ _ rfl _
  | addSymbol s =>
    have size : c.withoutScopes.symbols.length = c.symbols.length := List.length_map _
    have waits := c.withoutScopes_await (.symbol c.symbols.length) rfl
      (c.translate s.sectionIndex s.offset)
    simp only [make, locateSymbol, withoutScopes_addSymbol, waits, size]
    rfl
  | addUnit u => rfl
  | describeUnit position language machine version =>
    exact c.withoutScopes_describeUnit position language machine version

theorem withoutScopes_enterScope (form : ScopeForm) (s : Scope) (endOffset : Option Int) :
    (c.enterScope form s endOffset).withoutScopes = c.withoutScopes := by
  obtain ⟨unresolved, enters⟩ := c.enterScope_eq form s endOffset
  have waits := c.unresolved_enterScope form s endOffset
  rw [enters] at waits ⊢
  have same : unresolved.filter (fun item => !item.isScope) =
      c.unresolved.filter fun item => !item.isScope := by
    have waiting : unresolved = _ := waits
    rw [waiting, List.filter_append, List.append_right_eq_self, List.filter_eq_nil_iff]
    simp [Item.isScope]
  unfold attachScope
  split <;> simp [withoutScopes, modifyScope, same]

theorem withoutScopes_perform (e : Effect) :
    (c.perform e).withoutScopes = (e.change?.toList).foldl make c.withoutScopes := by
  cases e with
  | ignored => rfl
  | refused cause => rfl
  | describes change => exact c.withoutScopes_make change
  | holds form placeholder cause => rfl
  | opens form s endOffset => exact c.withoutScopes_enterScope form s endOffset
  | closes kind =>
    rw [perform, closeScope_eq]
    rfl

theorem withoutScopes_performAll (effects : List Effect) :
    (c.performAll effects).withoutScopes =
      (effects.filterMap Effect.change?).foldl make c.withoutScopes := by
  induction effects generalizing c with
  | nil => rfl
  | cons e rest ih =>
    rw [performAll_cons, ih, withoutScopes_perform, List.filterMap_cons]
    cases e.change? <;> rfl

theorem withoutScopes_run {layout : Option LoadLayout} {options : Options}
    (descends : options.descendScopes = true) (records : List Record) :
    let last := (run standard { layout, options } { records }).progress.context
    last.withoutPositions.withoutScopes =
      (((records.filter fun r => ¬ r.IsScoping).map (·.effect 0)).filterMap Effect.change?).foldl
        make { layout } := by
  intro last
  let p : Progress := { context := { layout, options }, cursor := { records } }
  have ran : last = p.context.performAll p.requests := p.context_run_eq
  have dropped : (records.map (·.effect 0)).filterMap Effect.change? =
      ((records.filter fun r => ¬ r.IsScoping).map (·.effect 0)).filterMap Effect.change? := by
    rw [List.filterMap_map, List.filterMap_map, List.filterMap_filter]
    apply List.filterMap_congr
    intro r _
    by_cases scoping : r.IsScoping
    · simp [scoping, Record.change?_of_isScoping scoping]
    · simp [scoping]
  rw [withoutPositions, ran, renumber_performAll, Progress.renumber_requests descends rfl,
    withoutScopes_performAll, dropped]
  rfl

end Context

/-- Begin and end records that are missing, too many, malformed or crossing change nothing but the
scopes. -/
theorem scope_damage_contained (records others : List Record) (layout : Option LoadLayout)
    (options otherwise : Options) (descends : options.descendScopes = true)
    (descended : otherwise.descendScopes = true)
    (rest : records.filter (fun r => ¬ r.IsScoping) = others.filter fun r => ¬ r.IsScoping) :
    let a := (run standard { layout, options } { records }).progress.context
    let b := (run standard { layout, options := otherwise } { records := others }).progress.context
    a.sections = b.sections ∧ a.addresses = b.addresses ∧ a.groups = b.groups ∧
      a.units.map (fun u => { u with position := 0 }) =
        b.units.map (fun u => { u with position := 0 }) ∧
      a.symbols.map (fun s => { s with position := 0, scope := none }) =
        b.symbols.map (fun s => { s with position := 0, scope := none }) ∧
      a.unresolved.filter (fun item => !item.isScope) =
        b.unresolved.filter fun item => !item.isScope := by
  intro a b
  have same : a.withoutPositions.withoutScopes = b.withoutPositions.withoutScopes := by
    rw [Context.withoutScopes_run descends, Context.withoutScopes_run descended, rest]
  simp only [Context.withoutPositions, Context.withoutScopes, Context.relabel,
    Context.mapValues_relabel_id, List.map_map, Context.mk.injEq] at same
  obtain ⟨-, -, sections, addresses, groups, -, -, symbols, units, -, unresolved⟩ := same
  exact ⟨sections, addresses, groups, units, symbols, unresolved⟩

/-- The end of a procedure is missing, and a truncated block and a stray end record stand before it.
Symbol and contribution have no address yet. -/
theorem scope_damage_contained_of_missing_end :
    let unit : Record := { kind := Kind.objectName, name := "m" }
    let procedure : Record := { kind := Kind.globalProcedure, name := "f", sectionIndex := 1 }
    let symbol : Record :=
      { kind := Kind.localData, name := "v", sectionIndex := 1, address := 4 }
    let contribution : Record := { kind := Kind.sectionGroup, name := "g", sectionIndex := 2 }
    let close : Record := { kind := Kind.scopeEnd }
    let damage : List Record := [{ kind := Kind.block, truncated := true },
      { kind := Kind.inlineSiteEnd }]
    let records := [unit, procedure, symbol, close, contribution]
    let others := damage ++ [unit, procedure, symbol, contribution]
    let a := (run standard {} { records }).progress.context
    let b := (run standard {} { records := others }).progress.context
    records.filter (fun r => ¬ r.IsScoping) = others.filter (fun r => ¬ r.IsScoping) ∧
      a.symbols.map (·.scope) = [some 0] ∧ b.symbols.map (·.scope) = [some 1] ∧
      a.symbols.map (fun s => { s with position := 0, scope := none }) =
        b.symbols.map (fun s => { s with position := 0, scope := none }) ∧
      a.unresolved.filter (fun item => !item.isScope) =
        b.unresolved.filter fun item => !item.isScope := by
  intro unit procedure symbol contribution close damage records others a b
  have rest : records.filter (fun r => ¬ r.IsScoping) =
      others.filter fun r => ¬ r.IsScoping := by decide
  obtain ⟨-, -, -, -, symbols, unresolved⟩ :=
    scope_damage_contained records others none {} {} rfl rfl rest
  exact ⟨rest, by decide +kernel, by decide +kernel, symbols, unresolved⟩

end SymbolRecovery
