import SymbolRecovery.Proofs.Relabel

/-!
What is found without regard to sections and addresses. Main statement: of two contexts that are
the same in this respect, the same effect makes contexts that are the same in it; registering
sections and looking up the unresolved items again do not touch it.
-/
namespace SymbolRecovery.Context

/-- No layout, no section, and no address of anything. -/
def bare (c : Context) : Context :=
  { c.relabel (fun _ => none) id with
    layout := none, sections := {}, addresses := {}, unresolved := [] }

variable (c : Context)

theorem bare_await (item : Item) (address : Option Int) : (c.await item address).bare = c.bare := by
  rw [await_eq_append]
  rfl

theorem bare_pushScope (s : Scope) (endKinds : List Kind) (endOffset : Option Int) :
    (c.pushScope s endKinds endOffset).bare =
      c.bare.pushScope (s.relabel (fun _ => none) id) endKinds endOffset := by
  rw [bare, relabel_pushScope]
  rfl

theorem bare_openScope (s : Scope) (endKinds : List Kind) (endOffset : Option Int) :
    (c.openScope s endKinds endOffset).bare =
      c.bare.openScope (s.relabel (fun _ => none) id) endKinds endOffset := by
  rw [bare, relabel_openScope]
  unfold openScope attachScope
  have current : c.bare.currentScope? = (c.relabel (fun _ => none) id).currentScope? := rfl
  rw [current]
  cases (c.relabel (fun _ => none) id).currentScope? <;> rfl

theorem bare_closeScope (kind : Kind) : (c.closeScope kind).bare = c.bare.closeScope kind := by
  rw [bare, relabel_closeScope, closeScope_eq, closeScope_eq]
  rfl

theorem bare_addSymbol (s : Symbol) :
    (c.addSymbol s).bare = c.bare.addSymbol (s.relabel (fun _ => none) id) := by
  rw [bare, relabel_addSymbol]
  unfold addSymbol
  have current : c.bare.currentScope? = (c.relabel (fun _ => none) id).currentScope? := rfl
  rw [current]
  cases (c.relabel (fun _ => none) id).currentScope? <;> rfl

theorem bare_addUnit (u : CompileUnit) : (c.addUnit u).bare = c.bare.addUnit u := by
  rw [bare, relabel_addUnit]
  rfl

theorem bare_describeUnit (position language machine : Int) (version : String) :
    (c.describeUnit position language machine version).bare =
      c.bare.describeUnit position language machine version := by
  rw [bare, relabel_describeUnit]
  unfold describeUnit
  have units : c.bare.units = (c.relabel (fun _ => none) id).units := rfl
  rw [units]
  cases (c.relabel (fun _ => none) id).units <;> rfl

theorem bare_addContribution (name : String) (characteristics : Int) (part : Contribution) :
    let group := (c.bare.groups.get? name).getD { name, characteristics }
    (c.addContribution name characteristics part).bare = { c.bare with
      groups := c.bare.groups.insert name { group with
        contributions := group.contributions ++ [{ part with address := none }] } } := by
  intro group
  have same : group = ((c.groups.get? name).getD { name, characteristics }).relabel
      (fun _ => none) := by
    simp only [group, bare, relabel, Table.get?_mapValues]
    cases c.groups.get? name <;> rfl
  unfold addContribution
  rw [bare_await, same]
  simp only [bare, relabel, Table.mapValues_insert]
  simp [SectionGroup.relabel, Contribution.relabel]

theorem bare_addSection (s : ImageSection) : (c.addSection s).bare = c.bare := by
  obtain ⟨sections, addresses, same⟩ := c.addSection_eq s
  rw [same]
  rfl

theorem bare_setItemAddress (address : Option Int) (item : Item) :
    (c.setItemAddress address item).bare = c.bare := by
  cases item with
  | contribution group index =>
    simp only [setItemAddress]
    cases known : c.groups.get? group with
    | none => rfl
    | some g =>
      simp only [bare, relabel, Table.mapValues_insert]
      rw [Table.insert_of_get?]
      rw [Table.get?_mapValues, known, Option.map_some, SectionGroup.relabel, SectionGroup.relabel,
        map_modify_of_blind]
      exact fun part => rfl
  | symbol id =>
    simp only [setItemAddress, bare, relabel]
    rw [map_modify_of_blind]
    exact fun s => rfl
  | scope id =>
    simp only [setItemAddress, modifyScope, bare, relabel]
    rw [map_modify_of_blind]
    exact fun s => rfl

theorem bare_retryUnresolved : c.retryUnresolved.2.bare = c.bare := by
  have keeps : ∀ (items : List Item) (d : Context),
      (items.foldl (fun d item => d.setItemAddress (c.itemAddress? item) item) d).bare =
        d.bare := by
    intro items
    induction items with
    | nil => exact fun d => rfl
    | cons item rest ih => exact fun d => (ih _).trans (d.bare_setItemAddress _ item)
  exact keeps c.unresolved c

variable {c} {n : Context}

theorem groups_keys_of_bare (alike : c.bare = n.bare) : c.groups.keys = n.groups.keys := by
  have keys := congrArg (fun b : Context => b.groups.keys) alike
  simpa only [bare, relabel, Table.keys_mapValues] using keys

theorem units_of_bare (alike : c.bare = n.bare) : c.units = n.units := by
  have units : c.units.map (·.relabel id) = n.units.map (·.relabel id) :=
    congrArg Context.units alike
  simpa only [CompileUnit.relabel, id, List.map_id'] using units

theorem bare_perform (alike : c.bare = n.bare) (e : Effect) :
    (c.perform e).bare = (n.perform e).bare := by
  cases e with
  | ignored => exact alike
  | refused cause => exact alike
  | describes change =>
    cases change with
    | addSection s => simp only [perform, make, bare_addSection, alike]
    | addContribution group characteristics part =>
      simp only [perform, make, bare_addContribution, alike]
    | addSymbol s =>
      simp only [perform, make, locateSymbol, bare_addSymbol, bare_await, alike]
      rfl
    | addUnit u => simp only [perform, make, bare_addUnit, alike]
    | describeUnit position language machine version =>
      simp only [perform, make, bare_describeUnit, alike]
  | holds form placeholder cause => simp only [perform, bare_pushScope, alike]
  | opens form s endOffset =>
    simp only [perform, enterScope]
    split
    · simp only [locateScope, bare_openScope, bare_await, alike]
      rfl
    · simp only [bare_openScope, alike]
  | closes kind => simp only [perform, bare_closeScope, alike]

theorem spot?_bare (c : Context) (item : Item) :
    c.bare.spot? item = (c.spot? item).map (·.readdressed none) :=
  (spot?_congr rfl rfl rfl item).trans (c.spot?_relabel (fun _ => none) id item)

theorem itemAddress?_eq_of_bare (c : Context) (item : Item) :
    c.itemAddress? item =
      (c.bare.spot? item).bind fun spot => c.translate spot.sectionIndex spot.offset := by
  rw [itemAddress?_eq, spot?_bare]
  cases c.spot? item <;> rfl

theorem finding?_bare (c : Context) (e : Effect) : c.bare.finding? e = c.finding? e := by
  have groups : ∀ group, c.bare.groupSize group = c.groupSize group := by
    intro group
    simp only [groupSize, bare, relabel, Table.get?_mapValues]
    cases c.groups.get? group <;> simp [SectionGroup.relabel]
  have symbols : c.bare.symbols.length = c.symbols.length := List.length_map _
  have arena : c.bare.arena.length = c.arena.length := List.length_map _
  unfold finding?
  split
  · rw [groups]
  · rw [symbols]
  · rw [arena]
  · rw [arena]
  · rfl

theorem finding?_congr (alike : c.bare = n.bare) (e : Effect) : c.finding? e = n.finding? e := by
  rw [← finding?_bare, alike, finding?_bare]

theorem isSome_spot?_congr (alike : c.bare = n.bare) (item : Item) :
    (c.spot? item).isSome = (n.spot? item).isSome := by
  have spots := congrArg (·.spot? item) alike
  simp only [spot?_bare] at spots
  simpa using congrArg Option.isSome spots

end SymbolRecovery.Context
