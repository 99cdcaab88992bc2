import SymbolRecovery.Proofs.Requests

/-!
Addresses and positions as labels. What is found, and where it is put, does not depend on them: the
operations on scopes, symbols and units commute with any change of labels. Main statements:
performing an effect commutes with changing the positions, and so does looking up the unresolved
items again.
-/
namespace SymbolRecovery

section
variable (address : Option Int → Option Int) (position : Int → Int)

def Contribution.relabel (p : Contribution) : Contribution :=
  { p with address := address p.address }

def SectionGroup.relabel (g : SectionGroup) : SectionGroup :=
  { g with contributions := g.contributions.map (·.relabel address) }

def Symbol.relabel (s : Symbol) : Symbol :=
  { s with address := address s.address, position := position s.position }

def Scope.relabel (s : Scope) : Scope :=
  { s with address := address s.address, position := position s.position }

def CompileUnit.relabel (u : CompileUnit) : CompileUnit :=
  { u with position := position u.position }

def Context.relabel (c : Context) : Context :=
  { c with
    groups := c.groups.mapValues (·.relabel address)
    arena := c.arena.map (·.relabel address position)
    symbols := c.symbols.map (·.relabel address position)
    units := c.units.map (·.relabel position) }

namespace Context
variable (c : Context)

@[simp] theorem currentModule?_relabel :
    (c.relabel address position).currentModule? = c.currentModule? := by
  simp only [currentModule?, currentUnit?, relabel, List.getLast?_map, Option.map_map]
  rfl

theorem relabel_pushScope (s : Scope) (endKinds : List Kind) (endOffset : Option Int) :
    (c.pushScope s endKinds endOffset).relabel address position =
      (c.relabel address position).pushScope (s.relabel address position) endKinds endOffset := by
  simp [pushScope, relabel, currentScope?]

theorem relabel_modifyScope (id : ScopeId) (f : Scope → Scope)
    (blind : ∀ s, (f s).relabel address position = f (s.relabel address position)) :
    (c.modifyScope id f).relabel address position =
      (c.relabel address position).modifyScope id f := by
  simp only [modifyScope, relabel, map_modify_of_comm blind]

theorem relabel_attachScope :
    c.attachScope.relabel address position = (c.relabel address position).attachScope := by
  have current : (c.relabel address position).currentScope? = c.currentScope? := rfl
  unfold attachScope
  rw [current]
  cases c.currentScope? with
  | none => simp [relabel]
  | some parent =>
    have size : (c.relabel address position).arena.length = c.arena.length := List.length_map _
    rw [size]
    exact c.relabel_modifyScope address position parent _ fun s => rfl

theorem relabel_openScope (s : Scope) (endKinds : List Kind) (endOffset : Option Int) :
    (c.openScope s endKinds endOffset).relabel address position =
      (c.relabel address position).openScope (s.relabel address position) endKinds endOffset := by
  simp only [openScope, relabel_pushScope, relabel_attachScope, currentModule?_relabel]
  rfl

theorem relabel_closeScope (kind : Kind) :
    (c.closeScope kind).relabel address position =
      (c.relabel address position).closeScope kind := by
  have unwinds : (c.relabel address position).unwinding kind = c.unwinding kind := rfl
  rw [closeScope_eq, closeScope_eq, unwinds]
  cases (c.unwinding kind).closed with
  | none => rfl
  | some o =>
    simp only [relabel]
    congr 1
    apply map_modify_of_comm
    exact fun s => rfl

theorem relabel_addSymbol (s : Symbol) :
    (c.addSymbol s).relabel address position =
      (c.relabel address position).addSymbol (s.relabel address position) := by
  have current : (c.relabel address position).currentScope? = c.currentScope? := rfl
  have size : (c.relabel address position).symbols.length = c.symbols.length := List.length_map _
  unfold addSymbol
  rw [current, size, currentModule?_relabel]
  cases c.currentScope? with
  | none => simp [relabel, Symbol.relabel]
  | some scope =>
    dsimp only
    rw [relabel_modifyScope]
    · simp [relabel, Symbol.relabel]
    · exact fun s => rfl

theorem relabel_addUnit (u : CompileUnit) :
    (c.addUnit u).relabel address position =
      (c.relabel address position).addUnit (u.relabel position) := by
  simp [addUnit, relabel]

theorem relabel_describeUnit (here language machine : Int) (version : String) :
    (c.describeUnit here language machine version).relabel address position =
      (c.relabel address position).describeUnit (position here) language machine version := by
  have started : (if c.units.isEmpty then c.addUnit { name := "", position := here } else c).relabel
      address position = if (c.relabel address position).units.isEmpty
        then (c.relabel address position).addUnit { name := "", position := position here }
        else c.relabel address position := by
    have empty : (c.relabel address position).units.isEmpty = c.units.isEmpty := List.isEmpty_map
    rw [empty]
    split
    · exact c.relabel_addUnit address position _
    · rfl
  unfold describeUnit
  rw [← started]
  generalize (if c.units.isEmpty then c.addUnit { name := "", position := here } else c) = d
  simp only [relabel, List.length_map]
  congr 1
  apply map_modify_of_comm
  exact fun u => rfl

theorem relabel_setItemAddress (found : Option Int) (item : Item) :
    (c.setItemAddress found item).relabel address position =
      (c.relabel address position).setItemAddress (address found) item := by
  cases item with
  | contribution group index =>
    simp only [setItemAddress, relabel, Table.get?_mapValues]
    cases c.groups.get? group with
    | none => rfl
    | some g =>
      simp only [Option.map_some, Table.mapValues_insert, SectionGroup.relabel]
      rw [map_modify_of_comm (h := fun part => { part with address := address found })]
      exact fun part => rfl
  | symbol id =>
    simp only [setItemAddress, relabel]
    rw [map_modify_of_comm (h := fun s => { s with address := address found })]
    exact fun s => rfl
  | scope id =>
    simp only [setItemAddress, modifyScope, relabel]
    rw [map_modify_of_comm (h := fun s => { s with address := address found })]
    exact fun s => rfl

theorem relabel_foldl_setItemAddress (found : Item → Option Int) (items : List Item) :
    (items.foldl (fun d item => d.setItemAddress (found item) item) c).relabel address position =
      items.foldl (fun d item => d.setItemAddress (address (found item)) item)
        (c.relabel address position) := by
  induction items generalizing c with
  | nil => rfl
  | cons item rest ih => rw [List.foldl_cons, List.foldl_cons, ih, relabel_setItemAddress]

theorem spot?_relabel (item : Item) :
    (c.relabel address position).spot? item =
      (c.spot? item).map fun spot => spot.readdressed (address spot.address) := by
  cases item with
  | contribution group index =>
    simp only [spot?, relabel, Table.get?_mapValues]
    cases c.groups.get? group with
    | none => rfl
    | some g =>
      simp only [SectionGroup.relabel, Option.map_some, Option.bind_some, List.getElem?_map]
      cases g.contributions[index]? <;> rfl
  | symbol id =>
    simp only [spot?, relabel, List.getElem?_map]
    cases c.symbols[id]? <;> rfl
  | scope id =>
    simp only [spot?, relabel, List.getElem?_map]
    cases c.arena[id]? <;> rfl

theorem itemAddress?_relabel (item : Item) :
    (c.relabel address position).itemAddress? item = c.itemAddress? item := by
  rw [itemAddress?_eq, itemAddress?_eq, spot?_relabel]
  cases c.spot? item <;> rfl

end Context
end

section
variable (position : Int → Int)

def Change.renumber : Change → Change
  | addSymbol s => addSymbol (s.relabel id position)
  | addUnit u => addUnit (u.relabel position)
  | describeUnit here language machine version =>
    describeUnit (position here) language machine version
  | change => change

def Effect.renumber : Effect → Effect
  | describes change => describes (change.renumber position)
  | holds form s cause => holds form (s.relabel id position) cause
  | opens form s endOffset => opens form (s.relabel id position) endOffset
  | effect => effect

namespace Context
variable (c : Context)

theorem renumber_addSection (s : ImageSection) :
    (c.addSection s).relabel id position = (c.relabel id position).addSection s := by
  simp only [addSection, resolveSection]
  have known : (c.relabel id position).layout = c.layout := rfl
  simp only [loadBase?, known]
  cases c.layout.bind (· s.index) <;> rfl

theorem mapValues_relabel_id (groups : Table String SectionGroup) :
    groups.mapValues (·.relabel id) = groups := by
  simp [Table.mapValues, Table.mapWithKeys, SectionGroup.relabel, Contribution.relabel]

theorem renumber_addContribution (name : String) (characteristics : Int) (part : Contribution) :
    (c.addContribution name characteristics part).relabel id position =
      (c.relabel id position).addContribution name characteristics part := by
  simp only [addContribution, await_eq_append, relabel, mapValues_relabel_id]
  rfl

theorem renumber_make (change : Change) :
    (c.make change).relabel id position =
      (c.relabel id position).make (change.renumber position) := by
  cases change with
  | addSection s => exact c.renumber_addSection position s
  | addContribution group characteristics part => exact c.renumber_addContribution position _ _ _
  | addSymbol s =>
    have size : (c.relabel id position).symbols.length = c.symbols.length := List.length_map _
    simp only [make, locateSymbol, await_eq_append, Change.renumber, relabel_addSymbol, size]
    rfl
  | addUnit u => exact c.relabel_addUnit id position u
  | describeUnit here language machine version =>
    exact c.relabel_describeUnit id position here language machine version

theorem renumber_enterScope (form : ScopeForm) (s : Scope) (endOffset : Option Int) :
    (c.enterScope form s endOffset).relabel id position =
      (c.relabel id position).enterScope form (s.relabel id position) endOffset := by
  have size : (c.relabel id position).arena.length = c.arena.length := List.length_map _
  unfold enterScope
  split
  · simp only [locateScope, await_eq_append, relabel_openScope, size]
    rfl
  · exact c.relabel_openScope id position s form.endKinds endOffset

/-- Positions are written down and never looked at. -/
theorem renumber_perform (e : Effect) :
    (c.perform e).relabel id position =
      (c.relabel id position).perform (e.renumber position) := by
  cases e with
  | ignored => rfl
  | refused cause => rfl
  | describes change => exact c.renumber_make position change
  | holds form placeholder cause => exact c.relabel_pushScope id position _ _ _
  | opens form s endOffset => exact c.renumber_enterScope position form s endOffset
  | closes kind => exact c.relabel_closeScope id position kind

theorem renumber_performAll (effects : List Effect) :
    (c.performAll effects).relabel id position =
      (c.relabel id position).performAll (effects.map (·.renumber position)) := by
  induction effects generalizing c with
  | nil => rfl
  | cons e rest ih =>
    rw [List.map_cons, performAll_cons, performAll_cons, ← renumber_perform, ih]

theorem renumber_retryUnresolved :
    c.retryUnresolved.2.relabel id position = (c.relabel id position).retryUnresolved.2 := by
  have looked := c.relabel_foldl_setItemAddress id position c.itemAddress? c.unresolved
  have unresolved : (c.relabel id position).unresolved = c.unresolved := rfl
  simp only [retryUnresolved, itemAddress?_relabel, unresolved]
  simp only [id] at looked
  rw [← looked]
  rfl

end Context

theorem Subject.renumber_read (subject : Subject) (r : Record) (i j : Nat) :
    (subject.read r i).map (·.renumber fun _ => j) = subject.read r j := by
  cases subject with
  | imageSection => simp only [read]; cases readSection r <;> rfl
  | sectionGroup => simp only [read]; cases readContribution r <;> rfl
  | symbol =>
    simp only [read, readSymbol, bind, Except.bind]
    cases Field.checkSection r.sectionIndex <;> cases Field.checkRange r.address "offset" <;> rfl
  | objectName => rfl
  | compiler => rfl

theorem ScopeForm.renumber_read (form : ScopeForm) (r : Record) (i j : Nat) :
    (form.read r i).map (·.relabel id fun _ => j) = form.read r j := by
  unfold read
  split
  · simp only [bind, Except.bind]
    cases Field.checkSection r.sectionIndex <;> cases Field.checkRange r.address "offset" <;>
      cases Field.checkRange r.length "length" <;> rfl
  · rfl

theorem Record.renumber_effect (r : Record) (i j : Nat) :
    (r.effect i).renumber (fun _ => j) = r.effect j := by
  unfold effect unlessTruncated
  cases Role.ofKind? r.kind with
  | none => rfl
  | some role =>
    cases role with
    | describes subject =>
      dsimp only
      rw [← subject.renumber_read r i j]
      cases r.truncated <;> cases subject.read r i <;> rfl
    | opens form =>
      dsimp only
      rw [← form.renumber_read r i j]
      cases r.truncated <;> cases form.read r i <;> rfl
    | closes => cases r.truncated <;> rfl

end
end SymbolRecovery
