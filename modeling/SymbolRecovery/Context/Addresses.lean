import SymbolRecovery.Context

/-!
Sections and addresses. A section gets its address from the layout, at once or on a later attempt;
an item gets its address from the section that it lies in, and waits among the unresolved ones
while that section has none.
-/
namespace SymbolRecovery.Context

def loadBase? (c : Context) (index : Int) : Option Int := c.layout.bind (· index)

def resolveSection (c : Context) (s : ImageSection) : Context :=
  match c.loadBase? s.index with
  | none => c
  | some base =>
    { c with
      sections := c.sections.insert s.index { s with base := some (base + s.rva) }
      addresses := c.addresses.insert s.index (base + s.rva) }

def resolveNotes (c : Context) (s : ImageSection) : List Note :=
  if c.layout.isSome ∧ (c.loadBase? s.index).isNone then [.sectionDeferred s.index s.name] else []

/-- Register a section. An earlier one of the same index is replaced, and its address is dropped
until the layout gives a new one. -/
def addSection (c : Context) (s : ImageSection) : Context :=
  let addresses := if c.sections.contains s.index then c.addresses.erase s.index else c.addresses
  resolveSection { c with sections := c.sections.insert s.index s, addresses } s

def addSectionNotes (c : Context) (s : ImageSection) : List Note :=
  (if c.sections.contains s.index then [.sectionUpdated s.index s.name] else [])
    ++ c.resolveNotes s

/-- Ask the layout again for every section without an address; the count says for how many it had
an answer. -/
def resolveSections (c : Context) : Nat × Context :=
  (c.pendingSections.countP fun s => (c.loadBase? s.index).isSome,
    c.pendingSections.foldl resolveSection c)

def resolveSectionsNotes (c : Context) : List Note := c.pendingSections.flatMap c.resolveNotes

def translate (c : Context) (sectionIndex offset : Int) : Option Int :=
  (c.addresses.get? sectionIndex).map (· + offset)

def locateNotes (c : Context) (sectionIndex offset : Int) : List Note :=
  match c.sections.get? sectionIndex with
  | some s => if s.contains offset then [] else [.outsideSection offset sectionIndex s.length]
  | none => []

def await (c : Context) (item : Item) (address : Option Int) : Context :=
  match address with
  | some _ => c
  | none => { c with unresolved := c.unresolved ++ [item] }

def place? (c : Context) : Item → Option (Int × Int)
  | .contribution group index => do
    let part ← (← c.groups.get? group).contributions[index]?
    return (part.sectionIndex, part.offset)
  | .symbol id => c.symbols[id]?.map fun s => (s.sectionIndex, s.offset)
  | .scope id => c.arena[id]?.map fun s => (s.sectionIndex, s.offset)

def itemAddress? (c : Context) (item : Item) : Option Int :=
  (c.place? item).bind fun place => c.translate place.1 place.2

def setItemAddress (c : Context) (address : Option Int) : Item → Context
  | .contribution group index =>
    match c.groups.get? group with
    | none => c
    | some g =>
      let contributions := g.contributions.modify index fun part => { part with address }
      { c with groups := c.groups.insert group { g with contributions } }
  | .symbol id => { c with symbols := c.symbols.modify id fun s => { s with address } }
  | .scope id => c.modifyScope id fun s => { s with address }

/-- Look up the address of every unresolved item again; the count says how many have one now. -/
def retryUnresolved (c : Context) : Nat × Context :=
  let looked := c.unresolved.foldl (fun d item => d.setItemAddress (c.itemAddress? item) item) c
  (c.unresolved.countP fun item => (c.itemAddress? item).isSome,
    { looked with unresolved := c.unresolved.filter fun item => (c.itemAddress? item).isNone })

/-- Add a range to the group of that name. The characteristics are those that the group was first
seen with. -/
def addContribution (c : Context) (name : String) (characteristics : Int) (part : Contribution) :
    Context :=
  let group := (c.groups.get? name).getD { name, characteristics }
  let address := c.translate part.sectionIndex part.offset
  let contributions := group.contributions ++ [{ part with address }]
  let added := { c with groups := c.groups.insert name { group with contributions } }
  added.await (.contribution name group.contributions.length) address

def locateSymbol (c : Context) (s : Symbol) : Symbol × Context :=
  let address := c.translate s.sectionIndex s.offset
  ({ s with address }, c.await (.symbol c.symbols.length) address)

def locateScope (c : Context) (s : Scope) : Scope × Context :=
  let address := c.translate s.sectionIndex s.offset
  ({ s with address }, c.await (.scope c.arena.length) address)

end SymbolRecovery.Context
