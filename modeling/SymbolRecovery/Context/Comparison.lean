import SymbolRecovery.Context.Forest

/-!
When two contexts hold the same result. Tables are compared without regard to order, and scopes by
what they are and hold. Places in the arena do not matter, nor do the layout and the options that
a result was found with.
-/
namespace SymbolRecovery

structure ScopeOutline where
  depth : Nat
  scope : Scope
  symbols : List Symbol
deriving Repr, DecidableEq

inductive ItemOutline where
  | contribution (part : Contribution)
  | symbol (s : Symbol)
  | scope (outline : List ScopeOutline)
deriving Repr, DecidableEq

structure FrameOutline where
  scope : List ScopeOutline
  endKinds : List Kind
  endOffset : Option Int
deriving Repr, DecidableEq

/-- The parts in which two contexts agree. -/
structure Agreement where
  sections : Bool
  addresses : Bool
  groups : Bool
  scopes : Bool
  symbols : Bool
  units : Bool
  stack : Bool
  unresolved : Bool
deriving Repr, DecidableEq

def Agreement.complete (a : Agreement) : Bool :=
  a.sections && a.addresses && a.groups && a.scopes && a.symbols && a.units && a.stack
    && a.unresolved

namespace Context

def bareSymbol (s : Symbol) : Symbol := { s with scope := none }

def bareScope (s : Scope) : Scope := { s with children := [], symbols := [], parent := none }

def outlineNode? (c : Context) (entry : Nat × ScopeId) : Option ScopeOutline :=
  (c.scope? entry.2).map fun s =>
    { depth := entry.1, scope := bareScope s
      symbols := s.symbols.filterMap fun id => c.symbols[id]?.map bareSymbol }

def outline (c : Context) (id : ScopeId) : List ScopeOutline :=
  (c.subtree id).filterMap c.outlineNode?

def itemOutline? (c : Context) : Item → Option ItemOutline
  | .contribution group index => do
    return .contribution (← (← c.groups.get? group).contributions[index]?)
  | .symbol id => c.symbols[id]?.map fun s => .symbol (bareSymbol s)
  | .scope id => some (.scope (c.outline id))

def frameOutline (c : Context) (o : OpenScope) : FrameOutline :=
  { scope := c.outline o.scope, endKinds := Kind.sorted o.endKinds, endOffset := o.endOffset }

def agreement (a b : Context) : Agreement where
  sections := a.sections.same b.sections
  addresses := a.addresses.same b.addresses
  groups := a.groups.same b.groups
  scopes := a.top.map a.outline = b.top.map b.outline
  symbols := a.symbols.map bareSymbol = b.symbols.map bareSymbol
  units := a.units = b.units
  stack := a.stack.map a.frameOutline = b.stack.map b.frameOutline
  unresolved := a.unresolved.filterMap a.itemOutline? = b.unresolved.filterMap b.itemOutline?

end Context
end SymbolRecovery
