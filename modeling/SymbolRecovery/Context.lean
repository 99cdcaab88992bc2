import SymbolRecovery.Image
import SymbolRecovery.Journal
import SymbolRecovery.Scope
import SymbolRecovery.Table

/-!
The state that records are applied to: the tables of sections, of section addresses and of groups,
the scopes with the stack of open ones, the symbols, the compile units, and the items that have no
address yet.

Every scope found has a place in `arena`, whether or not it is part of the forest; `top` lists the
scopes of the forest that have no parent. The stack is listed from the top down.
-/
namespace SymbolRecovery

structure Options where
  /-- Apply the records inside scopes; otherwise go from a begin record to its end record. -/
  descendScopes : Bool := true
  reportUnclosed : Bool := true
deriving Repr, DecidableEq

inductive Item where
  | contribution (group : String) (index : Nat)
  | symbol (id : SymbolId)
  | scope (id : ScopeId)
deriving Repr, DecidableEq

structure Context where
  /-- Where sections are loaded; without a layout no address is known. -/
  layout : Option LoadLayout := none
  options : Options := {}
  sections : Table Int ImageSection := {}
  addresses : Table Int Int := {}
  groups : Table String SectionGroup := {}
  arena : List Scope := []
  top : List ScopeId := []
  symbols : List Symbol := []
  units : List CompileUnit := []
  stack : List OpenScope := []
  unresolved : List Item := []

namespace Context

def scope? (c : Context) (id : ScopeId) : Option Scope := c.arena[id]?

def modifyScope (c : Context) (id : ScopeId) (f : Scope → Scope) : Context :=
  { c with arena := c.arena.modify id f }

def currentScope? (c : Context) : Option ScopeId := c.stack.head?.map (·.scope)

def currentUnit? (c : Context) : Option CompileUnit := c.units.getLast?

def currentModule? (c : Context) : Option String := c.currentUnit?.map (·.name)

def pendingSections (c : Context) : List ImageSection :=
  c.sections.values.filter fun s => !s.isResolved

end Context
end SymbolRecovery
