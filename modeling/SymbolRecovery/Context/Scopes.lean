import SymbolRecovery.Context

/-!
Scopes, symbols and compile units. A scope that is opened belongs to the scope on top of the
stack, and so does a symbol; both remember the compile unit that was current. Frames can also be
put on the stack for scopes that are not to be kept.
-/
namespace SymbolRecovery.Context

/-- Put a scope on the stack without giving it a place in the forest. -/
def pushScope (c : Context) (s : Scope) (endKinds : List Kind) (endOffset : Option Int := none) :
    Context :=
  let opened : OpenScope :=
    { scope := c.arena.length, endKinds, endOffset, below := c.currentScope? }
  { c with arena := c.arena ++ [s], stack := opened :: c.stack }

def attachScope (c : Context) : Context :=
  match c.currentScope? with
  | some parent =>
    c.modifyScope parent fun p => { p with children := p.children ++ [c.arena.length] }
  | none => { c with top := c.top ++ [c.arena.length] }

def openScope (c : Context) (s : Scope) (endKinds : List Kind) (endOffset : Option Int := none) :
    Context :=
  let s := { s with parent := c.currentScope?, module := c.currentModule? }
  c.attachScope.pushScope s endKinds endOffset

def unwinding (c : Context) (kind : Kind) : Unwinding := unwind kind c.stack

def closeScope (c : Context) (kind : Kind) : Context :=
  let u := c.unwinding kind
  let unwound := { c with stack := u.remaining }
  match u.closed with
  | some o => unwound.modifyScope o.scope fun s => { s with closed := true }
  | none => unwound

def label (c : Context) (o : OpenScope) : ScopeLabel :=
  match c.scope? o.scope with
  | some s => ⟨s.kind, s.name⟩
  | none => ⟨.procedure, ""⟩

def imbalance? (c : Context) (kind : Kind) : Option FaultCause :=
  let u := c.unwinding kind
  if u.isClean then none
  else some (.unbalanced kind (u.closed.map c.label) (u.discarded.map c.label))

def addSymbol (c : Context) (s : Symbol) : Context :=
  let id := c.symbols.length
  let added := { c with
    symbols := c.symbols ++ [{ s with scope := c.currentScope?, module := c.currentModule? }] }
  match c.currentScope? with
  | some scope => added.modifyScope scope fun p => { p with symbols := p.symbols ++ [id] }
  | none => added

def addUnit (c : Context) (u : CompileUnit) : Context := { c with units := c.units ++ [u] }

/-- Complete the current compile unit; if there is none, an unnamed one begins here. -/
def describeUnit (c : Context) (position language machine : Int) (version : String) : Context :=
  let c := if c.units.isEmpty then c.addUnit { name := "", position } else c
  { c with units := c.units.modify (c.units.length - 1) fun u =>
    { u with language := some language, machine := some machine, version } }

end SymbolRecovery.Context
