import SymbolRecovery.Kind

/-!
Lexical scopes and the symbols in them. Scopes and symbols are named by their place in the order
in which they were found, so a scope can be referred to by its parent, by an open frame and by the
symbols in it without being copied.

An open scope waits for a record of one of its end kinds. An end record closes the innermost open
scope that waits for its kind; the scopes opened after that one are given up.
-/
namespace SymbolRecovery

inductive ScopeKind where
  | procedure | block | thunk | inlineSite
deriving Repr, DecidableEq

namespace ScopeKind

def all : List ScopeKind := [procedure, block, thunk, inlineSite]

def name : ScopeKind → String
  | procedure => "procedure"
  | block => "block"
  | thunk => "thunk"
  | inlineSite => "inline site"

end ScopeKind

/-- Place of a scope among all scopes found. -/
abbrev ScopeId := Nat

abbrev SymbolId := Nat

structure Scope where
  kind : ScopeKind
  name : String
  sectionIndex : Int := 0
  offset : Int := 0
  length : Int := 0
  address : Option Int := none
  typeIndex : Int := 0
  flags : Int := 0
  position : Int := 0
  module : Option String := none
  closed : Bool := false
  children : List ScopeId := []
  symbols : List SymbolId := []
  parent : Option ScopeId := none
deriving Repr, DecidableEq

structure Symbol where
  kind : Kind
  name : String
  sectionIndex : Int
  offset : Int
  address : Option Int := none
  typeIndex : Int := 0
  flags : Int := 0
  position : Int := 0
  module : Option String := none
  /-- The innermost scope that was open when the symbol was found. -/
  scope : Option ScopeId := none
deriving Repr, DecidableEq

structure CompileUnit where
  name : String
  signature : Int := 0
  language : Option Int := none
  machine : Option Int := none
  version : String := ""
  position : Int := 0
deriving Repr, DecidableEq

structure OpenScope where
  scope : ScopeId
  endKinds : List Kind
  endOffset : Option Int := none
  below : Option ScopeId := none
deriving Repr, DecidableEq

def OpenScope.closedBy (o : OpenScope) (kind : Kind) : Bool := kind ∈ o.endKinds

/-- What an end record does to a stack: the scope that it closes, the scopes above that one from
the top down, and the scopes that stay open. If it closes none, all are given up. -/
structure Unwinding where
  closed : Option OpenScope
  discarded : List OpenScope
  remaining : List OpenScope
deriving Repr, DecidableEq

def unwind (kind : Kind) : List OpenScope → Unwinding
  | [] => ⟨none, [], []⟩
  | top :: below =>
    if top.closedBy kind then ⟨some top, [], below⟩
    else
      let rest := unwind kind below
      { rest with discarded := top :: rest.discarded }

def Unwinding.isClean (u : Unwinding) : Bool := u.closed.isSome && u.discarded.isEmpty

end SymbolRecovery
