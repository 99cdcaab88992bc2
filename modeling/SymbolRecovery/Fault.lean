import SymbolRecovery.Field
import SymbolRecovery.Scope
import SymbolRecovery.Text.Quoted

/-!
What can be wrong with a single record. A fault never ends a run: it is noted together with the
position and the kind of the record, and its category tells faults of the data from one in the
appliers themselves.
-/
namespace SymbolRecovery

inductive FaultCategory where
  | unsupportedKind | dispatchMismatch | malformedField | scopeImbalance
deriving Repr, DecidableEq

namespace FaultCategory

def text : FaultCategory → String
  | unsupportedKind => "unsupported kind"
  | dispatchMismatch => "dispatch mismatch"
  | malformedField => "malformed field"
  | scopeImbalance => "scope imbalance"

def isInternal (c : FaultCategory) : Bool := c = dispatchMismatch

end FaultCategory

/-- What an applier may raise: errors of the program, of which all from `applyFault` on are faults
of a record, or something else. -/
inductive ErrorClass where
  | error | endOfStream | applyFault | unsupportedKind | dispatchMismatch | malformedField
  | scopeImbalance
  | other (name : String)
deriving Repr, DecidableEq

def ErrorClass.name : ErrorClass → String
  | error => "Error"
  | endOfStream => "EndOfStream"
  | applyFault => "ApplyFault"
  | unsupportedKind => "UnsupportedKind"
  | dispatchMismatch => "DispatchMismatch"
  | malformedField => "MalformedField"
  | scopeImbalance => "ScopeImbalance"
  | other name => name

def FaultCategory.ofError : ErrorClass → Except String FaultCategory
  | .unsupportedKind => .ok .unsupportedKind
  | .dispatchMismatch => .ok .dispatchMismatch
  | .malformedField => .ok .malformedField
  | .scopeImbalance => .ok .scopeImbalance
  | unknown => .error s!"No fault category for {unknown.name}"

structure ScopeLabel where
  kind : ScopeKind
  name : String
deriving Repr, DecidableEq

namespace ScopeLabel

def text (l : ScopeLabel) : String := s!"{l.kind.name} {Text.quoted l.name}"

def listing (labels : List ScopeLabel) : String := String.intercalate ", " (labels.map text)

end ScopeLabel

inductive FaultCause where
  | noApplier
  | wrongKind (applier : String) (kind : Kind)
  | notConsumed (applier : String)
  | truncated (kind : Kind)
  | field (error : FieldError)
  /-- An end record closes a scope that is not on top of the stack, or none. -/
  | unbalanced (kind : Kind) (closed : Option ScopeLabel) (discarded : List ScopeLabel)
  | unclosed (scopes : List ScopeLabel)
  | reported (category : FaultCategory) (message : String)
deriving Repr, DecidableEq

namespace FaultCause

def category : FaultCause → FaultCategory
  | noApplier => .unsupportedKind
  | wrongKind .. | notConsumed .. => .dispatchMismatch
  | truncated .. | field .. => .malformedField
  | unbalanced .. | unclosed .. => .scopeImbalance
  | reported category _ => category

def message : FaultCause → String
  | noApplier => "no applier registered"
  | wrongKind applier kind => s!"{applier} invoked on a {kind.name} record"
  | notConsumed applier => s!"{applier} did not consume the record"
  | truncated kind => s!"{kind.name} payload is truncated"
  | field error => error.message
  | unbalanced kind none [] => s!"{kind.name} without an open scope"
  | unbalanced kind none discarded =>
    s!"{kind.name} matches no open scope, discarded {ScopeLabel.listing discarded}"
  | unbalanced kind (some closed) discarded =>
    s!"{kind.name} closes {closed.text}, discarded {ScopeLabel.listing discarded}"
  | unclosed scopes =>
    s!"end of stream with {scopes.length} open scope(s): {ScopeLabel.listing scopes}"
  | reported _ message => message

end FaultCause

structure Fault where
  position : Int
  kind : Option Kind
  cause : FaultCause
deriving Repr, DecidableEq

namespace Fault

def category (f : Fault) : FaultCategory := f.cause.category

def message (f : Fault) : String := f.cause.message

def text (f : Fault) : String :=
  let kind := match f.kind with
    | some kind => kind.name
    | none => "-"
  s!"[{f.position}] {kind}: {f.category.text}: {f.message}"

end Fault
end SymbolRecovery
