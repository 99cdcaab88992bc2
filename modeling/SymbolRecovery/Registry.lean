import SymbolRecovery.Applier
import SymbolRecovery.Table

/-!
The appliers that there are and the kinds that they are registered for. Appliers form a hierarchy:
a derived one acts like the one it is derived from and accepts the same kinds, until it is
registered itself and accepts more. A kind can be registered only once.
-/
namespace SymbolRecovery

abbrev ApplierId := Nat

structure Declaration where
  name : String
  action : Action
  base : Option ApplierId := none
  /-- With several bases: all appliers above this one, in the order in which they are asked for
  what it does not say itself. -/
  line : List ApplierId := []
  kinds : Option (List Kind) := none

structure DuplicateKind where
  kind : Kind
  holder : String
deriving Repr, DecidableEq

def DuplicateKind.message (e : DuplicateKind) : String :=
  s!"Duplicate applier for {e.kind.name}: {e.holder}"

structure Registry where
  declarations : List Declaration := []
  appliers : Table Kind ApplierId := {}

namespace Registry

/-- The kinds of the nearest applier that has some of its own. Along single bases at most so many
are visited. -/
def kindsAlong (declarations : List Declaration) : Nat → ApplierId → List Kind
  | 0, _ => []
  | visits + 1, id =>
    match declarations[id]? with
    | none => []
    | some d =>
      match d.kinds, d.base with
      | some kinds, _ => kinds
      | none, some base => kindsAlong declarations visits base
      | none, none => (d.line.findSome? fun above => declarations[above]?.bind (·.kinds)).getD []

def kindsOf (registry : Registry) (id : ApplierId) : List Kind :=
  kindsAlong registry.declarations registry.declarations.length id

def nameOf (registry : Registry) (id : ApplierId) : String :=
  ((registry.declarations[id]?).map (·.name)).getD ""

def applier? (registry : Registry) (id : ApplierId) : Option Applier :=
  (registry.declarations[id]?).map fun d =>
    { name := d.name, kinds := registry.kindsOf id, action := d.action }

def find? (registry : Registry) (name : String) : Option ApplierId :=
  let ids := List.range registry.declarations.length
  ids.reverse.find? fun id => registry.nameOf id = name

def applierFor? (registry : Registry) (kind : Kind) : Option Applier :=
  (registry.appliers.get? kind).bind registry.applier?

def text (registry : Registry) (id : ApplierId) : String :=
  let names := (registry.kindsOf id).eraseDups.map Kind.name
  let listed := String.intercalate ", " ((names.mergeSort (· ≤ ·)).map Text.quoted)
  s!"<{registry.nameOf id} kinds=[{listed}]>"

def declare (registry : Registry) (d : Declaration) : ApplierId × Registry :=
  (registry.declarations.length, { registry with declarations := registry.declarations ++ [d] })

def derive (registry : Registry) (name : String) (base : ApplierId) : ApplierId × Registry :=
  let action := ((registry.declarations[base]?).map (·.action)).getD .unimplemented
  registry.declare { name, action, base := some base }

def assign (registry : Registry) (kind : Kind) (id : ApplierId) : Registry :=
  { registry with appliers := registry.appliers.insert kind id }

def withdraw (registry : Registry) (kind : Kind) : Registry :=
  { registry with appliers := registry.appliers.erase kind }

/-- Enter kinds one by one, up to the first that is taken. -/
def enroll (id : ApplierId) : List Kind → Registry → Option DuplicateKind × Registry
  | [], registry => (none, registry)
  | kind :: kinds, registry =>
    match registry.appliers.get? kind with
    | some holder => (some ⟨kind, registry.nameOf holder⟩, registry)
    | none => enroll id kinds (registry.assign kind id)

/-- Register an applier for some kinds, which it accepts from then on. If one of them is taken,
the kinds before it stay entered and the applier accepts none of them. -/
def register (registry : Registry) (id : ApplierId) (kinds : List Kind) :
    Option DuplicateKind × Registry :=
  match enroll id kinds registry with
  | (some duplicate, entered) => (some duplicate, entered)
  | (none, entered) =>
    let accepted := registry.kindsOf id ++ kinds
    (none, { entered with
      declarations := entered.declarations.modify id fun d => { d with kinds := some accepted } })

def listing (registry : Registry) : List (Kind × String) :=
  let entries := registry.appliers.entries.map fun entry => (entry.1, registry.nameOf entry.2)
  entries.mergeSort fun a b => a.1 ≤ b.1

def withApplier (registry : Registry) (name base : String) (action : Action) (kinds : List Kind) :
    Registry :=
  let declared := registry.declare { name, action, base := registry.find? base }
  (declared.2.register declared.1 kinds).2

def withBase (registry : Registry) (name base : String) (action : Action) : Registry :=
  (registry.declare { name, action, base := registry.find? base }).2

def standard : Registry :=
  Registry.mk [] {}
    |>.withBase "SymbolApplier" "" .unimplemented
    |>.withBase "DirectSymbolApplier" "SymbolApplier" .unimplemented
    |>.withBase "NestableSymbolApplier" "SymbolApplier" (.beginUnnamedScope false)
    |>.withBase "ScopeEndApplier" "SymbolApplier" .endScope
    |>.withBase "AddressSymbolApplier" "DirectSymbolApplier" (.change .symbol)
    |>.withBase "AddressedScopeApplier" "NestableSymbolApplier" (.beginUnnamedScope true)
    |>.withApplier "DataApplier" "AddressSymbolApplier" (.change .symbol) Kind.data
    |>.withApplier "PublicApplier" "AddressSymbolApplier" (.change .symbol) [Kind.publicSymbol]
    |>.withApplier "LabelApplier" "AddressSymbolApplier" (.change .symbol) [Kind.label]
    |>.withApplier "ProcedureApplier" "AddressedScopeApplier" (.beginScope .procedure)
      Kind.procedures
    |>.withApplier "BlockApplier" "AddressedScopeApplier" (.beginScope .block) [Kind.block]
    |>.withApplier "ThunkApplier" "AddressedScopeApplier" (.beginScope .thunk) [Kind.thunk]
    |>.withApplier "InlineSiteApplier" "NestableSymbolApplier" (.beginScope .inlineSite)
      [Kind.inlineSite]
    |>.withApplier "EndApplier" "ScopeEndApplier" .endScope Kind.scopeEnds
    |>.withApplier "SectionApplier" "DirectSymbolApplier" (.change .imageSection)
      [Kind.imageSection]
    |>.withApplier "CoffGroupApplier" "DirectSymbolApplier" (.change .sectionGroup)
      [Kind.sectionGroup]
    |>.withApplier "ObjectNameApplier" "DirectSymbolApplier" (.change .objectName)
      [Kind.objectName]
    |>.withApplier "CompileApplier" "DirectSymbolApplier" (.change .compiler) [Kind.compiler]

end Registry
end SymbolRecovery
