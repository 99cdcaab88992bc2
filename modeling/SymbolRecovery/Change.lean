import SymbolRecovery.Context.Addresses
import SymbolRecovery.Context.Scopes
import SymbolRecovery.Record

/-!
What an accepted record asks for. A record is first read into a change, which checks its fields,
and a change is then made to the context as a whole; so a record with a bad field changes nothing
by itself.
-/
namespace SymbolRecovery

/-- The scopes that a kind of begin record opens. -/
structure ScopeForm where
  kind : ScopeKind
  addressed : Bool
  endKinds : List Kind
deriving Repr, DecidableEq

namespace ScopeForm

def procedure : ScopeForm := ⟨.procedure, true, [Kind.scopeEnd, Kind.procedureEnd]⟩
def block : ScopeForm := ⟨.block, true, [Kind.scopeEnd]⟩
def thunk : ScopeForm := ⟨.thunk, true, [Kind.scopeEnd]⟩

/-- The code ranges of an inline site are not read, so it has no address. -/
def inlineSite : ScopeForm := ⟨.inlineSite, false, [Kind.inlineSiteEnd]⟩

def read (form : ScopeForm) (r : Record) (position : Nat) (digits : Option Nat := none) :
    Except FieldError Scope :=
  if form.addressed then do
    let sectionIndex ← Field.checkSection r.sectionIndex "section" true digits
    let offset ← Field.checkRange r.address "offset"
    let length ← Field.checkRange r.length "length"
    return { kind := form.kind, name := r.name, sectionIndex, offset, length
             typeIndex := r.typeIndex, flags := r.flags, position }
  else .ok { kind := form.kind, name := r.name, typeIndex := r.typeIndex, position }

/-- What stands on the stack for a begin record whose scope is not kept, so that its end record
finds something to close. -/
def placeholder (form : ScopeForm) (r : Record) (position : Nat) : Scope :=
  { kind := form.kind, name := r.name, position }

def endOffset? (r : Record) : Option Int := if r.endOffset = 0 then none else some r.endOffset

end ScopeForm

inductive Change where
  | addSection (s : ImageSection)
  | addContribution (group : String) (characteristics : Int) (part : Contribution)
  | addSymbol (s : Symbol)
  | addUnit (u : CompileUnit)
  | describeUnit (position language machine : Int) (version : String)
deriving Repr, DecidableEq

inductive Subject where
  | imageSection | sectionGroup | symbol | objectName | compiler
deriving Repr, DecidableEq

namespace Subject

def readSection (r : Record) (digits : Option Nat := none) : Except FieldError ImageSection := do
  let index ← Field.checkSection r.sectionIndex "section" false digits
  let rva ← Field.checkRange r.address "rva"
  let length ← Field.checkRange r.length "length"
  let alignment ← Field.checkAlignment r.alignment digits
  return { index, rva, length, characteristics := r.characteristics, alignment, name := r.name }

def readContribution (r : Record) (digits : Option Nat := none) :
    Except FieldError Contribution := do
  let sectionIndex ← Field.checkSection r.sectionIndex "section" false digits
  let offset ← Field.checkRange r.address "offset"
  let length ← Field.checkRange r.length "length"
  return { sectionIndex, offset, length }

def readSymbol (r : Record) (position : Nat) (digits : Option Nat := none) :
    Except FieldError Symbol := do
  let sectionIndex ← Field.checkSection r.sectionIndex "section" true digits
  let offset ← Field.checkRange r.address "offset"
  return { kind := r.kind, name := r.name, sectionIndex, offset, typeIndex := r.typeIndex
           flags := r.flags, position }

/-- The low byte of a compiler's flags is the source language. -/
def read (subject : Subject) (r : Record) (position : Nat) (digits : Option Nat := none) :
    Except FieldError Change :=
  match subject with
  | .imageSection => (readSection r digits).map .addSection
  | .sectionGroup => (readContribution r digits).map (.addContribution r.name r.characteristics)
  | .symbol => (readSymbol r position digits).map .addSymbol
  | .objectName => .ok (.addUnit { name := r.name, signature := r.signature, position })
  | .compiler => .ok (.describeUnit position (r.flags % 256) r.machine r.version)

end Subject

namespace Context

def make (c : Context) : Change → Context
  | .addSection s => c.addSection s
  | .addContribution group characteristics part => c.addContribution group characteristics part
  | .addSymbol s => let located := c.locateSymbol s; located.2.addSymbol located.1
  | .addUnit u => c.addUnit u
  | .describeUnit position language machine version =>
    c.describeUnit position language machine version

def makeNotes (c : Context) : Change → List Note
  | .addSection s => c.addSectionNotes s
  | .addContribution _ _ part => c.locateNotes part.sectionIndex part.offset
  | .addSymbol s => c.locateNotes s.sectionIndex s.offset
  | .addUnit _ | .describeUnit .. => []

def enterScope (c : Context) (form : ScopeForm) (s : Scope) (endOffset : Option Int) : Context :=
  if form.addressed then
    let located := c.locateScope s
    located.2.openScope located.1 form.endKinds endOffset
  else c.openScope s form.endKinds endOffset

def enterScopeNotes (c : Context) (form : ScopeForm) (s : Scope) : List Note :=
  if form.addressed then c.locateNotes s.sectionIndex s.offset else []

end Context
end SymbolRecovery
