import SymbolRecovery.Fault

/-!
What a run has to tell while it goes on. A note says what happened; its level, its channel and its
wording follow from that. Notes are not part of the recovered state.
-/
namespace SymbolRecovery

inductive Level where
  | debug | info | error
deriving Repr, DecidableEq

namespace Level

def name : Level → String
  | debug => "DEBUG"
  | info => "INFO"
  | error => "ERROR"

def weight : Level → Nat
  | debug => 10
  | info => 20
  | error => 40

end Level

inductive Channel where
  | run | dispatch | context | scopes
deriving Repr, DecidableEq

def Channel.name : Channel → String
  | run => "applicator"
  | dispatch => "dispatcher"
  | context => "helpers.context"
  | scopes => "appliers.base"

inductive Note where
  | sectionUpdated (index : Int) (name : String)
  | sectionDeferred (index : Int) (name : String)
  | outsideSection (offset : Int) (index : Int) (length : Int)
  | endNotAhead (kind : Kind) (name : String) (endOffset : Int)
  | endOfWrongKind (kind : Kind) (name : String) (endOffset : Int) (found : Kind)
  | skipped (fault : Fault)
  | fault (fault : Fault)
  | started (length position : Nat)
  | cancelled (position length : Nat)
  | unclosed (fault : Fault)
  | finished (processed skipped faulted : Nat)
deriving Repr, DecidableEq

namespace Note

def level : Note → Level
  | cancelled .. => .info
  | fault f => if f.category.isInternal then .error else .debug
  | _ => .debug

def channel : Note → Channel
  | sectionUpdated .. | sectionDeferred .. | outsideSection .. => .context
  | endNotAhead .. | endOfWrongKind .. => .scopes
  | skipped .. | fault .. => .dispatch
  | started .. | cancelled .. | unclosed .. | finished .. => .run

def message : Note → String
  | sectionUpdated index name => s!"Updating section {index} ({name})"
  | sectionDeferred index name =>
    s!"Layout of section {index} ({name}) not known yet, resolution deferred"
  | outsideSection offset index length =>
    s!"Offset {Text.hex offset} lies outside section {index} of {Text.hex length} bytes"
  | endNotAhead kind name endOffset =>
    s!"{kind.name} {Text.quoted name}: end offset {Text.hex endOffset} not ahead in stream"
  | endOfWrongKind kind name endOffset found =>
    s!"{kind.name} {Text.quoted name}: end offset {Text.hex endOffset}"
      ++ s!" points at a {found.name} record"
  | skipped f => s!"Skipped {f.text}"
  | fault f =>
    if f.category.isInternal then s!"Internal consistency fault {f.text}" else s!"Fault {f.text}"
  | started length position => s!"Applying {length} symbol records from position {position}"
  | cancelled position length =>
    s!"Symbol application cancelled at position {position} of {length}"
  | unclosed f => s!"Fault {f.text}"
  | finished done passedOver refused =>
    s!"Applied {done} records, skipped {passedOver}, {refused} faulted"

def shownFrom (weight : Nat) (n : Note) : Bool := weight ≤ n.level.weight

end Note
end SymbolRecovery
