import SymbolRecovery.Kind
import SymbolRecovery.Text.Quoted

/-!
A symbol record after decoding. Only the fields that its kind stores are filled in. `address` is
an offset within a section, or for a section record its relative virtual address; `parent` and
`endOffset` are the byte offsets that a record opening a scope stores, and `offset` is the
record's own one. `truncated` says that the bytes ended before the record's fields did.
-/
namespace SymbolRecovery

structure Record where
  kind : Kind
  name : String := ""
  address : Int := 0
  length : Int := 0
  characteristics : Int := 0
  alignment : Int := 0
  sectionIndex : Int := 0
  flags : Int := 0
  typeIndex : Int := 0
  parent : Int := 0
  endOffset : Int := 0
  signature : Int := 0
  machine : Int := 0
  version : String := ""
  offset : Option Int := none
  truncated : Bool := false
deriving Repr, DecidableEq

namespace Record

def kindName (r : Record) : String := r.kind.name

def text (r : Record) : String :=
  let offset := match r.offset with
    | some offset => toString offset
    | none => "None"
  s!"<SymbolRecord {r.kindName} name={Text.quoted r.name} offset={offset}>"

end Record
end SymbolRecovery
