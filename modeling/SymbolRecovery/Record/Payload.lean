import SymbolRecovery.Record
import SymbolRecovery.ByteFile
import SymbolRecovery.Text.Utf8

/-!
How the payload of a record is laid out: packed little-endian fields and, for most kinds, a
zero-terminated text after them. What follows the text, or the fields where there is none, is not
looked at. A payload that ends early gives nothing at all, so no record is half filled.

Which fields a kind has, and what becomes of them, is the program's own. How they are read is what
the dissect.cstruct library does, which is not part of the program: `readFields` takes packed
little-endian fields one behind another, `readText?` takes a text up to its first zero byte, and
where the bytes end before that, its EOFError is the `none` of `read?`.
-/
namespace SymbolRecovery

inductive Slot where
  | sectionIndex | alignment | address | length | characteristics | flags | typeIndex
  | parent | endOffset | signature | machine
  | unused
deriving Repr, DecidableEq

inductive TextSlot where
  | name | version
deriving Repr, DecidableEq

namespace Record

def setField (r : Record) (value : Int) : Slot → Record
  | .sectionIndex => { r with sectionIndex := value }
  | .alignment => { r with alignment := value }
  | .address => { r with address := value }
  | .length => { r with length := value }
  | .characteristics => { r with characteristics := value }
  | .flags => { r with flags := value }
  | .typeIndex => { r with typeIndex := value }
  | .parent => { r with parent := value }
  | .endOffset => { r with endOffset := value }
  | .signature => { r with signature := value }
  | .machine => { r with machine := value }
  | .unused => r

def setText (r : Record) (value : String) : TextSlot → Record
  | .name => { r with name := value }
  | .version => { r with version := value }

end Record

/-- Fields with their widths in bytes, in stored order, and the text after them. -/
structure PayloadLayout where
  fields : List (Slot × Nat)
  text : Option TextSlot := some .name
deriving Repr, DecidableEq

def littleEndian : Bytes → Nat
  | [] => 0
  | octet :: octets => octet.toNat + 256 * littleEndian octets

namespace PayloadLayout

def imageSection : PayloadLayout where
  fields := [(.sectionIndex, 2), (.alignment, 1), (.unused, 1), (.address, 4), (.length, 4),
    (.characteristics, 4)]

def sectionGroup : PayloadLayout where
  fields := [(.length, 4), (.characteristics, 4), (.address, 4), (.sectionIndex, 2)]

def procedure : PayloadLayout where
  fields := [(.parent, 4), (.endOffset, 4), (.unused, 4), (.length, 4), (.unused, 4),
    (.unused, 4), (.typeIndex, 4), (.address, 4), (.sectionIndex, 2), (.flags, 1)]

def block : PayloadLayout where
  fields := [(.parent, 4), (.endOffset, 4), (.length, 4), (.address, 4), (.sectionIndex, 2)]

/-- The flags of a thunk are its ordinal. -/
def thunk : PayloadLayout where
  fields := [(.parent, 4), (.endOffset, 4), (.unused, 4), (.address, 4), (.sectionIndex, 2),
    (.length, 2), (.flags, 1)]

/-- The type of an inline site is the inlined function. -/
def inlineSite : PayloadLayout where
  fields := [(.parent, 4), (.endOffset, 4), (.typeIndex, 4)]
  text := none

def data : PayloadLayout where
  fields := [(.typeIndex, 4), (.address, 4), (.sectionIndex, 2)]

def publicSymbol : PayloadLayout where
  fields := [(.flags, 4), (.address, 4), (.sectionIndex, 2)]

def label : PayloadLayout where
  fields := [(.address, 4), (.sectionIndex, 2), (.flags, 1)]

def objectName : PayloadLayout where
  fields := [(.signature, 4)]

def compiler : PayloadLayout where
  fields := [(.flags, 4), (.machine, 2)] ++ List.replicate 8 (.unused, 2)
  text := some .version

def table : List (Kind × PayloadLayout) :=
  [(Kind.imageSection, imageSection), (Kind.sectionGroup, sectionGroup)]
    ++ Kind.procedures.map (·, procedure)
    ++ [(Kind.block, block), (Kind.thunk, thunk), (Kind.inlineSite, inlineSite)]
    ++ Kind.data.map (·, data)
    ++ [(Kind.publicSymbol, publicSymbol), (Kind.label, label), (Kind.objectName, objectName),
      (Kind.compiler, compiler)]

def ofKind (kind : Kind) : Option PayloadLayout := table.lookup kind

def fixedSize (layout : PayloadLayout) : Nat := (layout.fields.map (·.2)).foldr (· + ·) 0

def readFields : List (Slot × Nat) → Bytes → Record → Option (Record × Bytes)
  | [], bytes, r => some (r, bytes)
  | (slot, width) :: fields, bytes, r =>
    if bytes.length < width then none
    else readFields fields (bytes.drop width) (r.setField (littleEndian (bytes.take width)) slot)

def readText? (bytes : Bytes) : Option String :=
  if 0 ∈ bytes then some (Text.Utf8.decode (bytes.takeWhile (· ≠ 0))) else none

def read? (layout : PayloadLayout) (payload : Bytes) (r : Record) : Option Record := do
  let (r, rest) ← readFields layout.fields payload r
  match layout.text with
  | none => return r
  | some slot => return r.setText (← readText? rest) slot

end PayloadLayout
end SymbolRecovery
