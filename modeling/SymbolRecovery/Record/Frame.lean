import SymbolRecovery.Record.Payload

/-!
The framing of symbol records in bytes. A frame is a length, which counts everything after
itself, a kind and a payload. Frames follow one another without a gap until fewer than four bytes
are left or a length cannot even hold the kind. A frame may declare more than there is; its
payload then ends with the data.

The loop over frames and the signature in front of them are the program's own. Two libraries that
are not part of it do the reading: dissect.cstruct reads the two numbers of a head and the
signature, with an EOFError where too few bytes are left; and a RangeStream is the window in which a
payload is read, so that a short read is one past the window or past the end of the file.
-/
namespace SymbolRecovery

structure Frame where
  offset : Nat
  declared : Nat
  kind : Nat
  payload : Bytes
deriving Repr, DecidableEq

namespace Frame

def scan (offset : Nat) (bytes : Bytes) : List Frame :=
  match bytes with
  | l₀ :: l₁ :: k₀ :: k₁ :: rest =>
    let declared := littleEndian [l₀, l₁]
    if declared < 2 then []
    else
      { offset, declared, kind := littleEndian [k₀, k₁], payload := rest.take (declared - 2) }
        :: scan (offset + 2 + declared) (rest.drop (declared - 2))
  | _ => []
termination_by bytes.length
decreasing_by simp; omega

/-- The record of a frame. Where the payload is too short for its layout, the record keeps its
kind and offset alone. -/
def record (f : Frame) : Record :=
  let bare : Record := { kind := f.kind, offset := some f.offset }
  match PayloadLayout.ofKind bare.kind with
  | none => bare
  | some layout => (layout.read? f.payload bare).getD { bare with truncated := true }

def extent (frames : List Frame) : Nat := (frames.map fun f => 2 + f.declared).foldr (· + ·) 0

end Frame

namespace Record

def decode (bytes : Bytes) : List Record := (Frame.scan 0 bytes).map Frame.record

inductive SignatureError where
  | missing (available : Nat)
  | unsupported (signature : Nat)
deriving Repr, DecidableEq

namespace SignatureError

def message : SignatureError → String
  | missing available => s!"Read {available} bytes, but expected 4"
  | unsupported signature => s!"Unsupported CodeView signature: {signature}"

end SignatureError

def supportedSignature : Nat := 4

/-- The records from the position of a file on, at most as many as the limit says. Offsets count
from there, the signature included where there is one. The file is afterwards where it was. -/
def decodeFile (f : ByteFile) (signature : Bool) (limit : Option Nat := none) :
    Except SignatureError (List Record) × ByteFile :=
  let upTo (frames : List Frame) := match limit with
    | none => frames
    | some count => frames.take count
  f.keepingPosition fun f =>
    if limit = some 0 then (.ok [], f)
    else if signature then
      let (head, f) := f.read 4
      if head.length < 4 then (.error (.missing head.length), f)
      else if littleEndian head ≠ supportedSignature then
        (.error (.unsupported (littleEndian head)), f)
      else
        let frames := upTo (Frame.scan 4 f.rest)
        (.ok (frames.map Frame.record), f.advance (Frame.extent frames))
    else
      let frames := upTo (Frame.scan 0 f.rest)
      (.ok (frames.map Frame.record), f.advance (Frame.extent frames))

end Record
end SymbolRecovery
