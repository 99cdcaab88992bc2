/-!
A file in memory with a position in it. The position may lie past the end, where nothing is
left to read. `keepingPosition` lets a reader move about and puts the position back whatever
comes of the reading.
-/
namespace SymbolRecovery

abbrev Bytes := List UInt8

structure ByteFile where
  bytes : Bytes
  position : Nat := 0
deriving Repr, DecidableEq

inductive SeekError where
  | negative (target : Int)
  | origin (code : Int)
  | tooFar
deriving Repr, DecidableEq

namespace SeekError

def message : SeekError → String
  | negative target => s!"negative seek value {target}"
  | origin code => s!"invalid whence ({code}, should be 0, 1 or 2)"
  | tooFar => "new position too large"

end SeekError

namespace ByteFile

def rest (f : ByteFile) : Bytes := f.bytes.drop f.position

def read (f : ByteFile) (count : Nat) : Bytes × ByteFile :=
  let got := f.rest.take count
  (got, { f with position := f.position + got.length })

def advance (f : ByteFile) (count : Nat) : ByteFile :=
  { f with position := f.position + count }

def positionLimit : Int := 0x7FFFFFFFFFFFFFFF

def moveTo (f : ByteFile) (target : Int) : Except SeekError ByteFile :=
  if positionLimit < target then .error .tooFar else .ok { f with position := target.toNat }

/-- Move relative to the start (0), the position (1) or the end (2). Only a move relative to the
start is refused for a negative target; the others stop at the start. -/
def seek (f : ByteFile) (offset : Int) (origin : Int) : Except SeekError ByteFile :=
  if origin = 0 then
    if offset < 0 then .error (.negative offset) else f.moveTo offset
  else if origin = 1 then f.moveTo (f.position + offset)
  else if origin = 2 then f.moveTo (f.bytes.length + offset)
  else .error (.origin origin)

def keepingPosition {α : Type} (f : ByteFile) (use : ByteFile → α × ByteFile) : α × ByteFile :=
  let used := use f
  (used.1, { used.2 with position := f.position })

def visit {α : Type} (f : ByteFile) (target : Option (Int × Int)) (use : ByteFile → α × ByteFile) :
    Except SeekError α × ByteFile :=
  f.keepingPosition fun f =>
    match target with
    | none => let used := use f; (.ok used.1, used.2)
    | some (offset, origin) =>
      match f.seek offset origin with
      | .error e => (.error e, f)
      | .ok moved => let used := use moved; (.ok used.1, used.2)

end ByteFile
end SymbolRecovery
