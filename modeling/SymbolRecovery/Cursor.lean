import SymbolRecovery.Record

/-!
A sequence of records with a position in it that only moves forward. A record can be asked for by
the byte offset it was read from; of several records that share one offset the last is meant.
-/
namespace SymbolRecovery

@[ext] structure Cursor where
  records : List Record
  position : Nat := 0
deriving Repr, DecidableEq

inductive CursorError where
  | exhausted (position : Nat)
  | backwards (position : Nat) (target : Int)
  | pastEnd (target : Int) (length : Nat)
  | noRecord (offset : Int)
deriving Repr, DecidableEq

namespace CursorError

def message : CursorError → String
  | exhausted position => s!"No record at position {position}"
  | backwards position target => s!"Cannot move backwards from position {position} to {target}"
  | pastEnd target length => s!"Position {target} is past the end of the stream ({length})"
  | noRecord offset => s!"No record at offset {Text.hex offset}"

end CursorError

def lastAtOffset? (offset : Int) : List Record → Option Nat
  | [] => none
  | r :: rest =>
    match lastAtOffset? offset rest with
    | some position => some (position + 1)
    | none => if r.offset = some offset then some 0 else none

theorem lastAtOffset?_lt_length {offset : Int} {records : List Record} {position : Nat}
    (found : lastAtOffset? offset records = some position) : position < records.length := by
  induction records generalizing position with
  | nil => simp [lastAtOffset?] at found
  | cons r rest ih =>
    unfold lastAtOffset? at found
    split at found
    · next later =>
      cases found
      exact Nat.succ_lt_succ (ih later)
    · split at found
      · cases found
        exact Nat.succ_pos _
      · cases found

namespace Cursor

def length (c : Cursor) : Nat := c.records.length

def remaining (c : Cursor) : Nat := c.records.length - c.position

def isExhausted (c : Cursor) : Bool := c.records.length ≤ c.position

def peek? (c : Cursor) : Option Record := c.records[c.position]?

def peek (c : Cursor) : Except CursorError Record :=
  match c.peek? with
  | some r => .ok r
  | none => .error (.exhausted c.position)

def advance (c : Cursor) : Cursor :=
  if c.position < c.records.length then { c with position := c.position + 1 } else c

def next (c : Cursor) : Except CursorError (Record × Cursor) := do
  return (← c.peek, c.advance)

def jump (c : Cursor) (target : Int) : Except CursorError Cursor :=
  if target < c.position then .error (.backwards c.position target)
  else if target > c.records.length then .error (.pastEnd target c.records.length)
  else .ok { c with position := target.toNat }

def indexOf? (c : Cursor) (offset : Int) : Option Nat := lastAtOffset? offset c.records

def jumpToOffset (c : Cursor) (offset : Int) : Except CursorError Cursor :=
  match c.indexOf? offset with
  | none => .error (.noRecord offset)
  | some target => c.jump target

/-- Read a number of records one by one. The reading stops where the records end, and fails there
if it was to go on. -/
def readAhead : Nat → Cursor → Except CursorError Unit × Cursor
  | 0, c => (.ok (), c)
  | count + 1, c =>
    match c.next with
    | .ok (_, c) => readAhead count c
    | .error e => (.error e, c)

/-- Both go through the same records, and the second is not behind the first. -/
structure Precedes (c d : Cursor) : Prop where
  records_eq : d.records = c.records
  position_le : c.position ≤ d.position

theorem Precedes.refl (c : Cursor) : c.Precedes c := ⟨rfl, Nat.le_refl _⟩

theorem Precedes.trans {c d e : Cursor} (first : c.Precedes d) (second : d.Precedes e) :
    c.Precedes e :=
  ⟨second.records_eq.trans first.records_eq, Nat.le_trans first.position_le second.position_le⟩

theorem precedes_advance (c : Cursor) : c.Precedes c.advance := by
  unfold advance
  split
  · exact ⟨rfl, Nat.le_succ _⟩
  · exact Precedes.refl c

theorem precedes_jump {c d : Cursor} {target : Int} (jumped : c.jump target = .ok d) :
    c.Precedes d := by
  unfold jump at jumped
  split at jumped
  · cases jumped
  · split at jumped
    · cases jumped
    · cases jumped
      exact ⟨rfl, by dsimp only; omega⟩

theorem precedes_readAhead (count : Nat) (c : Cursor) : c.Precedes (readAhead count c).2 := by
  induction count generalizing c with
  | zero => exact Precedes.refl c
  | succ count ih =>
    unfold readAhead next peek
    cases c.peek? with
    | none => exact Precedes.refl c
    | some r => exact (precedes_advance c).trans (ih c.advance)

theorem readAhead_one (c : Cursor) : (readAhead 1 c).2 = c.advance := by
  unfold readAhead next peek
  cases found : c.peek? with
  | none =>
    have ended : c.records.length ≤ c.position := List.getElem?_eq_none_iff.1 found
    simp [advance, Nat.not_lt.2 ended, bind, Except.bind]
  | some r => rfl

theorem lt_length_of_peek? {c : Cursor} {r : Record} (found : c.peek? = some r) :
    c.position < c.records.length := by
  unfold peek? at found
  exact (List.getElem?_eq_some_iff.1 found).1

theorem advance_eq {c : Cursor} (inside : c.position < c.records.length) :
    c.advance = { c with position := c.position + 1 } := by
  simp [advance, inside]

theorem advance_position {c : Cursor} (inside : c.position < c.records.length) :
    c.advance.position = c.position + 1 := by
  rw [advance_eq inside]

theorem jump_eq_ok {c : Cursor} {target : Nat} (ahead : c.position ≤ target)
    (inside : target ≤ c.records.length) : c.jump target = .ok { c with position := target } := by
  have forwards : ¬ (target : Int) < c.position := by omega
  have within : ¬ (target : Int) > c.records.length := by omega
  simp [jump, forwards, within]

theorem indexOf?_lt_length {c : Cursor} {offset : Int} {position : Nat}
    (found : c.indexOf? offset = some position) : position < c.records.length :=
  lastAtOffset?_lt_length found

def text (c : Cursor) : String :=
  s!"<SymbolStream position={c.position} length={c.records.length}>"

end Cursor
end SymbolRecovery
