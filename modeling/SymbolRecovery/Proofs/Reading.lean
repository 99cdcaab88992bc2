import SymbolRecovery.Proofs.Framing

/-!
Reading by position. Frame by frame, a file is read at absolute positions: two words, a window that
begins behind them, and a move to where the length says that the frame ends. Main statement: this
reads the frames of what lies behind the position, with offsets that count from there; so it makes
no difference what stands before it, a signature moves the offsets of all records behind it, and
the file is where it was, however the reading ends.
-/
namespace SymbolRecovery

namespace ByteFile

def readWord? (f : ByteFile) : Option (Nat × ByteFile) :=
  let (got, f) := f.read 2
  if got.length < 2 then none else some (littleEndian got, f)

def window (f : ByteFile) (position count : Nat) : Bytes :=
  (({ f with position } : ByteFile).read count).1

def readFrame? (f : ByteFile) (start : Nat) : Option (Frame × ByteFile) := do
  let (declared, behindLength) ← f.readWord?
  let (kind, _) ← behindLength.readWord?
  if declared < 2 then none
  else
    let payload := f.window (f.position + 4) (declared - 2)
    some ({ offset := f.position - start, declared, kind, payload },
      { f with position := f.position + 2 + declared })

def readFrames (f : ByteFile) (start : Nat) : Nat → List Frame
  | 0 => []
  | count + 1 =>
    match f.readFrame? start with
    | none => []
    | some (frame, behind) => frame :: behind.readFrames start count

theorem readWord?_eq (bytes : Bytes) (position : Nat) :
    readWord? ⟨bytes, position⟩ =
      if position + 2 ≤ bytes.length then some (wordAt bytes position, ⟨bytes, position + 2⟩)
      else none := by
  have size : ((bytes.drop position).take 2).length = min 2 (bytes.length - position) := by
    rw [List.length_take, List.length_drop]
  unfold readWord? read rest
  by_cases there : position + 2 ≤ bytes.length
  · have whole : min 2 (bytes.length - position) = 2 := by omega
    simp [there, size, whole, wordAt]
  · have short : min 2 (bytes.length - position) < 2 := by omega
    simp [there, size, short]

theorem readFrame?_eq (bytes : Bytes) (start offset : Nat) :
    readFrame? ⟨bytes, start + offset⟩ start =
      if FrameAt (bytes.drop start) offset then
        some (Frame.headAt (bytes.drop start) offset,
          ⟨bytes, start + (Frame.headAt (bytes.drop start) offset).following⟩)
      else none := by
  have words : ∀ place, wordAt bytes (start + place) = wordAt (bytes.drop start) place := by
    intro place
    rw [wordAt, wordAt, List.drop_drop]
  have room : FrameAt (bytes.drop start) offset ↔
      start + offset + 4 ≤ bytes.length ∧ 2 ≤ wordAt (bytes.drop start) offset := by
    rw [FrameAt, List.length_drop]
    omega
  by_cases there : start + offset + 4 ≤ bytes.length
  · have length : readWord? ⟨bytes, start + offset⟩ =
        some (wordAt (bytes.drop start) offset, ⟨bytes, start + offset + 2⟩) := by
      rw [readWord?_eq, if_pos (by omega), words]
    have kind : readWord? ⟨bytes, start + offset + 2⟩ =
        some (wordAt (bytes.drop start) (offset + 2), ⟨bytes, start + offset + 2 + 2⟩) := by
      rw [readWord?_eq, if_pos (by omega), Nat.add_assoc start offset 2, words]
    have payload : ∀ count, window ⟨bytes, start + offset⟩ (start + offset + 4) count =
        ((bytes.drop start).drop (offset + 4)).take count := by
      intro count
      rw [window, read, rest, List.drop_drop, Nat.add_assoc]
    simp only [readFrame?, length, kind, payload, Option.bind_eq_bind, Option.bind_some]
    by_cases counts : 2 ≤ wordAt (bytes.drop start) offset
    · rw [if_neg (Nat.not_lt.2 counts), if_pos (room.2 ⟨there, counts⟩)]
      simp only [Frame.headAt, Frame.following, Nat.add_sub_cancel_left, Nat.add_assoc]
    · rw [if_pos (Nat.lt_of_not_le counts), if_neg fun starts => counts (room.1 starts).2]
  · have stops : ¬ FrameAt (bytes.drop start) offset := fun starts => there (room.1 starts).1
    rw [if_neg stops, readFrame?, readWord?_eq]
    by_cases length : start + offset + 2 ≤ bytes.length
    · have cut : ¬ start + offset + 2 + 2 ≤ bytes.length := by omega
      simp [length, readWord?_eq, cut]
    · simp [length]

theorem readFrames_eq (bytes : Bytes) (start offset count : Nat) :
    readFrames ⟨bytes, start + offset⟩ start count =
      (Frame.scan offset ((bytes.drop start).drop offset)).take count := by
  induction count generalizing offset with
  | zero => rfl
  | succ count ih =>
    rw [readFrames, readFrame?_eq, Frame.scan_drop]
    by_cases starts : FrameAt (bytes.drop start) offset
    · simp only [starts, ↓reduceIte, ih, List.take_succ_cons]
    · simp only [starts, ↓reduceIte, List.take_nil]

end ByteFile

namespace Record

theorem upTo_eq_take {α : Type} {limit : Option Nat} {found : List α} {most : Nat}
    (enough : found.length ≤ most) : upTo limit found = found.take (limit.getD most) := by
  cases limit with
  | none => exact (List.take_of_length_le enough).symm
  | some count => rfl

theorem map_upTo {α β : Type} (f : α → β) (limit : Option Nat) (found : List α) :
    (upTo limit found).map f = upTo limit (found.map f) := by
  cases limit with
  | none => rfl
  | some count => exact List.map_take

theorem map_record_readFrames (front back : Bytes) (limit : Option Nat) (offset : Nat) :
    let file : ByteFile := ⟨front ++ back, front.length⟩
    ((file.advance offset).readFrames file.position (limit.getD file.bytes.length)).map
        Frame.record =
      upTo limit ((Frame.scan offset (back.drop offset)).map Frame.record) := by
  intro file
  have few : (Frame.scan offset (back.drop offset)).length ≤ file.bytes.length := by
    have least := Frame.length_scan_le offset (back.drop offset)
    rw [List.length_drop] at least
    rw [List.length_append]
    omega
  rw [ByteFile.advance, ByteFile.readFrames_eq, List.drop_left, List.map_take, upTo_eq_take]
  rwa [List.length_map]

end Record

/-- Records are decoded from the position on and the position is kept, whatever comes of it. -/
theorem decoding_from_position (front back : Bytes) (signature : Bool) (limit : Option Nat)
    (beyond : Nat) :
    let file : ByteFile := ⟨front ++ back, front.length⟩
    let past : ByteFile := ⟨back, back.length + beyond⟩
    let unsigned (bytes : Bytes) := (Record.decodeFile ⟨bytes, 0⟩ false limit).1
    let most := limit.getD file.bytes.length
    Record.decodeFile file signature limit =
        ((Record.decodeFile ⟨back, 0⟩ signature limit).1, file) ∧
      Record.decodeFile past signature limit =
        ((Record.decodeFile ⟨[], 0⟩ signature limit).1, past) ∧
      unsigned back = .ok (Record.upTo limit (Record.decode back)) ∧
      unsigned back = .ok ((file.readFrames file.position most).map Frame.record) ∧
      (Record.decodeFile file true limit).1 =
        (if limit = some 0 then .ok []
        else if back.length < 4 then .error (.missing back.length)
        else if littleEndian (back.take 4) ≠ 4 then
          .error (.unsupported (littleEndian (back.take 4)))
        else (unsigned (back.drop 4)).map (List.map (Record.moved 4))) ∧
      (unsigned (back.drop 4)).map (List.map (Record.moved 4)) =
        .ok (((file.advance 4).readFrames file.position most).map Frame.record) := by
  intro file past unsigned most
  have rest : file.rest = back := List.drop_left
  have alone : (⟨back, 0⟩ : ByteFile).rest = back := rfl
  have ended : past.rest = (⟨[], 0⟩ : ByteFile).rest :=
    List.drop_of_length_le (Nat.le_add_right _ _)
  have records : ∀ bytes, unsigned bytes = .ok (Record.upTo limit (Record.decode bytes)) :=
    fun bytes => Record.decodeFile_unsigned_upTo ⟨bytes, 0⟩ limit
  have further : (unsigned (back.drop 4)).map (List.map (Record.moved 4)) =
      .ok (Record.upTo limit ((Frame.scan 4 (back.drop 4)).map Frame.record)) := by
    rw [records, Record.map_record_scan, ← Record.map_upTo]
    rfl
  refine ⟨?_, ?_, records back, ?_, ?_, ?_⟩
  · rw [Record.decodeFile_eq, Record.decodeFile_eq, rest, alone]
  · rw [Record.decodeFile_eq, Record.decodeFile_eq, ended]
  · rw [records]
    exact congrArg Except.ok (Record.map_record_readFrames front back limit 0).symm
  · rw [Record.decodeFile_eq, rest, further, if_pos rfl]
    rfl
  · rw [further]
    exact congrArg Except.ok (Record.map_record_readFrames front back limit 4).symm

end SymbolRecovery
