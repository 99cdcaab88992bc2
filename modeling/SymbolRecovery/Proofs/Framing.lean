import SymbolRecovery.Record.Frame

/-!
Frames by their place in the bytes. A frame starts where its head is there and its length counts the
kind; the next one starts behind it. Main statements: frames that are all there are read as if
nothing followed them, and what follows as if it came first; what stands in a frame that is all
there has no influence on the other records; and reading goes from start to start, by four bytes at
least, up to the first place where no frame starts.
-/
namespace SymbolRecovery

def wordAt (bytes : Bytes) (offset : Nat) : Nat := littleEndian ((bytes.drop offset).take 2)

/-- The head of a frame is there, and its length counts the kind. -/
def FrameAt (bytes : Bytes) (offset : Nat) : Prop :=
  offset + 4 ≤ bytes.length ∧ 2 ≤ wordAt bytes offset

instance (bytes : Bytes) (offset : Nat) : Decidable (FrameAt bytes offset) :=
  inferInstanceAs (Decidable (_ ∧ _))

def CompleteFrame (bytes : Bytes) : Prop :=
  2 ≤ wordAt bytes 0 ∧ bytes.length = 2 + wordAt bytes 0

instance (bytes : Bytes) : Decidable (CompleteFrame bytes) :=
  inferInstanceAs (Decidable (_ ∧ _))

/-- The bytes of any number of frames that are all there. -/
inductive Framed : Bytes → Prop where
  | nil : Framed []
  | cons {frame later : Bytes} (complete : CompleteFrame frame) (framed : Framed later) :
      Framed (frame ++ later)

def Record.moved (distance : Nat) (r : Record) : Record :=
  { r with offset := r.offset.map (· + distance) }

namespace Frame

def headAt (bytes : Bytes) (offset : Nat) : Frame where
  offset := offset
  declared := wordAt bytes offset
  kind := wordAt bytes (offset + 2)
  payload := (bytes.drop (offset + 4)).take (wordAt bytes offset - 2)

def following (f : Frame) : Nat := f.offset + 2 + f.declared

def moved (distance : Nat) (f : Frame) : Frame := { f with offset := f.offset + distance }

variable {bytes front back : Bytes} {offset distance : Nat}

theorem scan_eq_nil (stops : ¬ FrameAt bytes 0) : scan offset bytes = [] := by
  unfold scan
  split
  · next l₀ l₁ k₀ k₁ rest =>
    have short : littleEndian [l₀, l₁] < 2 := by
      simp only [FrameAt, wordAt, List.drop_zero, List.take_succ_cons, List.take_zero,
        List.length_cons] at stops
      omega
    simp [short]
  · rfl

theorem scan_eq_cons (starts : FrameAt bytes 0) :
    scan offset bytes = (headAt bytes 0).moved offset ::
      scan (offset + (headAt bytes 0).following) (bytes.drop (headAt bytes 0).following) := by
  obtain ⟨there, counts⟩ := starts
  match bytes, there, counts with
  | l₀ :: l₁ :: k₀ :: k₁ :: rest, _, counts =>
    have long : ¬ littleEndian [l₀, l₁] < 2 := Nat.not_lt.2 counts
    have skipped : 2 + littleEndian [l₀, l₁] = littleEndian [l₀, l₁] - 2 + 4 := by omega
    rw [scan]
    simp only [long, ↓reduceIte, headAt, moved, following, wordAt, List.drop_zero,
      List.take_succ_cons, List.take_zero, List.drop_succ_cons, Nat.zero_add, skipped]
    have same : offset + 2 + littleEndian [l₀, l₁] = offset + (littleEndian [l₀, l₁] - 2 + 4) := by
      omega
    rw [same]
  | [], there, _ | [_], there, _ | [_, _], there, _ | [_, _, _], there, _ => simp at there

theorem wordAt_append_left (back : Bytes) (within : offset + 2 ≤ front.length) :
    wordAt (front ++ back) offset = wordAt front offset := by
  have inside : offset ≤ front.length := by omega
  rw [wordAt, wordAt, List.drop_append_of_le_length inside, List.take_append_of_le_length]
  rw [List.length_drop]
  omega

theorem frameAt_of_complete (back : Bytes) (complete : CompleteFrame front) :
    FrameAt (front ++ back) 0 := by
  obtain ⟨counts, whole⟩ := complete
  rw [FrameAt, wordAt_append_left back (by omega), List.length_append]
  omega

theorem headAt_of_complete (back : Bytes) (complete : CompleteFrame front) :
    headAt (front ++ back) 0 = headAt front 0 := by
  obtain ⟨counts, whole⟩ := complete
  unfold headAt
  rw [wordAt_append_left back (by omega), wordAt_append_left back (by omega),
    List.drop_append_of_le_length (by omega), List.take_append_of_le_length]
  rw [List.length_drop]
  omega

theorem following_of_complete (complete : CompleteFrame front) :
    (headAt front 0).following = front.length := by
  rw [complete.2, following, headAt, Nat.zero_add]

theorem scan_append_of_complete (complete : CompleteFrame front) :
    scan offset (front ++ back) =
      (headAt front 0).moved offset :: scan (offset + front.length) back := by
  rw [scan_eq_cons (frameAt_of_complete back complete), headAt_of_complete back complete,
    following_of_complete complete, List.drop_left]

theorem scan_append (framed : Framed front) :
    scan offset (front ++ back) = scan offset front ++ scan (offset + front.length) back := by
  induction framed generalizing offset with
  | nil => rw [List.nil_append, List.length_nil, @scan_eq_nil [] offset (by simp [FrameAt])]; rfl
  | @cons frame later complete framed ih =>
    rw [List.append_assoc, scan_append_of_complete complete, scan_append_of_complete complete, ih,
      List.length_append, Nat.add_assoc, List.cons_append]

theorem scan_moved (distance : Nat) (bytes : Bytes) :
    scan (offset + distance) bytes = (scan offset bytes).map (moved distance) := by
  induction size : bytes.length using Nat.strongRecOn generalizing bytes offset with
  | ind n ih =>
    by_cases starts : FrameAt bytes 0
    · have shorter : (bytes.drop (headAt bytes 0).following).length < n := by
        have there := starts.1
        rw [List.length_drop, following]
        omega
      rw [scan_eq_cons starts, scan_eq_cons starts, List.map_cons, ← ih _ shorter _ rfl]
      simp only [moved, Nat.add_assoc, Nat.add_comm distance]
    · rw [scan_eq_nil starts, scan_eq_nil starts, List.map_nil]

theorem scan_drop (bytes : Bytes) (offset : Nat) :
    scan offset (bytes.drop offset) =
      if FrameAt bytes offset then
        headAt bytes offset ::
          scan (headAt bytes offset).following (bytes.drop (headAt bytes offset).following)
      else [] := by
  have words : ∀ place, wordAt (bytes.drop offset) place = wordAt bytes (offset + place) := by
    intro place
    rw [wordAt, wordAt, List.drop_drop]
  have same : FrameAt (bytes.drop offset) 0 ↔ FrameAt bytes offset := by
    simp only [FrameAt, words, Nat.add_zero, List.length_drop]
    omega
  have heads : (headAt (bytes.drop offset) 0).moved offset = headAt bytes offset := by
    simp only [headAt, moved, words, List.drop_drop, Nat.zero_add, Nat.add_zero]
  have behind : offset + (headAt (bytes.drop offset) 0).following =
      (headAt bytes offset).following := by
    rw [← heads]
    simp only [following, moved]
    omega
  split
  · next starts =>
    rw [scan_eq_cons (same.2 starts), heads, behind, List.drop_drop, behind]
  · next stops => exact scan_eq_nil fun starts => stops (same.1 starts)

theorem complete_of_head {contents : Bytes} (starts : FrameAt bytes 0)
    (fits : contents.length = wordAt bytes 0) : CompleteFrame (bytes.take 2 ++ contents) := by
  obtain ⟨there, counts⟩ := starts
  have size : (bytes.take 2).length = 2 := List.length_take_of_le (by omega)
  have word : wordAt (bytes.take 2 ++ contents) 0 = wordAt bytes 0 := by
    rw [wordAt_append_left contents (by omega), wordAt, wordAt, List.drop_zero, List.drop_zero,
      List.take_take, Nat.min_self]
  rw [CompleteFrame, word, List.length_append, size, fits]
  exact ⟨counts, rfl⟩

theorem take_append_take_append_drop (bytes : Bytes) (count : Nat) :
    bytes.take 2 ++ (bytes.drop 2).take count ++ bytes.drop (2 + count) = bytes := by
  rw [List.append_assoc, ← List.drop_drop, List.take_append_drop, List.take_append_drop]

theorem exists_front_of_mem {f : Frame} (member : f ∈ scan offset bytes) :
    ∃ front back, bytes = front ++ back ∧ Framed front ∧ FrameAt back 0 ∧
      f.offset = offset + front.length := by
  induction size : bytes.length using Nat.strongRecOn generalizing bytes offset with
  | ind n ih =>
    by_cases starts : FrameAt bytes 0
    · rw [scan_eq_cons starts] at member
      rcases List.mem_cons.1 member with first | later
      · refine ⟨[], bytes, rfl, .nil, starts, ?_⟩
        rw [first]
        exact Nat.zero_add offset
      · obtain ⟨there, counts⟩ := starts
        have behind : (headAt bytes 0).following = 2 + wordAt bytes 0 := by
          simp only [following, headAt, Nat.zero_add]
        rw [behind] at later
        have shorter : (bytes.drop (2 + wordAt bytes 0)).length < n := by
          rw [List.length_drop]
          omega
        obtain ⟨front, back, split, framed, found, placed⟩ := ih _ shorter later rfl
        have whole : ((bytes.drop 2).take (wordAt bytes 0)).length = wordAt bytes 0 := by
          have tail := congrArg List.length split
          have head := found.1
          rw [List.length_drop, List.length_append] at tail
          rw [List.length_take, List.length_drop]
          omega
        have complete := complete_of_head ⟨there, counts⟩ whole
        refine ⟨bytes.take 2 ++ (bytes.drop 2).take (wordAt bytes 0) ++ front, back, ?_,
          .cons complete framed, found, ?_⟩
        · rw [List.append_assoc, ← split, take_append_take_append_drop]
        · rw [placed, List.length_append, List.length_append, whole,
            List.length_take_of_le (by omega)]
          omega
    · rw [scan_eq_nil starts] at member
      cases member

theorem four_le_following (starts : FrameAt bytes 0) : 4 ≤ (headAt bytes 0).following := by
  have counts := starts.2
  simp only [following, headAt]
  omega

theorem scan_ascends (offset : Nat) (bytes : Bytes) :
    (scan offset bytes).Pairwise fun f g => f.offset + 4 ≤ g.offset := by
  induction size : bytes.length using Nat.strongRecOn generalizing bytes offset with
  | ind n ih =>
    by_cases starts : FrameAt bytes 0
    · have behind := four_le_following starts
      have there := starts.1
      have shorter : (bytes.drop (headAt bytes 0).following).length < n := by
        rw [List.length_drop]
        omega
      rw [scan_eq_cons starts, List.pairwise_cons]
      refine ⟨?_, ih _ shorter _ _ rfl⟩
      intro g member
      obtain ⟨front, back, -, -, -, placed⟩ := exists_front_of_mem member
      have first : ((headAt bytes 0).moved offset).offset = offset := Nat.zero_add offset
      omega
    · rw [scan_eq_nil starts]
      exact .nil

theorem length_scan_le (offset : Nat) (bytes : Bytes) :
    4 * (scan offset bytes).length ≤ bytes.length := by
  induction size : bytes.length using Nat.strongRecOn generalizing bytes offset with
  | ind n ih =>
    by_cases starts : FrameAt bytes 0
    · have behind := four_le_following starts
      have there := starts.1
      have shorter : (bytes.drop (headAt bytes 0).following).length + 4 ≤ n := by
        rw [List.length_drop]
        omega
      have smaller := Nat.lt_of_lt_of_le (Nat.lt_add_of_pos_right (Nat.succ_pos 3)) shorter
      have later := ih _ smaller (offset + (headAt bytes 0).following) _ rfl
      rw [scan_eq_cons starts, List.length_cons]
      omega
    · rw [scan_eq_nil starts]
      exact Nat.zero_le _

def starts (bytes : Bytes) (offset : Nat) : List Nat :=
  (scan offset (bytes.drop offset)).map (·.offset)

theorem starts_eq (bytes : Bytes) (offset : Nat) :
    starts bytes offset =
      if FrameAt bytes offset then offset :: starts bytes (offset + 2 + wordAt bytes offset)
      else [] := by
  rw [starts, scan_drop]
  split <;> rfl

theorem head?_starts (bytes : Bytes) (offset : Nat) :
    (starts bytes offset).head? = if FrameAt bytes offset then some offset else none := by
  rw [starts_eq]
  split <;> rfl

theorem getElem?_starts_succ {start i : Nat} (here : (starts bytes offset)[i]? = some start) :
    FrameAt bytes start ∧ (starts bytes offset)[i + 1]? =
      let next := start + 2 + wordAt bytes start
      if FrameAt bytes next then some next else none := by
  induction i generalizing offset with
  | zero =>
    rw [starts_eq] at here ⊢
    split at here
    · next begins =>
      cases here
      rw [if_pos begins, List.getElem?_cons_succ, ← List.head?_eq_getElem?]
      exact ⟨begins, head?_starts _ _⟩
    · cases here
  | succ i ih =>
    rw [starts_eq] at here ⊢
    split at here
    · next begins =>
      rw [if_pos begins, List.getElem?_cons_succ]
      exact ih here
    · cases here

end Frame

namespace PayloadLayout

theorem readFields_withOffset (offset : Option Int) (fields : List (Slot × Nat)) (bytes : Bytes)
    (r : Record) :
    readFields fields bytes { r with offset } =
      (readFields fields bytes r).map fun read => ({ read.1 with offset }, read.2) := by
  induction fields generalizing bytes r with
  | nil => rfl
  | cons field later ih =>
    obtain ⟨slot, width⟩ := field
    have set : ∀ value, ({ r with offset } : Record).setField value slot =
        { r.setField value slot with offset } := by
      intro value
      cases slot <;> rfl
    simp only [readFields, set, ih]
    split <;> rfl

theorem read?_withOffset (layout : PayloadLayout) (payload : Bytes) (r : Record)
    (offset : Option Int) :
    layout.read? payload { r with offset } =
      (layout.read? payload r).map fun read => { read with offset } := by
  simp only [read?, readFields_withOffset]
  cases readFields layout.fields payload r with
  | none => rfl
  | some read =>
    simp only [Option.map_some, Option.bind_eq_bind, Option.bind_some]
    cases layout.text with
    | none => rfl
    | some slot =>
      cases readText? read.2 with
      | none => rfl
      | some text => cases slot <;> rfl

end PayloadLayout

namespace Frame

theorem record_withOffset (f : Frame) (offset : Nat) :
    ({ f with offset } : Frame).record = { f.record with offset := some (offset : Int) } := by
  simp only [record]
  cases PayloadLayout.ofKind f.kind with
  | none => rfl
  | some layout =>
    have placed := layout.read?_withOffset f.payload
      { kind := f.kind, offset := some f.offset } (some offset)
    simp only [placed]
    cases layout.read? f.payload { kind := f.kind, offset := some f.offset } <;> rfl

theorem offset_record (f : Frame) : f.record.offset = some (f.offset : Int) :=
  congrArg Record.offset (f.record_withOffset f.offset)

theorem record_moved (f : Frame) (distance : Nat) :
    (f.moved distance).record = f.record.moved distance := by
  rw [moved, record_withOffset, Record.moved, offset_record, Option.map_some, Int.natCast_add]

end Frame

namespace Record
variable {bytes front back : Bytes} {offset : Nat}

theorem map_record_scan (distance : Nat) (bytes : Bytes) :
    (Frame.scan distance bytes).map Frame.record = (decode bytes).map (·.moved distance) := by
  have further := @Frame.scan_moved 0 distance bytes
  rw [Nat.zero_add] at further
  rw [further, decode, List.map_map, List.map_map]
  congr 1
  funext f
  exact f.record_moved distance

/-- Frames that are all there are read on their own, and so is what follows them. -/
theorem decode_append (framed : Framed front) (back : Bytes) :
    decode (front ++ back) = decode front ++ (decode back).map (·.moved front.length) := by
  rw [decode, Frame.scan_append framed, List.map_append, Nat.zero_add,
    map_record_scan front.length]
  rfl

theorem decode_append_of_complete (complete : CompleteFrame front) (back : Bytes) :
    decode (front ++ back) =
      (Frame.headAt front 0).record :: (decode back).map (·.moved front.length) := by
  rw [decode, Frame.scan_append_of_complete complete, List.map_cons, Nat.zero_add,
    map_record_scan]
  rfl

theorem offset_moved_headAt (bytes : Bytes) (distance : Nat) :
    ((Frame.headAt bytes 0).record.moved distance).offset = some (distance : Int) := by
  rw [← Frame.record_moved, Frame.offset_record]
  simp [Frame.moved, Frame.headAt]

theorem exists_parts_of_read (read : some (offset : Int) ∈ (decode bytes).map (·.offset))
    (whole : offset + 2 + wordAt bytes offset ≤ bytes.length) :
    ∃ front frame back, bytes = front ++ (frame ++ back) ∧ Framed front ∧ CompleteFrame frame ∧
      front.length = offset ∧ wordAt bytes offset = wordAt frame 0 := by
  obtain ⟨r, member, placed⟩ := List.mem_map.1 read
  obtain ⟨f, scanned, rfl⟩ := List.mem_map.1 member
  rw [Frame.offset_record] at placed
  have here : f.offset = offset := Int.ofNat.inj (Option.some.inj placed)
  obtain ⟨front, back, rfl, framed, starts, behind⟩ := Frame.exists_front_of_mem scanned
  rw [here, Nat.zero_add] at behind
  subst behind
  have word : wordAt (front ++ back) front.length = wordAt back 0 := by
    rw [wordAt, wordAt, List.drop_left, List.drop_zero]
  rw [word, List.length_append] at whole
  have contents : ((back.drop 2).take (wordAt back 0)).length = wordAt back 0 := by
    rw [List.length_take, List.length_drop]
    omega
  have complete := Frame.complete_of_head starts contents
  have parts := Frame.take_append_take_append_drop back (wordAt back 0)
  refine ⟨front, _, back.drop (2 + wordAt back 0), by rw [parts], framed, complete, rfl, ?_⟩
  have size := complete.2
  have joined : wordAt (back.take 2 ++ (back.drop 2).take (wordAt back 0) ++
      back.drop (2 + wordAt back 0)) 0 = wordAt _ 0 := Frame.wordAt_append_left _ (by omega)
  rw [parts] at joined
  exact word.trans joined

theorem decode_refilled {contents : Bytes}
    (read : some (offset : Int) ∈ (decode bytes).map (·.offset))
    (whole : offset + 2 + wordAt bytes offset ≤ bytes.length)
    (fits : contents.length = wordAt bytes offset) :
    let refilled := bytes.take (offset + 2) ++ contents ++ bytes.drop (offset + 2 + contents.length)
    ∃ before r s after, decode bytes = before ++ r :: after ∧
      decode refilled = before ++ s :: after ∧ r.offset = some (offset : Int) ∧
        s.offset = some (offset : Int) := by
  intro refilled
  obtain ⟨front, frame, back, rfl, framed, complete, rfl, word⟩ := exists_parts_of_read read whole
  rw [word] at fits
  have size := complete.2
  have complete' : CompleteFrame (frame.take 2 ++ contents) := by
    refine Frame.complete_of_head ?_ fits
    have starts := Frame.frameAt_of_complete [] complete
    rwa [List.append_nil] at starts
  have sizes : (frame.take 2 ++ contents).length = frame.length := by
    rw [List.length_append, List.length_take_of_le (by omega), size, fits]
  have same : refilled = front ++ ((frame.take 2 ++ contents) ++ back) := by
    have head : (front ++ (frame ++ back)).take (front.length + 2) = front ++ frame.take 2 := by
      rw [List.take_length_add_append, List.take_append_of_le_length (by omega)]
    have tail : (front ++ (frame ++ back)).drop (front.length + 2 + contents.length) = back := by
      rw [Nat.add_assoc, List.drop_length_add_append, fits, ← size, List.drop_left]
    simp only [refilled, head, tail, List.append_assoc]
  rw [same, decode_append framed, decode_append framed, decode_append_of_complete complete,
    decode_append_of_complete complete', List.map_cons, List.map_cons, sizes]
  exact ⟨_, _, _, _, rfl, rfl, offset_moved_headAt _ _, offset_moved_headAt _ _⟩

theorem map_offset_decode (bytes : Bytes) :
    (decode bytes).map (·.offset) =
      (Frame.starts bytes 0).map fun start : Nat => some (start : Int) := by
  rw [decode, Frame.starts, List.drop_zero, List.map_map, List.map_map]
  congr 1
  funext f
  exact f.offset_record

def upTo {α : Type} (limit : Option Nat) (found : List α) : List α :=
  match limit with
  | none => found
  | some count => found.take count

theorem decodeFile_eq (file : ByteFile) (signature : Bool) (limit : Option Nat) :
    decodeFile file signature limit =
      (if limit = some 0 then .ok []
      else if signature then
        if file.rest.length < 4 then .error (.missing file.rest.length)
        else if littleEndian (file.rest.take 4) ≠ supportedSignature then
          .error (.unsupported (littleEndian (file.rest.take 4)))
        else .ok (upTo limit ((Frame.scan 4 (file.rest.drop 4)).map Frame.record))
      else .ok (upTo limit ((Frame.scan 0 file.rest).map Frame.record)), file) := by
  by_cases unread : limit = some 0
  · simp [decodeFile, ByteFile.keepingPosition, unread]
  · rw [if_neg unread]
    cases signature with
    | false =>
      cases limit <;>
        simp [decodeFile, ByteFile.keepingPosition, ByteFile.advance, unread, upTo]
    | true =>
      by_cases short : file.rest.length < 4
      · have cut : min 4 file.rest.length = file.rest.length := by omega
        simp [decodeFile, ByteFile.keepingPosition, ByteFile.read, unread, short, cut]
      · have whole : min 4 file.rest.length = 4 := by omega
        have behind : ({ file with position := file.position + 4 } : ByteFile).rest =
            file.rest.drop 4 := by rw [ByteFile.rest, ByteFile.rest, List.drop_drop]
        by_cases known : littleEndian (file.rest.take 4) = supportedSignature <;> cases limit <;>
          simp [decodeFile, ByteFile.keepingPosition, ByteFile.read, ByteFile.advance, unread,
            short, whole, behind, known, upTo]

theorem decodeFile_unsigned_upTo (file : ByteFile) (limit : Option Nat) :
    (decodeFile file false limit).1 = .ok (upTo limit (decode file.rest)) := by
  rw [decodeFile_eq]
  split
  · next unread =>
    rw [unread]
    rfl
  · rfl

theorem decodeFile_unsigned (file : ByteFile) :
    (decodeFile file false).1 = .ok (decode file.rest) :=
  decodeFile_unsigned_upTo file none

end Record

/-- Frames are read one by one, each from its own bytes, up to the first place where none starts. -/
theorem frames_read_one_by_one :
    (∀ file : ByteFile, (Record.decodeFile file false).1 = .ok (Record.decode file.rest)) ∧
    (∀ front back : Bytes, Framed front →
      Record.decode (front ++ back) =
        Record.decode front ++ (Record.decode back).map (·.moved front.length)) ∧
    (∀ (bytes contents : Bytes) (offset : Nat),
      some (offset : Int) ∈ (Record.decode bytes).map (·.offset) →
      offset + 2 + wordAt bytes offset ≤ bytes.length → contents.length = wordAt bytes offset →
      let refilled :=
        bytes.take (offset + 2) ++ contents ++ bytes.drop (offset + 2 + contents.length)
      ∃ before r s after, Record.decode bytes = before ++ r :: after ∧
        Record.decode refilled = before ++ s :: after ∧ r.offset = some (offset : Int) ∧
          s.offset = some (offset : Int)) ∧
    ∀ bytes : Bytes,
      (Record.decode bytes).length ≤ bytes.length / 4 ∧
      ∃ starts : List Nat,
        (Record.decode bytes).map (·.offset) = starts.map (fun start : Nat => some (start : Int)) ∧
        starts.head? = (if FrameAt bytes 0 then some 0 else none) ∧
        (∀ i start, starts[i]? = some start →
          FrameAt bytes start ∧ starts[i + 1]? =
            let next := start + 2 + wordAt bytes start
            if FrameAt bytes next then some next else none) ∧
        starts.Pairwise fun start next => start + 4 ≤ next := by
  refine ⟨Record.decodeFile_unsigned, fun front back framed => Record.decode_append framed back,
    fun bytes contents offset => Record.decode_refilled, fun bytes => ⟨?_, ?_⟩⟩
  · have frames := Frame.length_scan_le 0 bytes
    rw [Record.decode, List.length_map]
    omega
  · refine ⟨Frame.starts bytes 0, Record.map_offset_decode bytes, Frame.head?_starts bytes 0,
      fun i start => Frame.getElem?_starts_succ, ?_⟩
    rw [Frame.starts, List.pairwise_map]
    exact Frame.scan_ascends _ _

/-- A public symbol whose payload ends before its fields do stands in front of an end record, and
behind that a length that is too small. -/
theorem frames_read_one_by_one_past_truncated :
    let front : Bytes := [6, 0, 0x0E, 0x11, 1, 2, 3, 4]
    let back : Bytes := [2, 0, 6, 0, 1, 0, 0, 0]
    let contents : Bytes := [0xFF, 0xFF, 0xFF, 0xFF, 0xFF, 0xFF]
    Framed front ∧
      Record.decode (front ++ back) =
        Record.decode front ++ (Record.decode back).map (·.moved front.length) ∧
      Record.decode front = [{ kind := Kind.publicSymbol, offset := some 0, truncated := true }] ∧
      (some 0 ∈ (Record.decode (front ++ back)).map (·.offset) ∧
        0 + 2 + wordAt (front ++ back) 0 ≤ (front ++ back).length ∧
        contents.length = wordAt (front ++ back) 0) ∧
      ∃ before r s after, Record.decode (front ++ back) = before ++ r :: after ∧
        Record.decode ((front ++ back).take 2 ++ contents ++ (front ++ back).drop 8) =
          before ++ s :: after ∧ r.offset = some 0 ∧ s.offset = some 0 := by
  intro front back contents
  have complete : CompleteFrame front := by decide
  have framed : Framed front := .cons complete .nil
  have read : some 0 ∈ (Record.decode (front ++ back)).map (·.offset) := by decide +kernel
  have whole : 0 + 2 + wordAt (front ++ back) 0 ≤ (front ++ back).length := by decide
  have fits : contents.length = wordAt (front ++ back) 0 := by decide
  exact ⟨framed, frames_read_one_by_one.2.1 front back framed, by decide +kernel,
    ⟨read, whole, fits⟩,
    frames_read_one_by_one.2.2.1 (front ++ back) contents 0 read whole fits⟩

end SymbolRecovery
