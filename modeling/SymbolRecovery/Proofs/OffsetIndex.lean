import SymbolRecovery.Proofs.Forwards
import SymbolRecovery.Proofs.Jumps
import SymbolRecovery.Proofs.Packing
import SymbolRecovery.Proofs.Reading

/-!
Offsets as an index of the records. Any list of records answers an offset with the last position
that it stands at. Main statement: for records that were read from a file this undoes the reading,
since a record is read from each place once at most; and a jump to an offset comes off exactly where
the record that was read there is not behind the cursor.
-/
namespace SymbolRecovery

def CarriedAt (records : List Record) (offset : Int) (i : Nat) : Prop :=
  ∃ r, records[i]? = some r ∧ r.offset = some offset

/-- The record is that of the frame so many bytes behind the position. -/
def ByteFile.Reads (file : ByteFile) (offset : Nat) (r : Record) : Prop :=
  ∃ frame behind, (file.advance offset).readFrame? file.position = some (frame, behind) ∧
    r = frame.record

namespace Cursor
variable {c : Cursor} {offset : Int} {i : Nat}

theorem indexOf?_eq_some_iff :
    c.indexOf? offset = some i ↔
      CarriedAt c.records offset i ∧ ∀ j, CarriedAt c.records offset j → j ≤ i := by
  rw [indexOf?, lastAtOffset?_eq_some_iff]
  refine and_congr_right fun _ => ⟨?_, ?_⟩
  · rintro last j ⟨r, there, carries⟩
    exact Nat.le_of_not_lt fun behind => last j r behind there carries
  · intro greatest j r behind there carries
    exact Nat.not_le_of_lt behind (greatest j ⟨r, there, carries⟩)

theorem indexOf?_eq_none_iff :
    c.indexOf? offset = none ↔ ∀ i, ¬ CarriedAt c.records offset i := by
  rw [indexOf?, lastAtOffset?_eq_none_iff]
  constructor
  · rintro absent i ⟨r, here, carries⟩
    exact absent r (List.mem_of_getElem? here) carries
  · intro nowhere r member carries
    obtain ⟨i, here⟩ := List.getElem?_of_mem member
    exact nowhere i ⟨r, here, carries⟩

theorem jumpToOffset_of_absent (absent : c.indexOf? offset = none) :
    c.jumpToOffset offset = .error (.noRecord offset) := by
  rw [jumpToOffset, absent]

theorem jumpToOffset_of_behind (known : c.indexOf? offset = some i) (behind : i < c.position) :
    c.jumpToOffset offset = .error (.backwards c.position i) := by
  simp only [jumpToOffset, known, jump]
  rw [if_pos (Int.ofNat_lt.2 behind)]

theorem jumpToOffset_of_ahead (known : c.indexOf? offset = some i) (ahead : c.position ≤ i) :
    c.jumpToOffset offset = .ok { c with position := i } := by
  simp only [jumpToOffset, known]
  exact jump_eq_ok ahead (Nat.le_of_lt (indexOf?_lt_length known))

end Cursor

namespace Record
variable {file : ByteFile} {signature : Bool} {records : List Record} {i : Nat} {r : Record}

theorem exists_reads_of_decodeFile (decoded : (decodeFile file signature).1 = .ok records)
    (here : records[i]? = some r) :
    ∃ offset : Nat, r.offset = some (offset : Int) ∧ file.Reads offset r := by
  have member := List.mem_of_getElem? here
  rw [Frame.records_of_decodeFile decoded] at member
  obtain ⟨f, scanned, rfl⟩ := List.mem_map.1 member
  obtain ⟨starts, same⟩ := Frame.eq_headAt_of_mem_ofFile scanned
  have read := ByteFile.readFrame?_eq file.bytes file.position f.offset
  rw [← ByteFile.rest, if_pos starts] at read
  exact ⟨f.offset, f.offset_record, _, _, read, congrArg Frame.record same⟩

theorem indexOf?_of_decodeFile (decoded : (decodeFile file signature).1 = .ok records)
    {c : Cursor} (reads : c.records = records) {offset : Int} :
    c.indexOf? offset = some i ↔ CarriedAt records offset i := by
  subst reads
  rw [Cursor.indexOf?_eq_some_iff]
  refine and_iff_left_of_imp ?_
  rintro ⟨r, here, carries⟩ j ⟨s, there, too⟩
  exact Nat.le_of_eq ((distinctOffsets_of_decodeFile decoded).position_eq there here too carries)

end Record

/-- The last record that carries an offset is meant by it. Of records that were read from a file
this is the one that was read there, and the cursor can be sent to it and not back to it. -/
theorem offset_index_inverts_reading :
    (∀ (c : Cursor) (offset : Int),
      (∀ i, c.indexOf? offset = some i ↔
        CarriedAt c.records offset i ∧ ∀ j, CarriedAt c.records offset j → j ≤ i) ∧
      (c.indexOf? offset = none ↔ ∀ i, ¬ CarriedAt c.records offset i)) ∧
    ∀ (file : ByteFile) (signature : Bool) (records : List Record),
      (Record.decodeFile file signature).1 = .ok records →
      ∀ p : Progress, p.cursor.records = records →
        let position := p.cursor.position
        let goTo (offset : Int) := p.use (.move (.jumpToOffset offset))
        (∀ i r, records[i]? = some r → ∃ offset : Nat, r.offset = some (offset : Int) ∧
          file.Reads offset r ∧ p.cursor.indexOf? offset = some i) ∧
        (∀ offset i, p.cursor.indexOf? offset = some i → CarriedAt records offset i) ∧
        (∀ offset i, position ≤ i → CarriedAt records offset i →
          goTo offset = ({ p with cursor := ⟨records, i⟩ }, none)) ∧
        (∀ offset i, i < position → CarriedAt records offset i →
          goTo offset = (p, some (.cursor (.backwards position i)))) ∧
        ∀ offset, (∀ i, ¬ CarriedAt records offset i) →
          goTo offset = (p, some (.cursor (.noRecord offset))) := by
  refine ⟨fun c offset => ⟨fun i => Cursor.indexOf?_eq_some_iff, Cursor.indexOf?_eq_none_iff⟩, ?_⟩
  intro file signature records decoded p reads position goTo
  have known : ∀ {offset i}, p.cursor.indexOf? offset = some i ↔ CarriedAt records offset i :=
    Record.indexOf?_of_decodeFile decoded reads
  refine ⟨?_, fun _ _ => known.1, ?_, ?_, ?_⟩
  · intro i r here
    obtain ⟨offset, carries, read⟩ := Record.exists_reads_of_decodeFile decoded here
    exact ⟨offset, carries, read, known.2 ⟨r, here, carries⟩⟩
  · intro offset i ahead carried
    have moves := Cursor.jumpToOffset_of_ahead (known.2 carried) ahead
    simp only [goTo, Progress.use, Cursor.move, moves, reads]
  · intro offset i behind carried
    have refused := Cursor.jumpToOffset_of_behind (known.2 carried) behind
    simp only [goTo, Progress.use, Cursor.move, refused, position]
  · intro offset nowhere
    rw [← reads] at nowhere
    have refused := Cursor.jumpToOffset_of_absent (Cursor.indexOf?_eq_none_iff.2 nowhere)
    simp only [goTo, Progress.use, Cursor.move, refused]

/-- Behind a byte of something else and a signature there are three records. From the second one on
the third can be reached; the first is behind, and in the middle of the second there is none. -/
theorem offset_index_inverts_reading_behind_signature :
    let file : ByteFile :=
      ⟨[0x55, 4, 0, 0, 0] ++ [2, 0, 6, 0] ++ [4, 0, 0x77, 0x77, 6, 0] ++ [2, 0, 6, 0], 1⟩
    let records : List Record :=
      [{ kind := Kind.scopeEnd, offset := some 4 }, { kind := 0x7777, offset := some 8 },
        { kind := Kind.scopeEnd, offset := some 14 }]
    let p : Progress := { context := {}, cursor := ⟨records, 1⟩ }
    (Record.decodeFile file true).1 = .ok records ∧
      file.Reads 14 { kind := Kind.scopeEnd, offset := some 14 } ∧
      p.cursor.indexOf? 14 = some 2 ∧
      p.use (.move (.jumpToOffset 14)) = ({ p with cursor := ⟨records, 2⟩ }, none) ∧
      p.use (.move (.jumpToOffset 4)) = (p, some (.cursor (.backwards 1 0))) ∧
      p.use (.move (.jumpToOffset 12)) = (p, some (.cursor (.noRecord 12))) := by
  intro file records p
  have decoded : (Record.decodeFile file true).1 = .ok records := by decide +kernel
  obtain ⟨found, -, ahead, behind, absent⟩ :=
    offset_index_inverts_reading.2 file true records decoded p rfl
  obtain ⟨offset, carries, read, index⟩ := found 2 _ rfl
  obtain rfl : 14 = offset := Int.ofNat.inj (Option.some.inj carries)
  refine ⟨decoded, read, index, ahead 14 2 (by decide) ⟨_, rfl, rfl⟩,
    behind 4 0 (by decide) ⟨_, rfl, rfl⟩, absent 12 ?_⟩
  rw [← Cursor.indexOf?_eq_none_iff (c := p.cursor)]
  decide +kernel

end SymbolRecovery
