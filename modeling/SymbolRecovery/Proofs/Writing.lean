import Mathlib.Algebra.Ring.Nat
import SymbolRecovery.Proofs.Framing
import SymbolRecovery.Proofs.Octets

/-!
Symbol records as they are written. A stored record says more than is kept of it: fields that are
passed over, and any bytes behind the text. Main statement: stored records that are written one
behind another are read back in order, each with its kept fields and the offset it was written at.
-/
namespace SymbolRecovery

def bytesOf : Nat → Nat → Bytes
  | 0, _ => []
  | width + 1, number => UInt8.ofNat (number % 256) :: bytesOf width (number / 256)

@[simp] theorem length_bytesOf (width number : Nat) : (bytesOf width number).length = width := by
  induction width generalizing number with
  | zero => rfl
  | succ width ih => rw [bytesOf, List.length_cons, ih]

theorem littleEndian_bytesOf {width number : Nat} (fits : number < 256 ^ width) :
    littleEndian (bytesOf width number) = number := by
  induction width generalizing number with
  | zero => exact (Nat.lt_one_iff.1 fits).symm
  | succ width ih =>
    have later : number / 256 < 256 ^ width := Nat.div_lt_of_lt_mul (by rwa [← Nat.pow_succ'])
    rw [bytesOf, littleEndian, ih later, Text.Utf8.toNat_ofNat (Nat.mod_lt _ (by decide))]
    exact Nat.mod_add_div number 256

structure StoredText where
  value : String
  nonzero : '\x00' ∉ value.toList

namespace Stored

def octet (number : UInt8) : Bytes := [number]

def half (number : UInt16) : Bytes := bytesOf 2 number.toNat

def word (number : UInt32) : Bytes := bytesOf 4 number.toNat

def text (t : StoredText) : Bytes := Text.Utf8.encode t.value ++ [0]

end Stored

/-- The kinds of which more is kept than the kind itself. -/
def Kind.structured : List Kind :=
  [imageSection, sectionGroup] ++ procedures ++ [block, thunk, inlineSite] ++ data ++
    [publicSymbol, label, objectName, compiler]

example : Kind.structured.length = 19 ∧ Kind.structured.Nodup := by decide

/-- What a record stores, field by field in stored order. -/
inductive Stored where
  | imageSection (sectionIndex : UInt16) (alignment reserved : UInt8)
      (address length characteristics : UInt32) (name : StoredText)
  | sectionGroup (length characteristics address : UInt32) (sectionIndex : UInt16)
      (name : StoredText)
  | procedure (kind : Kind) (listed : kind ∈ Kind.procedures)
      (parent endOffset next length bodyStart bodyEnd typeIndex address : UInt32)
      (sectionIndex : UInt16) (flags : UInt8) (name : StoredText)
  | block (parent endOffset length address : UInt32) (sectionIndex : UInt16) (name : StoredText)
  | thunk (parent endOffset next address : UInt32) (sectionIndex length : UInt16)
      (ordinal : UInt8) (name : StoredText)
  | inlineSite (parent endOffset inlinee : UInt32)
  | data (kind : Kind) (listed : kind ∈ Kind.data) (typeIndex address : UInt32)
      (sectionIndex : UInt16) (name : StoredText)
  | publicSymbol (flags address : UInt32) (sectionIndex : UInt16) (name : StoredText)
  | label (address : UInt32) (sectionIndex : UInt16) (flags : UInt8) (name : StoredText)
  | objectName (signature : UInt32) (name : StoredText)
  | compiler (flags : UInt32) (machine frontMajor frontMinor frontBuild frontFix backMajor
      backMinor backBuild backFix : UInt16) (version : StoredText)
  | other (kind : UInt16) (unlisted : (kind.toNat : Kind) ∉ Kind.structured)

namespace Stored

def kind : Stored → Kind
  | imageSection .. => Kind.imageSection
  | sectionGroup .. => Kind.sectionGroup
  | procedure kind .. => kind
  | block .. => Kind.block
  | thunk .. => Kind.thunk
  | inlineSite .. => Kind.inlineSite
  | data kind .. => kind
  | publicSymbol .. => Kind.publicSymbol
  | label .. => Kind.label
  | objectName .. => Kind.objectName
  | compiler .. => Kind.compiler
  | other kind _ => kind.toNat

def bytes : Stored → Bytes
  | imageSection sectionIndex alignment reserved address length characteristics name =>
    half sectionIndex ++ octet alignment ++ octet reserved ++ word address ++ word length ++
      word characteristics ++ text name
  | sectionGroup length characteristics address sectionIndex name =>
    word length ++ word characteristics ++ word address ++ half sectionIndex ++ text name
  | procedure _ _ parent endOffset next length bodyStart bodyEnd typeIndex address sectionIndex
      flags name =>
    word parent ++ word endOffset ++ word next ++ word length ++ word bodyStart ++ word bodyEnd ++
      word typeIndex ++ word address ++ half sectionIndex ++ octet flags ++ text name
  | block parent endOffset length address sectionIndex name =>
    word parent ++ word endOffset ++ word length ++ word address ++ half sectionIndex ++ text name
  | thunk parent endOffset next address sectionIndex length ordinal name =>
    word parent ++ word endOffset ++ word next ++ word address ++ half sectionIndex ++
      half length ++ octet ordinal ++ text name
  | inlineSite parent endOffset inlinee => word parent ++ word endOffset ++ word inlinee
  | data _ _ typeIndex address sectionIndex name =>
    word typeIndex ++ word address ++ half sectionIndex ++ text name
  | publicSymbol flags address sectionIndex name =>
    word flags ++ word address ++ half sectionIndex ++ text name
  | label address sectionIndex flags name =>
    word address ++ half sectionIndex ++ octet flags ++ text name
  | objectName signature name => word signature ++ text name
  | compiler flags machine frontMajor frontMinor frontBuild frontFix backMajor backMinor backBuild
      backFix version =>
    word flags ++ half machine ++ half frontMajor ++ half frontMinor ++ half frontBuild ++
      half frontFix ++ half backMajor ++ half backMinor ++ half backBuild ++ half backFix ++
      text version
  | other .. => []

def record : Stored → Record
  | imageSection sectionIndex alignment _ address length characteristics name =>
    { kind := Kind.imageSection, name := name.value, sectionIndex := sectionIndex.toNat,
      alignment := alignment.toNat, address := address.toNat, length := length.toNat,
      characteristics := characteristics.toNat }
  | sectionGroup length characteristics address sectionIndex name =>
    { kind := Kind.sectionGroup, name := name.value, sectionIndex := sectionIndex.toNat,
      address := address.toNat, length := length.toNat,
      characteristics := characteristics.toNat }
  | procedure kind _ parent endOffset _ length _ _ typeIndex address sectionIndex flags name =>
    { kind, name := name.value, sectionIndex := sectionIndex.toNat, address := address.toNat,
      length := length.toNat, flags := flags.toNat, typeIndex := typeIndex.toNat,
      parent := parent.toNat, endOffset := endOffset.toNat }
  | block parent endOffset length address sectionIndex name =>
    { kind := Kind.block, name := name.value, sectionIndex := sectionIndex.toNat,
      address := address.toNat, length := length.toNat, parent := parent.toNat,
      endOffset := endOffset.toNat }
  | thunk parent endOffset _ address sectionIndex length ordinal name =>
    { kind := Kind.thunk, name := name.value, sectionIndex := sectionIndex.toNat,
      address := address.toNat, length := length.toNat, flags := ordinal.toNat,
      parent := parent.toNat, endOffset := endOffset.toNat }
  | inlineSite parent endOffset inlinee =>
    { kind := Kind.inlineSite, typeIndex := inlinee.toNat, parent := parent.toNat,
      endOffset := endOffset.toNat }
  | data kind _ typeIndex address sectionIndex name =>
    { kind, name := name.value, sectionIndex := sectionIndex.toNat, address := address.toNat,
      typeIndex := typeIndex.toNat }
  | publicSymbol flags address sectionIndex name =>
    { kind := Kind.publicSymbol, name := name.value, sectionIndex := sectionIndex.toNat,
      address := address.toNat, flags := flags.toNat }
  | label address sectionIndex flags name =>
    { kind := Kind.label, name := name.value, sectionIndex := sectionIndex.toNat,
      address := address.toNat, flags := flags.toNat }
  | objectName signature name =>
    { kind := Kind.objectName, name := name.value, signature := signature.toNat }
  | compiler flags machine _ _ _ _ _ _ _ _ version =>
    { kind := Kind.compiler, flags := flags.toNat, machine := machine.toNat,
      version := version.value }
  | other kind _ => { kind := kind.toNat }

end Stored

namespace PayloadLayout
variable {fields : List (Slot × Nat)} {slot : Slot} {rest : Bytes} {r : Record}

@[simp] theorem readFields_nil : readFields [] rest r = some (r, rest) := rfl

theorem readFields_bytesOf {width number : Nat} (fits : number < 256 ^ width) :
    readFields ((slot, width) :: fields) (bytesOf width number ++ rest) r =
      readFields fields rest (r.setField number slot) := by
  have size := length_bytesOf width number
  rw [readFields, List.take_left' size, List.drop_left' size, littleEndian_bytesOf fits, if_neg]
  rw [List.length_append, size]
  omega

@[simp] theorem readFields_octet (number : UInt8) :
    readFields ((slot, 1) :: fields) (Stored.octet number ++ rest) r =
      readFields fields rest (r.setField number.toNat slot) := by
  simp [readFields, Stored.octet, littleEndian]

@[simp] theorem readFields_half (number : UInt16) :
    readFields ((slot, 2) :: fields) (Stored.half number ++ rest) r =
      readFields fields rest (r.setField number.toNat slot) :=
  readFields_bytesOf number.toNat_lt

@[simp] theorem readFields_word (number : UInt32) :
    readFields ((slot, 4) :: fields) (Stored.word number ++ rest) r =
      readFields fields rest (r.setField number.toNat slot) :=
  readFields_bytesOf number.toNat_lt

@[simp] theorem readText?_text (t : StoredText) :
    readText? (Stored.text t ++ rest) = some t.value := by
  have nonzero := Text.Utf8.zero_notMem_encode t.nonzero
  have front : (Text.Utf8.encode t.value ++ 0 :: rest).takeWhile (· ≠ 0) =
      Text.Utf8.encode t.value := by
    rw [List.takeWhile_append_of_pos, List.takeWhile_cons_of_neg (by simp), List.append_nil]
    intro octet member
    exact decide_eq_true fun zero => nonzero (zero ▸ member)
  rw [readText?, Stored.text, List.append_assoc, List.singleton_append, if_pos (by simp), front,
    Text.Utf8.decode_encode]

theorem ofKind_eq_none_of_notMem {kind : Kind} (unlisted : kind ∉ Kind.structured) :
    ofKind kind = none := by
  rw [ofKind, List.lookup_eq_none_iff]
  intro entry member
  have listed : entry.1 ∈ Kind.structured := List.mem_map_of_mem member
  exact bne_iff_ne.2 fun same => unlisted (same ▸ listed)

theorem ofKind_of_mem_procedures {kind : Kind} (listed : kind ∈ Kind.procedures) :
    ofKind kind = some procedure := by
  revert kind
  decide

theorem ofKind_of_mem_data {kind : Kind} (listed : kind ∈ Kind.data) :
    ofKind kind = some data := by
  revert kind
  decide

end PayloadLayout

namespace Stored
open PayloadLayout

theorem read?_bytes (s : Stored) (offset : Option Int) (rest : Bytes) :
    (∃ layout, ofKind s.kind = some layout ∧
      layout.read? (s.bytes ++ rest) { kind := s.kind, offset } =
        some { s.record with offset }) ∨
    ofKind s.kind = none ∧ s.record = { kind := s.kind } := by
  cases s with
  | imageSection => exact .inl ⟨_, rfl, by simp [bytes, read?, PayloadLayout.imageSection]; rfl⟩
  | sectionGroup => exact .inl ⟨_, rfl, by simp [bytes, read?, PayloadLayout.sectionGroup]; rfl⟩
  | procedure kind listed =>
    exact .inl ⟨_, ofKind_of_mem_procedures listed,
      by simp [bytes, read?, PayloadLayout.procedure]; rfl⟩
  | block => exact .inl ⟨_, rfl, by simp [bytes, read?, PayloadLayout.block]; rfl⟩
  | thunk => exact .inl ⟨_, rfl, by simp [bytes, read?, PayloadLayout.thunk]; rfl⟩
  | inlineSite => exact .inl ⟨_, rfl, by simp [bytes, read?, PayloadLayout.inlineSite]; rfl⟩
  | data kind listed =>
    exact .inl ⟨_, ofKind_of_mem_data listed, by simp [bytes, read?, PayloadLayout.data]; rfl⟩
  | publicSymbol => exact .inl ⟨_, rfl, by simp [bytes, read?, PayloadLayout.publicSymbol]; rfl⟩
  | label => exact .inl ⟨_, rfl, by simp [bytes, read?, PayloadLayout.label]; rfl⟩
  | objectName => exact .inl ⟨_, rfl, by simp [bytes, read?, PayloadLayout.objectName]; rfl⟩
  | compiler => exact .inl ⟨_, rfl, by simp [bytes, read?, PayloadLayout.compiler]; rfl⟩
  | other kind unlisted => exact .inr ⟨ofKind_eq_none_of_notMem unlisted, rfl⟩

theorem exists_kind_eq (s : Stored) : ∃ n : Nat, s.kind = n ∧ n < 256 ^ 2 := by
  have listed : ∀ kind ∈ Kind.structured, ∃ n : Nat, kind = n ∧ n < 256 ^ 2 := by
    intro kind member
    refine ⟨kind.toNat, ?_⟩
    revert kind
    decide
  cases s with
  | procedure kind member => exact listed kind (by simp [Kind.structured, member])
  | data kind member => exact listed kind (by simp [Kind.structured, member])
  | other kind => exact ⟨kind.toNat, rfl, kind.toNat_lt⟩
  | _ => exact listed _ (by simp [Stored.kind, Kind.structured])

end Stored

/-- A record in a stream. Any bytes may stand behind what it stores, as far as its length can count
them. -/
structure Entry where
  stored : Stored
  rest : Bytes
  fits : 2 + (stored.bytes ++ rest).length < 256 ^ 2

namespace Entry

def payload (e : Entry) : Bytes := e.stored.bytes ++ e.rest

def frame (e : Entry) : Bytes :=
  bytesOf 2 (2 + e.payload.length) ++ (bytesOf 2 e.stored.kind.toNat ++ e.payload)

theorem wordAt_frame (e : Entry) : wordAt e.frame 0 = 2 + e.payload.length := by
  have fits : 2 + e.payload.length < 256 ^ 2 := e.fits
  rw [wordAt, List.drop_zero, frame, List.take_left' (length_bytesOf _ _),
    littleEndian_bytesOf fits]

theorem length_frame (e : Entry) : e.frame.length = 2 + (2 + e.payload.length) := by
  simp [frame]

theorem complete (e : Entry) : CompleteFrame e.frame := by
  rw [CompleteFrame, wordAt_frame, length_frame]
  omega

theorem headAt_frame (e : Entry) :
    Frame.headAt e.frame 0 =
      { offset := 0, declared := 2 + e.payload.length, kind := e.stored.kind.toNat,
        payload := e.payload } := by
  obtain ⟨n, kind, small⟩ := e.stored.exists_kind_eq
  have behindLength : e.frame.drop 2 = bytesOf 2 n ++ e.payload := by
    rw [frame, List.drop_left' (length_bytesOf _ _), kind, Int.toNat_natCast]
  have behindKind : e.frame.drop 4 = e.payload := calc
    e.frame.drop 4 = (e.frame.drop 2).drop 2 := by rw [List.drop_drop]
    _ = e.payload := by rw [behindLength, List.drop_left' (length_bytesOf _ _)]
  have counted : 2 + e.payload.length - 2 = e.payload.length := Nat.add_sub_cancel_left _ _
  rw [Frame.headAt, wordAt_frame, wordAt, behindLength, behindKind, counted, List.take_length,
    List.take_left' (length_bytesOf _ _), littleEndian_bytesOf small, kind, Int.toNat_natCast]

theorem record_frame (e : Entry) (offset : Nat) :
    ((Frame.headAt e.frame 0).moved offset).record =
      { e.stored.record with offset := some (offset : Int) } := by
  obtain ⟨n, kind, -⟩ := e.stored.exists_kind_eq
  have number : (e.stored.kind.toNat : Kind) = e.stored.kind := by rw [kind, Int.toNat_natCast]
  rw [headAt_frame, Frame.moved, Frame.record]
  simp only [number, Nat.zero_add]
  rcases e.stored.read?_bytes (some (offset : Int)) e.rest with
    ⟨layout, known, read⟩ | ⟨unknown, bare⟩
  · simp only [known, payload, read, Option.getD_some]
  · simp only [unknown, bare]

def written (entries : List Entry) : Bytes := entries.flatMap frame

def recordsFrom : Nat → List Entry → List Record
  | _, [] => []
  | offset, e :: later =>
    { e.stored.record with offset := some (offset : Int) } ::
      recordsFrom (offset + e.frame.length) later

theorem scan_written (entries : List Entry) (tail : Bytes) (ends : ¬ FrameAt tail 0)
    (offset : Nat) :
    (Frame.scan offset (written entries ++ tail)).map Frame.record =
      recordsFrom offset entries := by
  induction entries generalizing offset with
  | nil => rw [written, List.flatMap_nil, List.nil_append, Frame.scan_eq_nil ends]; rfl
  | cons e later ih =>
    rw [written, List.flatMap_cons, List.append_assoc, Frame.scan_append_of_complete e.complete,
      List.map_cons, record_frame, ← written, ih, recordsFrom]

end Entry

theorem Record.decodeFile_signed {file : ByteFile} {body : Bytes}
    (signed : file.rest = bytesOf 4 Record.supportedSignature ++ body) :
    (Record.decodeFile file true).1 = .ok ((Frame.scan 4 body).map Frame.record) := by
  have size := length_bytesOf 4 Record.supportedSignature
  have known : littleEndian (file.rest.take 4) = Record.supportedSignature := by
    rw [signed, List.take_left' size, littleEndian_bytesOf (by decide)]
  have behind : file.rest.drop 4 = body := by rw [signed, List.drop_left' size]
  have long : ¬ file.rest.length < 4 := by
    rw [signed, List.length_append, size]
    omega
  simp [Record.decodeFile_eq, long, known, behind, Record.upTo]

/-- Whatever is written is read back, each record with what is kept of it and where it stands. -/
theorem decoding_undoes_writing (entries : List Entry) (before tail : Bytes)
    (ends : tail.length < 4 ∨ wordAt tail 0 < 2) :
    (Record.decodeFile ⟨before ++ (Entry.written entries ++ tail), before.length⟩ false).1 =
        .ok (Entry.recordsFrom 0 entries) ∧
      (Record.decodeFile ⟨before ++ (bytesOf 4 Record.supportedSignature ++
          (Entry.written entries ++ tail)), before.length⟩ true).1 =
        .ok (Entry.recordsFrom 4 entries) := by
  have none : ¬ FrameAt tail 0 := by
    intro starts
    have there := starts.1
    have counts := starts.2
    omega
  constructor
  · rw [Record.decodeFile_unsigned, Record.decode, ByteFile.rest, List.drop_left,
      Entry.scan_written entries tail none]
  · have signed : (⟨before ++ (bytesOf 4 Record.supportedSignature ++
        (Entry.written entries ++ tail)), before.length⟩ : ByteFile).rest =
          bytesOf 4 Record.supportedSignature ++ (Entry.written entries ++ tail) := by
      rw [ByteFile.rest, List.drop_left]
    rw [Record.decodeFile_signed signed, Entry.scan_written entries tail none]

/-- A public symbol with padding behind its name, a thunk with a variant part and a record of
another kind, in front of a length that is too small. -/
theorem decoding_undoes_writing_past_padding :
    let name : StoredText := ⟨"é€", by decide⟩
    let symbol : Entry := ⟨.publicSymbol 2 0x10 1 name, [0, 0xFF], by decide +kernel⟩
    let thunk : Entry := ⟨.thunk 0 0x40 7 0x1000 1 6 3 name, [1, 2, 3], by decide +kernel⟩
    let unknown : Entry := ⟨.other 0x1234 (by decide), [0xC3, 0x28], by decide⟩
    let entries := [symbol, thunk, unknown]
    let tail : Bytes := [1, 0, 6, 0]
    (tail.length < 4 ∨ wordAt tail 0 < 2) ∧
      (Record.decodeFile ⟨[0x55] ++ (Entry.written entries ++ tail), 1⟩ false).1 =
        .ok (Entry.recordsFrom 0 entries) ∧
      Entry.recordsFrom 0 entries =
        [{ kind := Kind.publicSymbol, name := "é€", address := 0x10, sectionIndex := 1, flags := 2,
           offset := some 0 },
         { kind := Kind.thunk, name := "é€", address := 0x1000, length := 6, sectionIndex := 1,
           flags := 3, endOffset := 0x40, offset := some 22 },
         { kind := 0x1234, offset := some 56 }] := by
  intro name symbol thunk unknown entries tail
  have ends : tail.length < 4 ∨ wordAt tail 0 < 2 := by decide
  exact ⟨ends, (decoding_undoes_writing entries [0x55] tail ends).1, by decide +kernel⟩

end SymbolRecovery
