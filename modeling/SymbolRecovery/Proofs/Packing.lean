import Mathlib.Algebra.Ring.Nat
import SymbolRecovery.Proofs.Acceptance

/-!
Payloads field by field. The fields of a layout lie one behind another without a gap, and a text
begins where they end. Main statement: a record of a kind with a layout is truncated exactly if its
payload, which ends where its length says or with the data, is too short for the fields or has no
zero byte behind them; otherwise each field is the number at its place, and the text is what stands
before the first zero byte.
-/
namespace SymbolRecovery

namespace Record
variable {r : Record} {slot other : Slot} {role otherRole : TextSlot}

def field (r : Record) : Slot → Int
  | .sectionIndex => r.sectionIndex
  | .alignment => r.alignment
  | .address => r.address
  | .length => r.length
  | .characteristics => r.characteristics
  | .flags => r.flags
  | .typeIndex => r.typeIndex
  | .parent => r.parent
  | .endOffset => r.endOffset
  | .signature => r.signature
  | .machine => r.machine
  | .unused => 0

def textIn (r : Record) : TextSlot → String
  | .name => r.name
  | .version => r.version

theorem field_setField (kept : slot ≠ .unused) (value : Int) :
    (r.setField value slot).field slot = value := by
  cases slot <;> first | rfl | exact absurd rfl kept

theorem field_setField_of_ne (apart : other ≠ slot) (value : Int) :
    (r.setField value slot).field other = r.field other := by
  cases slot <;> cases other <;> first | rfl | exact absurd rfl apart

@[simp] theorem textIn_setField (value : Int) : (r.setField value slot).textIn role =
    r.textIn role := by
  cases slot <;> cases role <;> rfl

@[simp] theorem textIn_setText (text : String) : (r.setText text role).textIn role = text := by
  cases role <;> rfl

theorem textIn_setText_of_ne (apart : otherRole ≠ role) (text : String) :
    (r.setText text role).textIn otherRole = r.textIn otherRole := by
  cases role <;> cases otherRole <;> first | rfl | exact absurd rfl apart

@[simp] theorem field_setText (text : String) : (r.setText text role).field slot =
    r.field slot := by
  cases role <;> cases slot <;> rfl

end Record

structure Place where
  slot : Slot
  start : Nat
  width : Nat
deriving Repr, DecidableEq

def Place.value (payload : Bytes) (p : Place) : Nat :=
  littleEndian ((payload.drop p.start).take p.width)

def Record.fill (payload : Bytes) (r : Record) (places : List Place) : Record :=
  places.foldl (fun r p => r.setField (p.value payload) p.slot) r

namespace Place
variable {payload : Bytes} {places : List Place} {r : Record} {p : Place} {slot : Slot}

def Distinct (places : List Place) : Prop :=
  places.Pairwise fun p q => p.slot ≠ .unused → q.slot ≠ p.slot

instance (places : List Place) : Decidable (Distinct places) :=
  inferInstanceAs (Decidable (List.Pairwise _ _))

theorem textIn_fill (role : TextSlot) : (r.fill payload places).textIn role = r.textIn role := by
  induction places generalizing r with
  | nil => rfl
  | cons p places ih => exact ih.trans (Record.textIn_setField _)

theorem field_fill_of_notMem (unset : ∀ p ∈ places, slot ≠ p.slot) :
    (r.fill payload places).field slot = r.field slot := by
  induction places generalizing r with
  | nil => rfl
  | cons p places ih =>
    obtain ⟨first, later⟩ := List.forall_mem_cons.1 unset
    exact (ih later).trans (Record.field_setField_of_ne first _)

theorem field_fill (distinct : Distinct places) (member : p ∈ places) (kept : p.slot ≠ .unused) :
    (r.fill payload places).field p.slot = p.value payload := by
  induction places generalizing r with
  | nil => cases member
  | cons first places ih =>
    obtain ⟨apart, distinct⟩ := List.pairwise_cons.1 distinct
    rcases List.mem_cons.1 member with rfl | later
    · calc ((r.setField (p.value payload) p.slot).fill payload places).field p.slot
          = (r.setField (p.value payload) p.slot).field p.slot :=
            field_fill_of_notMem fun q behind => (apart q behind kept).symm
        _ = p.value payload := Record.field_setField kept _
    · exact ih distinct later

end Place

namespace PayloadLayout
variable {fields : List (Slot × Nat)} {layout : PayloadLayout} {payload rest : Bytes}
  {r filled : Record}

def placesFrom (start : Nat) : List (Slot × Nat) → List Place
  | [] => []
  | (slot, width) :: fields => ⟨slot, start, width⟩ :: placesFrom (start + width) fields

def places (layout : PayloadLayout) : List Place := placesFrom 0 layout.fields

example : procedure.places.map (·.start) = [0, 4, 8, 12, 16, 20, 24, 28, 32, 34] ∧
    procedure.fixedSize = 35 := by decide

def textBytes (layout : PayloadLayout) (payload : Bytes) : Bytes :=
  (payload.drop layout.fixedSize).takeWhile (· ≠ 0)

theorem eq_fill_of_readFields (start : Nat)
    (read : readFields fields (payload.drop start) r = some (filled, rest)) :
    filled = r.fill payload (placesFrom start fields) := by
  induction fields generalizing start r with
  | nil =>
    cases read
    rfl
  | cons field fields ih =>
    obtain ⟨slot, width⟩ := field
    rw [readFields] at read
    split at read
    · cases read
    · rw [List.drop_drop] at read
      exact ih _ read

theorem eq_fill_of_read? (read : layout.read? payload r = some filled) :
    let fields := r.fill payload layout.places
    layout.text = none ∧ filled = fields ∨
      ∃ role, layout.text = some role ∧
        filled = fields.setText (Text.Utf8.decode (layout.textBytes payload)) role := by
  obtain ⟨early, rest, fields, found⟩ := read?_eq_some read
  have set : early = r.fill payload layout.places := eq_fill_of_readFields 0 fields
  have behind : rest = payload.drop layout.fixedSize := rest_of_readFields fields
  refine found.imp ?_ ?_
  · exact fun ⟨textless, same⟩ => ⟨textless, same.trans set⟩
  · rintro ⟨role, text, ends, zero, same⟩
    rw [readText?] at zero
    split at zero <;> cases zero
    exact ⟨role, ends, by rw [same, set, behind, textBytes]⟩

/-- What a layout makes of a payload that is all there. -/
structure Fills (layout : PayloadLayout) (payload : Bytes) (r : Record) : Prop where
  kept : ∀ p ∈ layout.places, p.slot ≠ .unused → r.field p.slot = p.value payload
  unset : ∀ slot, (∀ p ∈ layout.places, slot ≠ p.slot) → r.field slot = 0
  text : ∀ role, layout.text = some role →
    r.textIn role = Text.Utf8.decode (layout.textBytes payload)
  textless : ∀ role, layout.text ≠ some role → r.textIn role = ""

theorem table_distinct : ∀ entry ∈ table, Place.Distinct entry.2.places := by decide

theorem fills_of_read? {kind : Kind} {offset : Option Int} (listed : (kind, layout) ∈ table)
    (read : layout.read? payload { kind, offset } = some r) : layout.Fills payload r := by
  let fields : Record := ({ kind, offset } : Record).fill payload layout.places
  have kept : ∀ p ∈ layout.places, p.slot ≠ .unused → fields.field p.slot = p.value payload :=
    fun p member => Place.field_fill (table_distinct _ listed) member
  have unset : ∀ slot, (∀ p ∈ layout.places, slot ≠ p.slot) → fields.field slot = 0 := by
    intro slot elsewhere
    rw [Place.field_fill_of_notMem elsewhere]
    cases slot <;> rfl
  have silent : ∀ role, fields.textIn role = "" := by
    intro role
    rw [Place.textIn_fill]
    cases role <;> rfl
  rcases eq_fill_of_read? read with ⟨textless, rfl⟩ | ⟨stored, ends, rfl⟩
  · refine ⟨kept, unset, ?_, fun role _ => silent role⟩
    intro role ends
    cases textless.symm.trans ends
  · refine ⟨?_, ?_, ?_, ?_⟩
    · simpa only [Record.field_setText] using kept
    · simpa only [Record.field_setText] using unset
    · intro role same
      cases ends.symm.trans same
      exact Record.textIn_setText _
    · intro role other
      have apart : role ≠ stored := fun same => other (same ▸ ends)
      rw [Record.textIn_setText_of_ne apart, silent]

theorem exists_ofKind {kind : Kind} (listed : kind ∈ Kind.structured) :
    ∃ layout, ofKind kind = some layout := by
  have known : ∀ kind ∈ Kind.structured, (ofKind kind).isSome = true := by decide
  exact Option.isSome_iff_exists.1 (known kind listed)

end PayloadLayout

/-- The bytes behind a head, up to where its length says or to the end. -/
def payloadAt (bytes : Bytes) (offset : Nat) : Bytes :=
  (bytes.take (min (offset + 2 + wordAt bytes offset) bytes.length)).drop (offset + 4)

namespace Frame
variable {bytes : Bytes} {offset : Nat} {f : Frame}

theorem payload_headAt (bytes : Bytes) (offset : Nat) :
    (headAt bytes offset).payload = payloadAt bytes offset := by
  have size : offset + 2 + wordAt bytes offset - (offset + 4) = wordAt bytes offset - 2 := by omega
  rw [payloadAt, ← List.take_take, List.take_length, List.drop_take, size, headAt]

theorem eq_headAt_of_mem (member : f ∈ scan offset (bytes.drop offset)) :
    FrameAt bytes f.offset ∧ f = headAt bytes f.offset := by
  induction left : bytes.length - offset using Nat.strongRecOn generalizing offset with
  | ind n ih =>
    rw [scan_drop] at member
    split at member
    · next starts =>
      rcases List.mem_cons.1 member with rfl | later
      · exact ⟨starts, rfl⟩
      · have behind : (headAt bytes offset).following = offset + 2 + wordAt bytes offset := rfl
        have there := starts.1
        exact ih _ (by omega) later rfl
    · cases member

theorem eq_headAt_of_mem_ofFile {file : ByteFile} {signature : Bool}
    (member : f ∈ ofFile file signature) :
    FrameAt file.rest f.offset ∧ f = headAt file.rest f.offset := by
  unfold ofFile at member
  split at member
  · exact eq_headAt_of_mem member
  · have whole : f ∈ scan 0 (file.rest.drop 0) := member
    exact eq_headAt_of_mem whole

end Frame

/-- What a record is read from is the payload at its offset, and nothing else. -/
theorem record_told_by_payload (file : ByteFile) (signature : Bool) (records : List Record)
    (decoded : (Record.decodeFile file signature).1 = .ok records) (r : Record)
    (member : r ∈ records) :
    ∃ offset : Nat, r.offset = some (offset : Int) ∧ FrameAt file.rest offset ∧
      r.kind = wordAt file.rest (offset + 2) ∧
      let bare : Record := { kind := r.kind, offset := r.offset }
      let payload := payloadAt file.rest offset
      (r.kind ∉ Kind.structured → r = bare) ∧
      (r.kind ∈ Kind.structured → ∃ layout, PayloadLayout.ofKind r.kind = some layout ∧
        (r.truncated = true ↔ payload.length < layout.fixedSize ∨
          layout.text.isSome ∧ 0 ∉ payload.drop layout.fixedSize) ∧
        (r.truncated = true → r = { bare with truncated := true }) ∧
        (r.truncated = false → layout.Fills payload r)) := by
  rw [Frame.records_of_decodeFile decoded] at member
  obtain ⟨f, scanned, rfl⟩ := List.mem_map.1 member
  obtain ⟨starts, here⟩ := Frame.eq_headAt_of_mem_ofFile scanned
  have kind : f.kind = wordAt file.rest (f.offset + 2) := congrArg Frame.kind here
  have payload : f.payload = payloadAt file.rest f.offset :=
    (congrArg Frame.payload here).trans (Frame.payload_headAt _ _)
  refine ⟨f.offset, f.offset_record, starts, f.kind_record.trans (congrArg _ kind), ?_⟩
  rw [f.kind_record, f.offset_record, f.truncated_record, ← payload]
  intro bare contents
  constructor
  · intro unlisted
    have unknown := PayloadLayout.ofKind_eq_none_of_notMem unlisted
    simp only [Frame.record, unknown, bare]
  · intro listed
    obtain ⟨layout, known⟩ := PayloadLayout.exists_ofKind listed
    have early : f.endsEarly = layout.exceeds contents := by simp [Frame.endsEarly, known, contents]
    have found : f.record = (layout.read? contents bare).getD { bare with truncated := true } := by
      simp only [Frame.record, known, contents, bare]
    rw [early, found]
    refine ⟨layout, known, decide_eq_true_iff, ?_, ?_⟩
    · intro short
      rw [PayloadLayout.read?_eq_none_iff.2 short, Option.getD_none]
    · intro whole
      cases read : layout.read? contents bare with
      | none =>
        rw [PayloadLayout.read?_eq_none_iff.1 read] at whole
        cases whole
      | some filled =>
        exact PayloadLayout.fills_of_read? (PayloadLayout.mem_table_of_ofKind known) read

/-- A public symbol that ends one byte before a zero byte, and one that declares more bytes than
there are and has its name nevertheless. -/
theorem record_told_by_payload_of_cut_and_overlong :
    let fields : Bytes := [1, 0, 0, 0, 0x10, 0, 0, 0, 2, 0]
    let bytes : Bytes := [14, 0, 0x0E, 0x11] ++ fields ++ [0x66, 0x6F] ++
      [0, 1, 0x0E, 0x11] ++ fields ++ [0x67, 0, 0x68]
    let file : ByteFile := ⟨bytes, 0⟩
    let cut : Record := { kind := Kind.publicSymbol, offset := some 0, truncated := true }
    let whole : Record :=
      { kind := Kind.publicSymbol, name := "g", flags := 1, address := 0x10, sectionIndex := 2,
        offset := some 16 }
    (Record.decodeFile file false).1 = .ok [cut, whole] ∧
      payloadAt file.rest 0 = fields ++ [0x66, 0x6F] ∧
      (cut.truncated = true ↔
        (payloadAt file.rest 0).length < PayloadLayout.publicSymbol.fixedSize ∨
          PayloadLayout.publicSymbol.text.isSome ∧
            0 ∉ (payloadAt file.rest 0).drop PayloadLayout.publicSymbol.fixedSize) ∧
      payloadAt file.rest 16 = fields ++ [0x67, 0, 0x68] ∧
      PayloadLayout.publicSymbol.Fills (payloadAt file.rest 16) whole := by
  intro fields bytes file cut whole
  have decoded : (Record.decodeFile file false).1 = .ok [cut, whole] :=
    (Record.decodeFile_unsigned file).trans (congrArg Except.ok (by decide +kernel))
  obtain ⟨first, placed, -, -, -, reads⟩ :=
    record_told_by_payload file false [cut, whole] decoded cut (by decide)
  obtain ⟨layout, known, exact, -⟩ := reads (by decide)
  obtain ⟨second, placed', -, -, -, reads'⟩ :=
    record_told_by_payload file false [cut, whole] decoded whole (by decide)
  obtain ⟨layout', known', -, -, fills⟩ := reads' (by decide)
  cases known
  cases known'
  cases Int.ofNat.inj (Option.some.inj placed)
  cases Int.ofNat.inj (Option.some.inj placed')
  exact ⟨decoded, by decide, exact, by decide, fills rfl⟩

end SymbolRecovery
