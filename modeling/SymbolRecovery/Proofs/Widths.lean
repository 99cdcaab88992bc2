import SymbolRecovery.Field
import SymbolRecovery.Proofs.Writing

/-!
What the bytes of a record can hold. No field is stored in more bytes than its range takes. Main
statements: the fields of a record that is read from a frame keep the ranges of section numbers,
addresses and lengths; and the record is truncated exactly if its kind has a layout and the payload
ends before that layout does.
-/
namespace SymbolRecovery

theorem littleEndian_lt (bytes : Bytes) : littleEndian bytes < 256 ^ bytes.length := by
  induction bytes with
  | nil => decide
  | cons octet octets ih =>
    have small := octet.toNat_lt
    rw [littleEndian, List.length_cons, Nat.pow_succ]
    omega

def Slot.widest? : Slot → Option Nat
  | sectionIndex => some 2
  | alignment => some 1
  | address | length => some 4
  | _ => none

namespace Record

/-- The fields are such as their widths allow. -/
structure InWidth (r : Record) : Prop where
  sectionIndex : 0 ≤ r.sectionIndex ∧ r.sectionIndex ≤ Field.sectionMax
  address : 0 ≤ r.address ∧ r.address ≤ Field.addressMax
  length : 0 ≤ r.length ∧ r.length ≤ Field.addressMax
  alignment : 0 ≤ r.alignment ∧ r.alignment ≤ 0xFF

variable {r : Record} {slot : Slot} {width value : Nat}

@[simp] theorem kind_setField (r : Record) (value : Int) (slot : Slot) :
    (r.setField value slot).kind = r.kind := by cases slot <;> rfl

@[simp] theorem truncated_setField (r : Record) (value : Int) (slot : Slot) :
    (r.setField value slot).truncated = r.truncated := by cases slot <;> rfl

theorem InWidth.setField (kept : r.InWidth) (narrow : ∀ widest ∈ slot.widest?, width ≤ widest)
    (fits : value < 256 ^ width) : (r.setField value slot).InWidth := by
  have within : ∀ widest ∈ slot.widest?, value < 256 ^ widest := fun widest known =>
    Nat.lt_of_lt_of_le fits (Nat.pow_le_pow_right (by decide) (narrow widest known))
  have nonneg : (0 : Int) ≤ value := Int.natCast_nonneg value
  cases slot with
  | sectionIndex =>
    have half : (value : Int) ≤ 0xFFFF := Int.ofNat_le.2 (Nat.le_of_lt_succ (within 2 rfl))
    exact { kept with sectionIndex := ⟨nonneg, half⟩ }
  | address =>
    have word : (value : Int) ≤ 0xFFFFFFFF := Int.ofNat_le.2 (Nat.le_of_lt_succ (within 4 rfl))
    exact { kept with address := ⟨nonneg, word⟩ }
  | length =>
    have word : (value : Int) ≤ 0xFFFFFFFF := Int.ofNat_le.2 (Nat.le_of_lt_succ (within 4 rfl))
    exact { kept with length := ⟨nonneg, word⟩ }
  | alignment =>
    have octet : (value : Int) ≤ 0xFF := Int.ofNat_le.2 (Nat.le_of_lt_succ (within 1 rfl))
    exact { kept with alignment := ⟨nonneg, octet⟩ }
  | _ => exact ⟨kept.sectionIndex, kept.address, kept.length, kept.alignment⟩

theorem InWidth.setText (kept : r.InWidth) (text : String) (slot : TextSlot) :
    (r.setText text slot).InWidth := by
  cases slot <;> exact ⟨kept.sectionIndex, kept.address, kept.length, kept.alignment⟩

end Record

namespace PayloadLayout
variable {fields : List (Slot × Nat)} {bytes rest : Bytes} {r filled : Record}
  {layout : PayloadLayout} {kind : Kind}

/-- The layout goes on where the bytes end, the zero byte behind its text included. -/
def exceeds (layout : PayloadLayout) (bytes : Bytes) : Bool :=
  bytes.length < layout.fixedSize ∨ layout.text.isSome ∧ 0 ∉ bytes.drop layout.fixedSize

theorem readFields_eq_none_iff :
    readFields fields bytes r = none ↔ bytes.length < (fields.map (·.2)).sum := by
  induction fields generalizing bytes r with
  | nil => simp
  | cons field fields ih =>
    obtain ⟨slot, width⟩ := field
    rw [readFields, List.map_cons, List.sum_cons]
    split
    · next short => exact iff_of_true rfl (by omega)
    · rw [ih, List.length_drop]
      omega

theorem rest_of_readFields (read : readFields fields bytes r = some (filled, rest)) :
    rest = bytes.drop (fields.map (·.2)).sum := by
  induction fields generalizing bytes r with
  | nil =>
    cases read
    rfl
  | cons field fields ih =>
    obtain ⟨slot, width⟩ := field
    rw [readFields] at read
    split at read
    · cases read
    · rw [ih read, List.drop_drop, List.map_cons, List.sum_cons]

theorem readFields_keeps {motive : Record → Prop}
    (keeps : ∀ field ∈ fields, ∀ s, ∀ value < 256 ^ field.2, motive s →
      motive (s.setField (value : Nat) field.1))
    (start : motive r) (read : readFields fields bytes r = some (filled, rest)) :
    motive filled := by
  induction fields generalizing bytes r with
  | nil =>
    cases read
    exact start
  | cons field fields ih =>
    obtain ⟨slot, width⟩ := field
    rw [readFields] at read
    split at read
    · cases read
    · next enough =>
      have size : (bytes.take width).length = width :=
        List.length_take_of_le (Nat.le_of_not_lt enough)
      have fits : littleEndian (bytes.take width) < 256 ^ width := by
        simpa only [size] using littleEndian_lt (bytes.take width)
      obtain ⟨first, later⟩ := List.forall_mem_cons.1 keeps
      exact ih later (first r _ fits start) read

theorem read?_eq_none_iff : layout.read? bytes r = none ↔ layout.exceeds bytes = true := by
  have size : layout.fixedSize = (layout.fields.map (·.2)).sum := rfl
  rw [exceeds, decide_eq_true_iff, size]
  cases fields : readFields layout.fields bytes r with
  | none => simp [read?, fields, readFields_eq_none_iff.1 fields]
  | some read =>
    obtain ⟨filled, rest⟩ := read
    have enough : ¬ bytes.length < (layout.fields.map (·.2)).sum := fun short => by
      rw [readFields_eq_none_iff.2 short] at fields
      cases fields
    have behind := rest_of_readFields fields
    cases text : layout.text with
    | none => simp [read?, fields, text, enough]
    | some slot => simp [read?, fields, text, enough, readText?, ← behind]

theorem read?_eq_some (read : layout.read? bytes r = some filled) :
    ∃ early rest, readFields layout.fields bytes r = some (early, rest) ∧
      (layout.text = none ∧ filled = early ∨
        ∃ slot text, layout.text = some slot ∧ readText? rest = some text ∧
          filled = early.setText text slot) := by
  unfold read? at read
  obtain ⟨⟨early, rest⟩, fields, read⟩ := Option.bind_eq_some_iff.1 read
  refine ⟨early, rest, fields, ?_⟩
  cases ends : layout.text with
  | none =>
    simp only [ends, Option.pure_def, Option.some.injEq] at read
    exact .inl ⟨rfl, read.symm⟩
  | some slot =>
    simp only [ends] at read
    obtain ⟨text, zero, read⟩ := Option.bind_eq_some_iff.1 read
    cases read
    exact .inr ⟨slot, text, rfl, zero, rfl⟩

theorem read?_keeps {motive : Record → Prop}
    (keeps : ∀ field ∈ layout.fields, ∀ s, ∀ value < 256 ^ field.2, motive s →
      motive (s.setField (value : Nat) field.1))
    (keepsText : ∀ s text slot, motive s → motive (s.setText text slot))
    (start : motive r) (read : layout.read? bytes r = some filled) : motive filled := by
  obtain ⟨early, rest, fields, found⟩ := read?_eq_some read
  have early := readFields_keeps keeps start fields
  rcases found with ⟨-, rfl⟩ | ⟨slot, text, -, -, rfl⟩
  · exact early
  · exact keepsText _ _ _ early

theorem table_narrow : ∀ entry ∈ table, ∀ field ∈ entry.2.fields,
    ∀ widest ∈ field.1.widest?, field.2 ≤ widest := by
  decide

theorem mem_table_of_ofKind (known : ofKind kind = some layout) : (kind, layout) ∈ table := by
  obtain ⟨before, after, split, -⟩ := List.lookup_eq_some_iff.1 known
  rw [split]
  exact List.mem_append_right _ List.mem_cons_self

theorem mem_structured_of_ofKind (known : ofKind kind = some layout) : kind ∈ Kind.structured := by
  have listed : (kind, layout).1 ∈ table.map (·.1) :=
    List.mem_map_of_mem (mem_table_of_ofKind known)
  exact listed

end PayloadLayout

namespace Frame
open PayloadLayout

def endsEarly (f : Frame) : Bool := (ofKind f.kind).any (·.exceeds f.payload)

theorem record_cases (f : Frame) :
    let bare : Record := { kind := f.kind, offset := some f.offset }
    f.endsEarly = false ∧ f.record = bare ∨
    f.endsEarly = true ∧ f.record = { bare with truncated := true } ∨
    f.endsEarly = false ∧ ∃ layout, ((f.kind : Kind), layout) ∈ table ∧
      layout.read? f.payload bare = some f.record := by
  intro bare
  cases known : ofKind f.kind with
  | none => exact .inl ⟨by simp [endsEarly, known], by simp [record, known, bare]⟩
  | some layout =>
    have early : f.endsEarly = layout.exceeds f.payload := by simp [endsEarly, known]
    cases read : layout.read? f.payload bare with
    | none =>
      have short := read?_eq_none_iff.1 read
      have cut : f.record = { bare with truncated := true } := by
        simp only [record, known, read, bare, Option.getD_none]
      exact .inr (.inl ⟨early.trans short, cut⟩)
    | some filled =>
      have whole : layout.exceeds f.payload = false := by
        refine Bool.eq_false_iff.2 fun short => ?_
        rw [read?_eq_none_iff.2 short] at read
        cases read
      have found : f.record = filled := by simp only [record, known, read, bare, Option.getD_some]
      exact .inr (.inr ⟨early.trans whole, layout, mem_table_of_ofKind known, found ▸ read⟩)

theorem kind_record (f : Frame) : f.record.kind = f.kind := by
  rcases f.record_cases with ⟨-, bare⟩ | ⟨-, bare⟩ | ⟨-, layout, -, read⟩
  · rw [bare]
  · rw [bare]
  · refine read?_keeps (motive := fun r => r.kind = f.kind) ?_ ?_ rfl read
    · intro field _ s value _ same
      rwa [Record.kind_setField]
    · intro s text slot same
      cases slot <;> exact same

theorem truncated_record (f : Frame) : f.record.truncated = f.endsEarly := by
  rcases f.record_cases with ⟨whole, bare⟩ | ⟨early, bare⟩ | ⟨whole, layout, -, read⟩
  · rw [bare, whole]
  · rw [bare, early]
  · rw [whole]
    refine read?_keeps (motive := fun r => r.truncated = false) ?_ ?_ rfl read
    · intro field _ s value _ same
      rwa [Record.truncated_setField]
    · intro s text slot same
      cases slot <;> exact same

theorem inWidth_record (f : Frame) : f.record.InWidth := by
  have unset : ∀ kind offset truncated, ({ kind, offset, truncated } : Record).InWidth := by
    intro kind offset truncated
    have half : (0 : Int) ≤ 0 ∧ 0 ≤ Field.sectionMax := by decide
    have word : (0 : Int) ≤ 0 ∧ 0 ≤ Field.addressMax := by decide
    have octet : (0 : Int) ≤ 0 ∧ 0 ≤ (0xFF : Int) := by decide
    exact ⟨half, word, word, octet⟩
  rcases f.record_cases with ⟨-, bare⟩ | ⟨-, bare⟩ | ⟨-, layout, listed, read⟩
  · rw [bare]
    exact unset _ _ _
  · rw [bare]
    exact unset _ _ _
  · refine read?_keeps (motive := Record.InWidth) ?_ ?_ (unset _ _ _) read
    · intro field member s value fits kept
      exact kept.setField (table_narrow _ listed field member) fits
    · exact fun s text slot kept => kept.setText text slot

theorem mem_structured_of_endsEarly {f : Frame} (early : f.endsEarly = true) :
    (f.kind : Kind) ∈ Kind.structured := by
  obtain ⟨layout, known, -⟩ := (Option.any_eq_true _ _).1 early
  exact mem_structured_of_ofKind known

end Frame

end SymbolRecovery
