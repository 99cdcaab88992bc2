import SymbolRecovery.Proofs.Classes
import SymbolRecovery.Proofs.Ledger
import SymbolRecovery.Proofs.Registration
import SymbolRecovery.Proofs.Widths

/-!
Which records of a file are accepted. The kinds that are read and the kinds that are registered are
two tables, and what a field can hold and what it may hold are said in two more places. Main
statement: of the records that are read from a file, those are reported as malformed whose payload
ends early, those that name section zero in describing a section or a part of one, and sections
with too large an alignment; and those are skipped whose kind has no layout and closes no scope.
-/
namespace SymbolRecovery
open Lookup (standard)

namespace Role

theorem ofKind?_eq_none_iff (kind : Kind) :
    ofKind? kind = none ↔ kind ∉ Kind.structured ∧ kind ∉ Kind.scopeEnds := by
  have registered : ∀ kind ∈ Kind.structured ++ Kind.scopeEnds, ofKind? kind ≠ none := by decide
  have stored : ∀ kind ∈ kinds, kind ∈ Kind.structured ++ Kind.scopeEnds := by decide
  rw [← not_or, ← List.mem_append]
  constructor
  · exact fun without member => registered kind member without
  · intro unlisted
    cases given : ofKind? kind with
    | none => rfl
    | some role => exact absurd (stored kind (mem_kinds_of_ofKind? given)) unlisted

theorem ofKind?_eq_describes_sectionGroup (kind : Kind) :
    ofKind? kind = some (.describes .sectionGroup) ↔ kind = Kind.sectionGroup :=
  ofKind?_eq_describes_iff.trans List.mem_singleton

end Role

namespace Field
variable {value : Int}

theorem checkSection_nonzero (within : 0 ≤ value ∧ value ≤ sectionMax) :
    checkSection value "section" false =
      if value = 0 then .error (.sectionIndex "section" value 1) else .ok value := by
  unfold sectionMax at within
  have outside : value < 1 ∨ 0xFFFF < value ↔ value = 0 := by omega
  simp [checkSection_eq, outside]

theorem checkAlignment_of_nonneg (nonneg : 0 ≤ value) :
    checkAlignment value = if 13 < value then .error (.alignment value) else .ok value := by
  have outside : value < 0 ∨ 13 < value ↔ 13 < value := by omega
  simp [checkAlignment_eq, outside]

end Field

theorem ScopeForm.exists_read {r : Record} (kept : r.InWidth) (form : ScopeForm) (position : Nat) :
    ∃ s, form.read r position = .ok s := by
  unfold read
  rw [Field.checkSection_eq_ok.2 ⟨kept.sectionIndex, rfl⟩,
    Field.checkRange_eq_ok.2 ⟨kept.address, rfl⟩, Field.checkRange_eq_ok.2 ⟨kept.length, rfl⟩]
  split <;> exact ⟨_, rfl⟩

namespace Subject
variable {r : Record}

def Refuses (r : Record) : Subject → Prop
  | imageSection => r.sectionIndex = 0 ∨ 13 < r.alignment
  | sectionGroup => r.sectionIndex = 0
  | symbol | objectName | compiler => False

theorem read_eq_error_iff (kept : r.InWidth) (subject : Subject) (position : Nat) :
    (∃ e, subject.read r position = .error e) ↔ subject.Refuses r := by
  have address (field : String) : Field.checkRange r.address field = .ok r.address :=
    Field.checkRange_eq_ok.2 ⟨kept.address, rfl⟩
  have length (field : String) : Field.checkRange r.length field = .ok r.length :=
    Field.checkRange_eq_ok.2 ⟨kept.length, rfl⟩
  cases subject with
  | imageSection =>
    have number := Field.checkSection_nonzero kept.sectionIndex
    have alignment := Field.checkAlignment_of_nonneg kept.alignment.1
    simp only [read, readSection, number, address, length, alignment, Refuses]
    by_cases zero : r.sectionIndex = 0
    · simp [zero, bind, Except.bind, Except.map]
    · by_cases large : 13 < r.alignment <;>
        simp [zero, large, bind, Except.bind, pure, Except.pure, Except.map]
  | sectionGroup =>
    have number := Field.checkSection_nonzero kept.sectionIndex
    simp only [read, readContribution, number, address, length, Refuses]
    by_cases zero : r.sectionIndex = 0 <;>
      simp [zero, bind, Except.bind, pure, Except.pure, Except.map]
  | symbol =>
    have number : Field.checkSection r.sectionIndex = .ok r.sectionIndex :=
      Field.checkSection_eq_ok.2 ⟨kept.sectionIndex, rfl⟩
    simp [read, readSymbol, number, address, Refuses, bind, Except.bind, pure, Except.pure,
      Except.map]
  | objectName => simp [read, Refuses]
  | compiler => simp [read, Refuses]

end Subject

def Effect.cause? : Effect → Option FaultCause
  | refused cause | holds _ _ cause => some cause
  | ignored | describes _ | opens .. | closes _ => none

namespace Record
variable {r : Record} {position : Nat}

def OutOfRange (r : Record) : Prop :=
  (r.kind = Kind.imageSection ∨ r.kind = Kind.sectionGroup) ∧ r.sectionIndex = 0 ∨
    r.kind = Kind.imageSection ∧ 13 < r.alignment

instance (r : Record) : Decidable r.OutOfRange := inferInstanceAs (Decidable (_ ∨ _))

theorem outOfRange_iff : r.OutOfRange ↔
    ∃ subject, Role.ofKind? r.kind = some (.describes subject) ∧ subject.Refuses r := by
  have isSection := ofKind?_eq_describes_imageSection r.kind
  have isGroup := Role.ofKind?_eq_describes_sectionGroup r.kind
  constructor
  · rintro (⟨kind | kind, zero⟩ | ⟨kind, large⟩)
    · exact ⟨.imageSection, isSection.2 kind, .inl zero⟩
    · exact ⟨.sectionGroup, isGroup.2 kind, zero⟩
    · exact ⟨.imageSection, isSection.2 kind, .inr large⟩
  · rintro ⟨subject, given, refuses⟩
    cases subject with
    | imageSection =>
      rcases refuses with zero | large
      · exact .inl ⟨.inl (isSection.1 given), zero⟩
      · exact .inr ⟨isSection.1 given, large⟩
    | sectionGroup => exact .inl ⟨.inr (isGroup.1 given), refuses⟩
    | _ => exact refuses.elim

theorem unlessTruncated_eq_error_iff {α : Type} {read : Except FieldError α} :
    (∃ cause, r.unlessTruncated read = .error cause) ↔
      r.truncated = true ∨ ∃ e, read = .error e := by
  unfold unlessTruncated
  cases r.truncated <;> cases read <;> simp

theorem isSome_cause?_effect (kept : r.InWidth) (position : Nat) :
    (r.effect position).cause?.isSome ↔
      Role.ofKind? r.kind ≠ none ∧ (r.truncated = true ∨ r.OutOfRange) := by
  rw [outOfRange_iff]
  unfold effect
  cases given : Role.ofKind? r.kind with
  | none => simp [Effect.cause?]
  | some role =>
    cases role with
    | describes subject =>
      have refused : (∃ cause, r.unlessTruncated (subject.read r position) = .error cause) ↔
          r.truncated = true ∨ subject.Refuses r := by
        rw [unlessTruncated_eq_error_iff, subject.read_eq_error_iff kept]
      cases read : r.unlessTruncated (subject.read r position) <;>
        simpa [read, Effect.cause?] using refused
    | opens form =>
      obtain ⟨s, accepted⟩ := form.exists_read kept position
      cases early : r.truncated <;> simp [unlessTruncated, early, accepted, Effect.cause?]
    | closes =>
      cases early : r.truncated <;> simp [unlessTruncated, early, Effect.cause?]

end Record

theorem Context.any_cause?_verdict (c : Context) (r : Record) (position : Nat) :
    ((c.verdict (r.effect position)).cause?.any fun cause => cause.category = .malformedField) =
      (r.effect position).cause?.isSome := by
  cases asks : r.effect position with
  | ignored => rfl
  | describes change => rfl
  | opens form s endOffset => rfl
  | refused cause =>
    simp [verdict, Verdict.cause?, Effect.cause?, Record.category_of_refused asks]
  | holds form placeholder cause =>
    simp [verdict, Verdict.cause?, Effect.cause?, Record.category_of_holds asks]
  | closes kind =>
    cases unbalanced : c.imbalance? kind with
    | none => simp [verdict, unbalanced, Verdict.cause?, Effect.cause?]
    | some cause =>
      simp [verdict, unbalanced, Verdict.cause?, Effect.cause?, category_of_imbalance? unbalanced]

namespace Frame

def ofFile (file : ByteFile) (signature : Bool) : List Frame :=
  if signature then scan 4 (file.rest.drop 4) else scan 0 file.rest

/-- The payload ends before the layout of its kind does, or what it gives for a section or a part
of one cannot be. -/
def IsMalformed (f : Frame) : Prop :=
  ((f.kind : Kind) ∈ Kind.structured ∧ f.endsEarly = true) ∨ f.record.OutOfRange

instance (f : Frame) : Decidable f.IsMalformed := inferInstanceAs (Decidable (_ ∨ _))

def IsUnsupported (f : Frame) : Prop :=
  (f.kind : Kind) ∉ Kind.structured ∧ (f.kind : Kind) ∉ Kind.scopeEnds

instance (f : Frame) : Decidable f.IsUnsupported := inferInstanceAs (Decidable (_ ∧ _))

theorem records_of_decodeFile {file : ByteFile} {signature : Bool} {records : List Record}
    (decoded : (Record.decodeFile file signature).1 = .ok records) :
    records = (ofFile file signature).map record := by
  rw [Record.decodeFile_eq] at decoded
  simp only [reduceCtorEq, ↓reduceIte] at decoded
  unfold ofFile
  cases signature with
  | false =>
    cases decoded
    rfl
  | true =>
    simp only [↓reduceIte] at decoded ⊢
    split at decoded
    · cases decoded
    · split at decoded <;> cases decoded
      rfl

theorem isSome_cause?_effect (f : Frame) (position : Nat) :
    (f.record.effect position).cause?.isSome ↔ f.IsMalformed := by
  rw [Record.isSome_cause?_effect f.inWidth_record, kind_record, truncated_record]
  constructor
  · rintro ⟨-, early | out⟩
    · exact .inl ⟨mem_structured_of_endsEarly early, early⟩
    · exact .inr out
  · rintro (⟨listed, early⟩ | out)
    · exact ⟨fun without => ((Role.ofKind?_eq_none_iff _).1 without).1 listed, .inl early⟩
    · obtain ⟨subject, given, -⟩ := Record.outOfRange_iff.1 out
      rw [kind_record] at given
      exact ⟨by simp [given], .inr out⟩

theorem effect_eq_ignored_iff (f : Frame) (position : Nat) :
    f.record.effect position = .ignored ↔ f.IsUnsupported := by
  rw [IsUnsupported, ← Role.ofKind?_eq_none_iff, ← kind_record, Record.effect_eq_ignored_iff]

end Frame

theorem Tally.map_position_reports {entries : List LedgerEntry}
    {report? : LedgerEntry → Option Fault} {due : Nat → Bool}
    (here : ∀ e report, report? e = some report → report.position = e.position)
    (agrees : ∀ e ∈ entries, (report? e).isSome = due e.position) :
    (entries.filterMap report?).map (·.position) =
      ((entries.map (·.position)).filter due).map Nat.cast := by
  induction entries with
  | nil => rfl
  | cons e rest ih =>
    obtain ⟨first, later⟩ := List.forall_mem_cons.1 agrees
    rw [List.filterMap_cons, List.map_cons, List.filter_cons, ← first]
    cases reports : report? e with
    | none => simpa using ih later
    | some report => simpa [here e report reports] using ih later

namespace LedgerEntry
variable {e : LedgerEntry} {frames : List Frame}

theorem Counts.exists_frame (counts : e.Counts (frames.map Frame.record)) :
    ∃ f, frames[e.position]? = some f ∧
      ∃ c : Context, e.verdict = c.verdict (f.record.effect e.position) := by
  obtain ⟨r, c, there, -, judged⟩ := counts
  rw [List.getElem?_map] at there
  obtain ⟨f, found, rfl⟩ := Option.map_eq_some_iff.1 there
  exact ⟨f, found, c, judged⟩

theorem Counts.isSome_malformed (counts : e.Counts (frames.map Frame.record)) :
    (e.fault?.filter fun fault => fault.category = .malformedField).isSome =
      frames[e.position]?.any fun f => f.IsMalformed := by
  obtain ⟨f, found, c, judged⟩ := counts.exists_frame
  rw [Option.isSome_filter, fault?, Option.any_map, judged, found, Option.any_some, Bool.eq_iff_iff,
    decide_eq_true_iff, ← f.isSome_cause?_effect e.position, ← c.any_cause?_verdict]
  rfl

theorem Counts.isSome_skip? (counts : e.Counts (frames.map Frame.record)) :
    e.skip?.isSome = frames[e.position]?.any fun f => f.IsUnsupported := by
  obtain ⟨f, found, c, judged⟩ := counts.exists_frame
  have skipped : e.skip?.isSome = decide (e.verdict = .skipped) := by
    unfold skip?
    split
    · next skipped => simp [skipped]
    · next counted => simp [counted]
  rw [skipped, judged, found, Option.any_some, decide_eq_decide,
    Context.verdict_eq_skipped_iff, f.effect_eq_ignored_iff]

end LedgerEntry

/-- Which records of a file are malformed and which are skipped is told by their bytes alone, and
the records that a run comes to are reported so. -/
theorem malformed_and_skipped_told_by_bytes (file : ByteFile) (signature : Bool)
    (records : List Record) (decoded : (Record.decodeFile file signature).1 = .ok records)
    (context : Context) (position : Nat) (token : Token) :
    let frames := Frame.ofFile file signature
    let start : Progress := { context, cursor := ⟨records, position⟩ }
    let tally := (run standard context ⟨records, position⟩ token).progress.tally
    let positions := start.positions standard token
    records = frames.map Frame.record ∧
    (tally.faultsOf .malformedField).map (·.position) =
      (positions.filter fun i => frames[i]?.any fun f => f.IsMalformed).map Nat.cast ∧
    tally.skips.map (·.position) =
      (positions.filter fun i => frames[i]?.any fun f => f.IsUnsupported).map Nat.cast := by
  intro frames start tally positions
  have read : records = frames.map Frame.record := Frame.records_of_decodeFile decoded
  obtain ⟨unclosed, tallied, -, report⟩ := start.tally_run rfl token
  have tallied : tally = .ofEntries (start.ledger token) unclosed := tallied
  have counts : ∀ e ∈ start.ledger token, e.Counts (frames.map Frame.record) := fun e member =>
    read ▸ Progress.counts_of_mem_ledger member
  have listed : positions = (start.ledger token).map (·.position) :=
    (start.map_position_ledger token).symm
  refine ⟨read, ?_, ?_⟩
  · have elsewhere : ∀ fault ∈ unclosed, decide (fault.category = .malformedField) = false := by
      intro fault member
      simp [(report fault member).2.1]
    rw [tallied, Tally.faultsOf, Tally.filter_faults_ofEntries elsewhere, listed]
    refine Tally.map_position_reports (fun e fault reports => ?_) fun e member =>
      (counts e member).isSome_malformed
    obtain ⟨cause, -, rfl⟩ := LedgerEntry.fault?_eq_some (Option.filter_eq_some_iff.1 reports).1
    rfl
  · rw [tallied, listed]
    refine Tally.map_position_reports (fun e fault reports => ?_) fun e member =>
      (counts e member).isSome_skip?
    obtain ⟨-, rfl⟩ := LedgerEntry.skip?_eq_some reports
    rfl

/-- Behind the signature a section with too large an alignment, a part of section zero, a public
symbol that ends early, a kind that is not read and an end record, which has nothing to close. -/
theorem malformed_and_skipped_told_by_bytes_of_five :
    let aligned : Bytes := [19, 0, 0x36, 0x11, 1, 0, 14, 0] ++ List.replicate 13 0
    let part : Bytes := [17, 0, 0x37, 0x11] ++ List.replicate 15 0
    let early : Bytes := [6, 0, 0x0E, 0x11, 1, 2, 3, 4]
    let body := aligned ++ part ++ early ++ [2, 0, 0x34, 0x12] ++ [2, 0, 6, 0]
    let file : ByteFile := ⟨bytesOf 4 Record.supportedSignature ++ body, 0⟩
    let records := (Frame.scan 4 body).map Frame.record
    let tally := (run standard {} ⟨records, 0⟩).progress.tally
    (Record.decodeFile file true).1 = .ok records ∧
      (tally.faultsOf .malformedField).map (·.position) = [0, 1, 2] ∧
      tally.skips.map (·.position) = [3] ∧ tally.faults.length = 4 := by
  intro aligned part early body file records tally
  have decoded : (Record.decodeFile file true).1 = .ok records := Record.decodeFile_signed rfl
  obtain ⟨-, malformed, skipped⟩ :=
    malformed_and_skipped_told_by_bytes file true records decoded {} 0 (.flag false)
  refine ⟨decoded, malformed.trans ?_, skipped.trans ?_, ?_⟩ <;> decide +kernel

end SymbolRecovery
