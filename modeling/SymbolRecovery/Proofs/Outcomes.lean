import Mathlib.Data.List.Nodup
import SymbolRecovery.Proofs.Ledger

/-!
One outcome for every record that is dispatched. Main statement: the records that a run comes to
are processed, skipped or faulted, each of them once; skips and faults name the record that they
are about, and a record is skipped exactly if there is no applier for its kind; and a run that
descends into scopes and is not cancelled comes to all records.
-/
namespace SymbolRecovery
open Lookup (standard)

namespace Registry

theorem applierFor?_eq_none_iff (kind : Kind) :
    standard.applierFor? kind = none ↔ Role.ofKind? kind = none := by
  refine ⟨fun unregistered => ?_, applierFor?_eq_none⟩
  cases given : Role.ofKind? kind with
  | none => rfl
  | some role =>
    obtain ⟨a, applier, -⟩ := exists_applierFor? given
    rw [unregistered] at applier
    cases applier

end Registry

namespace Tally

/-- Each of the records at some positions was counted with one outcome, and what was reported of
them is about that record. -/
structure Accounts (t : Tally) (lookup : Lookup) (records : List Record) (positions : List Nat) :
    Prop where
  ascends : positions.Pairwise (· < ·)
  skips_ascend : (t.skips.map (·.position)).Pairwise (· < ·)
  faults_ascend : (t.recordFaults.map (·.position)).Pairwise (· < ·)
  disjoint : ∀ skip ∈ t.skips, ∀ fault ∈ t.recordFaults, skip.position ≠ fault.position
  reports : ∀ report ∈ t.skips ++ t.recordFaults, ∃ position ∈ positions, ∃ r,
    records[position]? = some r ∧ report.position = position ∧ report.kind = some r.kind
  skipped_iff : ∀ position ∈ positions, ∃ r, records[position]? = some r ∧
    ((∃ skip ∈ t.skips, skip.position = position) ↔ lookup r.kind = none)
  skipped_eq : t.skipped = t.skips.length
  faulted_eq : t.faulted = t.recordFaults.length
  total_eq : t.processed + t.skipped + t.faulted = positions.length

variable {entries : List LedgerEntry} {records : List Record} {unclosed : Option Fault}
  {e f : LedgerEntry}

theorem reports_ascend {report? : LedgerEntry → Option Fault}
    (ascends : LedgerEntry.Ascending entries)
    (here : ∀ e report, report? e = some report → report.position = e.position) :
    ((entries.filterMap report?).map (·.position)).Pairwise (· < ·) := by
  refine List.pairwise_map.2 (ascends.filterMap report? ?_)
  intro e later before report reports next reportsNext
  rw [here e report reports, here later next reportsNext]
  exact Int.ofNat_lt.2 before

theorem eq_of_position_eq (ascends : LedgerEntry.Ascending entries)
    (first : e ∈ entries) (second : f ∈ entries) (same : e.position = f.position) : e = f :=
  List.inj_on_of_nodup_map (List.pairwise_map.2 (ascends.imp Nat.ne_of_lt)) first second same

theorem skipped_iff_of_mem (ascends : LedgerEntry.Ascending entries)
    (counts : ∀ e ∈ entries, e.Counts records) (member : e ∈ entries) :
    ∃ r, records[e.position]? = some r ∧
      ((∃ skip ∈ entries.filterMap LedgerEntry.skip?, skip.position = e.position) ↔
        standard r.kind = none) := by
  obtain ⟨r, c, there, -, judged⟩ := counts e member
  refine ⟨r, there, ?_⟩
  rw [Registry.applierFor?_eq_none_iff, ← r.effect_eq_ignored_iff e.position,
    ← Context.verdict_eq_skipped_iff, ← judged]
  constructor
  · rintro ⟨skip, reported, same⟩
    obtain ⟨f, second, reports⟩ := List.mem_filterMap.1 reported
    obtain ⟨skipped, rfl⟩ := LedgerEntry.skip?_eq_some reports
    rw [eq_of_position_eq ascends member second (Int.ofNat.inj same.symm)]
    exact skipped
  · intro skipped
    refine ⟨⟨e.position, some e.kind, .noApplier⟩, List.mem_filterMap.2 ⟨e, member, ?_⟩, rfl⟩
    simp [LedgerEntry.skip?, skipped]

theorem accounts_ofEntries (kindless : ∀ fault ∈ unclosed, fault.kind = none)
    (ascends : LedgerEntry.Ascending entries)
    (counts : ∀ e ∈ entries, e.Counts records) :
    (ofEntries entries unclosed).Accounts standard records (entries.map (·.position)) where
  ascends := List.pairwise_map.2 ascends
  skips_ascend := by
    refine reports_ascend ascends fun e report reports => ?_
    obtain ⟨-, rfl⟩ := LedgerEntry.skip?_eq_some reports
    rfl
  faults_ascend := by
    rw [recordFaults_ofEntries kindless]
    refine reports_ascend ascends fun e report reports => ?_
    obtain ⟨cause, -, rfl⟩ := LedgerEntry.fault?_eq_some reports
    rfl
  disjoint := by
    intro skip member fault member' same
    rw [recordFaults_ofEntries kindless] at member'
    obtain ⟨e, first, reports⟩ := List.mem_filterMap.1 member
    obtain ⟨f, second, reports'⟩ := List.mem_filterMap.1 member'
    obtain ⟨skipped, rfl⟩ := LedgerEntry.skip?_eq_some reports
    obtain ⟨cause, faulted, rfl⟩ := LedgerEntry.fault?_eq_some reports'
    rw [eq_of_position_eq ascends first second (Int.ofNat.inj same), faulted] at skipped
    cases skipped
  reports := by
    intro report member
    rw [recordFaults_ofEntries kindless, List.mem_append, ofEntries, List.mem_filterMap,
      List.mem_filterMap] at member
    have found : ∃ e ∈ entries, report.position = e.position ∧ report.kind = some e.kind := by
      rcases member with ⟨e, member, reports⟩ | ⟨e, member, reports⟩
      · obtain ⟨-, rfl⟩ := LedgerEntry.skip?_eq_some reports
        exact ⟨e, member, rfl, rfl⟩
      · obtain ⟨cause, -, rfl⟩ := LedgerEntry.fault?_eq_some reports
        exact ⟨e, member, rfl, rfl⟩
    obtain ⟨e, member, here, named⟩ := found
    obtain ⟨r, c, there, kind, -⟩ := counts e member
    exact ⟨e.position, List.mem_map_of_mem member, r, there, here, kind ▸ named⟩
  skipped_iff := by
    intro position listed
    obtain ⟨e, member, rfl⟩ := List.mem_map.1 listed
    exact skipped_iff_of_mem ascends counts member
  skipped_eq := rfl
  faulted_eq := by
    rw [recordFaults_ofEntries kindless]
    rfl
  total_eq := (total_ofEntries entries unclosed).trans (List.length_map _).symm

end Tally

namespace Progress
variable {p : Progress} {token : Token}

theorem positions_of_descends (descends : p.context.options.descendScopes = true)
    (completes : (p.run standard token).ending = .ok .completed) :
    p.positions standard token = List.range' p.cursor.position p.cursor.remaining := by
  induction p, token using induction_on_run with
  | cancelled p token stops => simp [run_of_cancelled stops] at completes
  | exhausted p token goes ended =>
    have behind := List.getElem?_eq_none_iff.1 ended
    have nothing : p.cursor.remaining = 0 := Nat.sub_eq_zero_of_le behind
    rw [positions, dispatches_of_exhausted goes ended, nothing]
    rfl
  | step p token r goes found ih =>
    have inside := Cursor.lt_length_of_peek? found
    have moves : (p.next r).cursor.position = p.cursor.position + 1 := by
      simp only [next, descends, Cursor.following_of_descends]
    have left : p.cursor.remaining = (p.next r).cursor.remaining + 1 := by
      rw [Cursor.remaining, Cursor.remaining, moves]
      simp only [next]
      omega
    rw [run_of_peek? goes found] at completes
    have later := ih ((congrArg _ (Context.options_perform _ _)).trans descends) completes
    rw [positions, dispatches_of_peek? goes found, left, List.range'_succ, List.map_cons]
    rw [positions, moves] at later
    rw [later]

end Progress

/-- Every record that is dispatched is counted once, and reported where it was not processed. -/
theorem every_dispatch_has_one_outcome (context : Context) (cursor : Cursor) (token : Token) :
    let start : Progress := { context, cursor }
    let outcome := run standard context cursor token
    let tally := outcome.progress.tally
    let positions := start.positions standard token
    tally.Accounts standard cursor.records positions ∧
    (context.options.descendScopes = true → outcome.ending = .ok .completed →
      positions = List.range' cursor.position cursor.remaining) ∧
    ∃ unclosed : Option Fault,
      tally.faults = tally.recordFaults ++ unclosed.toList ∧
      (unclosed.isSome ↔ outcome.ending = .ok .completed ∧ outcome.progress.context.stack ≠ [] ∧
        outcome.progress.context.options.reportUnclosed = true) ∧
      ∀ fault ∈ unclosed, fault.kind = none ∧ fault.category = .scopeImbalance ∧
        (cursor.position ≤ cursor.records.length → fault.position = cursor.records.length) := by
  intro start outcome tally positions
  obtain ⟨unclosed, tallied, due, report⟩ := start.tally_run rfl token
  have tallied : tally = .ofEntries (start.ledger token) unclosed := tallied
  have kindless : ∀ fault ∈ unclosed, fault.kind = none := fun fault member =>
    (report fault member).1
  refine ⟨?_, @Progress.positions_of_descends start token, unclosed, ?_, due, report⟩
  · have accounts := Tally.accounts_ofEntries kindless (start.ledger_ascends token).1
      fun e => Progress.counts_of_mem_ledger
    rwa [← tallied, Progress.map_position_ledger] at accounts
  · rw [tallied, Tally.recordFaults_ofEntries kindless]
    rfl

/-- A label is passed by, and then a kind without an applier, a block in a section that there
cannot be and another label come up; the frame of the block is open at the end. -/
theorem every_dispatch_has_one_outcome_for_mixed :
    let label : Record := { kind := Kind.label, name := "l" }
    let records : List Record :=
      [label, { kind := 0x7777 }, { kind := Kind.block, sectionIndex := 0x10000 }, label]
    let outcome := run standard {} ⟨records, 1⟩ (.countdown 9)
    let skip : Fault := ⟨1, some 0x7777, .noApplier⟩
    let fault : Fault := ⟨2, some Kind.block, .field (.sectionIndex "section" 0x10000 0)⟩
    let unclosed : Fault := ⟨4, none, .unclosed [⟨.block, ""⟩]⟩
    outcome.progress.tally.Accounts standard records [1, 2, 3] ∧
      outcome.ending = .ok .completed ∧ outcome.progress.tally.skips = [skip] ∧
      outcome.progress.tally.faults = [fault, unclosed] := by
  intro label records outcome skip fault unclosed
  obtain ⟨accounts, complete, -⟩ :=
    every_dispatch_has_one_outcome {} ⟨records, 1⟩ (.countdown 9)
  have completes : outcome.ending = .ok .completed := by decide +kernel
  rw [complete rfl completes] at accounts
  exact ⟨accounts, completes, by decide +kernel, by decide +kernel⟩

end SymbolRecovery
