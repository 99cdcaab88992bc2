import Mathlib.Algebra.Ring.Int.Defs
import SymbolRecovery.Proofs.Framing
import SymbolRecovery.Proofs.Overrun
import SymbolRecovery.Proofs.Registration
import SymbolRecovery.Proofs.Widths

/-!
Numbers that are too long to be shown. A record whose section number or alignment is out of range
and has more digits than a message can hold is not reported: the applier fails, and the run with it.
Main statements: a run of the program is the run in which messages have no limit, or it fails over
the first record of that kind, in the state that the run without a limit has there; and so it comes
to the end of the records exactly if it meets no such record, which files do not hold.
-/
namespace SymbolRecovery
open Lookup (standard)
open Text.IntegerLiteral (decimalLimit)

def Kind.sectioned : List Kind :=
  Kind.procedures ++ [Kind.block, Kind.thunk] ++ Subject.kinds .symbol ++
    [Kind.imageSection, Kind.sectionGroup]

def Role.namesSection : Role → Bool
  | describes .imageSection | describes .sectionGroup | describes .symbol => true
  | opens form => form.addressed
  | _ => false

theorem Kind.mem_sectioned_iff (kind : Kind) :
    kind ∈ sectioned ↔ (Role.ofKind? kind).any Role.namesSection = true := by
  have listed : ∀ kind ∈ sectioned, (Role.ofKind? kind).any Role.namesSection = true := by decide
  have known : ∀ kind ∈ Role.kinds,
      (Role.ofKind? kind).any Role.namesSection = true → kind ∈ sectioned := by decide
  refine ⟨listed kind, fun names => ?_⟩
  obtain ⟨role, given, -⟩ := (Option.any_eq_true _ _).1 names
  exact known kind (Role.mem_kinds_of_ofKind? given) names

def Overlong (value : Int) : Prop := 10 ^ decimalLimit ≤ value.natAbs

theorem Overlong.outside {value : Int} (long : Overlong value) : value < 0 ∨ 0xFFFF < value := by
  have far : 10 ^ 5 ≤ value.natAbs :=
    Nat.le_trans (Nat.pow_le_pow_right (by decide) (by decide)) long
  omega

namespace Record

/-- The number of the section is too long, or that of its alignment where nothing else is wrong. -/
def HasOverlong (r : Record) : Prop :=
  r.truncated = false ∧
    (r.kind ∈ Kind.sectioned ∧ Overlong r.sectionIndex ∨
      r.kind = Kind.imageSection ∧ (1 ≤ r.sectionIndex ∧ r.sectionIndex ≤ 0xFFFF) ∧
        (0 ≤ r.address ∧ r.address ≤ 0xFFFFFFFF) ∧ (0 ≤ r.length ∧ r.length ≤ 0xFFFFFFFF) ∧
        Overlong r.alignment)

variable {r : Record} {position : Nat}

theorem checkSection_eq_overlong {value : Int} {allowZero : Bool} :
    Field.checkSection value "section" allowZero (some decimalLimit) =
      .error (.unprintable decimalLimit) ↔ Overlong value := by
  rw [Field.checkSection_eq_unprintable]
  refine ⟨And.right, fun long => ⟨?_, long⟩⟩
  have outside := long.outside
  cases allowZero <;> simp <;> omega

theorem checkAlignment_eq_overlong {value : Int} :
    Field.checkAlignment value (some decimalLimit) = .error (.unprintable decimalLimit) ↔
      Overlong value := by
  rw [Field.checkAlignment_eq_unprintable]
  refine ⟨And.right, fun long => ⟨?_, long⟩⟩
  have outside := long.outside
  omega

theorem readSection_eq_overlong :
    Subject.readSection r (some decimalLimit) = .error (.unprintable decimalLimit) ↔
      Overlong r.sectionIndex ∨
        (1 ≤ r.sectionIndex ∧ r.sectionIndex ≤ 0xFFFF) ∧
        (0 ≤ r.address ∧ r.address ≤ 0xFFFFFFFF) ∧ (0 ≤ r.length ∧ r.length ≤ 0xFFFFFFFF) ∧
        Overlong r.alignment := by
  simp [Subject.readSection, Field.bind_eq_error, checkSection_eq_overlong,
    checkAlignment_eq_overlong, Field.checkRange_ne_unprintable, Field.checkSection_eq_ok,
    Field.checkRange_eq_ok, pure, Except.pure]

theorem subjectRead_eq_overlong (subject : Subject) :
    subject.read r position (some decimalLimit) = .error (.unprintable decimalLimit) ↔
      match subject with
      | .imageSection =>
        Subject.readSection r (some decimalLimit) = .error (.unprintable decimalLimit)
      | .sectionGroup | .symbol => Overlong r.sectionIndex
      | .objectName | .compiler => False := by
  cases subject with
  | imageSection => exact Field.map_eq_error
  | sectionGroup =>
    simp [Subject.read, Subject.readContribution, Field.map_eq_error, Field.bind_eq_error,
      checkSection_eq_overlong, Field.checkRange_ne_unprintable, pure, Except.pure]
  | symbol =>
    simp [Subject.read, Subject.readSymbol, Field.map_eq_error, Field.bind_eq_error,
      checkSection_eq_overlong, Field.checkRange_ne_unprintable, pure, Except.pure]
  | objectName => simp [Subject.read]
  | compiler => simp [Subject.read]

theorem formRead_eq_overlong (form : ScopeForm) :
    form.read r position (some decimalLimit) = .error (.unprintable decimalLimit) ↔
      form.addressed = true ∧ Overlong r.sectionIndex := by
  unfold ScopeForm.read
  split
  · simp [*, Field.bind_eq_error, checkSection_eq_overlong, Field.checkRange_ne_unprintable, pure,
      Except.pure]
  · simp [*]

theorem error?_of_truncated (early : r.truncated = true) : (r.effect position).error? = none := by
  unfold effect
  cases Role.ofKind? r.kind with
  | none => rfl
  | some role => cases role <;> simp [unlessTruncated, early, Effect.error?]

theorem printable_describes {subject : Subject} {n : Nat} (whole : r.truncated = false)
    (given : Role.ofKind? r.kind = some (.describes subject)) :
    (r.effect position).Printable (some n) ↔
      subject.read r position (some n) ≠ .error (.unprintable n) := by
  rw [(subject.limits r position).ne_unprintable_iff]
  simp only [Effect.Printable, Option.mem_def, error?_describes whole given]

theorem printable_opens {form : ScopeForm} {n : Nat} (whole : r.truncated = false)
    (given : Role.ofKind? r.kind = some (.opens form)) :
    (r.effect position).Printable (some n) ↔
      form.read r position (some n) ≠ .error (.unprintable n) := by
  rw [(form.limits r position).ne_unprintable_iff]
  simp only [Effect.Printable, Option.mem_def, error?_opens whole given]

theorem printable_iff :
    (r.effect position).Printable (some decimalLimit) ↔ ¬ r.HasOverlong := by
  cases early : r.truncated with
  | true => simp [Effect.Printable, error?_of_truncated early, HasOverlong, early]
  | false =>
    unfold HasOverlong
    rw [Kind.mem_sectioned_iff, ← ofKind?_eq_describes_imageSection]
    cases given : Role.ofKind? r.kind with
    | none => simp [Effect.Printable, effect, given, Effect.error?]
    | some role =>
      cases role with
      | closes =>
        simp [Effect.Printable, effect, given, unlessTruncated, early, Effect.error?,
          Role.namesSection]
      | describes subject =>
        rw [printable_describes early given, Ne, not_iff_not, subjectRead_eq_overlong]
        cases subject <;> simp [Role.namesSection, readSection_eq_overlong, early]
      | opens form =>
        rw [printable_opens early given, Ne, not_iff_not, formRead_eq_overlong]
        simp [Role.namesSection, early]

end Record

namespace Applier
variable {a : Applier} {c : Context} {cursor : Cursor} {r : Record} {role : Role}

theorem truncated_of_check (passes : a.check r = .ok ()) : r.truncated = false := by
  unfold check at passes
  split at passes
  · cases passes
  · split at passes
    · cases passes
    · next whole => simpa using whole

theorem apply_of_printable {digits : Option Nat} (unlimited : a.digits = none)
    (given : Role.ofKind? r.kind = some role) (acts : a.action = role.action)
    (printable : (r.effect cursor.position).Printable digits) :
    ({ a with digits } : Applier).apply c cursor r = a.apply c cursor r := by
  have same : ({ a with digits } : Applier).check r = a.check r := rfl
  rw [apply_of_role (a := { a with digits }) acts, apply_of_role acts]
  cases role with
  | describes subject =>
    unfold applyAs applyChange
    rw [same]
    cases checked : a.check r with
    | error cause => rfl
    | ok _ =>
      have whole := truncated_of_check checked
      simp only [Record.subjectRead_of_printable given whole printable, unlimited]
  | opens form =>
    unfold applyAs applyBegin
    rw [same]
    cases checked : a.check r with
    | error cause => cases cause <;> rfl
    | ok _ =>
      have whole := truncated_of_check checked
      simp only [Record.formRead_of_printable given whole printable, unlimited]
  | closes => rfl

theorem apply_of_unprintable {n : Nat} (limited : a.digits = some n) (accepts : r.kind ∈ a.kinds)
    (given : Role.ofKind? r.kind = some role) (acts : a.action = role.action)
    (whole : r.truncated = false) (unprintable : ¬ (r.effect cursor.position).Printable (some n)) :
    a.apply c cursor r =
      { context := c, cursor := cursor.advance, ending := .failure (.unprintable n) } := by
  have passes : a.check r = .ok () := by simp [check, accepts, whole]
  rw [apply_of_role acts]
  cases role with
  | describes subject =>
    have read := not_not.1 (mt (Record.printable_describes whole given).2 unprintable)
    simp [applyAs, applyChange, passes, limited, read]
  | opens form =>
    have read := not_not.1 (mt (Record.printable_opens whole given).2 unprintable)
    simp [applyAs, applyBegin, passes, limited, read]
  | closes =>
    refine absurd ?_ unprintable
    simp [Effect.Printable, Record.effect, given, Record.unlessTruncated, whole, Effect.error?]

end Applier

namespace Registry

theorem lookup_of_applierFor? {registry : Registry} {kind : Kind} {a : Applier}
    (applier : registry.applierFor? kind = some a) :
    registry.lookup kind = some { a with digits := some decimalLimit } := by
  simp [lookup, Lookup.limited, applier]

end Registry

namespace Progress
variable {p q : Progress} {r : Record} {token : Token}

def MeetsOverlong (p : Progress) : Prop := ∃ r ∈ p.cursor.peek?, r.HasOverlong

theorem meetsOverlong_iff (found : p.cursor.peek? = some r) : p.MeetsOverlong ↔ r.HasOverlong := by
  simp [MeetsOverlong, found]

theorem dispatch_lookup (plain : ¬ p.MeetsOverlong) :
    p.dispatch Registry.standard.lookup = p.dispatch standard := by
  cases found : p.cursor.peek? with
  | none => rw [dispatch_exhausted found, dispatch_exhausted found]
  | some r =>
    rw [meetsOverlong_iff found] at plain
    cases given : Role.ofKind? r.kind with
    | none =>
      have without := Registry.applierFor?_eq_none given
      have same : Registry.standard.lookup r.kind = none := by
        simp [Registry.lookup, Lookup.limited, without]
      simp only [dispatch, found, without, same]
    | some role =>
      obtain ⟨a, applier, -, acts⟩ := Registry.exists_applierFor? given
      have limited := Registry.lookup_of_applierFor? applier
      have printable : (r.effect p.cursor.position).Printable (some decimalLimit) :=
        Record.printable_iff.2 plain
      have works := Applier.apply_of_printable (c := p.context)
        (Registry.digits_of_applierFor? applier) given acts printable
      simp only [dispatch, found, limited, applier, works]
      rfl

theorem dispatch_lookup_of_overlong (meets : p.MeetsOverlong) :
    p.dispatch Registry.standard.lookup =
      { progress := { p with cursor := p.cursor.advance }
        failure := some (.unprintable decimalLimit) } := by
  obtain ⟨r, found, long⟩ := meets
  have unprintable : ¬ (r.effect p.cursor.position).Printable (some decimalLimit) :=
    mt Record.printable_iff.1 (not_not.2 long)
  cases given : Role.ofKind? r.kind with
  | none =>
    refine absurd ?_ unprintable
    simp [Effect.Printable, Record.effect, given, Effect.error?]
  | some role =>
    obtain ⟨a, applier, accepts, acts⟩ := Registry.exists_applierFor? given
    have limited := Registry.lookup_of_applierFor? applier
    have works := Applier.apply_of_unprintable (a := { a with digits := some decimalLimit })
      (c := p.context) rfl accepts given acts long.1 unprintable
    simp [dispatch, Option.mem_def.1 found, limited, works]

/-- A run fails over the record of a state, having dispatched only others before it. -/
structure FailsOver (p : Progress) (token : Token) (before : List Progress) (q : Progress) :
    Prop where
  plain : ∀ s ∈ before, ¬ s.MeetsOverlong
  meets : q.MeetsOverlong
  dispatches_eq : p.dispatches Registry.standard.lookup token = before ++ [q]
  visits : before ++ [q] <+: p.dispatches standard token
  ending_eq : (p.run Registry.standard.lookup token).ending = .error (.unprintable decimalLimit)
  progress_eq : (p.run Registry.standard.lookup token).progress =
    { q with cursor := q.cursor.advance }

theorem failsOver_of_meets (goes : token.ask.1 = false) (meets : p.MeetsOverlong) :
    p.FailsOver token [] p := by
  have ⟨r, found, _⟩ := meets
  have step := dispatch_lookup_of_overlong meets
  have fails : (p.dispatch Registry.standard.lookup).failure = some (.unprintable decimalLimit) :=
    congrArg Dispatched.failure step
  have ends := run_of_fails goes fails
  refine ⟨nofun, meets, ?_, ?_, ?_, ?_⟩
  · rw [dispatches_of_fails goes fails]
    simp [isExhausted_of_peek? found]
  · rw [dispatches_of_peek? goes found]
    exact ⟨_, rfl⟩
  · rw [ends]
    rfl
  · rw [ends]
    simp [Failure.endsRun, step]

theorem run_lookup_of_peek? (goes : token.ask.1 = false) (found : p.cursor.peek? = some r)
    (plain : ¬ p.MeetsOverlong) :
    let rest := (p.next r).run Registry.standard.lookup token.ask.2
    p.run Registry.standard.lookup token =
      { rest with notes := (p.dispatch standard).notes ++ rest.notes } := by
  obtain ⟨succeeds, moves, keeps⟩ := dispatch_standard found
  have step := dispatch_lookup plain
  rw [run_of_succeeds goes (step ▸ succeeds)]
  simp [step, moves, keeps]

theorem dispatches_lookup_of_peek? (goes : token.ask.1 = false) (found : p.cursor.peek? = some r)
    (plain : ¬ p.MeetsOverlong) :
    p.dispatches Registry.standard.lookup token =
      p :: (p.next r).dispatches Registry.standard.lookup token.ask.2 := by
  obtain ⟨succeeds, moves, keeps⟩ := dispatch_standard found
  have step := dispatch_lookup plain
  rw [dispatches_of_succeeds goes found (step ▸ succeeds)]
  simp [step, moves, keeps]

theorem FailsOver.cons {before : List Progress} (goes : token.ask.1 = false)
    (found : p.cursor.peek? = some r) (plain : ¬ p.MeetsOverlong)
    (fails : (p.next r).FailsOver token.ask.2 before q) : p.FailsOver token (p :: before) q := by
  refine ⟨List.forall_mem_cons.2 ⟨plain, fails.plain⟩, fails.meets, ?_, ?_, ?_, ?_⟩
  · rw [dispatches_lookup_of_peek? goes found plain, fails.dispatches_eq]
    rfl
  · rw [dispatches_of_peek? goes found]
    exact List.cons_prefix_cons.2 ⟨rfl, fails.visits⟩
  · rw [run_lookup_of_peek? goes found plain]
    exact fails.ending_eq
  · rw [run_lookup_of_peek? goes found plain]
    exact fails.progress_eq

/-- A run that meets no overlong record is the run in which messages have no limit. -/
theorem run_lookup_or_failsOver (p : Progress) (token : Token) :
    (p.run Registry.standard.lookup token = p.run standard token ∧
      p.dispatches Registry.standard.lookup token = p.dispatches standard token ∧
      ∀ q ∈ p.dispatches standard token, ¬ q.MeetsOverlong) ∨
    ∃ before q, p.FailsOver token before q := by
  induction p, token using induction_on_run with
  | cancelled p token stops =>
    simp [run_of_cancelled stops, dispatches_of_cancelled stops]
  | exhausted p token goes ended =>
    simp [run_of_exhausted goes ended, dispatches_of_exhausted goes ended]
  | step p token r goes found ih =>
    by_cases meets : p.MeetsOverlong
    · exact .inr ⟨[], p, failsOver_of_meets goes meets⟩
    · rcases ih with ⟨same, visits, plain⟩ | ⟨before, q, fails⟩
      · refine .inl ⟨?_, ?_, ?_⟩
        · rw [run_lookup_of_peek? goes found meets, run_of_peek? goes found, same]
        · rw [dispatches_lookup_of_peek? goes found meets, dispatches_of_peek? goes found, visits]
        · rw [dispatches_of_peek? goes found]
          exact List.forall_mem_cons.2 ⟨meets, plain⟩
      · exact .inr ⟨p :: before, q, fails.cons goes found meets⟩

theorem after_of_dispatches {n : Nat} (listed : (p.dispatches standard token)[n]? = some q) :
    p.after standard n = some q ∧ ∃ r, q.cursor.peek? = some r := by
  obtain ⟨m, -, -, visits, -⟩ := p.exists_history_run token
  rw [visits, history, List.getElem?_take] at listed
  split at listed
  · exact getElem?_trace.1 listed
  · cases listed

theorem length_dispatches_le (p : Progress) (token : Token) :
    (p.dispatches standard token).length ≤ p.cursor.remaining := by
  obtain ⟨m, -, -, visits, -⟩ := p.exists_history_run token
  rw [visits, history]
  exact Nat.le_trans (List.length_take_le' _ _) p.length_trace_le

theorem FailsOver.reached {before : List Progress} (fails : p.FailsOver token before q) :
    p.after standard before.length = some q := by
  obtain ⟨rest, split⟩ := fails.visits
  have listed : (p.dispatches standard token)[before.length]? = some q := by
    rw [← split]
    simp
  exact (after_of_dispatches listed).1

theorem run_lookup_of_plain (plain : ∀ r ∈ p.cursor.records, ¬ r.HasOverlong) (token : Token) :
    p.run Registry.standard.lookup token = p.run standard token := by
  rcases p.run_lookup_or_failsOver token with ⟨same, -⟩ | ⟨before, q, fails⟩
  · exact same
  · obtain ⟨r, found, long⟩ := fails.meets
    have among := (precedes_after fails.reached).records_eq
    have member : r ∈ q.cursor.records := List.mem_of_getElem? found
    exact absurd long (plain r (among ▸ member))

end Progress

theorem Record.InWidth.not_hasOverlong {r : Record} (kept : r.InWidth) : ¬ r.HasOverlong := by
  have small {value : Int} (within : 0 ≤ value ∧ value ≤ 0xFFFF) : ¬ Overlong value :=
    fun long => by
      have outside := long.outside
      omega
  have octet := kept.alignment
  rintro ⟨-, ⟨-, long⟩ | ⟨-, -, -, -, long⟩⟩
  · exact small kept.sectionIndex long
  · exact small (by omega) long

theorem Record.not_hasOverlong_of_mem_decode {bytes : Bytes} {r : Record}
    (member : r ∈ decode bytes) : ¬ r.HasOverlong := by
  obtain ⟨f, -, rfl⟩ := List.mem_map.1 member
  exact f.inWidth_record.not_hasOverlong

/-- Whatever there is to read is read, and whatever was read is applied to its end. So are records
of any other content, unless an overlong record is met: the run fails over the first one. -/
theorem reading_and_applying_complete_unless_overlong (file : ByteFile) (context : Context)
    (records : List Record) :
    let program := Registry.standard.lookup
    let start : Progress := { context, cursor := { records } }
    let outcome := run program context { records }
    let dispatches := start.dispatches program (.flag false)
    (Record.decodeFile file false).1 = .ok (Record.decode file.rest) ∧
    (run program context { records := Record.decode file.rest }).ending = .ok .completed ∧
    (outcome.ending = .ok .completed ↔ ∀ q ∈ dispatches, ¬ q.MeetsOverlong) ∧
    (outcome.ending = .ok .completed →
      outcome.progress.cursor = ⟨records, records.length⟩) ∧
    (outcome.ending ≠ .ok .completed → ∃ before q, start.FailsOver (.flag false) before q) ∧
    dispatches.length ≤ records.length ∧ outcome.progress.tally.total ≤ records.length ∧
    ∀ fault ∈ outcome.progress.tally.faults, fault.category ≠ .dispatchMismatch := by
  intro program start outcome dispatches
  have readable : (run program context { records := Record.decode file.rest }).ending =
      .ok .completed := by
    let opening : Progress := { context, cursor := { records := Record.decode file.rest } }
    have same := opening.run_lookup_of_plain
      (fun r member => Record.not_hasOverlong_of_mem_decode member) (.flag false)
    exact (congrArg RunOutcome.ending same).trans (run_standard_completes context _).1
  refine ⟨Record.decodeFile_unsigned file, readable, ?_⟩
  have bound := start.length_dispatches_le (.flag false)
  change _ ≤ records.length - 0 at bound
  rcases start.run_lookup_or_failsOver (.flag false) with ⟨same, visits, plain⟩ |
    ⟨before, q, fails⟩
  · obtain ⟨completes, cursor, total, categories⟩ := run_standard_completes context records
    have progress : outcome.progress = (run standard context { records }).progress :=
      (congrArg RunOutcome.progress same :)
    have ends : outcome.ending = .ok .completed := (congrArg RunOutcome.ending same).trans completes
    have visited : dispatches = start.dispatches standard (.flag false) := visits
    rw [visited, progress]
    exact ⟨iff_of_true ends plain, fun _ => cursor, absurd ends, bound, total, categories⟩
  · have ends : outcome.ending = .error (.unprintable decimalLimit) := fails.ending_eq
    have progress : outcome.progress = { q with cursor := q.cursor.advance } := fails.progress_eq
    have visited : dispatches = before ++ [q] := fails.dispatches_eq
    have incomplete : outcome.ending ≠ .ok .completed := by
      rw [ends]
      exact nofun
    have met : ¬ ∀ s ∈ dispatches, ¬ s.MeetsOverlong := fun plain =>
      plain q (visited ▸ List.mem_append_right _ List.mem_cons_self) fails.meets
    have shorter : dispatches.length ≤ records.length :=
      visited ▸ Nat.le_trans fails.visits.length_le bound
    refine ⟨iff_of_false incomplete met, fun ends => absurd ends incomplete,
      fun _ => ⟨before, q, fails⟩, shorter, ?_, ?_⟩
    · have total := Progress.total_after fails.reached
      rw [visited, List.length_append] at shorter
      rw [progress]
      simp only [start, Tally.total] at total ⊢
      omega
    · intro fault member
      rw [progress] at member
      exact Progress.category_of_fault_after fails.reached (by simp [start]) fault member

/-- An end record without a scope, and a begin record whose end would lie before all records. -/
theorem reading_and_applying_complete_of_dangling_end :
    let records : List Record :=
      [{ kind := Kind.scopeEnd, offset := some 0 },
        { kind := Kind.inlineSite, endOffset := -4, offset := some 4 }]
    let options : Options := { descendScopes := false }
    let outcome := run Registry.standard.lookup { options } { records }
    let fault : Fault := ⟨0, some Kind.scopeEnd, .unbalanced Kind.scopeEnd none []⟩
    outcome.ending = .ok .completed ∧ outcome.progress.cursor = ⟨records, 2⟩ ∧
      fault ∈ outcome.progress.tally.faults ∧ fault.category ≠ .dispatchMismatch := by
  intro records options outcome fault
  obtain ⟨-, -, -, cursor, -, -, -, categories⟩ :=
    reading_and_applying_complete_unless_overlong ⟨[], 0⟩ { options } records
  have completes : outcome.ending = .ok .completed := by decide +kernel
  have reported : fault ∈ outcome.progress.tally.faults := by decide +kernel
  exact ⟨completes, cursor completes, reported, categories fault reported⟩

/-- A public symbol in a section whose number is out of range is not reported. -/
theorem run_fails_over_overlong_section :
    let symbol : Record := { kind := Kind.publicSymbol, sectionIndex := 10 ^ 4300 }
    let outcome := run Registry.standard.lookup {} { records := [symbol] }
    outcome.ending = .error (.unprintable 4300) ∧ outcome.progress.tally.total = 0 ∧
      outcome.progress.tally.faults = [] := by
  decide +kernel

end SymbolRecovery
