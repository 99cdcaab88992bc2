import SymbolRecovery.Proofs.Completion

/-!
What a run makes of the records that it comes to. The ledger of a run has an entry for every record
that is dispatched, with the way it was counted. Main statements: the entries lie at ascending
positions, each about the record there; and the counts and the reports of a run are those of its
ledger, beside which only the scopes that are open at the end of the records are reported.
-/
namespace SymbolRecovery
open Lookup (standard)

structure LedgerEntry where
  position : Nat
  kind : Kind
  verdict : Verdict
deriving Repr, DecidableEq

namespace LedgerEntry

def skip? (e : LedgerEntry) : Option Fault :=
  if e.verdict = .skipped then some ⟨e.position, some e.kind, .noApplier⟩ else none

def fault? (e : LedgerEntry) : Option Fault :=
  e.verdict.cause?.map fun cause => ⟨e.position, some e.kind, cause⟩

variable {e : LedgerEntry} {report : Fault}

theorem skip?_eq_some (reports : e.skip? = some report) :
    e.verdict = .skipped ∧ report = ⟨e.position, some e.kind, .noApplier⟩ := by
  unfold skip? at reports
  split at reports
  · next skipped =>
    cases reports
    exact ⟨skipped, rfl⟩
  · cases reports

theorem fault?_eq_some (reports : e.fault? = some report) :
    ∃ cause, e.verdict = .faulted cause ∧ report = ⟨e.position, some e.kind, cause⟩ := by
  obtain ⟨cause, faulted, rfl⟩ := Option.map_eq_some_iff.1 reports
  cases judged : e.verdict with
  | skipped => simp [judged, Verdict.cause?] at faulted
  | processed => simp [judged, Verdict.cause?] at faulted
  | faulted other =>
    simp only [judged, Verdict.cause?, Option.some.injEq] at faulted
    exact ⟨cause, by rw [faulted], rfl⟩

def Ascending (entries : List LedgerEntry) : Prop :=
  entries.Pairwise fun e later => e.position < later.position

def Counts (e : LedgerEntry) (records : List Record) : Prop :=
  ∃ r, ∃ c : Context, records[e.position]? = some r ∧ e.kind = r.kind ∧
    e.verdict = c.verdict (r.effect e.position)

end LedgerEntry

namespace Tally

def enter (t : Tally) (e : LedgerEntry) : Tally := t.count e.position e.kind e.verdict

def recordFaults (t : Tally) : List Fault := t.faults.filter (·.kind.isSome)

def ofEntries (entries : List LedgerEntry) (unclosed : Option Fault) : Tally where
  processed := entries.countP (·.verdict = .processed)
  skipped := (entries.filterMap LedgerEntry.skip?).length
  faulted := (entries.filterMap LedgerEntry.fault?).length
  faults := entries.filterMap LedgerEntry.fault? ++ unclosed.toList
  skips := entries.filterMap LedgerEntry.skip?

theorem foldl_enter (t : Tally) (entries : List LedgerEntry) :
    entries.foldl enter t =
      { processed := t.processed + (ofEntries entries none).processed
        skipped := t.skipped + (ofEntries entries none).skipped
        faulted := t.faulted + (ofEntries entries none).faulted
        faults := t.faults ++ (ofEntries entries none).faults
        skips := t.skips ++ (ofEntries entries none).skips } := by
  induction entries generalizing t with
  | nil => simp [ofEntries]
  | cons e rest ih =>
    obtain ⟨position, kind, verdict⟩ := e
    rw [List.foldl_cons, ih]
    cases verdict <;>
      simp [enter, count, addSkip, addProcessed, addFault, ofEntries, LedgerEntry.skip?,
        LedgerEntry.fault?, Verdict.cause?, List.filterMap_cons] <;> omega

theorem total_ofEntries (entries : List LedgerEntry) (unclosed : Option Fault) :
    (ofEntries entries unclosed).total = entries.length := by
  induction entries with
  | nil => rfl
  | cons e rest ih =>
    obtain ⟨position, kind, verdict⟩ := e
    simp only [total, ofEntries] at ih ⊢
    cases verdict <;>
      simp [LedgerEntry.skip?, LedgerEntry.fault?, Verdict.cause?, List.filterMap_cons] <;> omega

variable {entries : List LedgerEntry} {unclosed : Option Fault}

theorem filter_faults_ofEntries {sort : Fault → Bool}
    (elsewhere : ∀ fault ∈ unclosed, sort fault = false) :
    (ofEntries entries unclosed).faults.filter sort =
      entries.filterMap fun e => e.fault?.filter sort := by
  have dropped : unclosed.toList.filter sort = [] := by
    refine List.filter_eq_nil_iff.2 fun fault member => ?_
    simp [elsewhere fault (Option.mem_toList.1 member)]
  rw [ofEntries, List.filter_append, dropped, List.append_nil, List.filter_filterMap]

theorem recordFaults_ofEntries (kindless : ∀ fault ∈ unclosed, fault.kind = none) :
    (ofEntries entries unclosed).recordFaults = entries.filterMap LedgerEntry.fault? := by
  rw [recordFaults, filter_faults_ofEntries fun fault member => by simp [kindless fault member]]
  congr 1
  funext e
  cases reports : e.fault? with
  | none => rfl
  | some fault =>
    obtain ⟨cause, -, rfl⟩ := LedgerEntry.fault?_eq_some reports
    rfl

end Tally

namespace Progress
variable {p q : Progress} {r : Record} {token : Token} {lookup : Lookup} {e : LedgerEntry}

def calls (lookup : Lookup) (p : Progress) (token : Token) : List Progress :=
  let asked := token.ask
  if asked.1 then []
  else
    let step := p.dispatch lookup
    if _succeeds : step.failure = none then
      p :: step.progress.calls lookup (if step.cancels then asked.2.cancel else asked.2)
    else [p]
termination_by p.cursor.remaining
decreasing_by exact dispatch_remaining_lt _succeeds

/-- The states in which a run dispatches a record. -/
def dispatches (lookup : Lookup) (p : Progress) (token : Token) : List Progress :=
  (p.calls lookup token).filter fun q => !q.cursor.isExhausted

def positions (lookup : Lookup) (p : Progress) (token : Token) : List Nat :=
  (p.dispatches lookup token).map (·.cursor.position)

def entry (p : Progress) (r : Record) : LedgerEntry :=
  ⟨p.cursor.position, r.kind, p.context.verdict (r.effect p.cursor.position)⟩

def ledger (p : Progress) (token : Token) : List LedgerEntry :=
  (p.dispatches standard token).filterMap fun q => q.cursor.peek?.map q.entry

theorem isExhausted_of_peek? (found : p.cursor.peek? = some r) : p.cursor.isExhausted = false := by
  have inside := Cursor.lt_length_of_peek? found
  simpa [Cursor.isExhausted] using inside

theorem isExhausted_iff : p.cursor.isExhausted = true ↔ p.cursor.peek? = none := by
  simp [Cursor.isExhausted, Cursor.peek?]

theorem calls_of_cancelled (stops : token.ask.1 = true) : p.calls lookup token = [] := by
  rw [calls]
  simp [stops]

theorem dispatches_of_cancelled (stops : token.ask.1 = true) : p.dispatches lookup token = [] := by
  rw [dispatches, calls_of_cancelled stops, List.filter_nil]

theorem dispatches_of_peek? (goes : token.ask.1 = false) (found : p.cursor.peek? = some r) :
    p.dispatches standard token = p :: (p.next r).dispatches standard token.ask.2 := by
  obtain ⟨succeeds, moves, keeps⟩ := dispatch_standard found
  rw [dispatches, calls]
  simp [goes, succeeds, moves, keeps, isExhausted_of_peek? found, dispatches]

theorem dispatches_of_exhausted (goes : token.ask.1 = false) (ended : p.cursor.peek? = none) :
    p.dispatches lookup token = [] := by
  rw [dispatches, calls]
  simp [goes, dispatch_exhausted ended, isExhausted_iff.2 ended]

theorem ledger_of_cancelled (stops : token.ask.1 = true) : p.ledger token = [] := by
  rw [ledger, dispatches_of_cancelled stops, List.filterMap_nil]

theorem ledger_of_peek? (goes : token.ask.1 = false) (found : p.cursor.peek? = some r) :
    p.ledger token = p.entry r :: (p.next r).ledger token.ask.2 := by
  rw [ledger, dispatches_of_peek? goes found, List.filterMap_cons, found]
  rfl

theorem ledger_of_exhausted (goes : token.ask.1 = false) (ended : p.cursor.peek? = none) :
    p.ledger token = [] := by
  rw [ledger, dispatches_of_exhausted goes ended, List.filterMap_nil]

/-- What holds of a run that is cancelled at once or finds no record, and is handed back over a
record, holds of every run. -/
theorem induction_on_run {motive : Progress → Token → Prop}
    (cancelled : ∀ p token, token.ask.1 = true → motive p token)
    (exhausted : ∀ p token, token.ask.1 = false → p.cursor.peek? = none → motive p token)
    (step : ∀ p token r, token.ask.1 = false → p.cursor.peek? = some r →
      motive (p.next r) token.ask.2 → motive p token) : ∀ p token, motive p token := by
  intro p
  induction p using induction_on_records with
  | exhausted p ended =>
    intro token
    cases asked : token.ask.1 with
    | true => exact cancelled p token asked
    | false => exact exhausted p token asked ended
  | step p r found ih =>
    intro token
    cases asked : token.ask.1 with
    | true => exact cancelled p token asked
    | false => exact step p token r asked found (ih token.ask.2)

theorem map_position_ledger (p : Progress) (token : Token) :
    (p.ledger token).map (·.position) = p.positions standard token := by
  induction p, token using induction_on_run with
  | cancelled p token stops =>
    rw [ledger_of_cancelled stops, positions, dispatches_of_cancelled stops]
    rfl
  | exhausted p token goes ended =>
    rw [ledger_of_exhausted goes ended, positions, dispatches_of_exhausted goes ended]
    rfl
  | step p token r goes found ih =>
    rw [ledger_of_peek? goes found, positions, dispatches_of_peek? goes found, List.map_cons,
      List.map_cons, ih]
    rfl

theorem ledger_ascends (p : Progress) (token : Token) :
    LedgerEntry.Ascending (p.ledger token) ∧
      ∀ e ∈ p.ledger token, p.cursor.position ≤ e.position := by
  induction p, token using induction_on_run with
  | cancelled p token stops => simp [ledger_of_cancelled stops, LedgerEntry.Ascending]
  | exhausted p token goes ended => simp [ledger_of_exhausted goes ended, LedgerEntry.Ascending]
  | step p token r goes found ih =>
    obtain ⟨ascends, behind⟩ := ih
    have forwards : p.cursor.position < (p.next r).cursor.position := p.cursor.lt_following _ _
    have later : ∀ e ∈ (p.next r).ledger token.ask.2, p.cursor.position < e.position :=
      fun e member => Nat.lt_of_lt_of_le forwards (behind e member)
    rw [ledger_of_peek? goes found]
    refine ⟨List.pairwise_cons.2 ⟨later, ascends⟩, fun e member => ?_⟩
    rcases List.mem_cons.1 member with rfl | member
    · exact Nat.le_refl _
    · exact Nat.le_of_lt (later e member)

theorem counts_of_mem_ledger (member : e ∈ p.ledger token) : e.Counts p.cursor.records := by
  induction p, token using induction_on_run with
  | cancelled p token stops => simp [ledger_of_cancelled stops] at member
  | exhausted p token goes ended => simp [ledger_of_exhausted goes ended] at member
  | step p token r goes found ih =>
    rw [ledger_of_peek? goes found] at member
    rcases List.mem_cons.1 member with rfl | member
    · exact ⟨r, p.context, found, rfl, rfl⟩
    · exact ih member

theorem unclosed?_eq_some {fault : Fault} (due : p.unclosed? = some fault) :
    fault.kind = none ∧ fault.category = .scopeImbalance ∧ fault.position = p.cursor.position := by
  unfold unclosed? at due
  split at due
  · cases due
    exact ⟨rfl, rfl, rfl⟩
  · cases due

theorem isSome_unclosed?_iff :
    p.unclosed?.isSome ↔ p.context.stack ≠ [] ∧ p.context.options.reportUnclosed = true := by
  unfold unclosed?
  split
  · next due => simp [due]
  · next none => simpa [and_comm] using none

theorem run_ledger (p : Progress) (token : Token) :
    let outcome := p.run standard token
    ∃ q unclosed, p.after standard (p.ledger token).length = some q ∧
      q.tally = (p.ledger token).foldl Tally.enter p.tally ∧
      outcome.progress = q.report unclosed ∧
      (outcome.ending = .ok .cancelled ∧ unclosed = none ∨
        outcome.ending = .ok .completed ∧ q.cursor.peek? = none ∧ unclosed = q.unclosed?) := by
  induction p, token using induction_on_run with
  | cancelled p token stops =>
    rw [ledger_of_cancelled stops, run_of_cancelled stops]
    exact ⟨p, none, rfl, rfl, rfl, .inl ⟨rfl, rfl⟩⟩
  | exhausted p token goes ended =>
    rw [ledger_of_exhausted goes ended, run_of_exhausted goes ended]
    exact ⟨p, p.unclosed?, rfl, rfl, rfl, .inr ⟨rfl, ended, rfl⟩⟩
  | step p token r goes found ih =>
    obtain ⟨q, unclosed, reached, counted, ends⟩ := ih
    rw [ledger_of_peek? goes found, run_of_peek? goes found, List.length_cons,
      after_succ_of_peek? found]
    exact ⟨q, unclosed, reached, counted, ends⟩

theorem exists_history_run (p : Progress) (token : Token) :
    ∃ n q, p.after standard n = some q ∧ p.dispatches standard token = p.history n ∧
      (p.run standard token).progress.context = q.context := by
  induction p, token using induction_on_run with
  | cancelled p token stops =>
    rw [dispatches_of_cancelled stops, run_of_cancelled stops]
    exact ⟨0, p, rfl, rfl, rfl⟩
  | exhausted p token goes ended =>
    rw [dispatches_of_exhausted goes ended, run_of_exhausted goes ended]
    exact ⟨0, p, rfl, rfl, context_report p p.unclosed?⟩
  | step p token r goes found ih =>
    obtain ⟨n, q, reached, visits, same⟩ := ih
    rw [dispatches_of_peek? goes found, run_of_peek? goes found, visits]
    refine ⟨n + 1, q, ?_, ?_, same⟩
    · rw [after_succ_of_peek? found, reached]
    · rw [history, history, trace_of_peek? found, List.take_succ_cons]

theorem tally_run (fresh : p.tally = {}) (token : Token) :
    let outcome := p.run standard token
    ∃ unclosed : Option Fault,
      outcome.progress.tally = .ofEntries (p.ledger token) unclosed ∧
      (unclosed.isSome ↔ outcome.ending = .ok .completed ∧ outcome.progress.context.stack ≠ [] ∧
        outcome.progress.context.options.reportUnclosed = true) ∧
      ∀ fault ∈ unclosed, fault.kind = none ∧ fault.category = .scopeImbalance ∧
        (p.cursor.position ≤ p.cursor.records.length →
          fault.position = p.cursor.records.length) := by
  intro outcome
  obtain ⟨q, unclosed, reached, counted, progress, ends⟩ := p.run_ledger token
  refine ⟨unclosed, ?_, ?_, ?_⟩
  · rw [progress, tally_report, counted, fresh, Tally.foldl_enter]
    simp [Tally.ofEntries]
  · rw [progress, context_report]
    rcases ends with ⟨cancelled, rfl⟩ | ⟨completed, -, rfl⟩
    · simp [outcome, cancelled]
    · simp [outcome, completed, isSome_unclosed?_iff]
  · rcases ends with ⟨-, rfl⟩ | ⟨-, ended, rfl⟩
    · simp
    · intro fault due
      obtain ⟨kind, category, position⟩ := unclosed?_eq_some due
      refine ⟨kind, category, fun start => ?_⟩
      rw [position, cursor_of_exhausted reached ended start]

end Progress

end SymbolRecovery
