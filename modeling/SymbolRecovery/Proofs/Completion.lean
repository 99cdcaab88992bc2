import SymbolRecovery.Proofs.Trace

/-!
Nothing that a record asks for ends a run. Main statement: where messages have no limit, applying
records of any content to any context goes on to their end, without a failure and without a fault
of the appliers themselves; no more records are counted than there are.
-/
namespace SymbolRecovery
open Lookup (standard)

namespace Record
variable {r : Record} {position : Nat} {cause : FaultCause}

theorem category_of_unlessTruncated {α : Type} {read : Except FieldError α}
    (fails : r.unlessTruncated read = .error cause) : cause.category = .malformedField := by
  unfold unlessTruncated at fails
  split at fails
  · cases fails
    rfl
  · cases read with
    | error e =>
      cases fails
      rfl
    | ok value => cases fails

theorem category_of_refused (refused : r.effect position = .refused cause) :
    cause.category = .malformedField := by
  unfold effect at refused
  split at refused
  · cases refused
  · split at refused
    · next fails =>
      cases refused
      exact category_of_unlessTruncated fails
    · cases refused
  · split at refused <;> cases refused
  · split at refused
    · next fails =>
      cases refused
      exact category_of_unlessTruncated fails
    · cases refused

theorem category_of_holds {form : ScopeForm} {placeholder : Scope}
    (holds : r.effect position = .holds form placeholder cause) :
    cause.category = .malformedField := by
  unfold effect at holds
  split at holds
  · cases holds
  · split at holds <;> cases holds
  · split at holds
    · next fails =>
      cases holds
      exact category_of_unlessTruncated fails
    · cases holds
  · split at holds <;> cases holds

end Record

theorem Context.category_of_imbalance? {c : Context} {kind : Kind} {cause : FaultCause}
    (unbalanced : c.imbalance? kind = some cause) : cause.category = .scopeImbalance := by
  simp only [imbalance?] at unbalanced
  split at unbalanced
  · cases unbalanced
  · cases unbalanced
    rfl

theorem Context.category_of_verdict {c : Context} {r : Record} {position : Nat}
    {cause : FaultCause} (faulted : (c.verdict (r.effect position)).cause? = some cause) :
    cause.category = .malformedField ∨ cause.category = .scopeImbalance := by
  cases asks : r.effect position with
  | ignored => simp [asks, verdict, Verdict.cause?] at faulted
  | describes change => simp [asks, verdict, Verdict.cause?] at faulted
  | opens form s endOffset => simp [asks, verdict, Verdict.cause?] at faulted
  | refused other =>
    rw [asks] at faulted
    cases faulted
    exact .inl (Record.category_of_refused asks)
  | holds form placeholder other =>
    rw [asks] at faulted
    cases faulted
    exact .inl (Record.category_of_holds asks)
  | closes kind =>
    rw [asks, verdict] at faulted
    split at faulted
    · cases faulted
    · next unbalanced =>
      cases faulted
      exact .inr (category_of_imbalance? unbalanced)

namespace Progress
variable {p q : Progress} {n : Nat}

theorem position_after_le (reached : p.after standard n = some q)
    (start : p.cursor.position ≤ p.cursor.records.length) :
    q.cursor.position ≤ q.cursor.records.length := by
  refine after_keeps (motive := fun q => q.cursor.position ≤ q.cursor.records.length) ?_ reached
    start
  intro s r found within
  exact Cursor.following_le_length (Cursor.lt_length_of_peek? found) _ _

theorem cursor_of_exhausted (reached : p.after standard n = some q)
    (ended : q.cursor.peek? = none) (start : p.cursor.position ≤ p.cursor.records.length) :
    q.cursor = ⟨p.cursor.records, p.cursor.records.length⟩ := by
  have same := (precedes_after reached).records_eq
  have within := position_after_le reached start
  have behind := List.getElem?_eq_none_iff.1 ended
  rw [same] at within behind
  exact Cursor.ext same (Nat.le_antisymm within behind)

theorem category_of_fault_after (reached : p.after standard n = some q)
    (start : ∀ fault ∈ p.tally.faults, fault.category ≠ .dispatchMismatch) :
    ∀ fault ∈ q.tally.faults, fault.category ≠ .dispatchMismatch := by
  refine after_keeps (motive := fun q => ∀ fault ∈ q.tally.faults,
    fault.category ≠ .dispatchMismatch) ?_ reached start
  intro s r _ categories fault member
  rw [faults_next] at member
  rcases List.mem_append.1 member with old | new
  · exact categories fault old
  · obtain ⟨cause, faulted, rfl⟩ := Option.map_eq_some_iff.1 (Option.mem_toList.1 new)
    change cause.category ≠ .dispatchMismatch
    rcases Context.category_of_verdict faulted with malformed | unbalanced
    · simp [malformed]
    · simp [unbalanced]

theorem category_of_unclosed? {fault : Fault} (due : p.unclosed? = some fault) :
    fault.category = .scopeImbalance := by
  unfold unclosed? at due
  split at due
  · cases due
    rfl
  · cases due

end Progress

/-- Where messages have no limit, records of any content are applied to their end. -/
theorem run_standard_completes (context : Context) (records : List Record) :
    let outcome := run standard context { records }
    outcome.ending = .ok .completed ∧ outcome.progress.cursor = ⟨records, records.length⟩ ∧
    outcome.progress.tally.total ≤ records.length ∧
    ∀ fault ∈ outcome.progress.tally.faults, fault.category ≠ .dispatchMismatch := by
  intro outcome
  let start : Progress := { context, cursor := { records } }
  obtain ⟨last, reached, ended, ends, completes⟩ := Progress.run_uncancelled start
  have progress : outcome.progress = last.report last.unclosed? := ends
  refine ⟨completes, ?_, ?_, ?_⟩
  · rw [progress, Progress.cursor_report]
    exact Progress.cursor_of_exhausted reached ended (Nat.zero_le _)
  · rw [progress, Progress.total_report, Progress.total_after reached]
    have bound := start.length_trace_le
    simp only [start, Cursor.remaining] at bound ⊢
    simpa [Tally.total] using bound
  · intro fault member
    rw [progress, Progress.tally_report] at member
    rcases List.mem_append.1 member with counted | due
    · exact Progress.category_of_fault_after reached (by simp [start]) fault counted
    · rw [Progress.category_of_unclosed? (Option.mem_toList.1 due)]
      simp

end SymbolRecovery
