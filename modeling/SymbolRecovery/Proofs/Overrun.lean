import Mathlib.Data.List.Nodup
import SymbolRecovery.Proofs.Ledger

/-!
Appliers that read on. A custom applier may take as many records as it likes, and where it asks for
one more than there are, the run is over without the record that it was given being counted. Main
statement: a run that comes to the end has counted each record that was handed to an applier, or
skipped for want of one, exactly once, but for one whose applier read past the end; only the last
of them can be such.
-/
namespace SymbolRecovery

namespace Cursor
variable {c : Cursor} {count : Nat}

theorem readAhead_of_le (enough : count ≤ c.remaining) :
    c.readAhead count = (.ok (), { c with position := c.position + count }) := by
  induction count generalizing c with
  | zero => rfl
  | succ count ih =>
    unfold remaining at enough
    have inside : c.position < c.records.length := by omega
    have found : c.peek? = some c.records[c.position] := List.getElem?_eq_getElem inside
    have left : count ≤ ({ c with position := c.position + 1 } : Cursor).remaining := by
      simp only [remaining]
      omega
    have read : c.next = .ok (c.records[c.position], { c with position := c.position + 1 }) := by
      simp [next, peek, found, advance_eq inside, bind, Except.bind, pure, Except.pure]
    simp only [readAhead, read, ih left, Nat.add_assoc, Nat.add_comm 1]

theorem readAhead_of_lt (short : c.remaining < count) :
    ∃ e d, c.readAhead count = (.error e, d) ∧ d.isExhausted = true := by
  induction count generalizing c with
  | zero => exact absurd short (Nat.not_lt_zero _)
  | succ count ih =>
    cases found : c.peek? with
    | none =>
      have read : c.next = .error (.exhausted c.position) := by
        simp [next, peek, found, bind, Except.bind]
      exact ⟨_, c, by rw [readAhead, read], by simpa [isExhausted, peek?] using found⟩
    | some r =>
      have inside := lt_length_of_peek? found
      have read : c.next = .ok (r, { c with position := c.position + 1 }) := by
        simp [next, peek, found, advance_eq inside, bind, Except.bind, pure, Except.pure]
      have left : ({ c with position := c.position + 1 } : Cursor).remaining < count := by
        simp only [remaining] at short ⊢
        omega
      obtain ⟨e, d, reads, ended⟩ := ih left
      exact ⟨e, d, by rw [readAhead, read]; exact reads, ended⟩

end Cursor

namespace Applier

/-- The applier does not say of its own accord that the records are at their end. -/
def LeavesEndToCursor (a : Applier) : Prop :=
  ∀ script, a.action = .custom script → ∀ c cursor failure,
    (script c cursor).ending = .failure failure → failure.endsRun = false

/-- The applier asks for more records than there are. -/
def overruns (a : Applier) (c : Context) (cursor : Cursor) : Bool :=
  match a.action with
  | .custom script => cursor.remaining < (script c cursor).readAhead
  | _ => false

variable {a : Applier} {c : Context} {cursor : Cursor} {r : Record} {failure : Failure}

theorem apply_of_overruns (overrun : a.overruns c cursor = true) :
    ∃ position, (a.apply c cursor r).ending = .failure (.exhausted position) ∧
      (a.apply c cursor r).cursor.isExhausted = true := by
  unfold overruns at overrun
  split at overrun
  · next script acts =>
    obtain ⟨e, d, reads, ended⟩ := Cursor.readAhead_of_lt (of_decide_eq_true overrun)
    simp [apply, acts, applyScript, reads, ended]
  · cases overrun

theorem overruns_of_endsRun (leaves : a.LeavesEndToCursor)
    (ends : (a.apply c cursor r).ending = .failure failure) (stops : failure.endsRun = true) :
    a.overruns c cursor = true := by
  unfold apply at ends
  split at ends
  · next subject acts =>
    unfold applyChange at ends
    split at ends
    · cases ends
    · split at ends <;> cases ends
      cases stops
  · next form acts =>
    unfold applyBegin at ends
    split at ends
    · cases ends
    · cases ends
    · split at ends
      · cases ends
        cases stops
      · cases ends
      · dsimp only at ends
        split at ends <;> cases ends
        cases stops
  · next addressed acts =>
    simp only [applyUnnamedBegin] at ends
    split at ends <;> cases ends
    · cases stops
    · cases addressed <;> cases stops
  · next acts =>
    unfold applyEnd at ends
    split at ends
    · cases ends
    · dsimp only at ends
      split at ends <;> cases ends
  · next acts =>
    simp only [applyLook] at ends
    split at ends <;> cases ends
  · cases ends
    cases stops
  · next script acts =>
    by_cases enough : (script c cursor).readAhead ≤ cursor.remaining
    · simp only [applyScript, Cursor.readAhead_of_le enough] at ends
      rw [leaves script acts c cursor failure ends] at stops
      cases stops
    · simpa [overruns, acts] using Nat.lt_of_not_le enough

end Applier

namespace Progress
variable {lookup : Lookup} {p : Progress} {r : Record} {failure : Failure} {token : Token}

def overruns (lookup : Lookup) (p : Progress) : Bool :=
  p.cursor.peek?.any fun r => (lookup r.kind).any fun a => a.overruns p.context p.cursor

theorem settle_counts (p : Progress) (a : Applier) (r : Record) (work : Applied)
    (cause : Option FaultCause) :
    (p.settle a r work cause).failure = none ∧
      p.tally.CountsOne (p.settle a r work cause).progress.tally := by
  unfold settle
  dsimp only
  split
  · exact ⟨rfl, .inl ⟨rfl, rfl, rfl⟩⟩
  · exact ⟨rfl, .inr (.inr ⟨rfl, rfl, rfl⟩)⟩

variable {a : Applier}

theorem dispatch_of_failure (found : p.cursor.peek? = some r) (applier : lookup r.kind = some a)
    (ends : (a.apply p.context p.cursor r).ending = .failure failure) :
    (p.dispatch lookup).failure = some failure ∧ (p.dispatch lookup).progress.tally = p.tally ∧
      (p.dispatch lookup).progress.cursor = (a.apply p.context p.cursor r).cursor := by
  simp [dispatch, found, applier, ends]

theorem dispatch_cases (lookup : Lookup) (found : p.cursor.peek? = some r) :
    ((p.dispatch lookup).failure = none ∧
      p.tally.CountsOne (p.dispatch lookup).progress.tally) ∨
    ∃ a failure, lookup r.kind = some a ∧
      (a.apply p.context p.cursor r).ending = .failure failure := by
  cases applier : lookup r.kind with
  | none =>
    simp only [dispatch, found, applier]
    exact .inl ⟨rfl, .inr (.inl ⟨rfl, rfl, rfl⟩)⟩
  | some a =>
    cases ends : (a.apply p.context p.cursor r).ending with
    | failure failure => exact .inr ⟨a, failure, rfl, ends⟩
    | done =>
      simp only [dispatch, found, applier, ends]
      exact .inl (p.settle_counts a r _ none)
    | fault cause =>
      simp only [dispatch, found, applier, ends]
      exact .inl (p.settle_counts a r _ (some cause))

theorem overruns_eq (found : p.cursor.peek? = some r) (applier : lookup r.kind = some a) :
    p.overruns lookup = a.overruns p.context p.cursor := by
  simp [overruns, found, applier]

theorem dispatch_of_overruns (overrun : p.overruns lookup = true) :
    ∃ position, (p.dispatch lookup).failure = some (.exhausted position) ∧
      (p.dispatch lookup).progress.tally = p.tally ∧
      (p.dispatch lookup).progress.cursor.isExhausted = true := by
  simp only [overruns, Option.any_eq_true] at overrun
  obtain ⟨r, found, a, applier, overrun⟩ := overrun
  obtain ⟨position, ends, ended⟩ := Applier.apply_of_overruns (r := r) overrun
  obtain ⟨fails, tally, cursor⟩ := dispatch_of_failure found applier ends
  exact ⟨position, fails, tally, cursor ▸ ended⟩

theorem overruns_of_dispatch (leaves : ∀ kind a, lookup kind = some a → a.LeavesEndToCursor)
    (found : p.cursor.peek? = some r) (fails : (p.dispatch lookup).failure = some failure)
    (stops : failure.endsRun = true) : p.overruns lookup = true := by
  rcases dispatch_cases lookup found with ⟨succeeds, -⟩ | ⟨a, other, applier, ends⟩
  · rw [succeeds] at fails
    cases fails
  · rw [(dispatch_of_failure found applier ends).1] at fails
    cases fails
    rw [overruns_eq found applier]
    exact Applier.overruns_of_endsRun (leaves r.kind a applier) ends stops

theorem total_of_succeeds (found : p.cursor.peek? = some r)
    (succeeds : (p.dispatch lookup).failure = none) :
    (p.dispatch lookup).progress.tally.total = p.tally.total + 1 := by
  rcases dispatch_cases lookup found with ⟨-, counted⟩ | ⟨a, failure, applier, ends⟩
  · exact counted.total_eq
  · rw [(dispatch_of_failure found applier ends).1] at succeeds
    cases succeeds

theorem overruns_of_succeeds (succeeds : (p.dispatch lookup).failure = none) :
    p.overruns lookup = false := by
  cases overrun : p.overruns lookup with
  | false => rfl
  | true =>
    obtain ⟨position, fails, -⟩ := dispatch_of_overruns overrun
    rw [succeeds] at fails
    cases fails

theorem endsRun_of_completed (goes : token.ask.1 = false)
    (fails : (p.dispatch lookup).failure = some failure)
    (completes : (p.run lookup token).ending = .ok .completed) :
    let last := (p.dispatch lookup).progress
    failure.endsRun = true ∧ (p.run lookup token).progress = last.report last.unclosed? := by
  rw [run_of_fails goes fails] at completes ⊢
  cases stops : failure.endsRun with
  | true => exact ⟨rfl, rfl⟩
  | false => simp [stops] at completes

theorem dispatches_of_succeeds (goes : token.ask.1 = false) (found : p.cursor.peek? = some r)
    (succeeds : (p.dispatch lookup).failure = none) :
    let step := p.dispatch lookup
    p.dispatches lookup token = p :: step.progress.dispatches lookup
      (if step.cancels then token.ask.2.cancel else token.ask.2) := by
  intro step
  rw [dispatches, calls]
  simp [goes, succeeds, isExhausted_of_peek? found, dispatches, step]

theorem dispatches_of_fails (goes : token.ask.1 = false)
    (fails : (p.dispatch lookup).failure = some failure) :
    p.dispatches lookup token = [p].filter fun q => !q.cursor.isExhausted := by
  rw [dispatches, calls]
  simp [goes, fails]

theorem dispatches_of_completed
    (leaves : ∀ kind a, lookup kind = some a → a.LeavesEndToCursor)
    (completes : (p.run lookup token).ending = .ok .completed) :
    (p.run lookup token).progress.cursor.isExhausted = true ∧
    ∃ (counted : List Progress) (last : Option Progress),
      p.dispatches lookup token = counted ++ last.toList ∧
      (p.run lookup token).progress.tally.total = p.tally.total + counted.length ∧
      (∀ q ∈ counted, q.overruns lookup = false) ∧ ∀ q ∈ last, q.overruns lookup = true := by
  induction p, token using calls.induct lookup with
  | case1 p token asked stops =>
    rw [run_of_cancelled stops] at completes
    cases completes
  | case2 p token asked goes step succeeds ih =>
    have goes : token.ask.1 = false := by simpa using goes
    have found : ∃ r, p.cursor.peek? = some r := by
      cases found : p.cursor.peek? with
      | none => simp [step, dispatch_exhausted found] at succeeds
      | some r => exact ⟨r, rfl⟩
    obtain ⟨r, found⟩ := found
    have onward := run_of_succeeds goes succeeds
    rw [onward] at completes
    obtain ⟨ended, counted, last, split, total, within, beyond⟩ := ih completes
    have counts : step.progress.tally.total = p.tally.total + 1 := total_of_succeeds found succeeds
    rw [onward]
    refine ⟨ended, p :: counted, last, ?_, ?_, ?_, beyond⟩
    · rw [dispatches_of_succeeds goes found succeeds]
      exact congrArg (p :: ·) split
    · rw [List.length_cons]
      refine total.trans ?_
      rw [counts]
      omega
    · exact List.forall_mem_cons.2 ⟨overruns_of_succeeds succeeds, within⟩
  | case3 p token asked goes step fails =>
    have goes : token.ask.1 = false := by simpa using goes
    obtain ⟨failure, fails⟩ := Option.ne_none_iff_exists'.1 fails
    obtain ⟨ends, progress⟩ := endsRun_of_completed goes fails completes
    rw [progress, cursor_report, total_report, dispatches_of_fails goes fails]
    cases found : p.cursor.peek? with
    | none =>
      have ended := isExhausted_iff.2 found
      rw [dispatch_exhausted found]
      exact ⟨ended, [], none, by simp [ended], rfl, by simp, by simp⟩
    | some r =>
      have overrun := overruns_of_dispatch leaves found fails ends
      obtain ⟨position, -, tally, ended⟩ := dispatch_of_overruns overrun
      refine ⟨ended, [], some p, ?_, by rw [tally]; rfl, by simp, by simp [overrun]⟩
      simp [isExhausted_of_peek? found]

end Progress

/-- A run that comes to the end has counted every record once that it came to, unless the applier
of the last one asked for more records than there are. -/
theorem completed_run_counts_unless_overrun (lookup : Lookup) (context : Context) (cursor : Cursor)
    (token : Token) (leaves : ∀ kind a, lookup kind = some a → a.LeavesEndToCursor)
    (completes : (run lookup context cursor token).ending = .ok .completed) :
    let start : Progress := { context, cursor }
    let outcome := run lookup context cursor token
    let tally := outcome.progress.tally
    let dispatches := start.dispatches lookup token
    outcome.progress.cursor.isExhausted = true ∧
    (tally.processed + tally.skipped + tally.faulted = dispatches.length ↔
      ∀ q ∈ dispatches, q.overruns lookup = false) ∧
    ∃ (counted : List Progress) (last : Option Progress), dispatches = counted ++ last.toList ∧
      tally.processed + tally.skipped + tally.faulted = counted.length ∧
      (∀ q ∈ counted, q.overruns lookup = false) ∧ ∀ q ∈ last, q.overruns lookup = true := by
  intro start outcome tally dispatches
  obtain ⟨ended, counted, last, split, total, within, beyond⟩ :=
    Progress.dispatches_of_completed (p := start) leaves completes
  have total : tally.total = counted.length := by
    rw [← Nat.zero_add counted.length]
    exact total
  refine ⟨ended, ?_, counted, last, split, total, within, beyond⟩
  change tally.total = _ ↔ _
  rw [total, show dispatches = counted ++ last.toList from split]
  cases last with
  | none => simpa using within
  | some q => simp [beyond q rfl]

def Lookup.pairs : Lookup := fun kind =>
  if kind = Kind.publicSymbol then
    some {
      name := "PairApplier", kinds := [Kind.publicSymbol]
      action := .custom fun _ _ => { readAhead := 2 } }
  else none

theorem leavesEndToCursor_pairs (kind : Kind) (a : Applier)
    (applier : Lookup.pairs kind = some a) : a.LeavesEndToCursor := by
  unfold Lookup.pairs at applier
  split at applier
  · cases applier
    rintro script acts c cursor failure ends
    cases acts
    cases ends
  · cases applier

/-- Of two symbols none is left over, and both are behind the one that is counted. -/
theorem completed_run_counts_unless_overrun_of_pair :
    let symbol : Record := { kind := Kind.publicSymbol, name := "p" }
    let records : List Record := [{ kind := 0x7777 }, symbol, symbol]
    let start : Progress := { context := {}, cursor := { records } }
    let outcome := run Lookup.pairs {} start.cursor
    let dispatches := start.dispatches Lookup.pairs (.flag false)
    (∀ kind a, Lookup.pairs kind = some a → a.LeavesEndToCursor) ∧
      outcome.ending = .ok .completed ∧ outcome.progress.cursor.isExhausted = true ∧
      dispatches.length = 2 ∧ outcome.progress.tally.total = 2 := by
  intro symbol records start outcome dispatches
  have completes : outcome.ending = .ok .completed := by decide +kernel
  obtain ⟨ended, counted, -⟩ := completed_run_counts_unless_overrun Lookup.pairs {} start.cursor
    (.flag false) leavesEndToCursor_pairs completes
  have length : dispatches.length = 2 := by decide +kernel
  have enough : (dispatches.all fun q => !q.overruns Lookup.pairs) = true := by decide +kernel
  have within : ∀ q ∈ dispatches, q.overruns Lookup.pairs = false := by
    simpa [List.all_eq_true] using enough
  exact ⟨leavesEndToCursor_pairs, completes, ended, length, (counted.2 within).trans length⟩

/-- A single symbol is handed to an applier that takes two, and the run completes without it. -/
theorem record_not_counted_on_overrun :
    let symbol : Record := { kind := Kind.publicSymbol, name := "p" }
    let start : Progress := { context := {}, cursor := { records := [symbol] } }
    let outcome := run Lookup.pairs {} start.cursor
    let tally := outcome.progress.tally
    (∀ kind a, Lookup.pairs kind = some a → a.LeavesEndToCursor) ∧
      outcome.ending = .ok .completed ∧ outcome.progress.cursor.isExhausted = true ∧
      (start.dispatches Lookup.pairs (.flag false)).length = 1 ∧
      tally.processed + tally.skipped + tally.faulted = 0 := by
  intro symbol start outcome tally
  refine ⟨leavesEndToCursor_pairs, ?_, ?_, ?_, ?_⟩ <;> decide +kernel

end SymbolRecovery
