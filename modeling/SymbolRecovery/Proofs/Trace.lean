import SymbolRecovery.Proofs.Scopes
import SymbolRecovery.Run

/-!
Runs step by step. `after` is the state that a number of steps leads to, and `trace` lists the
states in which a run that nobody cancels dispatches a record. Main statements: such a run ends in
the state after its last step, with the scopes that are still open reported; and a run with a
countdown ends early, in the state after as many steps as the limit says, exactly if the trace is
not shorter than that.
-/
namespace SymbolRecovery

def Tally.total (t : Tally) : Nat := t.processed + t.skipped + t.faulted

def Tally.CountsOne (t u : Tally) : Prop :=
  (u.processed = t.processed + 1 ∧ u.skipped = t.skipped ∧ u.faulted = t.faulted) ∨
  (u.processed = t.processed ∧ u.skipped = t.skipped + 1 ∧ u.faulted = t.faulted) ∨
  (u.processed = t.processed ∧ u.skipped = t.skipped ∧ u.faulted = t.faulted + 1)

theorem Tally.CountsOne.total_eq {t u : Tally} (counted : t.CountsOne u) :
    u.total = t.total + 1 := by
  unfold total
  rcases counted with ⟨processed, skipped, faulted⟩ | ⟨processed, skipped, faulted⟩ |
    ⟨processed, skipped, faulted⟩ <;> omega

@[simp] theorem Tally.total_count (t : Tally) (position : Nat) (kind : Kind) (verdict : Verdict) :
    (t.count position kind verdict).total = t.total + 1 := by
  cases verdict <;> simp only [total, count, addSkip, addProcessed, addFault] <;> omega

/-- The appliers of the program where messages have no limit. -/
abbrev Lookup.standard : Lookup := Registry.standard.applierFor?

namespace Progress
open Lookup (standard)

def after (lookup : Lookup) : Progress → Nat → Option Progress
  | p, 0 => some p
  | p, n + 1 =>
    let step := p.dispatch lookup
    if step.failure = none then after lookup step.progress n else none

/-- The states in which a record is dispatched when nobody cancels. -/
def trace (lookup : Lookup) (p : Progress) : List Progress :=
  if _succeeds : (p.dispatch lookup).failure = none then
    p :: (p.dispatch lookup).progress.trace lookup
  else []
termination_by p.cursor.remaining
decreasing_by exact dispatch_remaining_lt _succeeds

variable {p q : Progress} {r : Record} {n : Nat}

theorem next_remaining_lt (found : p.cursor.peek? = some r) :
    (p.next r).cursor.remaining < p.cursor.remaining := by
  have inside := Cursor.lt_length_of_peek? found
  have moved := p.cursor.lt_following p.context.options.descendScopes
    (r.effect p.cursor.position)
  simp only [next, Cursor.remaining]
  omega

theorem induction_on_records {motive : Progress → Prop}
    (exhausted : ∀ p, p.cursor.peek? = none → motive p)
    (step : ∀ p r, p.cursor.peek? = some r → motive (p.next r) → motive p) : ∀ p, motive p := by
  intro p
  induction left : p.cursor.remaining using Nat.strongRecOn generalizing p with
  | ind k ih =>
    cases found : p.cursor.peek? with
    | none => exact exhausted p found
    | some r =>
      have smaller := next_remaining_lt found
      exact step p r found (ih _ (left ▸ smaller) (p.next r) rfl)

theorem after_succ_of_peek? (found : p.cursor.peek? = some r) (n : Nat) :
    p.after standard (n + 1) = (p.next r).after standard n := by
  obtain ⟨succeeds, moves, -⟩ := dispatch_standard found
  simp only [after, succeeds, moves, ↓reduceIte]

theorem after_succ_of_exhausted (ended : p.cursor.peek? = none) (n : Nat) :
    p.after standard (n + 1) = none := by
  simp [after, dispatch_exhausted ended]

theorem exists_of_after_succ (reached : p.after standard (n + 1) = some q) :
    ∃ r, p.cursor.peek? = some r ∧ (p.next r).after standard n = some q := by
  cases found : p.cursor.peek? with
  | none => simp [after_succ_of_exhausted found] at reached
  | some r =>
    rw [after_succ_of_peek? found] at reached
    exact ⟨r, rfl, reached⟩

theorem trace_of_peek? (found : p.cursor.peek? = some r) :
    p.trace standard = p :: (p.next r).trace standard := by
  obtain ⟨succeeds, moves, -⟩ := dispatch_standard found
  rw [trace, dif_pos succeeds, moves]

theorem trace_of_exhausted (ended : p.cursor.peek? = none) : p.trace standard = [] := by
  rw [trace, dif_neg]
  simp [dispatch_exhausted ended]

theorem after_keeps {motive : Progress → Prop}
    (keeps : ∀ p r, p.cursor.peek? = some r → motive p → motive (p.next r))
    (reached : p.after standard n = some q) (start : motive p) : motive q := by
  induction n generalizing p with
  | zero =>
    cases reached
    exact start
  | succ n ih =>
    obtain ⟨r, found, reached⟩ := exists_of_after_succ reached
    exact ih reached (keeps p r found start)

theorem options_after (reached : p.after standard n = some q) :
    q.context.options = p.context.options := by
  refine after_keeps (motive := fun q => q.context.options = p.context.options) ?_ reached rfl
  intro s r _ same
  exact (Context.options_perform _ _).trans same

theorem after_add (m n : Nat) :
    p.after standard (m + n) = (p.after standard m).bind fun q => q.after standard n := by
  induction m generalizing p with
  | zero => simp [after]
  | succ m ih =>
    rw [Nat.succ_add]
    cases found : p.cursor.peek? with
    | none => simp [after_succ_of_exhausted found]
    | some r => rw [after_succ_of_peek? found, after_succ_of_peek? found, ih]

theorem exists_of_after_concat (reached : p.after standard (n + 1) = some q) :
    ∃ s r, p.after standard n = some s ∧ s.cursor.peek? = some r ∧ q = s.next r := by
  rw [after_add] at reached
  obtain ⟨s, before, last⟩ := Option.bind_eq_some_iff.1 reached
  obtain ⟨r, found, ends⟩ := exists_of_after_succ last
  exact ⟨s, r, before, found, (Option.some.inj ends).symm⟩

theorem total_after (reached : p.after standard n = some q) :
    q.tally.total = p.tally.total + n := by
  induction n generalizing p with
  | zero =>
    cases reached
    rfl
  | succ n ih =>
    obtain ⟨r, found, reached⟩ := exists_of_after_succ reached
    have counted := ih reached
    simp only [next, Tally.total_count] at counted
    omega

theorem precedes_next (p : Progress) (r : Record) : p.cursor.Precedes (p.next r).cursor :=
  ⟨rfl, Nat.le_of_lt (p.cursor.lt_following _ _)⟩

theorem precedes_after (reached : p.after standard n = some q) : p.cursor.Precedes q.cursor := by
  refine after_keeps (motive := fun q => p.cursor.Precedes q.cursor) ?_ reached (.refl _)
  intro s r found behind
  exact behind.trans (precedes_next s r)

theorem faults_after (reached : p.after standard n = some q) :
    p.tally.faults <+: q.tally.faults := by
  refine after_keeps (motive := fun q => p.tally.faults <+: q.tally.faults) ?_ reached
    (List.prefix_refl _)
  intro s r _ before
  rw [faults_next]
  exact before.trans (List.prefix_append _ _)

theorem length_trace_le (p : Progress) : (p.trace standard).length ≤ p.cursor.remaining := by
  induction p using induction_on_records with
  | exhausted p ended =>
    rw [trace_of_exhausted ended]
    exact Nat.zero_le _
  | step p r found ih =>
    rw [trace_of_peek? found, List.length_cons]
    exact Nat.lt_of_le_of_lt ih (next_remaining_lt found)

theorem getElem?_trace :
    (p.trace standard)[n]? = some q ↔
      p.after standard n = some q ∧ ∃ r, q.cursor.peek? = some r := by
  induction p using induction_on_records generalizing n with
  | exhausted p ended =>
    rw [trace_of_exhausted ended]
    cases n with
    | zero => simp only [after, Option.some.injEq]; grind
    | succ n => simp [after_succ_of_exhausted ended]
  | step p r found ih =>
    rw [trace_of_peek? found]
    cases n with
    | zero => simp only [after, Option.some.injEq, List.getElem?_cons_zero]; grind
    | succ n => rw [after_succ_of_peek? found, List.getElem?_cons_succ, ih]

def history (p : Progress) (n : Nat) : List Progress := (p.trace standard).take n

theorem history_concat (reached : p.after standard n = some q) (found : q.cursor.peek? = some r) :
    p.history (n + 1) = p.history n ++ [q] := by
  have listed : (p.trace standard)[n]? = some q := getElem?_trace.2 ⟨reached, r, found⟩
  rw [history, history, List.take_add_one, listed]
  rfl

theorem exists_of_mem_history {s : Progress} (reached : p.after standard n = some q)
    (member : s ∈ p.history n) :
    ∃ m k, p.after standard m = some s ∧ s.after standard k = some q := by
  obtain ⟨m, listed⟩ := List.mem_iff_getElem?.1 member
  rw [history, List.getElem?_take] at listed
  split at listed
  · next before =>
    have there := (getElem?_trace.1 listed).1
    obtain ⟨k, rfl⟩ := Nat.exists_eq_add_of_le (Nat.le_of_lt before)
    rw [after_add, there] at reached
    exact ⟨m, k, there, reached⟩
  · cases listed

/-- What every step keeps, given the states before it, is kept by any number of steps. -/
theorem history_keeps {motive : List Progress → Progress → Prop} (start : motive [] p)
    (keeps : ∀ visited s r, s.cursor.peek? = some r → motive visited s →
      motive (visited ++ [s]) (s.next r))
    (reached : p.after standard n = some q) : motive (p.history n) q := by
  induction n generalizing q with
  | zero =>
    cases reached
    exact start
  | succ n ih =>
    obtain ⟨s, r, before, found, rfl⟩ := exists_of_after_concat reached
    rw [history_concat before found]
    exact keeps _ s r found (ih before)

theorem length_trace_of_after (reached : p.after standard n = some q)
    (ended : q.cursor.peek? = none) : (p.trace standard).length = n := by
  induction n generalizing p with
  | zero =>
    cases reached
    rw [trace_of_exhausted ended]
    rfl
  | succ n ih =>
    obtain ⟨r, found, reached⟩ := exists_of_after_succ reached
    rw [trace_of_peek? found, List.length_cons, ih reached]

theorem run_of_cancelled {lookup : Lookup} {token : Token} (stops : token.ask.1 = true) :
    p.run lookup token =
      { progress := p, ending := .ok .cancelled, token := token.ask.2
        notes := [.cancelled p.cursor.position p.cursor.length] } := by
  rw [run]
  simp [stops]

theorem run_of_succeeds {lookup : Lookup} {token : Token} (goes : token.ask.1 = false)
    (succeeds : (p.dispatch lookup).failure = none) :
    p.run lookup token =
      let step := p.dispatch lookup
      let rest := step.progress.run lookup
        (if step.cancels then token.ask.2.cancel else token.ask.2)
      { rest with notes := step.notes ++ rest.notes, cancels := step.cancels || rest.cancels } := by
  rw [run]
  simp only [goes, Bool.false_eq_true, ↓reduceIte]
  split
  · rfl
  · next fails => rw [succeeds] at fails; cases fails

theorem run_of_fails {lookup : Lookup} {token : Token} {failure : Failure}
    (goes : token.ask.1 = false) (fails : (p.dispatch lookup).failure = some failure) :
    p.run lookup token =
      let step := p.dispatch lookup
      let last := step.progress
      let token := if step.cancels then token.ask.2.cancel else token.ask.2
      if failure.endsRun then
        { progress := last.report last.unclosed?, ending := .ok .completed, token
          notes := step.notes ++ last.finishNotes, cancels := step.cancels }
      else
        { progress := last, ending := .error failure, token, notes := step.notes
          cancels := step.cancels } := by
  rw [run]
  simp only [goes, Bool.false_eq_true, ↓reduceIte]
  split
  · next succeeds => rw [fails] at succeeds; cases succeeds
  · next other failed =>
    rw [fails] at failed
    cases failed
    rfl

theorem run_of_peek? {token : Token} (goes : token.ask.1 = false)
    (found : p.cursor.peek? = some r) :
    let rest := (p.next r).run standard token.ask.2
    p.run standard token = { rest with notes := (p.dispatch standard).notes ++ rest.notes } := by
  obtain ⟨succeeds, moves, keeps⟩ := dispatch_standard found
  rw [run_of_succeeds goes succeeds]
  simp [moves, keeps]

theorem run_of_exhausted {lookup : Lookup} {token : Token} (goes : token.ask.1 = false)
    (ended : p.cursor.peek? = none) :
    p.run lookup token =
      { progress := p.report p.unclosed?, ending := .ok .completed, token := token.ask.2
        notes := p.finishNotes } := by
  have fails : p.dispatch lookup = _ := dispatch_exhausted ended
  rw [run_of_fails goes (congrArg Dispatched.failure fails), fails]
  simp [Failure.endsRun]

@[simp] theorem context_report (p : Progress) (report : Option Fault) :
    (p.report report).context = p.context := by
  cases report <;> rfl

@[simp] theorem cursor_report (p : Progress) (report : Option Fault) :
    (p.report report).cursor = p.cursor := by
  cases report <;> rfl

theorem tally_report (p : Progress) (report : Option Fault) :
    (p.report report).tally = { p.tally with faults := p.tally.faults ++ report.toList } := by
  cases report with
  | none => simp [Progress.report]
  | some fault => rfl

@[simp] theorem total_report (p : Progress) (report : Option Fault) :
    (p.report report).tally.total = p.tally.total := by
  rw [tally_report]
  rfl

@[simp] theorem unclosed?_report (p : Progress) (report : Option Fault) :
    (p.report report).unclosed? = p.unclosed? := by
  simp [unclosed?]

theorem run_uncancelled (p : Progress) :
    ∃ last, p.after standard (p.trace standard).length = some last ∧
      last.cursor.peek? = none ∧
      (p.run standard (.flag false)).progress = last.report last.unclosed? ∧
      (p.run standard (.flag false)).ending = .ok .completed := by
  induction p using induction_on_records with
  | exhausted p ended =>
    rw [trace_of_exhausted ended, run_of_exhausted rfl ended]
    exact ⟨p, rfl, ended, rfl, rfl⟩
  | step p r found ih =>
    obtain ⟨last, reached, ended, ends, completes⟩ := ih
    rw [trace_of_peek? found, run_of_peek? rfl found]
    refine ⟨last, ?_, ended, ends, completes⟩
    rw [List.length_cons, after_succ_of_peek? found]
    exact reached

theorem run_eq_of_after (reached : p.after standard n = some q) (ended : q.cursor.peek? = none) :
    (p.run standard (.flag false)).progress = q.report q.unclosed? := by
  obtain ⟨last, reaches, -, ends, -⟩ := run_uncancelled p
  rw [length_trace_of_after reached ended, reached] at reaches
  cases reaches
  exact ends

theorem exists_after_run (p : Progress) (token : Token) :
    ∃ n q, p.after standard n = some q ∧ (p.run standard token).progress.context = q.context := by
  induction p using induction_on_records generalizing token with
  | exhausted p ended =>
    refine ⟨0, p, rfl, ?_⟩
    cases asked : token.ask.1 with
    | true => rw [run_of_cancelled asked]
    | false => rw [run_of_exhausted asked ended, context_report]
  | step p r found ih =>
    cases asked : token.ask.1 with
    | true => exact ⟨0, p, rfl, by rw [run_of_cancelled asked]⟩
    | false =>
      obtain ⟨n, q, reached, same⟩ := ih token.ask.2
      refine ⟨n + 1, q, ?_, ?_⟩
      · rw [after_succ_of_peek? found]
        exact reached
      · rw [run_of_peek? asked found]
        exact same

theorem run_of_completed {token : Token}
    (completes : (p.run standard token).ending = .ok .completed) :
    (p.run standard token).progress = (p.run standard (.flag false)).progress := by
  induction p using induction_on_records generalizing token with
  | exhausted p ended =>
    cases asked : token.ask.1 with
    | true => simp [run_of_cancelled asked] at completes
    | false => rw [run_of_exhausted asked ended, run_of_exhausted rfl ended]
  | step p r found ih =>
    cases asked : token.ask.1 with
    | true => simp [run_of_cancelled asked] at completes
    | false =>
      rw [run_of_peek? asked found] at completes ⊢
      rw [run_of_peek? rfl found]
      exact ih completes

theorem run_countdown_beyond {limit asked : Nat} (p : Progress)
    (beyond : asked + (p.trace standard).length < limit) :
    ∃ token, p.run standard (.countdown limit asked) =
      { p.run standard (.flag false) with token } := by
  induction p using induction_on_records generalizing asked with
  | exhausted p ended =>
    rw [trace_of_exhausted ended] at beyond
    have goes : (Token.countdown limit asked).ask.1 = false := by
      simp only [Token.ask, decide_eq_false_iff_not]
      omega
    rw [run_of_exhausted goes ended, run_of_exhausted rfl ended]
    exact ⟨_, rfl⟩
  | step p r found ih =>
    rw [trace_of_peek? found, List.length_cons] at beyond
    have goes : (Token.countdown limit asked).ask.1 = false := by
      simp only [Token.ask, decide_eq_false_iff_not]
      omega
    obtain ⟨token, same⟩ := @ih (asked + 1) (by omega)
    have later : (Token.countdown limit asked).ask.2 = .countdown limit (asked + 1) := rfl
    rw [run_of_peek? goes found, run_of_peek? rfl found, later, same]
    exact ⟨token, rfl⟩

theorem run_countdown_within {left asked : Nat} (p : Progress)
    (within : left ≤ (p.trace standard).length) :
    let cut := p.run standard (.countdown ↑(asked + left) asked)
    p.after standard left = some cut.progress ∧ cut.ending = .ok .cancelled ∧
      cut.token = .countdown ↑(asked + left) (asked + left + 1) := by
  induction left generalizing p asked with
  | zero =>
    have stops : (Token.countdown ↑(asked + 0) asked).ask.1 = true := by
      simp only [Token.ask, decide_eq_true_eq]
      omega
    rw [run_of_cancelled stops]
    exact ⟨rfl, rfl, rfl⟩
  | succ left ih =>
    have goes : (Token.countdown ↑(asked + (left + 1)) asked).ask.1 = false := by
      simp only [Token.ask, decide_eq_false_iff_not]
      omega
    cases found : p.cursor.peek? with
    | none => simp [trace_of_exhausted found] at within
    | some r =>
      rw [trace_of_peek? found, List.length_cons] at within
      have later : (Token.countdown ↑(asked + (left + 1)) asked).ask.2 =
          .countdown ↑(asked + 1 + left) (asked + 1) := by
        rw [Nat.add_right_comm]
        rfl
      obtain ⟨reached, ends, tokens⟩ := @ih (asked + 1) (p.next r) (by omega)
      rw [run_of_peek? goes found, later, after_succ_of_peek? found]
      exact ⟨reached, ends, tokens.trans (by rw [Nat.add_right_comm]; rfl)⟩

end Progress
end SymbolRecovery
