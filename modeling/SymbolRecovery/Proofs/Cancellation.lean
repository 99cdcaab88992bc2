import SymbolRecovery.Proofs.Offsets
import SymbolRecovery.Proofs.Scopes
import SymbolRecovery.Proofs.Trace

/-!
Stopping a run early. Main statement: a run that a countdown cuts off leaves the context and the
counts of a run over the records up to the last one that was dispatched. Where scopes are skipped,
those records lack end records that their begin records point at: an earlier jump stays among them,
since the run came past its target, and the last record leads behind them with its jump or without.
-/
namespace SymbolRecovery
open Lookup (standard)

namespace Progress
variable {p q : Progress} {r : Record} {n m : Nat}

def dispatched (lookup : Lookup) (p : Progress) : List Nat :=
  (p.trace lookup).map (·.cursor.position)

def take (p : Progress) (m : Nat) : Progress := { p with cursor := p.cursor.take m }

/-- The records may be cut short without a different end record being found for a scope. -/
def Cuttable (p : Progress) : Prop :=
  p.context.options.descendScopes = false → DistinctOffsets p.cursor.records

theorem take_next (cuttable : p.Cuttable) (inside : (p.next r).cursor.position < m) :
    (p.take m).next r = (p.next r).take m := by
  have same := Cursor.following_take (r.effect p.cursor.position) cuttable inside
  simp only [next, take, Cursor.take_position, same]
  rfl

theorem cuttable_next (cuttable : p.Cuttable) (r : Record) : (p.next r).Cuttable := by
  intro skips
  exact cuttable (by simpa [next] using skips)

theorem exhausted_take_next (r : Record) (last : p.cursor.position + 1 = m) :
    ((p.take m).next r).cursor.peek? = none := by
  have forwards := (p.cursor.take m).lt_following p.context.options.descendScopes
    (r.effect p.cursor.position)
  simp only [Cursor.take_position] at forwards
  simp only [next, take, Cursor.peek?, Cursor.take_position, Cursor.take_records]
  rw [List.getElem?_eq_none_iff, List.length_take]
  omega

theorem after_take (cuttable : p.Cuttable) (reached : p.after standard n = some q)
    (found : q.cursor.peek? = some r) (last : q.cursor.position + 1 = m) :
    ∃ short, (p.take m).after standard (n + 1) = some short ∧
      short.cursor.peek? = none ∧ short.context = (q.next r).context ∧
      short.tally = (q.next r).tally := by
  induction n generalizing p with
  | zero =>
    cases reached
    have here : (q.take m).cursor.peek? = some r := by
      rw [← found]
      exact Cursor.peek?_take (by omega)
    rw [after_succ_of_peek? here]
    exact ⟨_, rfl, exhausted_take_next r last, rfl, rfl⟩
  | succ n ih =>
    obtain ⟨first, start, reached⟩ := exists_of_after_succ reached
    have behind := (precedes_after reached).position_le
    have forwards : p.cursor.position < (p.next first).cursor.position :=
      p.cursor.lt_following _ _
    have here : (p.take m).cursor.peek? = some first := by
      rw [← start]
      exact Cursor.peek?_take (by omega)
    rw [after_succ_of_peek? here, take_next cuttable (by omega)]
    exact ih (cuttable_next cuttable first) reached

theorem kind_of_fault_after (reached : p.after standard n = some q)
    (start : ∀ fault ∈ p.tally.faults, fault.kind.isSome) :
    ∀ fault ∈ q.tally.faults, fault.kind.isSome := by
  refine after_keeps (motive := fun q => ∀ fault ∈ q.tally.faults, fault.kind.isSome) ?_ reached
    start
  intro s r _ kinds fault member
  rw [faults_next] at member
  rcases List.mem_append.1 member with old | new
  · exact kinds fault old
  · obtain ⟨cause, -, rfl⟩ := Option.map_eq_some_iff.1 (Option.mem_toList.1 new)
    rfl

def lengthUpTo (positions : List Nat) : Nat → Nat
  | 0 => 0
  | n + 1 => positions.getD n 0 + 1

theorem exists_after_take (cuttable : p.Cuttable) (within : n ≤ (p.trace standard).length) :
    ∃ long short, p.after standard n = some long ∧
      (p.take (lengthUpTo (p.dispatched standard) n)).after standard n = some short ∧
      short.cursor.peek? = none ∧ short.context = long.context ∧ short.tally = long.tally := by
  cases n with
  | zero =>
    refine ⟨p, _, rfl, rfl, ?_, rfl, rfl⟩
    simp [lengthUpTo, take, Cursor.peek?]
  | succ n =>
    have within : n < (p.trace standard).length := within
    have here := List.getElem?_eq_getElem within
    obtain ⟨reached, r, found⟩ := getElem?_trace.1 here
    have last : (p.trace standard)[n].cursor.position + 1 =
        lengthUpTo (p.dispatched standard) (n + 1) := by
      simp [lengthUpTo, dispatched, within]
    obtain ⟨short, reaches, ended, contexts, tallies⟩ := after_take cuttable reached found last
    refine ⟨_, short, ?_, reaches, ended, contexts, tallies⟩
    rw [after_add, reached, Option.bind_some, after_succ_of_peek? found]
    rfl

end Progress

/-- A run that is cut off after some steps is a run over the records that lie up to there. -/
theorem cut_run_eq_short_run (records : List Record) (layout : Option LoadLayout)
    (options : Options) (n : Nat)
    (distinct : options.descendScopes = false → DistinctOffsets records) :
    let start : Progress := { context := { layout, options }, cursor := { records } }
    let positions := start.dispatched standard
    let full := run standard { layout, options } { records }
    let cut := run standard { layout, options } { records } (.countdown n)
    let short := run standard { layout, options }
      { records := records.take (Progress.lengthUpTo positions n) }
    full.progress.tally.total = positions.length ∧
    (positions.length < n → ∃ token, cut = { full with token }) ∧
    (n ≤ positions.length →
      cut.ending = .ok .cancelled ∧ cut.token = .countdown n (n + 1) ∧
      start.after standard n = some cut.progress ∧ cut.progress.tally.total = n ∧
      cut.progress.context = short.progress.context ∧
      (∀ fault ∈ cut.progress.tally.faults, fault.kind.isSome) ∧
      short.progress.tally =
        { cut.progress.tally with
          faults := cut.progress.tally.faults ++ short.progress.unclosed?.toList }) := by
  intro start positions full cut short
  have length : positions.length = (start.trace standard).length := List.length_map _
  refine ⟨?_, fun beyond => ?_, fun within => ?_⟩
  · obtain ⟨last, reached, -, ends, -⟩ := Progress.run_uncancelled start
    have counted : last.tally.total = 0 + (start.trace standard).length :=
      Progress.total_after reached
    change (start.run standard (.flag false)).progress.tally.total = _
    rw [ends, Progress.total_report, counted, length, Nat.zero_add]
  · have outlasts : 0 + (start.trace standard).length < n := by omega
    obtain ⟨token, same⟩ := Progress.run_countdown_beyond start outlasts
    refine ⟨token, ?_⟩
    simp only [cut, full, run]
    rw [same]
  · have cuttable : start.Cuttable := distinct
    obtain ⟨long, brief, reached, reaches, ended, contexts, tallies⟩ :=
      Progress.exists_after_take cuttable (length ▸ within)
    have ends : short.progress = brief.report brief.unclosed? :=
      Progress.run_eq_of_after reaches ended
    have stops := @Progress.run_countdown_within n 0 start (length ▸ within)
    simp only [Nat.zero_add] at stops
    obtain ⟨arrives, cancelled, tokens⟩ := stops
    have same : cut.progress = long := Option.some.inj (arrives.symm.trans reached)
    refine ⟨cancelled, tokens, arrives, ?_, ?_, ?_, ?_⟩
    · rw [same, Progress.total_after reached]
      exact Nat.zero_add n
    · rw [same, ends, Progress.context_report, contexts]
    · rw [same]
      exact Progress.kind_of_fault_after reached (by simp [start])
    · rw [same, ends, Progress.tally_report, Progress.unclosed?_report, tallies]

/-- The one step of the cut run jumps over a label to the end record, which the short run lacks. -/
theorem cut_run_eq_short_run_after_jump :
    let records : List Record :=
      [{ kind := Kind.globalProcedure, name := "f", endOffset := 8, offset := some 0 },
        { kind := Kind.label, name := "l", offset := some 4 },
        { kind := Kind.scopeEnd, offset := some 8 }]
    let options : Options := { descendScopes := false }
    let cut := run standard { options } { records } (.countdown 1)
    DistinctOffsets records ∧ cut.progress.cursor.position = 2 ∧ cut.ending = .ok .cancelled ∧
      cut.progress.context =
        (run standard { options } { records := records.take 1 }).progress.context := by
  intro records options cut
  have distinct : DistinctOffsets records := by decide
  have main := cut_run_eq_short_run records none options 1 fun _ => distinct
  have upTo : Progress.lengthUpTo (Progress.dispatched standard
      { context := { options }, cursor := { records } }) 1 = 1 := by decide +kernel
  obtain ⟨cancelled, -, -, -, contexts, -⟩ := main.2.2 (by decide +kernel)
  rw [upTo] at contexts
  exact ⟨distinct, by decide +kernel, cancelled, contexts⟩

end SymbolRecovery
