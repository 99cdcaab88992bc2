import Mathlib.Algebra.Ring.Nat
import SymbolRecovery.Proofs.Ledger

/-!
Going on after a cancellation. What comes next is decided by the context and the cursor alone, and
not by what has been counted so far. Main statement: a run that is cancelled and taken up again as
often as one likes comes to the context and the cursor of a run that nobody cancels, and the counts
and reports of its parts make up those of that run.
-/
namespace SymbolRecovery
open Lookup (standard)

/-- Apply the records in parts. A part goes on where the one before was cancelled, with a token of
its own and nothing counted yet; a part that is not cancelled is the last. -/
def runInParts (lookup : Lookup) (context : Context) (cursor : Cursor) :
    List Token → List RunOutcome
  | [] => [run lookup context cursor]
  | token :: tokens =>
    let part := run lookup context cursor token
    match part.ending with
    | .ok .cancelled =>
      part :: runInParts lookup part.progress.context part.progress.cursor tokens
    | _ => [part]

namespace Tally

def append (t u : Tally) : Tally where
  processed := t.processed + u.processed
  skipped := t.skipped + u.skipped
  faulted := t.faulted + u.faulted
  faults := t.faults ++ u.faults
  skips := t.skips ++ u.skips

def ofParts (parts : List Tally) : Tally where
  processed := (parts.map (·.processed)).sum
  skipped := (parts.map (·.skipped)).sum
  faulted := (parts.map (·.faulted)).sum
  faults := parts.flatMap (·.faults)
  skips := parts.flatMap (·.skips)

@[simp] theorem append_empty (t : Tally) : t.append {} = t := by simp [append]

theorem ofParts_cons (t : Tally) (parts : List Tally) :
    ofParts (t :: parts) = t.append (ofParts parts) := by
  simp [ofParts, append]

theorem ofParts_singleton (t : Tally) : ofParts [t] = t := by simp [ofParts]

theorem append_count (t u : Tally) (position : Nat) (kind : Kind) (verdict : Verdict) :
    (t.append u).count position kind verdict = t.append (u.count position kind verdict) := by
  cases verdict <;>
    simp [append, count, addSkip, addProcessed, addFault, Nat.add_assoc, List.append_assoc]

end Tally

namespace Progress
variable {p : Progress} {token : Token}

def behind (t : Tally) (p : Progress) : Progress := { p with tally := t.append p.tally }

theorem next_behind (t : Tally) (p : Progress) (r : Record) :
    (p.behind t).next r = (p.next r).behind t := by
  simp only [next, behind, Tally.append_count]

theorem report_behind (t : Tally) (p : Progress) (unclosed : Option Fault) :
    (p.behind t).report unclosed = (p.report unclosed).behind t := by
  cases unclosed with
  | none => rfl
  | some fault => simp [report, behind, Tally.addReport, Tally.append]

theorem run_behind (t : Tally) (p : Progress) (token : Token) :
    ((p.behind t).run standard token).progress = (p.run standard token).progress.behind t ∧
      ((p.behind t).run standard token).ending = (p.run standard token).ending := by
  induction p, token using induction_on_run with
  | cancelled p token stops =>
    rw [run_of_cancelled stops, run_of_cancelled stops]
    exact ⟨rfl, rfl⟩
  | exhausted p token goes ended =>
    have ended' : (p.behind t).cursor.peek? = none := ended
    rw [run_of_exhausted goes ended, run_of_exhausted goes ended']
    exact ⟨report_behind t p _, rfl⟩
  | step p token r goes found ih =>
    have found' : (p.behind t).cursor.peek? = some r := found
    rw [run_of_peek? goes found, run_of_peek? goes found', next_behind]
    exact ih

theorem run_of_cancelled_part (cancelled : (p.run standard token).ending = .ok .cancelled) :
    (p.run standard (.flag false)).progress =
      ((p.run standard token).progress.run standard (.flag false)).progress := by
  induction p, token using induction_on_run with
  | cancelled p token stops => rw [run_of_cancelled stops]
  | exhausted p token goes ended => simp [run_of_exhausted goes ended] at cancelled
  | step p token r goes found ih =>
    rw [run_of_peek? goes found] at cancelled ⊢
    rw [run_of_peek? rfl found]
    exact ih cancelled

theorem ending_run (p : Progress) (token : Token) :
    (p.run standard token).ending = .ok .cancelled ∨
      (p.run standard token).ending = .ok .completed := by
  obtain ⟨q, unclosed, -, -, -, ends⟩ := p.run_ledger token
  exact ends.imp And.left And.left

end Progress

theorem run_eq_behind_part {context : Context} {cursor : Cursor} {token : Token}
    (cancelled : (run standard context cursor token).ending = .ok .cancelled) :
    let part := (run standard context cursor token).progress
    (run standard context cursor).progress =
      (run standard part.context part.cursor).progress.behind part.tally := by
  intro part
  let rest : Progress := { context := part.context, cursor := part.cursor }
  have resumed : part = rest.behind part.tally := by simp [Progress.behind, rest]
  have whole := Progress.run_of_cancelled_part cancelled
  have later := (Progress.run_behind part.tally rest (.flag false)).1
  rw [← resumed] at later
  exact whole.trans later

section
variable {lookup : Lookup} {context : Context} {cursor : Cursor} {token : Token}

theorem runInParts_of_cancelled (tokens : List Token)
    (cancelled : (run lookup context cursor token).ending = .ok .cancelled) :
    let part := run lookup context cursor token
    runInParts lookup context cursor (token :: tokens) =
      part :: runInParts lookup part.progress.context part.progress.cursor tokens := by
  simp only [runInParts, cancelled]

theorem runInParts_of_completed (tokens : List Token)
    (completes : (run lookup context cursor token).ending = .ok .completed) :
    runInParts lookup context cursor (token :: tokens) = [run lookup context cursor token] := by
  simp only [runInParts, completes]

end

/-- However often a run is cancelled and taken up again, it ends as if it had not been. -/
theorem parts_make_up_whole_run (context : Context) (cursor : Cursor) (tokens : List Token) :
    let whole := run standard context cursor
    let parts := runInParts standard context cursor tokens
    whole.progress.tally = .ofParts (parts.map (·.progress.tally)) ∧
    ∃ cut last, parts = cut ++ [last] ∧ (∀ part ∈ cut, part.ending = .ok .cancelled) ∧
      last.ending = .ok .completed ∧ last.progress.context = whole.progress.context ∧
      last.progress.cursor = whole.progress.cursor := by
  induction tokens generalizing context cursor with
  | nil =>
    intro whole parts
    obtain ⟨last, -, -, -, completes⟩ := Progress.run_uncancelled { context, cursor }
    exact ⟨(Tally.ofParts_singleton _).symm, [], whole, rfl, by simp, completes, rfl, rfl⟩
  | cons token tokens ih =>
    intro whole parts
    let part := run standard context cursor token
    have ends : part.ending = .ok .cancelled ∨ part.ending = .ok .completed :=
      Progress.ending_run _ _
    rcases ends with cancelled | completes
    · have made := run_eq_behind_part cancelled
      obtain ⟨tallied, cut, last, split, stopped, completes, contexts, cursors⟩ :=
        ih part.progress.context part.progress.cursor
      have parts_eq : parts = part :: runInParts standard _ _ tokens :=
        runInParts_of_cancelled tokens cancelled
      refine ⟨?_, part :: cut, last, parts_eq.trans (congrArg (part :: ·) split),
        List.forall_mem_cons.2 ⟨cancelled, stopped⟩, completes, ?_, ?_⟩
      · rw [parts_eq, List.map_cons, Tally.ofParts_cons, ← tallied]
        exact congrArg Progress.tally made
      · exact contexts.trans (congrArg Progress.context made).symm
      · exact cursors.trans (congrArg Progress.cursor made).symm
    · have same : part.progress = whole.progress := Progress.run_of_completed completes
      have parts_eq : parts = [part] := runInParts_of_completed tokens completes
      refine ⟨?_, [], part, parts_eq, by simp, completes, congrArg Progress.context same,
        congrArg Progress.cursor same⟩
      rw [parts_eq, List.map_singleton, Tally.ofParts_singleton]
      exact congrArg Progress.tally same.symm

/-- The first part is cut off behind a jump, and the frame of a begin record that is not accepted
stays open from then on; the second part is not allowed a single record. -/
example :
    let records : List Record :=
      [{ kind := Kind.block, truncated := true },
        { kind := Kind.thunk, endOffset := 8, offset := some 0 }, { kind := Kind.label },
        { kind := Kind.scopeEnd, offset := some 8 }]
    let parts := runInParts standard { options := { descendScopes := false } } { records }
      [.countdown 2, .countdown 0, .countdown 7, .flag true]
    parts.map (·.progress.cursor.position) = [3, 3, 4] ∧
      parts.map (·.progress.tally.processed) = [1, 0, 1] ∧
      parts.map (·.progress.tally.faults.length) = [1, 0, 1] := by
  decide +kernel

end SymbolRecovery
