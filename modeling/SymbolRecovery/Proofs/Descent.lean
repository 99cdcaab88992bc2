import Mathlib.Data.List.Induction
import SymbolRecovery.Proofs.Interior

/-!
Runs that go down into scopes. Such a run comes to every record, so what holds of a context as long
as one record after the other is performed on it holds of the run. Main statement: the states of a
descending run and its end are the contexts in which the records so far were performed.
-/
namespace SymbolRecovery
open Lookup (standard)

theorem Context.goOver_keeps {motive : List Record → Context → Prop} {c : Context} {position : Nat}
    (start : motive [] c)
    (keeps : ∀ word d r, motive word d →
      motive (word ++ [r]) (d.perform (r.effect (position + word.length))))
    (word : List Record) : motive word (c.goOver position word) := by
  induction word using List.reverseRecOn with
  | nil => exact start
  | append_singleton word r ih =>
    rw [goOver_append]
    exact keeps word _ r ih

namespace Progress
variable {p q : Progress} {n : Nat} (descends : p.context.options.descendScopes = true)
include descends

theorem context_after_of_descends (reached : p.after standard n = some q) :
    q.context = p.context.goOver p.cursor.position
      ((p.cursor.records.drop p.cursor.position).take n) := by
  induction n generalizing p with
  | zero =>
    cases reached
    rfl
  | succ n ih =>
    obtain ⟨r, found, reached⟩ := exists_of_after_succ reached
    have position : (p.next r).cursor.position = p.cursor.position + 1 := by
      simp only [next, descends, Cursor.following_of_descends]
    have later := ih ((congrArg _ (Context.options_perform _ _)).trans descends) reached
    rw [position] at later
    rw [drop_of_peek? found, List.take_succ_cons, Context.goOver_cons, later]
    rfl

theorem context_run_of_descends :
    (p.run standard (.flag false)).progress.context =
      p.context.goOver p.cursor.position (p.cursor.records.drop p.cursor.position) := by
  rw [context_run_eq, requests_of_descends descends]
  rfl

theorem holds_of_descends {motive : List Record → Context → Prop}
    (all : ∀ word, motive word (p.context.goOver p.cursor.position word)) :
    (∀ n q, p.after standard n = some q →
      motive ((p.cursor.records.drop p.cursor.position).take n) q.context) ∧
      motive (p.cursor.records.drop p.cursor.position)
        (p.run standard (.flag false)).progress.context := by
  constructor
  · intro n q reached
    rw [context_after_of_descends descends reached]
    exact all _
  · rw [context_run_of_descends descends]
    exact all _

end Progress
end SymbolRecovery
