import SymbolRecovery.Proofs.Items
import SymbolRecovery.Proofs.Trace

/-!
A run as the list of the effects that its records ask for. Which records a run comes to depends on
the records and on the option to descend, and not on what has been found so far. Main statements:
the context at the end of a run is that in which these effects were performed one after the other;
runs under different layouts perform the same effects; and the sections among them are registered
by records that lie in the same order.
-/
namespace SymbolRecovery
open Lookup (standard)

/-- No two of the section records that are accepted are for the same section. -/
def DistinctSections (records : List Record) : Prop :=
  ((records.filterMap Record.registers?).map (·.index)).Nodup

instance (records : List Record) : Decidable (DistinctSections records) :=
  inferInstanceAs (Decidable (List.Nodup _))

def Context.performAll (c : Context) (effects : List Effect) : Context := effects.foldl perform c

@[simp] theorem Context.performAll_cons (c : Context) (e : Effect) (rest : List Effect) :
    c.performAll (e :: rest) = (c.perform e).performAll rest := rfl

namespace Progress

def requests (p : Progress) : List Effect :=
  (p.trace standard).filterMap fun q => q.cursor.peek?.map (·.effect q.cursor.position)

variable {p q : Progress} {r : Record}

theorem requests_of_peek? (found : p.cursor.peek? = some r) :
    p.requests = r.effect p.cursor.position :: (p.next r).requests := by
  rw [requests, trace_of_peek? found, List.filterMap_cons, found]
  rfl

theorem requests_of_exhausted (ended : p.cursor.peek? = none) : p.requests = [] := by
  rw [requests, trace_of_exhausted ended, List.filterMap_nil]

theorem context_run_eq (p : Progress) :
    (p.run standard (.flag false)).progress.context = p.context.performAll p.requests := by
  induction p using induction_on_records with
  | exhausted p ended =>
    rw [run_of_exhausted rfl ended, requests_of_exhausted ended]
    exact context_report p p.unclosed?
  | step p r found ih =>
    rw [run_of_peek? rfl found, requests_of_peek? found]
    exact ih

theorem requests_congr (cursor : q.cursor = p.cursor)
    (options : q.context.options = p.context.options) : q.requests = p.requests := by
  induction p using induction_on_records generalizing q with
  | exhausted p ended =>
    rw [requests_of_exhausted ended, requests_of_exhausted (cursor ▸ ended)]
  | step p r found ih =>
    rw [requests_of_peek? found, requests_of_peek? (cursor ▸ found), cursor]
    refine congrArg _ (ih ?_ ?_)
    · simp only [next, cursor, options]
    · simp only [next, Context.options_perform, options]

theorem drop_of_peek? (found : p.cursor.peek? = some r) :
    p.cursor.records.drop p.cursor.position =
      r :: p.cursor.records.drop (p.cursor.position + 1) := by
  obtain ⟨inside, rfl⟩ := List.getElem?_eq_some_iff.1 found
  exact List.drop_eq_getElem_cons inside

theorem drop_of_exhausted (ended : p.cursor.peek? = none) :
    p.cursor.records.drop p.cursor.position = [] :=
  List.drop_eq_nil_iff.2 (List.getElem?_eq_none_iff.1 ended)

theorem requests_of_descends (descends : p.context.options.descendScopes = true) :
    p.requests = ((p.cursor.records.drop p.cursor.position).zipIdx p.cursor.position).map
      fun visit => visit.1.effect visit.2 := by
  induction p using induction_on_records with
  | exhausted p ended => rw [requests_of_exhausted ended, drop_of_exhausted ended]; rfl
  | step p r found ih =>
    have position : (p.next r).cursor.position = p.cursor.position + 1 := by
      simp only [next, descends, Cursor.following_of_descends]
    have later := ih (by rw [next, Context.options_perform, descends])
    rw [position] at later
    rw [requests_of_peek? found, drop_of_peek? found, later]
    rfl

theorem registered_sublist (p : Progress) :
    (p.requests.filterMap Effect.section?).Sublist
      ((p.cursor.records.drop p.cursor.position).filterMap Record.registers?) := by
  induction p using induction_on_records with
  | exhausted p ended =>
    rw [requests_of_exhausted ended]
    exact List.nil_sublist _
  | step p r found ih =>
    have forwards : p.cursor.position + 1 ≤ (p.next r).cursor.position :=
      p.cursor.lt_following _ _
    have behind : (p.next r).requests.filterMap Effect.section? |>.Sublist
        ((p.cursor.records.drop (p.cursor.position + 1)).filterMap Record.registers?) :=
      ih.trans ((List.drop_sublist_drop_left _ forwards).filterMap _)
    rw [requests_of_peek? found, drop_of_peek? found, List.filterMap_cons, List.filterMap_cons,
      Record.section?_effect]
    split
    · exact behind
    · exact behind.cons_cons _

theorem distinct_requests (start : p.cursor.position = 0)
    (distinct : DistinctSections p.cursor.records) :
    ((p.requests.filterMap Effect.section?).map (·.index)).Nodup := by
  have registered := p.registered_sublist
  rw [start, List.drop_zero] at registered
  exact distinct.sublist (registered.map _)

theorem unlocated_of_mem_requests {e : Effect} (member : e ∈ p.requests) : e.Unlocated := by
  obtain ⟨q, -, asks⟩ := List.mem_filterMap.1 member
  obtain ⟨r, -, rfl⟩ := Option.map_eq_some_iff.1 asks
  exact r.unlocated_effect _

end Progress
end SymbolRecovery
