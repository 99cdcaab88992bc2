import SymbolRecovery.Applier

/-!
One step of a run: the record under the cursor is given to the applier that is registered for its
kind, and counted as processed, skipped or faulted. Main statement: every step that succeeds moves
the cursor forward, whatever the applier does, because a record that its applier left alone is
consumed here.
-/
namespace SymbolRecovery

structure Tally where
  processed : Nat := 0
  skipped : Nat := 0
  faulted : Nat := 0
  faults : List Fault := []
  skips : List Fault := []
deriving Repr, DecidableEq

namespace Tally

def addProcessed (t : Tally) : Tally := { t with processed := t.processed + 1 }

def addSkip (t : Tally) (f : Fault) : Tally :=
  { t with skipped := t.skipped + 1, skips := t.skips ++ [f] }

def addFault (t : Tally) (f : Fault) : Tally :=
  { t with faulted := t.faulted + 1, faults := t.faults ++ [f] }

def addReport (t : Tally) (f : Fault) : Tally := { t with faults := t.faults ++ [f] }

def faultsOf (t : Tally) (category : FaultCategory) : List Fault :=
  t.faults.filter fun f => f.category = category

end Tally

structure Progress where
  context : Context
  cursor : Cursor
  tally : Tally := {}

/-- A step, with what it has to tell. After a failure the state is as the applier left it. -/
structure Dispatched where
  progress : Progress
  failure : Option Failure := none
  notes : List Note := []
  cancels : Bool := false

abbrev Lookup := Kind → Option Applier

/-- The same appliers where a number in a message has at most so many decimal digits. -/
def Lookup.limited (lookup : Lookup) (digits : Nat) : Lookup := fun kind =>
  (lookup kind).map fun a => { a with digits := some digits }

namespace Progress

def skip (p : Progress) (r : Record) : Dispatched :=
  let fault : Fault := ⟨p.cursor.position, some r.kind, .noApplier⟩
  { progress := { p with cursor := p.cursor.advance, tally := p.tally.addSkip fault }
    notes := [.skipped fault] }

/-- Count what an applier did with a record. A record that it did not consume is consumed now, and
that is a fault unless there is one already. -/
def settle (p : Progress) (a : Applier) (r : Record) (work : Applied) (cause : Option FaultCause) :
    Dispatched :=
  let stalled := work.cursor.position = p.cursor.position
  let cursor := if stalled then work.cursor.advance else work.cursor
  let cause := if stalled then some (cause.getD (.notConsumed a.name)) else cause
  match cause with
  | none =>
    { progress := { context := work.context, cursor, tally := p.tally.addProcessed }
      notes := work.notes, cancels := work.cancels }
  | some cause =>
    let fault : Fault := ⟨p.cursor.position, some r.kind, cause⟩
    { progress := { context := work.context, cursor, tally := p.tally.addFault fault }
      notes := work.notes ++ [.fault fault], cancels := work.cancels }

def dispatch (lookup : Lookup) (p : Progress) : Dispatched :=
  match p.cursor.peek? with
  | none => { progress := p, failure := some (.exhausted p.cursor.position) }
  | some r =>
    match lookup r.kind with
    | none => p.skip r
    | some a =>
      let work := a.apply p.context p.cursor r
      match work.ending with
      | .failure failure =>
        { progress := { p with context := work.context, cursor := work.cursor }
          failure := some failure, notes := work.notes, cancels := work.cancels }
      | .done => p.settle a r work none
      | .fault cause => p.settle a r work (some cause)

theorem settle_position_lt {p : Progress} {a : Applier} {r : Record} {work : Applied}
    (ahead : p.cursor.Precedes work.cursor) (found : p.cursor.peek? = some r)
    (cause : Option FaultCause) :
    let next := (p.settle a r work cause).progress.cursor
    next.records = p.cursor.records ∧ p.cursor.position < next.position := by
  have inside := Cursor.lt_length_of_peek? found
  have same := ahead.records_eq
  have moved : (if work.cursor.position = p.cursor.position then work.cursor.advance
      else work.cursor).records = p.cursor.records ∧ p.cursor.position <
      (if work.cursor.position = p.cursor.position then work.cursor.advance
      else work.cursor).position := by
    split
    · next stalled =>
      have here : work.cursor.position < work.cursor.records.length := by
        rw [stalled, same]; exact inside
      refine ⟨(Cursor.precedes_advance work.cursor).records_eq.trans same, ?_⟩
      rw [Cursor.advance_position here]
      omega
    · next elsewhere =>
      have := ahead.position_le
      exact ⟨same, by omega⟩
  unfold settle
  dsimp only
  split <;> exact moved

theorem dispatch_remaining_lt {lookup : Lookup} {p : Progress}
    (succeeds : (p.dispatch lookup).failure = none) :
    (p.dispatch lookup).progress.cursor.remaining < p.cursor.remaining := by
  have main : (p.dispatch lookup).progress.cursor.records = p.cursor.records ∧
      p.cursor.position < (p.dispatch lookup).progress.cursor.position ∧
      p.cursor.position < p.cursor.records.length := by
    unfold dispatch at succeeds ⊢
    cases found : p.cursor.peek? with
    | none => simp [found] at succeeds
    | some r =>
      have inside := Cursor.lt_length_of_peek? found
      simp only [found] at succeeds ⊢
      cases applier : lookup r.kind with
      | none =>
        refine ⟨(Cursor.precedes_advance p.cursor).records_eq, ?_, inside⟩
        simp [skip, Cursor.advance_position inside]
      | some a =>
        simp only [applier] at succeeds ⊢
        have ahead := a.precedes_apply p.context p.cursor r
        cases ending : (a.apply p.context p.cursor r).ending with
        | failure failure => simp [ending] at succeeds
        | done =>
          exact ⟨(settle_position_lt ahead found none).1, (settle_position_lt ahead found none).2,
            inside⟩
        | fault cause =>
          exact ⟨(settle_position_lt ahead found (some cause)).1,
            (settle_position_lt ahead found (some cause)).2, inside⟩
  unfold Cursor.remaining
  rw [main.1]
  omega

end Progress
end SymbolRecovery
