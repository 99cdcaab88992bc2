import SymbolRecovery.Dispatch
import SymbolRecovery.Registry
import SymbolRecovery.Text.IntegerLiteral

/-!
A run applies record after record until the records are at their end or a token says that the run
is cancelled. The token is asked once before every record and once more at the end. A run that
comes to the end reports the scopes that are still open, which stay on the stack.
-/
namespace SymbolRecovery

/-- The appliers of a registry as the program runs them: a number in one of their messages has no
more decimal digits than a number that is read. -/
def Registry.lookup (registry : Registry) : Lookup :=
  Lookup.limited registry.applierFor? Text.IntegerLiteral.decimalLimit

/-- How a run is told to stop: by a flag, or by being asked more often than a limit says. -/
inductive Token where
  | flag (isSet : Bool)
  | countdown (limit : Int) (asked : Nat := 0)
deriving Repr, DecidableEq

namespace Token

def ask : Token → Bool × Token
  | flag isSet => (isSet, flag isSet)
  | countdown limit asked => (limit < asked + 1, countdown limit (asked + 1))

def cancel : Token → Token
  | flag _ => flag true
  | countdown limit asked => countdown limit asked

end Token

inductive RunStatus where
  | completed | cancelled
deriving Repr, DecidableEq

def RunStatus.name : RunStatus → String
  | completed => "completed"
  | cancelled => "cancelled"

structure RunOutcome where
  progress : Progress
  /-- A run ends with a status, unless an applier fails in a way that is no fault of a record. -/
  ending : Except Failure RunStatus
  token : Token
  notes : List Note := []
  cancels : Bool := false

namespace Progress

def unclosed? (p : Progress) : Option Fault :=
  if p.context.options.reportUnclosed ∧ p.context.stack ≠ [] then
    some ⟨p.cursor.position, none, .unclosed (p.context.stack.map p.context.label)⟩
  else none

def report (p : Progress) (report : Option Fault) : Progress :=
  match report with
  | some fault => { p with tally := p.tally.addReport fault }
  | none => p

def finishNotes (p : Progress) : List Note :=
  p.unclosed?.toList.map .unclosed ++ [.finished p.tally.processed p.tally.skipped p.tally.faulted]

def run (lookup : Lookup) (p : Progress) (token : Token) : RunOutcome :=
  let asked := token.ask
  if asked.1 then
    { progress := p, ending := .ok .cancelled, token := asked.2
      notes := [.cancelled p.cursor.position p.cursor.length] }
  else
    let step := p.dispatch lookup
    let token := if step.cancels then asked.2.cancel else asked.2
    match _succeeds : step.failure with
    | none =>
      let rest := step.progress.run lookup token
      { rest with notes := step.notes ++ rest.notes, cancels := step.cancels || rest.cancels }
    | some failure =>
      if failure.endsRun then
        { progress := step.progress.report step.progress.unclosed?, ending := .ok .completed, token
          notes := step.notes ++ step.progress.finishNotes, cancels := step.cancels }
      else
        { progress := step.progress, ending := .error failure, token, notes := step.notes
          cancels := step.cancels }
termination_by p.cursor.remaining
decreasing_by exact dispatch_remaining_lt _succeeds

end Progress

def run (lookup : Lookup) (context : Context) (cursor : Cursor) (token : Token := .flag false) :
    RunOutcome :=
  let outcome := ({ context, cursor } : Progress).run lookup token
  { outcome with notes := .started cursor.length cursor.position :: outcome.notes }

end SymbolRecovery
