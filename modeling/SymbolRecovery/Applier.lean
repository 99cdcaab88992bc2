import SymbolRecovery.Change
import SymbolRecovery.Cursor
import SymbolRecovery.Text.Utf8

/-!
What is done with the record under the cursor. An applier accepts records of certain kinds and
acts in one of a few ways; apart from those of the program itself there are custom ones, which may
read on, ask for the run to be cancelled, and report or raise whatever they like.

The result says what became of context and cursor and how the work ended: done, with a fault of the
record, or with a failure that is not the record's fault.
-/
namespace SymbolRecovery

/-- What ends the work on a record without being a fault of the record. -/
inductive Failure where
  | exhausted (position : Nat)
  | ended (message : String)
  | uncategorised (message : String)
  | unimplemented
  | noScopeKind (applier : String)
  | unprintable (digits : Nat)
  | raised (message : String)
deriving Repr, DecidableEq

namespace Failure

def endsRun : Failure → Bool
  | exhausted _ | ended _ => true
  | _ => false

/-- Most octets that are shown of the name of an applier without a kind of scope. -/
def nameLimit : Nat := 50

def message : Failure → String
  | exhausted position => (CursorError.exhausted position).message
  | ended message => message
  | uncategorised message => message
  | unimplemented => ""
  | noScopeKind applier =>
    s!"'{Text.Utf8.cut nameLimit applier}' object has no attribute 'SCOPE_KIND'"
  | unprintable digits => (FieldError.unprintable digits).message
  | raised message => message

end Failure

inductive Ending where
  | done
  | fault (cause : FaultCause)
  | failure (failure : Failure)
deriving Repr, DecidableEq

/-- How the work ends that raises an error. Only a fault with a category counts as one. -/
def Ending.raising (e : ErrorClass) (message : String) : Ending :=
  match e with
  | .error | .other _ => .failure (.raised message)
  | .endOfStream => .failure (.ended message)
  | raised =>
    match FaultCategory.ofError raised with
    | .ok category => .fault (.reported category message)
    | .error unknown => .failure (.uncategorised unknown)

/-- What a custom applier does with a record: read so many records, then ask for cancellation or
not, then end. It has no say after the end of the records is reached. -/
structure Script where
  readAhead : Nat := 0
  cancels : Bool := false
  ending : Ending := .done
deriving Repr, DecidableEq

inductive Action where
  | change (subject : Subject)
  | beginScope (form : ScopeForm)
  | beginUnnamedScope (addressed : Bool)
  | endScope
  | look
  | unimplemented
  | custom (script : Context → Cursor → Script)

structure Applier where
  name : String
  kinds : List Kind
  action : Action
  digits : Option Nat := none

structure Applied where
  context : Context
  cursor : Cursor
  ending : Ending := .done
  notes : List Note := []
  cancels : Bool := false

inductive Landing where
  | closes (position : Nat)
  | notAhead
  | wrongKind (found : Kind)
deriving Repr, DecidableEq

def Cursor.landing (cursor : Cursor) (endOffset : Int) (endKinds : List Kind) :
    Except CursorError Landing :=
  match cursor.indexOf? endOffset with
  | none => .ok .notAhead
  | some position =>
    if position < cursor.position then .ok .notAhead
    else match cursor.records[position]? with
      | none => .error (.exhausted position)
      | some r => .ok (if r.kind ∈ endKinds then .closes position else .wrongKind r.kind)

namespace Applier

def check (a : Applier) (r : Record) : Except FaultCause Unit :=
  if r.kind ∉ a.kinds then .error (.wrongKind a.name r.kind)
  else if r.truncated then .error (.truncated r.kind)
  else .ok ()

def applyChange (a : Applier) (subject : Subject) (c : Context) (cursor : Cursor) (r : Record) :
    Applied :=
  match a.check r with
  | .error cause => { context := c, cursor := cursor.advance, ending := .fault cause }
  | .ok () =>
    match subject.read r cursor.position a.digits with
    | .error (.unprintable digits) =>
      { context := c, cursor := cursor.advance, ending := .failure (.unprintable digits) }
    | .error e => { context := c, cursor := cursor.advance, ending := .fault (.field e) }
    | .ok change =>
      { context := c.make change, cursor := cursor.advance, notes := c.makeNotes change }

/-- Without descending, go on at the end record that the begin record points at. -/
def skipScope (c : Context) (cursor : Cursor) (form : ScopeForm) (r : Record) :
    Except CursorError (Cursor × List Note) :=
  match ScopeForm.endOffset? r with
  | none => .ok (cursor, [])
  | some endOffset =>
    if c.options.descendScopes then .ok (cursor, [])
    else match cursor.landing endOffset form.endKinds with
      | .error e => .error e
      | .ok (.closes position) => (cursor.jump position).map (·, [])
      | .ok .notAhead => .ok (cursor, [.endNotAhead r.kind r.name endOffset])
      | .ok (.wrongKind found) => .ok (cursor, [.endOfWrongKind r.kind r.name endOffset found])

/-- A begin record of the right kind leaves a frame on the stack unless its fault cannot be told. -/
def applyBegin (a : Applier) (form : ScopeForm) (c : Context) (cursor : Cursor) (r : Record) :
    Applied :=
  let malformed (cause : FaultCause) : Applied :=
    { context := c.pushScope (form.placeholder r cursor.position) form.endKinds
      cursor := cursor.advance, ending := .fault cause }
  match a.check r with
  | .error (.truncated kind) => malformed (.truncated kind)
  | .error cause => { context := c, cursor := cursor.advance, ending := .fault cause }
  | .ok () =>
    match form.read r cursor.position a.digits with
    | .error (.unprintable digits) =>
      { context := c, cursor := cursor.advance, ending := .failure (.unprintable digits) }
    | .error e => malformed (.field e)
    | .ok s =>
      let context := c.enterScope form s (ScopeForm.endOffset? r)
      let notes := c.enterScopeNotes form s
      match skipScope c cursor.advance form r with
      | .ok skipped => { context, cursor := skipped.1, notes := notes ++ skipped.2 }
      | .error e =>
        { context, cursor := cursor.advance, ending := .failure (.raised e.message), notes }

def applyUnnamedBegin (a : Applier) (addressed : Bool) (c : Context) (cursor : Cursor)
    (r : Record) : Applied :=
  let ending := match a.check r with
    | .error (.truncated _) => .failure (.noScopeKind a.name)
    | .error cause => .fault cause
    | .ok () => .failure (if addressed then .noScopeKind a.name else .unimplemented)
  { context := c, cursor := cursor.advance, ending }

def applyEnd (a : Applier) (c : Context) (cursor : Cursor) (r : Record) : Applied :=
  match a.check r with
  | .error cause => { context := c, cursor := cursor.advance, ending := .fault cause }
  | .ok () =>
    { context := c.closeScope r.kind, cursor := cursor.advance
      ending := match c.imbalance? r.kind with
        | some cause => .fault cause
        | none => .done }

def applyLook (a : Applier) (c : Context) (cursor : Cursor) (r : Record) : Applied :=
  { context := c, cursor
    ending := match a.check r with
      | .error cause => .fault cause
      | .ok () => .done }

def applyScript (script : Script) (c : Context) (cursor : Cursor) : Applied :=
  match cursor.readAhead script.readAhead with
  | (.ok (), cursor) =>
    { context := c, cursor, ending := script.ending, cancels := script.cancels }
  | (.error _, cursor) =>
    { context := c, cursor, ending := .failure (.exhausted cursor.position) }

def apply (a : Applier) (c : Context) (cursor : Cursor) (r : Record) : Applied :=
  match a.action with
  | .change subject => a.applyChange subject c cursor r
  | .beginScope form => a.applyBegin form c cursor r
  | .beginUnnamedScope addressed => a.applyUnnamedBegin addressed c cursor r
  | .endScope => a.applyEnd c cursor r
  | .look => a.applyLook c cursor r
  | .unimplemented => { context := c, cursor, ending := .failure .unimplemented }
  | .custom script => applyScript (script c cursor) c cursor

theorem skipScope_cases {c : Context} {cursor : Cursor} {form : ScopeForm} {r : Record}
    {skipped : Cursor × List Note} (succeeds : skipScope c cursor form r = .ok skipped) :
    skipped.1 = cursor ∨ ∃ target : Nat, cursor.jump target = .ok skipped.1 := by
  unfold skipScope at succeeds
  split at succeeds
  · cases succeeds
    exact .inl rfl
  · split at succeeds
    · cases succeeds
      exact .inl rfl
    · split at succeeds
      · cases succeeds
      · next position _ =>
        cases jumped : cursor.jump position with
        | error e => simp [jumped, Except.map] at succeeds
        | ok moved =>
          simp only [jumped, Except.map, Except.ok.injEq] at succeeds
          subst succeeds
          exact .inr ⟨position, jumped⟩
      · cases succeeds
        exact .inl rfl
      · cases succeeds
        exact .inl rfl

theorem cursor_apply (a : Applier) (c : Context) (cursor : Cursor) (r : Record) :
    (∃ count, (a.apply c cursor r).cursor = (cursor.readAhead count).2) ∨
      ∃ target : Nat, cursor.advance.jump target = .ok (a.apply c cursor r).cursor := by
  have none : ∃ count, cursor = (cursor.readAhead count).2 := ⟨0, rfl⟩
  have one : ∃ count, cursor.advance = (cursor.readAhead count).2 := ⟨1, cursor.readAhead_one.symm⟩
  unfold apply
  cases a.action with
  | change subject =>
    refine .inl ?_
    simp only [applyChange]
    split
    · exact one
    · split <;> exact one
  | beginScope form =>
    simp only [applyBegin]
    split
    · exact .inl one
    · exact .inl one
    · split
      · exact .inl one
      · exact .inl one
      · split
        · next skipped succeeds =>
          rcases skipScope_cases succeeds with stays | jumps
          · exact .inl (stays ▸ one)
          · exact .inr jumps
        · exact .inl one
  | beginUnnamedScope addressed => exact .inl one
  | endScope =>
    refine .inl ?_
    simp only [applyEnd]
    split <;> exact one
  | look => exact .inl none
  | unimplemented => exact .inl none
  | custom script =>
    refine .inl ⟨(script c cursor).readAhead, ?_⟩
    simp only [applyScript]
    split <;> simp_all

theorem precedes_apply (a : Applier) (c : Context) (cursor : Cursor) (r : Record) :
    cursor.Precedes (a.apply c cursor r).cursor := by
  rcases a.cursor_apply c cursor r with ⟨count, reads⟩ | ⟨target, jumps⟩
  · rw [reads]
    exact cursor.precedes_readAhead count
  · exact cursor.precedes_advance.trans (Cursor.precedes_jump jumps)

end Applier
end SymbolRecovery
