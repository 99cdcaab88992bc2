import SymbolRecovery.Dispatch
import SymbolRecovery.Proofs.Fields
import SymbolRecovery.Proofs.Role

/-!
One step of a run with the program's appliers, said without appliers. What a record asks for
depends on the record and its position alone; what becomes of it depends on the context; and only
a begin record that is accepted looks at other records, to find its end record. Main statement: a
step always succeeds where there is a record, and does exactly this.
-/
namespace SymbolRecovery

/-- What a record asks for. -/
inductive Effect where
  | ignored
  | refused (cause : FaultCause)
  | describes (change : Change)
  | holds (form : ScopeForm) (placeholder : Scope) (cause : FaultCause)
  | opens (form : ScopeForm) (scope : Scope) (endOffset : Option Int)
  | closes (kind : Kind)
deriving Repr, DecidableEq

def Effect.error? : Effect → Option FieldError
  | .refused (.field e) | .holds _ _ (.field e) => some e
  | _ => none

def Effect.Printable (digits : Option Nat) (effect : Effect) : Prop :=
  ∀ e ∈ effect.error?, e.within digits = e

inductive Verdict where
  | skipped
  | processed
  | faulted (cause : FaultCause)
deriving Repr, DecidableEq

namespace Record

def unlessTruncated {α : Type} (r : Record) (read : Except FieldError α) : Except FaultCause α :=
  if r.truncated then .error (.truncated r.kind)
  else match read with
    | .error e => .error (.field e)
    | .ok value => .ok value

def effect (r : Record) (position : Nat) : Effect :=
  match Role.ofKind? r.kind with
  | none => .ignored
  | some (.describes subject) =>
    match r.unlessTruncated (subject.read r position) with
    | .error cause => .refused cause
    | .ok change => .describes change
  | some (.opens form) =>
    match r.unlessTruncated (form.read r position) with
    | .error cause => .holds form (form.placeholder r position) cause
    | .ok s => .opens form s (ScopeForm.endOffset? r)
  | some .closes =>
    match r.unlessTruncated (.ok r.kind) with
    | .error cause => .refused cause
    | .ok kind => .closes kind

theorem effect_ne_ignored {r : Record} {role : Role} (given : Role.ofKind? r.kind = some role)
    (position : Nat) : r.effect position ≠ .ignored := by
  unfold effect
  rw [given]
  cases role with
  | describes subject => dsimp only; split <;> simp
  | opens form => dsimp only; split <;> simp
  | closes => dsimp only; split <;> simp

theorem effect_eq_ignored_iff (r : Record) (position : Nat) :
    r.effect position = .ignored ↔ Role.ofKind? r.kind = none := by
  cases given : Role.ofKind? r.kind with
  | none => simp [effect, given]
  | some role => simp [effect_ne_ignored given]

section
variable {r : Record} {position : Nat} {digits : Option Nat} {e : FieldError}

theorem error?_describes {subject : Subject} (whole : r.truncated = false)
    (given : Role.ofKind? r.kind = some (.describes subject)) :
    (r.effect position).error? = some e ↔ subject.read r position = .error e := by
  unfold effect
  rw [given]
  cases read : subject.read r position <;> simp [unlessTruncated, whole, read, Effect.error?]

theorem error?_opens {form : ScopeForm} (whole : r.truncated = false)
    (given : Role.ofKind? r.kind = some (.opens form)) :
    (r.effect position).error? = some e ↔ form.read r position = .error e := by
  unfold effect
  rw [given]
  cases read : form.read r position <;> simp [unlessTruncated, whole, read, Effect.error?]

theorem subjectRead_of_printable {subject : Subject}
    (given : Role.ofKind? r.kind = some (.describes subject)) (whole : r.truncated = false)
    (printable : (r.effect position).Printable digits) :
    subject.read r position digits = subject.read r position :=
  (subject.limits r position).eq_of_printable fun e fails =>
    printable e ((error?_describes whole given).2 fails)

theorem formRead_of_printable {form : ScopeForm}
    (given : Role.ofKind? r.kind = some (.opens form)) (whole : r.truncated = false)
    (printable : (r.effect position).Printable digits) :
    form.read r position digits = form.read r position :=
  (form.limits r position).eq_of_printable fun e fails =>
    printable e ((error?_opens whole given).2 fails)

end
end Record

def Verdict.cause? : Verdict → Option FaultCause
  | .skipped | .processed => none
  | .faulted cause => some cause

namespace Context

def perform (c : Context) : Effect → Context
  | .ignored | .refused _ => c
  | .describes change => c.make change
  | .holds form placeholder _ => c.pushScope placeholder form.endKinds
  | .opens form s endOffset => c.enterScope form s endOffset
  | .closes kind => c.closeScope kind

def verdict (c : Context) : Effect → Verdict
  | .ignored => .skipped
  | .refused cause | .holds _ _ cause => .faulted cause
  | .describes _ | .opens .. => .processed
  | .closes kind =>
    match c.imbalance? kind with
    | none => .processed
    | some cause => .faulted cause

theorem eq_ignored_of_verdict {c : Context} {effect : Effect}
    (skipped : c.verdict effect = .skipped) : effect = .ignored := by
  unfold verdict at skipped
  split at skipped
  · rfl
  · cases skipped
  · cases skipped
  · cases skipped
  · cases skipped
  · split at skipped <;> cases skipped

theorem verdict_eq_skipped_iff {c : Context} {effect : Effect} :
    c.verdict effect = .skipped ↔ effect = .ignored :=
  ⟨eq_ignored_of_verdict, fun ignored => by rw [ignored]; rfl⟩

end Context

namespace Tally

def count (t : Tally) (position : Nat) (kind : Kind) : Verdict → Tally
  | .skipped => t.addSkip ⟨position, some kind, .noApplier⟩
  | .processed => t.addProcessed
  | .faulted cause => t.addFault ⟨position, some kind, cause⟩

theorem faults_count (t : Tally) (position : Nat) (kind : Kind) (verdict : Verdict) :
    (t.count position kind verdict).faults =
      t.faults ++ (verdict.cause?.map fun cause => ⟨position, some kind, cause⟩).toList := by
  cases verdict <;> simp [count, addSkip, addProcessed, addFault, Verdict.cause?]

end Tally

namespace Cursor

/-- Position of the record that an end offset points at, if it lies behind the record under the
cursor and is of one of the kinds. -/
def target? (cursor : Cursor) (endOffset : Int) (endKinds : List Kind) : Option Nat :=
  (cursor.indexOf? endOffset).filter fun position =>
    cursor.position < position ∧ (cursor.records[position]?).any fun r => r.kind ∈ endKinds

def following (cursor : Cursor) (descends : Bool) : Effect → Nat
  | .opens form _ (some endOffset) =>
    if descends then cursor.position + 1
    else (cursor.target? endOffset form.endKinds).getD (cursor.position + 1)
  | _ => cursor.position + 1

theorem target?_eq_some {cursor : Cursor} {endOffset : Int} {endKinds : List Kind} {target : Nat}
    (found : cursor.target? endOffset endKinds = some target) :
    cursor.indexOf? endOffset = some target ∧ cursor.position < target ∧
      ∃ r, cursor.records[target]? = some r ∧ r.kind ∈ endKinds := by
  simpa [target?, Option.filter_eq_some_iff, Option.any_eq_true] using found

theorem lt_following (cursor : Cursor) (descends : Bool) (effect : Effect) :
    cursor.position < cursor.following descends effect := by
  unfold following
  split
  · next form s endOffset =>
    split
    · exact Nat.lt_succ_self _
    · cases found : cursor.target? endOffset form.endKinds with
      | none => exact Nat.lt_succ_self _
      | some target => exact (target?_eq_some found).2.1
  · exact Nat.lt_succ_self _

theorem following_le_length {cursor : Cursor} (inside : cursor.position < cursor.records.length)
    (descends : Bool) (effect : Effect) :
    cursor.following descends effect ≤ cursor.records.length := by
  unfold following
  split
  · next form s endOffset =>
    split
    · exact inside
    · cases found : cursor.target? endOffset form.endKinds with
      | none => exact inside
      | some target => exact Nat.le_of_lt (indexOf?_lt_length (target?_eq_some found).1)
  · exact inside

theorem following_of_descends (cursor : Cursor) (effect : Effect) :
    cursor.following true effect = cursor.position + 1 := by
  unfold following
  split <;> rfl

end Cursor

def Progress.next (p : Progress) (r : Record) : Progress :=
  let effect := r.effect p.cursor.position
  let position := p.cursor.following p.context.options.descendScopes effect
  { context := p.context.perform effect, cursor := { p.cursor with position }
    tally := p.tally.count p.cursor.position r.kind (p.context.verdict effect) }

def Progress.fault? (p : Progress) (r : Record) : Option Fault :=
  (p.context.verdict (r.effect p.cursor.position)).cause?.map fun cause =>
    ⟨p.cursor.position, some r.kind, cause⟩

theorem Progress.faults_next (p : Progress) (r : Record) :
    (p.next r).tally.faults = p.tally.faults ++ (p.fault? r).toList :=
  Tally.faults_count _ _ _ _

namespace Applier

/-- The guards in front of the jump leave it nothing to refuse: the end record is there, and it is
not behind the cursor. -/
theorem skipScope_eq_ok {cursor : Cursor} (inside : cursor.position < cursor.records.length)
    (c : Context) (form : ScopeForm) (r : Record) (s : Scope) :
    ∃ notes, skipScope c cursor.advance form r =
      .ok (⟨cursor.records, cursor.following c.options.descendScopes
        (.opens form s (ScopeForm.endOffset? r))⟩, notes) := by
  rw [Cursor.advance_eq inside]
  unfold skipScope Cursor.following
  cases ScopeForm.endOffset? r with
  | none => exact ⟨_, rfl⟩
  | some endOffset =>
    dsimp only
    split
    · exact ⟨_, rfl⟩
    · unfold Cursor.landing Cursor.target? Cursor.indexOf?
      cases known : lastAtOffset? endOffset cursor.records with
      | none => exact ⟨_, rfl⟩
      | some target =>
        have within := lastAtOffset?_lt_length known
        have there := List.getElem?_eq_getElem within
        dsimp only
        by_cases behind : target < cursor.position + 1
        · have notAhead : ¬ cursor.position < target := by omega
          simp [behind, notAhead, Option.filter]
        · have ahead : cursor.position < target := by omega
          by_cases closes : cursor.records[target].kind ∈ form.endKinds
          · have jumped : (⟨cursor.records, cursor.position + 1⟩ : Cursor).jump target =
                .ok ⟨cursor.records, target⟩ :=
              Cursor.jump_eq_ok ahead (Nat.le_of_lt within)
            simp [behind, there, closes, ahead, jumped, Except.map, Option.filter]
          · simp [behind, there, closes, Option.filter]

theorem check_eq {a : Applier} {r : Record} (accepts : r.kind ∈ a.kinds) :
    a.check r = if r.truncated then .error (.truncated r.kind) else .ok () := by
  simp [check, accepts]

def ending (verdict : Verdict) : Ending :=
  match verdict with
  | .faulted cause => .fault cause
  | .skipped | .processed => .done

structure Does (work : Applied) (c : Context) (cursor : Cursor) (effect : Effect) : Prop where
  context_eq : work.context = c.perform effect
  cursor_eq : work.cursor =
    ⟨cursor.records, cursor.following c.options.descendScopes effect⟩
  ending_eq : work.ending = ending (c.verdict effect)
  cancels_eq : work.cancels = false

variable {a : Applier} {r : Record} {cursor : Cursor}

theorem applyChange_does (accepts : r.kind ∈ a.kinds) {subject : Subject}
    (given : Role.ofKind? r.kind = some (.describes subject))
    (printable : (r.effect cursor.position).Printable a.digits)
    (inside : cursor.position < cursor.records.length) (c : Context) :
    Does (a.applyChange subject c cursor r) c cursor (r.effect cursor.position) := by
  unfold applyChange
  rw [check_eq accepts, Cursor.advance_eq inside]
  cases early : r.truncated with
  | true => constructor <;> simp [Record.effect, given, Record.unlessTruncated, early] <;> rfl
  | false =>
    rw [Record.subjectRead_of_printable given early printable]
    unfold Record.effect
    cases read : subject.read r cursor.position with
    | error e =>
      have told := read ▸ (subject.limits r cursor.position).told
      cases e with
      | unprintable digits => exact absurd rfl (told digits)
      | _ => constructor <;> simp [given, Record.unlessTruncated, early, read] <;> rfl
    | ok change => constructor <;> simp [given, Record.unlessTruncated, early, read] <;> rfl

theorem applyBegin_does (accepts : r.kind ∈ a.kinds) {form : ScopeForm}
    (given : Role.ofKind? r.kind = some (.opens form))
    (printable : (r.effect cursor.position).Printable a.digits)
    (inside : cursor.position < cursor.records.length) (c : Context) :
    Does (a.applyBegin form c cursor r) c cursor (r.effect cursor.position) := by
  unfold applyBegin
  rw [check_eq accepts]
  cases early : r.truncated with
  | true =>
    rw [Cursor.advance_eq inside]
    constructor <;> simp [Record.effect, given, Record.unlessTruncated, early] <;> rfl
  | false =>
    rw [Record.formRead_of_printable given early printable]
    unfold Record.effect
    cases read : form.read r cursor.position with
    | error e =>
      rw [Cursor.advance_eq inside]
      have told := read ▸ (form.limits r cursor.position).told
      cases e with
      | unprintable digits => exact absurd rfl (told digits)
      | _ => constructor <;> simp [given, Record.unlessTruncated, early, read] <;> rfl
    | ok s =>
      obtain ⟨notes, skipped⟩ := skipScope_eq_ok inside c form r s
      constructor <;> simp [given, Record.unlessTruncated, early, read, skipped] <;> rfl

theorem applyEnd_does (accepts : r.kind ∈ a.kinds)
    (given : Role.ofKind? r.kind = some .closes)
    (inside : cursor.position < cursor.records.length) (c : Context) :
    Does (a.applyEnd c cursor r) c cursor (r.effect cursor.position) := by
  unfold applyEnd Record.effect
  rw [check_eq accepts, given, Cursor.advance_eq inside]
  cases early : r.truncated with
  | true => constructor <;> simp [Record.unlessTruncated, early] <;> rfl
  | false =>
    simp only [Record.unlessTruncated, early, Bool.false_eq_true, ↓reduceIte]
    refine ⟨rfl, rfl, ?_, rfl⟩
    simp only [Context.verdict]
    cases c.imbalance? r.kind <;> rfl

def applyAs (a : Applier) (role : Role) (c : Context) (cursor : Cursor) (r : Record) : Applied :=
  match role with
  | .describes subject => a.applyChange subject c cursor r
  | .opens form => a.applyBegin form c cursor r
  | .closes => a.applyEnd c cursor r

theorem apply_of_role {role : Role} (acts : a.action = role.action) (c : Context) (cursor : Cursor)
    (r : Record) : a.apply c cursor r = a.applyAs role c cursor r := by
  unfold apply
  cases role <;> rw [acts] <;> rfl

theorem apply_does (accepts : r.kind ∈ a.kinds) {role : Role}
    (given : Role.ofKind? r.kind = some role) (acts : a.action = role.action)
    (printable : (r.effect cursor.position).Printable a.digits)
    (inside : cursor.position < cursor.records.length) (c : Context) :
    Does (a.apply c cursor r) c cursor (r.effect cursor.position) := by
  rw [apply_of_role acts]
  cases role with
  | describes subject => exact applyChange_does accepts given printable inside c
  | opens form => exact applyBegin_does accepts given printable inside c
  | closes => exact applyEnd_does accepts given inside c

end Applier

namespace Progress

theorem dispatch_of_does {lookup : Lookup} {p : Progress} {r : Record} {a : Applier}
    (found : p.cursor.peek? = some r) (applier : lookup r.kind = some a)
    (does : Applier.Does (a.apply p.context p.cursor r) p.context p.cursor
      (r.effect p.cursor.position))
    (counted : r.effect p.cursor.position ≠ .ignored) :
    let step := p.dispatch lookup
    step.failure = none ∧ step.progress = p.next r ∧ step.cancels = false := by
  have moved := Nat.ne_of_gt (p.cursor.lt_following p.context.options.descendScopes
    (r.effect p.cursor.position))
  simp only [dispatch, found, applier, next]
  rw [does.ending_eq]
  cases judged : p.context.verdict (r.effect p.cursor.position) with
  | skipped => exact absurd (Context.eq_ignored_of_verdict judged) counted
  | processed =>
    simp [Applier.ending, settle, moved, does.context_eq, does.cursor_eq, does.cancels_eq,
      Tally.count]
  | faulted cause =>
    simp [Applier.ending, settle, moved, does.context_eq, does.cursor_eq, does.cancels_eq,
      Tally.count]

/-- A step over a record succeeds and does what the record asks for. -/
theorem dispatch_standard {p : Progress} {r : Record} (found : p.cursor.peek? = some r) :
    let step := p.dispatch Registry.standard.applierFor?
    step.failure = none ∧ step.progress = p.next r ∧ step.cancels = false := by
  have inside := Cursor.lt_length_of_peek? found
  cases given : Role.ofKind? r.kind with
  | none =>
    have without := Registry.applierFor?_eq_none given
    have ignored : r.effect p.cursor.position = .ignored := by simp [Record.effect, given]
    simp [dispatch, found, without, skip, next, ignored, Context.perform, Context.verdict,
      Tally.count, Cursor.following, Cursor.advance_eq inside]
  | some role =>
    obtain ⟨a, applier, accepts, acts⟩ := Registry.exists_applierFor? given
    have printable : (r.effect p.cursor.position).Printable a.digits := by
      rw [Registry.digits_of_applierFor? applier]
      exact fun _ _ => rfl
    exact dispatch_of_does found applier
      (Applier.apply_does accepts given acts printable inside p.context)
      (Record.effect_ne_ignored given _)

theorem dispatch_exhausted {lookup : Lookup} {p : Progress} (ended : p.cursor.peek? = none) :
    p.dispatch lookup = { progress := p, failure := some (.exhausted p.cursor.position) } := by
  simp [dispatch, ended]

end Progress
end SymbolRecovery
