import SymbolRecovery.Proofs.Completion
import SymbolRecovery.Proofs.Grounding

/-!
Records that are not accepted, whichever of the program's appliers are registered for whichever
kinds. Main statement: such a record leaves the context as it was, but for the placeholder of a
malformed begin record, which no part of the context names; and the cursor goes on by one record.
-/
namespace SymbolRecovery
open Lookup (standard)

/-- Kinds are given to appliers of the program, though not always to those meant for them. -/
def Lookup.Rearranges (lookup : Lookup) : Prop :=
  ∀ kind a, lookup kind = some a → ∃ meant, standard meant = some a

theorem Lookup.Rearranges.exists_role {lookup : Lookup} (rearranges : lookup.Rearranges)
    {kind : Kind} {a : Applier} (applier : lookup kind = some a) :
    ∃ role : Role, a.action = role.action ∧ a.digits = none := by
  obtain ⟨meant, registered⟩ := rearranges kind a applier
  obtain ⟨id, entered, -⟩ := Option.bind_eq_some_iff.1 registered
  obtain ⟨role, b, -, same, -, acts⟩ := Registry.applierFor?_of_entry entered
  cases registered.symm.trans same
  exact ⟨role, acts, Registry.digits_of_applierFor? registered⟩

namespace Context
variable {c : Context}

structure Apart (c : Context) (id : ScopeId) : Prop where
  not_top : id ∉ c.top
  not_child : ∀ owner, id ∉ c.nest.children owner
  not_walked : id ∉ c.walk
  not_waiting : .scope id ∉ c.unresolved

/-- A frame for the begin record is all that is new, with an empty scope that is kept nowhere. -/
structure Reserves (c : Context) (form : ScopeForm) (r : Record) (position : Nat) (d : Context) :
    Prop where
  eq : d = { c with
    arena := c.arena ++ [{ kind := form.kind, name := r.name, position }]
    stack := { scope := c.arena.length, endKinds := form.endKinds, below := c.currentScope? } ::
      c.stack }
  walk_eq : c.Grounded → d.walk = c.walk
  apart : c.Grounded → d.Apart c.arena.length

theorem reserves_pushScope (c : Context) (form : ScopeForm) (r : Record) (position : Nat) :
    c.Reserves form r position (c.pushScope (form.placeholder r position) form.endKinds) where
  eq := rfl
  walk_eq := fun grounded => walk_pushScope grounded _ _ _
  apart := by
    intro grounded
    have size := c.size_nest
    refine ⟨?_, ?_, ?_, ?_⟩
    · intro listed
      have known := grounded.nest.top _ listed
      omega
    · intro owner listed
      rw [nest_hold, Nest.children_hold] at listed
      have known := grounded.nest.children _ _ listed
      omega
    · rw [walk_pushScope grounded]
      exact fun member => Nat.lt_irrefl _ (lt_of_mem_walk member)
    · intro waits
      have there := grounded.waiting _ waits
      simp [spot?] at there

end Context

def Role.Leaves (role : Role) (c : Context) (r : Record) (position : Nat) (d : Context) : Prop :=
  match role with
  | .opens form => c.Reserves form r position d
  | .describes _ | .closes => d = c

namespace Applier

inductive Outcome (role : Role) (limit : Option Nat) (c : Context) (cursor : Cursor) (r : Record) :
    Applied → Prop where
  | accepted {d : Context} {onward : Cursor} {notes : List Note}
      (ahead : cursor.position < onward.position) :
      Outcome role limit c cursor r { context := d, cursor := onward, notes }
  | faulted {d : Context} {cause : FaultCause}
      (mismatched : cause.category = .dispatchMismatch → d = c)
      (malformed : cause.category = .malformedField → role.Leaves c r cursor.position d) :
      Outcome role limit c cursor r
        { context := d, cursor := cursor.advance, ending := .fault cause }
  | unprintable {digits : Nat} (limited : limit = some digits) :
      Outcome role limit c cursor r
        { context := c, cursor := cursor.advance, ending := .failure (.unprintable digits) }

variable {a : Applier} {c : Context} {cursor : Cursor} {r : Record}

theorem check_eq_error {cause : FaultCause} (fails : a.check r = .error cause) :
    cause = .wrongKind a.name r.kind ∨ cause = .truncated r.kind := by
  unfold check at fails
  split at fails
  · cases fails
    exact .inl rfl
  · split at fails
    · cases fails
      exact .inr rfl
    · cases fails

theorem outcome_change (subject : Subject) (inside : cursor.position < cursor.records.length) :
    Outcome (.describes subject) a.digits c cursor r (a.applyChange subject c cursor r) := by
  unfold applyChange
  split
  · next cause fails =>
    rcases check_eq_error fails with rfl | rfl
    · exact .faulted (fun _ => rfl) nofun
    · exact .faulted nofun fun _ => rfl
  · split
    · next fails => exact .unprintable ((subject.limits r cursor.position).eq_some fails)
    · exact .faulted nofun fun _ => rfl
    · refine .accepted ?_
      rw [Cursor.advance_position inside]
      exact Nat.lt_succ_self _

theorem outcome_begin (form : ScopeForm) (inside : cursor.position < cursor.records.length) :
    Outcome (.opens form) a.digits c cursor r (a.applyBegin form c cursor r) := by
  have reserved := c.reserves_pushScope form r cursor.position
  unfold applyBegin
  split
  · exact .faulted nofun fun _ => reserved
  · next cause whole fails =>
    rcases check_eq_error fails with rfl | rfl
    · exact .faulted (fun _ => rfl) nofun
    · exact absurd rfl (whole _)
  · split
    · next fails => exact .unprintable ((form.limits r cursor.position).eq_some fails)
    · exact .faulted nofun fun _ => reserved
    · next s read =>
      obtain ⟨notes, skipped⟩ := skipScope_eq_ok inside c form r s
      simp only [skipped]
      exact .accepted (cursor.lt_following _ _)

theorem outcome_end (inside : cursor.position < cursor.records.length) :
    Outcome .closes a.digits c cursor r (a.applyEnd c cursor r) := by
  unfold applyEnd
  split
  · next cause fails =>
    rcases check_eq_error fails with rfl | rfl
    · exact .faulted (fun _ => rfl) nofun
    · exact .faulted nofun fun _ => rfl
  · cases judged : c.imbalance? r.kind with
    | none =>
      refine .accepted ?_
      rw [Cursor.advance_position inside]
      exact Nat.lt_succ_self _
    | some cause =>
      have reason := Context.category_of_imbalance? judged
      refine .faulted ?_ ?_
      · rw [reason]
        exact nofun
      · rw [reason]
        exact nofun

theorem outcome_apply {role : Role} (acts : a.action = role.action)
    (inside : cursor.position < cursor.records.length) :
    Outcome role a.digits c cursor r (a.apply c cursor r) := by
  rw [apply_of_role acts]
  cases role with
  | describes subject => exact outcome_change subject inside
  | opens form => exact outcome_begin form inside
  | closes => exact outcome_end inside

end Applier

theorem Tally.eq_of_faults_addFault {t : Tally} {f g : Fault}
    (same : (t.addFault f).faults = t.faults ++ [g]) : f = g := by
  simpa [addFault] using same

namespace Progress
variable {lookup : Lookup} {p : Progress} {r : Record} {a : Applier} {d : Context}

theorem dispatch_of_unregistered (found : p.cursor.peek? = some r)
    (without : lookup r.kind = none) :
    (p.dispatch lookup).failure = none ∧
      (p.dispatch lookup).progress =
        ⟨p.context, { p.cursor with position := p.cursor.position + 1 },
          p.tally.addSkip ⟨p.cursor.position, some r.kind, .noApplier⟩⟩ := by
  simp [dispatch, found, without, skip, Cursor.advance_eq (Cursor.lt_length_of_peek? found)]

theorem dispatch_of_accepted {onward : Cursor} {notes : List Note}
    (found : p.cursor.peek? = some r) (applier : lookup r.kind = some a)
    (work : a.apply p.context p.cursor r = { context := d, cursor := onward, notes })
    (ahead : p.cursor.position < onward.position) :
    (p.dispatch lookup).failure = none ∧
      (p.dispatch lookup).progress = ⟨d, onward, p.tally.addProcessed⟩ := by
  have moved := Nat.ne_of_gt ahead
  simp [dispatch, found, applier, work, settle, moved]

theorem dispatch_of_faulted {cause : FaultCause} (found : p.cursor.peek? = some r)
    (applier : lookup r.kind = some a)
    (work : a.apply p.context p.cursor r =
      { context := d, cursor := p.cursor.advance, ending := .fault cause }) :
    (p.dispatch lookup).failure = none ∧
      (p.dispatch lookup).progress = ⟨d, { p.cursor with position := p.cursor.position + 1 },
        p.tally.addFault ⟨p.cursor.position, some r.kind, cause⟩⟩ := by
  rw [Cursor.advance_eq (Cursor.lt_length_of_peek? found)] at work
  simp [dispatch, found, applier, work, settle]

end Progress

/-- Whichever of the program's appliers a record is given to: if it is not accepted, nothing but
the placeholder of a begin record comes of it. -/
theorem rejected_record_leaves_context {lookup : Lookup} (rearranges : lookup.Rearranges)
    {p : Progress} {r : Record} (found : p.cursor.peek? = some r) :
    let step := p.dispatch lookup
    let q := step.progress
    let onward : Cursor := { p.cursor with position := p.cursor.position + 1 }
    step.failure = none ∧
    (∀ skip, q.tally.skips = p.tally.skips ++ [skip] → q.context = p.context ∧ q.cursor = onward) ∧
    ∀ fault, q.tally.faults = p.tally.faults ++ [fault] →
      (fault.category = .dispatchMismatch → q.context = p.context ∧ q.cursor = onward) ∧
      (fault.category = .malformedField → q.cursor = onward ∧
        ∃ (a : Applier) (role : Role), lookup r.kind = some a ∧ a.action = role.action ∧
          role.Leaves p.context r p.cursor.position q.context) := by
  intro step q onward
  have inside := Cursor.lt_length_of_peek? found
  cases applier : lookup r.kind with
  | none =>
    obtain ⟨succeeds, moves⟩ := Progress.dispatch_of_unregistered found applier
    change q = _ at moves
    rw [moves]
    refine ⟨succeeds, fun skip _ => ⟨rfl, rfl⟩, ?_⟩
    intro fault faults
    simp [Tally.addSkip] at faults
  | some a =>
    obtain ⟨role, acts, unlimited⟩ := rearranges.exists_role applier
    have outcome := Applier.outcome_apply (c := p.context) (r := r) acts inside
    generalize work : a.apply p.context p.cursor r = applied at outcome
    cases outcome with
    | accepted ahead =>
      obtain ⟨succeeds, moves⟩ := Progress.dispatch_of_accepted found applier work ahead
      change q = _ at moves
      rw [moves]
      refine ⟨succeeds, ?_, ?_⟩
      · intro skip skips
        simp [Tally.addProcessed] at skips
      · intro fault faults
        simp [Tally.addProcessed] at faults
    | faulted mismatched malformed =>
      obtain ⟨succeeds, moves⟩ := Progress.dispatch_of_faulted found applier work
      change q = _ at moves
      rw [moves]
      refine ⟨succeeds, ?_, ?_⟩
      · intro skip skips
        simp [Tally.addFault] at skips
      · intro fault faults
        rw [← Tally.eq_of_faults_addFault faults]
        refine ⟨?_, ?_⟩
        · exact fun reason => ⟨mismatched reason, rfl⟩
        · exact fun reason => ⟨rfl, a, role, rfl, acts, malformed reason⟩
    | unprintable limited =>
      rw [unlimited] at limited
      cases limited

/-- The applier of blocks stands in for that of labels. In a procedure, and without descending, it
first meets a block in section -1 and then a label. -/
theorem rejected_record_leaves_context_under_wrong_applier :
    let lookup : Lookup := fun kind => standard (if kind = Kind.label then Kind.block else kind)
    let procedure : Record := { kind := Kind.globalProcedure, sectionIndex := 1 }
    let block : Record := { kind := Kind.block, name := "b", sectionIndex := -1, endOffset := 8 }
    let label : Record := { kind := Kind.label }
    let close : Record := { kind := Kind.scopeEnd, offset := some 8 }
    let start : Context := { options := { descendScopes := false } }
    let c := start.operateAll [.dispatch ⟨[procedure], 0⟩]
    let p : Progress := ⟨c, ⟨[block, label, close], 0⟩, {}⟩
    let q := (p.dispatch lookup).progress
    lookup.Rearranges ∧ p.cursor.peek? = some block ∧
      c.Reserves .block block 0 q.context ∧ q.context.walk = c.walk ∧ q.context.Apart 1 ∧
      q.cursor.position = 1 ∧ (q.dispatch lookup).progress.context = q.context ∧
      (q.dispatch lookup).progress.cursor.position = 2 := by
  intro lookup procedure block label close start c p q
  have rearranges : lookup.Rearranges := fun kind a applier => ⟨_, applier⟩
  have found : p.cursor.peek? = some block := rfl
  have grounded : c.Grounded := Context.grounded_operateAll none _ _
  obtain ⟨-, -, first⟩ := rejected_record_leaves_context rearranges found
  have wrong : q.tally.faults =
      p.tally.faults ++ [⟨0, some Kind.block, .field (.sectionIndex "section" (-1) 0)⟩] := by
    decide +kernel
  obtain ⟨moved, a, role, applier, acts, left⟩ := (first _ wrong).2 rfl
  have reserves : c.Reserves .block block 0 q.context := by
    obtain ⟨b, same, -, plays⟩ := Registry.exists_applierFor?
      (rfl : Role.ofKind? Kind.block = some (.opens .block))
    cases same.symm.trans applier
    cases role <;> cases acts.symm.trans plays
    exact left
  have next : q.cursor.peek? = some label := by decide +kernel
  obtain ⟨-, -, second⟩ := rejected_record_leaves_context rearranges next
  have mismatch : (q.dispatch lookup).progress.tally.faults =
      q.tally.faults ++ [⟨1, some Kind.label, .wrongKind "BlockApplier" Kind.label⟩] := by
    decide +kernel
  obtain ⟨kept, onward⟩ := (second _ mismatch).1 rfl
  have size : c.arena.length = 1 := by decide +kernel
  refine ⟨rearranges, found, reserves, reserves.walk_eq grounded, ?_, ?_, kept, ?_⟩
  · exact size ▸ reserves.apart grounded
  · exact congrArg Cursor.position moved
  · rw [onward]
    exact congrArg (·.position + 1) moved

end SymbolRecovery
