import SymbolRecovery.Proofs.Classes
import SymbolRecovery.Proofs.Completion

/-!
End records on any stack. Main statement: an end record closes the innermost scope that waits for
its kind and gives up those above it, or gives up all if none waits for it; it is counted as
processed if the scope on top is the one that it closes, and is reported once otherwise.
-/
namespace SymbolRecovery
open Lookup (standard)

/-- The frame is the first from the top that the kind closes. -/
structure Innermost (kind : Kind) (stack above : List OpenScope) (o : OpenScope)
    (below : List OpenScope) : Prop where
  split : stack = above ++ o :: below
  passed : ∀ other ∈ above, other.closedBy kind = false
  closes : o.closedBy kind = true

variable {kind : Kind} {stack above below : List OpenScope} {o : OpenScope}

theorem exists_innermost (waits : ∃ o ∈ stack, o.closedBy kind = true) :
    ∃ above o below, Innermost kind stack above o below := by
  induction stack with
  | nil =>
    obtain ⟨o, member, -⟩ := waits
    cases member
  | cons top rest ih =>
    cases closes : top.closedBy kind with
    | true => exact ⟨[], top, rest, rfl, nofun, closes⟩
    | false =>
      obtain ⟨o, member, waiting⟩ := waits
      have later : o ∈ rest := by
        rcases List.mem_cons.1 member with rfl | later
        · rw [closes] at waiting
          cases waiting
        · exact later
      obtain ⟨above, inner, below, found⟩ := ih ⟨o, later, waiting⟩
      refine ⟨top :: above, inner, below, ?_, ?_, found.closes⟩
      · rw [found.split, List.cons_append]
      · exact List.forall_mem_cons.2 ⟨closes, found.passed⟩

theorem innermost_or_passed (kind : Kind) (stack : List OpenScope) :
    (∃ above o below, Innermost kind stack above o below) ∨
      ∀ o ∈ stack, o.closedBy kind = false := by
  by_cases waits : ∃ o ∈ stack, o.closedBy kind = true
  · exact .inl (exists_innermost waits)
  · exact .inr (by simpa using waits)

theorem Innermost.unwind_eq (innermost : Innermost kind stack above o below) :
    unwind kind stack = ⟨some o, above, below⟩ := by
  obtain ⟨rfl, passed, closes⟩ := innermost
  induction above with
  | nil => rw [List.nil_append, unwind, if_pos closes]
  | cons top rest ih =>
    obtain ⟨stays, others⟩ := List.forall_mem_cons.1 passed
    rw [List.cons_append, unwind, stays, ih others]
    rfl

theorem unwind_of_passed (passed : ∀ o ∈ stack, o.closedBy kind = false) :
    unwind kind stack = ⟨none, stack, []⟩ := by
  induction stack with
  | nil => rfl
  | cons top rest ih =>
    obtain ⟨stays, others⟩ := List.forall_mem_cons.1 passed
    rw [unwind, stays, ih others]
    rfl

theorem isClean_unwind_iff :
    (unwind kind stack).isClean = true ↔
      ∃ top below, stack = top :: below ∧ top.closedBy kind = true := by
  cases stack with
  | nil => simp [unwind, Unwinding.isClean]
  | cons top rest =>
    cases closes : top.closedBy kind <;> simp [unwind, closes, Unwinding.isClean]

namespace Context
variable {c : Context}

theorem closeScope_of_innermost (innermost : Innermost kind c.stack above o below) :
    c.closeScope kind = { c with
      stack := below, arena := c.arena.modify o.scope fun s => { s with closed := true } } := by
  rw [closeScope_eq, unwinding, innermost.unwind_eq]

theorem scope?_closeScope_of_innermost (innermost : Innermost kind c.stack above o below)
    (id : ScopeId) :
    (c.closeScope kind).scope? id =
      if id = o.scope then (c.scope? id).map fun s => { s with closed := true }
      else c.scope? id := by
  rw [closeScope_of_innermost innermost, scope?, List.getElem?_modify]
  by_cases here : id = o.scope
  · rw [if_pos here, here, scope?]
    simp
  · rw [if_neg here, scope?]
    simp [Ne.symm here]

theorem closeScope_of_passed (passed : ∀ o ∈ c.stack, o.closedBy kind = false) :
    c.closeScope kind = { c with stack := [] } := by
  rw [closeScope_eq, unwinding, unwind_of_passed passed]

theorem verdict_closes_eq_processed_iff :
    c.verdict (.closes kind) = .processed ↔
      ∃ top below, c.stack = top :: below ∧ top.closedBy kind = true := by
  rw [← isClean_unwind_iff, verdict, imbalance?, unwinding]
  cases (unwind kind c.stack).isClean <;> simp

theorem verdict_closes_of_unclean
    (unclean : ¬ ∃ top below, c.stack = top :: below ∧ top.closedBy kind = true) :
    ∃ cause, cause.category = .scopeImbalance ∧ c.verdict (.closes kind) = .faulted cause := by
  cases judged : c.imbalance? kind with
  | none => exact absurd (verdict_closes_eq_processed_iff.1 (by rw [verdict, judged])) unclean
  | some cause => exact ⟨cause, category_of_imbalance? judged, by rw [verdict, judged]⟩

end Context

theorem Tally.addFault_ne_addProcessed (t : Tally) (f : Fault) : t.addFault f ≠ t.addProcessed := by
  simp [addFault, addProcessed]

/-- What an end record that is not truncated does to any stack. -/
theorem end_record_closes_innermost {p : Progress} {r : Record} (found : p.cursor.peek? = some r)
    (ends : r.IsEnd) :
    let step := p.dispatch standard
    let q := step.progress
    let c := p.context
    step.failure = none ∧
    ((∃ o ∈ c.stack, o.closedBy r.kind = true) → ∃ above o below,
      Innermost r.kind c.stack above o below ∧ c.unwinding r.kind = ⟨some o, above, below⟩ ∧
        q.context = { c with
          stack := below, arena := c.arena.modify o.scope fun s => { s with closed := true } } ∧
        (∀ s, q.context.scope? o.scope = some s → s.closed = true) ∧
        ∀ id, id ≠ o.scope → q.context.scope? id = c.scope? id) ∧
    ((∀ o ∈ c.stack, o.closedBy r.kind = false) →
      c.unwinding r.kind = ⟨none, c.stack, []⟩ ∧ q.context = { c with stack := [] }) ∧
    (q.tally = p.tally.addProcessed ↔
      ∃ top below, c.stack = top :: below ∧ top.closedBy r.kind = true) ∧
    ((¬ ∃ top below, c.stack = top :: below ∧ top.closedBy r.kind = true) →
      ∃ fault, fault.category = .scopeImbalance ∧ q.tally = p.tally.addFault fault) := by
  intro step q c
  obtain ⟨succeeds, moves, -⟩ := Progress.dispatch_standard found
  have asks := Record.effect_of_isEnd ends p.cursor.position
  have context : q.context = c.closeScope r.kind := by
    simp only [q, step, moves, Progress.next, asks, c, Context.perform]
  have tally : q.tally = p.tally.count p.cursor.position r.kind (c.verdict (.closes r.kind)) := by
    simp only [q, step, moves, Progress.next, asks, c]
  refine ⟨succeeds, ?_, ?_, ?_, ?_⟩
  · intro waits
    obtain ⟨above, o, below, innermost⟩ := exists_innermost waits
    have scopes := Context.scope?_closeScope_of_innermost innermost
    rw [context]
    refine ⟨above, o, below, innermost, innermost.unwind_eq, ?_, ?_, ?_⟩
    · exact Context.closeScope_of_innermost innermost
    · intro s here
      rw [scopes, if_pos rfl] at here
      obtain ⟨before, -, rfl⟩ := Option.map_eq_some_iff.1 here
      rfl
    · intro id other
      rw [scopes, if_neg other]
  · intro passed
    refine ⟨unwind_of_passed passed, ?_⟩
    rw [context, Context.closeScope_of_passed passed]
  · rw [tally]
    by_cases clean : ∃ top below, c.stack = top :: below ∧ top.closedBy r.kind = true
    · rw [Context.verdict_closes_eq_processed_iff.2 clean, Tally.count]
      exact iff_of_true rfl clean
    · obtain ⟨cause, -, judged⟩ := Context.verdict_closes_of_unclean clean
      rw [judged, Tally.count]
      exact iff_of_false (Tally.addFault_ne_addProcessed _ _) clean
  · intro unclean
    obtain ⟨cause, category, judged⟩ := Context.verdict_closes_of_unclean unclean
    refine ⟨⟨p.cursor.position, some r.kind, cause⟩, category, ?_⟩
    rw [tally, judged, Tally.count]

/-- Of a block, an inline site and a procedure that are open, from the top down, the end record of
an inline site closes the second; in a block alone, that of a procedure closes nothing. -/
theorem end_record_closes_innermost_below_block :
    let block : OpenScope := { scope := 2, endKinds := ScopeForm.block.endKinds }
    let site : OpenScope := { scope := 1, endKinds := ScopeForm.inlineSite.endKinds }
    let procedure : OpenScope := { scope := 0, endKinds := ScopeForm.procedure.endKinds }
    let arena : List Scope := [{ kind := .procedure, name := "p" },
      { kind := .inlineSite, name := "i" }, { kind := .block, name := "b" }]
    let siteEnd : Record := { kind := Kind.inlineSiteEnd }
    let procedureEnd : Record := { kind := Kind.procedureEnd }
    let nested : Progress :=
      { context := { arena, stack := [block, site, procedure] }, cursor := ⟨[siteEnd], 0⟩ }
    let alone : Progress :=
      { context := { arena, stack := [block] }, cursor := ⟨[procedureEnd], 0⟩ }
    let p := (nested.dispatch standard).progress
    let q := (alone.dispatch standard).progress
    p.context.stack = [procedure] ∧ (p.context.scope? 1).any (·.closed) = true ∧
      p.context.scope? 0 = nested.context.scope? 0 ∧ p.context.scope? 2 = nested.context.scope? 2 ∧
      p.tally ≠ nested.tally.addProcessed ∧ q.context = { alone.context with stack := [] } ∧
      ∃ fault, fault.category = .scopeImbalance ∧ q.tally = alone.tally.addFault fault := by
  intro block site procedure arena siteEnd procedureEnd nested alone p q
  obtain ⟨-, waits, -, clean, -⟩ :=
    end_record_closes_innermost (p := nested) rfl (by decide : siteEnd.IsEnd)
  obtain ⟨above, o, below, -, unwound, context, -, others⟩ :=
    waits ⟨site, by simp [nested], rfl⟩
  have inner : nested.context.unwinding siteEnd.kind = ⟨some site, [block], [procedure]⟩ := rfl
  cases inner.symm.trans unwound
  obtain ⟨-, -, passed, -, unclean⟩ :=
    end_record_closes_innermost (p := alone) rfl (by decide : procedureEnd.IsEnd)
  refine ⟨congrArg Context.stack context, ?_, others 0 (by decide), others 2 (by decide), ?_, ?_,
    ?_⟩
  · decide +kernel
  · intro counted
    obtain ⟨top, below, stack, closes⟩ := clean.1 counted
    cases stack
    cases closes
  · exact (passed (by decide)).2
  · refine unclean ?_
    rintro ⟨top, below, stack, closes⟩
    cases stack
    cases closes

end SymbolRecovery
