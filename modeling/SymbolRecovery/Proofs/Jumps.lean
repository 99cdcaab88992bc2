import SymbolRecovery.Proofs.Acceptance
import SymbolRecovery.Proofs.Items
import SymbolRecovery.Proofs.Offsets
import SymbolRecovery.Proofs.Unwinding

/-!
Jumps over the interior of a scope. Without descending, a begin record that is accepted sends the
cursor to the record at its end offset, if that record stands further down and closes the scope.
Main statement: where records that were read from a file are jumped over, the next step closes the
scope again and nothing else; and where no jump is made, the step is the one that descends.
-/
namespace SymbolRecovery
open Lookup (standard)

namespace Record
variable {file : ByteFile} {signature : Bool} {records : List Record}

/-- Of an end record nothing is read but its kind, so it cannot be truncated. -/
theorem isEnd_of_decodeFile (decoded : (decodeFile file signature).1 = .ok records) {e : Record}
    (member : e ∈ records) (closes : e.kind ∈ Kind.scopeEnds) : e.IsEnd := by
  rw [Frame.records_of_decodeFile decoded] at member
  obtain ⟨f, -, rfl⟩ := List.mem_map.1 member
  have apart : ∀ kind ∈ Kind.scopeEnds, kind ∉ Kind.structured := by decide
  rw [Frame.kind_record] at closes
  refine ⟨by rwa [Frame.kind_record], ?_⟩
  rw [Frame.truncated_record, Bool.eq_false_iff]
  exact fun early => apart _ closes (Frame.mem_structured_of_endsEarly early)

theorem distinctOffsets_of_decodeFile (decoded : (decodeFile file signature).1 = .ok records) :
    DistinctOffsets records := by
  have ascends : (Frame.ofFile file signature).Pairwise fun f g => f.offset + 4 ≤ g.offset := by
    unfold Frame.ofFile
    split <;> exact Frame.scan_ascends _ _
  rw [Frame.records_of_decodeFile decoded, DistinctOffsets, List.Nodup, List.pairwise_filterMap,
    List.pairwise_map]
  refine ascends.imp ?_
  intro f g behind first carries second too
  rw [Frame.offset_record, Option.some.injEq] at carries too
  omega

end Record

theorem ScopeForm.endKinds_subset {kind : Kind} {form : ScopeForm}
    (opens : ScopeForm.ofKind? kind = some form) : form.endKinds ⊆ Kind.scopeEnds := by
  have listed : form ∈ [procedure, block, thunk, inlineSite] := by
    unfold ofKind? at opens
    grind
  have closes : ∀ form ∈ [procedure, block, thunk, inlineSite],
      form.endKinds ⊆ Kind.scopeEnds := by decide
  exact closes form listed

def Context.withOptions (options : Options) (c : Context) : Context := { c with options }

def Options.descending (options : Options) : Options := { options with descendScopes := true }

def Progress.descending (p : Progress) : Progress :=
  { p with context := p.context.withOptions p.context.options.descending }

namespace Context

theorem enterScope_withOptions (c : Context) (options : Options) (form : ScopeForm) (s : Scope)
    (endOffset : Option Int) :
    (c.withOptions options).enterScope form s endOffset =
      (c.enterScope form s endOffset).withOptions options := by
  have located : (c.withOptions options).translate s.sectionIndex s.offset =
      c.translate s.sectionIndex s.offset := rfl
  have top : (c.withOptions options).stack.head? = c.stack.head? := rfl
  unfold enterScope
  simp only [locateScope, located, await_eq_append, openScope, attachScope, currentScope?]
  rw [top]
  split <;> cases c.stack.head? <;> rfl

theorem perform_withOptions_of_begin {r : Record} {form : ScopeForm}
    (c : Context) (opens : ScopeForm.ofKind? r.kind = some form) (options : Options)
    (position : Nat) :
    (c.withOptions options).perform (r.effect position) =
      (c.perform (r.effect position)).withOptions options := by
  cases wrong : r.malformation? form with
  | some cause =>
    rw [Record.effect_of_malformed opens wrong]
    rfl
  | none =>
    obtain ⟨s, asks, -⟩ := Record.effect_of_wellFormed opens wrong position
    rw [asks]
    exact c.enterScope_withOptions options form s _

end Context

theorem Cursor.landing_eq_closes_iff {cursor : Cursor}
    (inside : cursor.position < cursor.records.length) {endOffset : Int} {endKinds : List Kind}
    {target : Nat} :
    cursor.advance.landing endOffset endKinds = .ok (.closes target) ↔
      cursor.target? endOffset endKinds = some target := by
  rw [Cursor.advance_eq inside]
  unfold landing target? indexOf?
  cases known : lastAtOffset? endOffset cursor.records with
  | none => simp
  | some position =>
    have within := lastAtOffset?_lt_length known
    have there := List.getElem?_eq_getElem within
    by_cases behind : position < cursor.position + 1
    · have notAhead : ¬ cursor.position < position := by omega
      simp [behind, notAhead, Option.filter]
    · have ahead : cursor.position < position := by omega
      by_cases closes : cursor.records[position].kind ∈ endKinds <;>
        simp [behind, there, closes, ahead, Option.filter]

namespace Progress

/-- The position that a begin record sends the cursor to, if it is accepted and its end offset leads
to an end of its scope. -/
def jump? (p : Progress) (r : Record) (form : ScopeForm) : Option Nat :=
  if r.malformation? form = none then
    match ScopeForm.endOffset? r with
    | none => none
    | some endOffset =>
      match p.cursor.advance.landing endOffset form.endKinds with
      | .ok (.closes position) => some position
      | _ => none
  else none

variable {p : Progress} {r : Record} {form : ScopeForm} {j : Nat}

theorem jump?_eq_some_iff (inside : p.cursor.position < p.cursor.records.length) :
    p.jump? r form = some j ↔ r.malformation? form = none ∧ r.endOffset ≠ 0 ∧
      p.cursor.target? r.endOffset form.endKinds = some j := by
  rw [← Cursor.landing_eq_closes_iff inside]
  unfold jump? ScopeForm.endOffset?
  by_cases right : r.malformation? form = none
  · by_cases points : r.endOffset = 0
    · simp [points]
    · simp only [right, points, ↓reduceIte, true_and, ne_eq, not_false_eq_true]
      split
      · next position lands => simp [lands]
      · next elsewhere => simpa using elsewhere j
  · simp [right]

theorem cursor_next_of_skipping (found : p.cursor.peek? = some r)
    (opens : ScopeForm.ofKind? r.kind = some form)
    (skips : p.context.options.descendScopes = false) :
    (p.next r).cursor =
      ⟨p.cursor.records, (p.jump? r form).getD (p.cursor.position + 1)⟩ := by
  have inside := Cursor.lt_length_of_peek? found
  cases wrong : r.malformation? form with
  | some cause =>
    simp only [next, Record.effect_of_malformed opens wrong, Cursor.following, jump?, wrong]
    rfl
  | none =>
    obtain ⟨s, asks, -⟩ := Record.effect_of_wellFormed opens wrong p.cursor.position
    have jumps : p.jump? r form =
        if r.endOffset = 0 then none else p.cursor.target? r.endOffset form.endKinds := by
      refine Option.ext fun j => ?_
      rw [jump?_eq_some_iff inside]
      by_cases points : r.endOffset = 0 <;> simp [wrong, points]
    simp only [next, asks, Cursor.following, ScopeForm.endOffset?, jumps, skips]
    by_cases points : r.endOffset = 0 <;> simp [points]

theorem next_descending (opens : ScopeForm.ofKind? r.kind = some form) :
    p.descending.next r =
      { (p.next r).descending with cursor := ⟨p.cursor.records, p.cursor.position + 1⟩ } := by
  have opened := p.context.perform_withOptions_of_begin opens p.context.options.descending
    p.cursor.position
  have leads : p.cursor.following true (r.effect p.cursor.position) = p.cursor.position + 1 :=
    Cursor.following_of_descends _ _
  have judged : (p.context.withOptions p.context.options.descending).verdict
      (r.effect p.cursor.position) = p.context.verdict (r.effect p.cursor.position) := rfl
  have options : (p.context.withOptions p.context.options.descending).options.descendScopes =
    true := rfl
  simp only [next, descending, opened, judged, options, leads, Context.options_perform]

theorem position_after {q : Progress} {n : Nat} (found : p.cursor.peek? = some r)
    (reached : p.after standard n = some q) :
    q = p ∨ (p.next r).cursor.position ≤ q.cursor.position := by
  cases n with
  | zero =>
    cases reached
    exact .inl rfl
  | succ n =>
    rw [after_succ_of_peek? found] at reached
    exact .inr (precedes_after reached).position_le

theorem next_of_accepted (opens : ScopeForm.ofKind? r.kind = some form)
    (right : r.malformation? form = none) :
    let c := p.context
    let q := p.next r
    ∃ s, form.read r p.cursor.position = .ok s ∧
      q.context = c.enterScope form s (ScopeForm.endOffset? r) ∧
      q.context.stack = c.newFrame form (ScopeForm.endOffset? r) :: c.stack ∧
      (∃ opened, q.context.scope? c.arena.length = some opened ∧
        opened.position = p.cursor.position ∧ opened.closed = false) ∧
      q.tally = p.tally.addProcessed := by
  intro c q
  obtain ⟨s, asks, placed, unclosed, -⟩ := Record.effect_of_wellFormed opens right p.cursor.position
  have entered : q.context = c.enterScope form s (ScopeForm.endOffset? r) := by
    simp only [q, next, asks]
    rfl
  have counted : q.tally = p.tally.addProcessed := by
    simp only [q, next, asks]
    rfl
  obtain ⟨unresolved, opened⟩ := c.enterScope_eq form s (ScopeForm.endOffset? r)
  have stack : q.context.stack = c.newFrame form (ScopeForm.endOffset? r) :: c.stack := by
    rw [entered, opened]
  have scope : q.context.scope? c.arena.length = some (c.found form s) := by
    rw [entered, opened, Context.scope?, ← c.length_arena_attachScope]
    exact List.getElem?_concat_length
  exact ⟨s, Record.effect_eq_opens asks, entered, stack, ⟨_, scope, placed, unclosed⟩, counted⟩

theorem next_of_own_end {o : OpenScope} {below : List OpenScope} (ends : r.IsEnd)
    (stack : p.context.stack = o :: below) (fits : r.kind ∈ o.endKinds) :
    p.context.unwinding r.kind = ⟨some o, [], below⟩ ∧
    p.next r =
      { context := { p.context with
          stack := below
          arena := p.context.arena.modify o.scope fun s => { s with closed := true } }
        cursor := ⟨p.cursor.records, p.cursor.position + 1⟩
        tally := p.tally.addProcessed } := by
  have closes : o.closedBy r.kind = true := decide_eq_true fits
  have innermost : Innermost r.kind p.context.stack [] o below := ⟨stack, nofun, closes⟩
  have judged : p.context.verdict (.closes r.kind) = .processed :=
    Context.verdict_closes_eq_processed_iff.2 ⟨o, below, stack, closes⟩
  refine ⟨innermost.unwind_eq, ?_⟩
  simp only [next, Record.effect_of_isEnd ends, judged, Context.perform, Cursor.following,
    Context.closeScope_of_innermost innermost, Tally.count]

end Progress

/-- In whatever state a begin record is dispatched that was read from a file and is not descended
into: if it jumps, it lands on the end of its own scope, and nothing in between has any effect. -/
theorem jump_lands_on_own_end (file : ByteFile) (signature : Bool) (records : List Record)
    (decoded : (Record.decodeFile file signature).1 = .ok records) (p : Progress)
    (reads : p.cursor.records = records) (skips : p.context.options.descendScopes = false)
    (r : Record) (found : p.cursor.peek? = some r) (form : ScopeForm)
    (opens : ScopeForm.ofKind? r.kind = some form) :
    let i := p.cursor.position
    let c := p.context
    let first := p.dispatch standard
    let q := first.progress
    first.failure = none ∧
    (∀ j, p.jump? r form = some j →
      i + 1 ≤ j ∧ q.cursor = ⟨records, j⟩ ∧
      ∃ e s, records[j]? = some e ∧ e.kind ∈ form.endKinds ∧ e.offset = some r.endOffset ∧
        (∀ k other, records[k]? = some other → other.offset = some r.endOffset → k = j) ∧
        form.read r i = .ok s ∧ q.context = c.enterScope form s (some r.endOffset) ∧
        (∃ opened, q.context.scope? c.arena.length = some opened ∧
          opened.position = i ∧ opened.closed = false) ∧
        let second := q.dispatch standard
        let final := second.progress
        second.failure = none ∧ final.cursor = ⟨records, j + 1⟩ ∧
        q.context.unwinding e.kind = ⟨some (c.newFrame form (some r.endOffset)), [], c.stack⟩ ∧
        final.context = { q.context with
          stack := c.stack
          arena := q.context.arena.modify c.arena.length fun s => { s with closed := true } } ∧
        q.tally = p.tally.addProcessed ∧ final.tally = q.tally.addProcessed ∧
        ∀ n later, p.after standard n = some later →
          later.cursor.position ≤ i ∨ j ≤ later.cursor.position) ∧
    (p.jump? r form = none →
      q.cursor = ⟨records, i + 1⟩ ∧
      let wide := p.descending.dispatch standard
      wide.failure = none ∧ wide.progress = q.descending) := by
  subst reads
  intro i c first q
  have inside := Cursor.lt_length_of_peek? found
  obtain ⟨succeeds, moves, -⟩ := Progress.dispatch_standard found
  have moves : q = p.next r := moves
  have leads : q.cursor = ⟨p.cursor.records, (p.jump? r form).getD (i + 1)⟩ := by
    rw [moves]
    exact Progress.cursor_next_of_skipping found opens skips
  refine ⟨succeeds, ?_, ?_⟩
  · intro j jumps
    rw [jumps, Option.getD_some] at leads
    obtain ⟨right, points, target⟩ := (Progress.jump?_eq_some_iff inside).1 jumps
    obtain ⟨known, ahead, e, there, fits⟩ := Cursor.target?_eq_some target
    obtain ⟨_, same, carries⟩ := getElem?_of_lastAtOffset? known
    rw [there] at same
    cases same
    have distinct := Record.distinctOffsets_of_decodeFile decoded
    have ends : e.IsEnd := Record.isEnd_of_decodeFile decoded (List.mem_of_getElem? there)
      (ScopeForm.endKinds_subset opens fits)
    have stored : ScopeForm.endOffset? r = some r.endOffset := if_neg points
    obtain ⟨s, read, entered, stack, opened, counted⟩ :=
      Progress.next_of_accepted (p := p) opens right
    rw [← moves, stored] at entered stack
    rw [← moves] at opened counted
    have here : q.cursor.peek? = some e := by
      rw [leads]
      exact there
    obtain ⟨succeeds', moves', -⟩ := Progress.dispatch_standard here
    obtain ⟨unwound, closed⟩ := Progress.next_of_own_end (p := q) ends stack fits
    refine ⟨ahead, leads, e, s, there, fits, carries, ?_, read, entered, opened, succeeds', ?_,
      unwound, ?_, counted, ?_, ?_⟩
    · exact fun k other elsewhere too => distinct.position_eq elsewhere there too carries
    · rw [moves', closed, leads]
    · rw [moves', closed]
      rfl
    · rw [moves', closed]
    · intro n later reached
      rcases Progress.position_after found reached with rfl | behind
      · exact .inl (Nat.le_refl _)
      · rw [← moves, leads] at behind
        exact .inr behind
  · intro stays
    rw [stays, Option.getD_none] at leads
    obtain ⟨wide, does, -⟩ := Progress.dispatch_standard (p := p.descending) found
    refine ⟨leads, wide, does.trans ?_⟩
    rw [Progress.next_descending opens, ← moves, ← leads]
    rfl

/-- In an open procedure an inline site is jumped over, with an end record in it that would close
the procedure; a second one points at no record, and is gone into. -/
theorem jump_lands_on_own_end_past_foreign_end :
    let bytes : Bytes := [14, 0, 0x4D, 0x11] ++ List.replicate 4 0 ++ [20, 0, 0, 0] ++
      List.replicate 4 0 ++ [2, 0, 6, 0] ++ [2, 0, 0x4E, 0x11] ++
      [14, 0, 0x4D, 0x11] ++ List.replicate 4 0 ++ [99, 0, 0, 0] ++ List.replicate 4 0
    let file : ByteFile := ⟨bytes, 0⟩
    let records := Record.decode bytes
    let context : Context :=
      { options := { descendScopes := false }, arena := [{ kind := .procedure, name := "p" }],
        top := [0], stack := [{ scope := 0, endKinds := ScopeForm.procedure.endKinds }] }
    let p : Progress := { context, cursor := ⟨records, 0⟩ }
    let late : Progress := { context, cursor := ⟨records, 3⟩ }
    let q := (p.dispatch standard).progress
    let final := (q.dispatch standard).progress
    (Record.decodeFile file false).1 = .ok records ∧
      q.cursor.position = 2 ∧ final.cursor.position = 3 ∧ final.context.stack = context.stack ∧
      (final.context.scope? 1).any (·.closed) = true ∧
      final.tally = p.tally.addProcessed.addProcessed ∧
      (late.dispatch standard).progress.cursor.position = 4 ∧
      (late.descending.dispatch standard).progress =
        (late.dispatch standard).progress.descending := by
  intro bytes file records context p late q final
  have decoded : (Record.decodeFile file false).1 = .ok records := Record.decodeFile_unsigned file
  obtain ⟨-, jumps, -⟩ := jump_lands_on_own_end file false records decoded p rfl rfl
    { kind := Kind.inlineSite, endOffset := 20, offset := some 0 } (by decide +kernel) .inlineSite
    rfl
  obtain ⟨-, landed, e, s, -, -, -, -, -, -, -, -, last, -, closed, first, second, -⟩ :=
    jumps 2 (by decide +kernel)
  obtain ⟨-, -, stays⟩ := jump_lands_on_own_end file false records decoded late rfl rfl
    { kind := Kind.inlineSite, endOffset := 99, offset := some 24 } (by decide +kernel) .inlineSite
    rfl
  obtain ⟨next, -, same⟩ := stays (by decide +kernel)
  have kept := congrArg Context.stack closed
  refine ⟨decoded, congrArg Cursor.position landed, congrArg Cursor.position last, kept, ?_,
    second.trans (congrArg _ first), congrArg Cursor.position next, same⟩
  decide +kernel

end SymbolRecovery
