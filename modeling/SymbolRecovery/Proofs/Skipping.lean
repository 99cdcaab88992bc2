import SymbolRecovery.Proofs.Offsets
import SymbolRecovery.Proofs.Outermost

/-!
Runs that go from a begin record to its end record against runs that go through what lies between.
Main statement: over records whose begin records point at the end records that match them, the one
finds what the other finds outside of all scopes, and nothing else.
-/
namespace SymbolRecovery
open Lookup (standard)

namespace Progress
variable {p : Progress} {c : Context} {options : Options} {r b e : Record} {form : ScopeForm}
  {inner word : List Record}

theorem peek?_of_drop (lies : p.cursor.records.drop p.cursor.position = r :: word) :
    p.cursor.peek? = some r := by
  rw [Cursor.peek?, ← List.head?_drop, lies]
  rfl

theorem outermost_next (neutral : r.IsNeutral) (outside : c.Outside)
    (same : p.context = c.outermost options) :
    let d := c.perform (r.effect p.cursor.position)
    d.Outside ∧ (p.next r).context = d.outermost options ∧
      (p.next r).cursor = ⟨p.cursor.records, p.cursor.position + 1⟩ := by
  simp only [next, same]
  rcases r.effect_of_isNeutral neutral p.cursor.position with asks | ⟨cause, asks⟩ | ⟨change, asks⟩
  · rw [asks]
    exact ⟨outside, rfl, rfl⟩
  · rw [asks]
    exact ⟨outside, rfl, rfl⟩
  · rw [asks]
    exact ⟨Context.outside_make outside change, (Context.outermost_make outside change).symm, rfl⟩

theorem getElem?_of_drop
    (lies : p.cursor.records.drop p.cursor.position = b :: inner ++ e :: word) :
    p.cursor.records[p.cursor.position + 1 + inner.length]? = some e := by
  have place : p.cursor.position + 1 + inner.length = p.cursor.position + (b :: inner).length := by
    rw [List.length_cons]
    omega
  rw [place, ← List.getElem?_drop, lies, List.getElem?_append_right (Nat.le_refl _), Nat.sub_self]
  rfl

theorem cursor_next_of_begin (skips : p.context.options.descendScopes = false)
    (distinct : DistinctOffsets p.cursor.records)
    (lies : p.cursor.records.drop p.cursor.position = b :: inner ++ e :: word) {s : Scope}
    (asks : b.effect p.cursor.position = .opens form s (ScopeForm.endOffset? b))
    (points : b.endOffset ≠ 0) (pointed : e.offset = some b.endOffset)
    (fits : e.kind ∈ form.endKinds) :
    (p.next b).cursor = ⟨p.cursor.records, p.cursor.position + 1 + inner.length⟩ := by
  have there := getElem?_of_drop lies
  have target : p.cursor.target? b.endOffset form.endKinds =
      some (p.cursor.position + 1 + inner.length) := by
    have ahead : p.cursor.position < p.cursor.position + 1 + inner.length := by omega
    rw [Cursor.target?, Cursor.indexOf?, lastAtOffset?_of_distinct distinct there pointed]
    simp [Option.filter, there, fits, ahead]
  have stored : ScopeForm.endOffset? b = some b.endOffset := if_neg points
  simp only [next, asks, stored, Cursor.following, skips, Bool.false_eq_true, ↓reduceIte, target,
    Option.getD_some]

theorem outermost_next_scope (skips : options.descendScopes = false)
    (distinct : DistinctOffsets p.cursor.records)
    (lies : p.cursor.records.drop p.cursor.position = b :: inner ++ e :: word)
    (opens : ScopeForm.ofKind? b.kind = some form) (right : b.malformation? form = none)
    (points : b.endOffset ≠ 0) (pointed : e.offset = some b.endOffset) (ends : e.IsEnd)
    (fits : e.kind ∈ form.endKinds) (within : Bracketed true inner) (outside : c.Outside)
    (same : p.context = c.outermost options) :
    let d := c.goOver p.cursor.position (b :: inner ++ [e])
    (p.next b).cursor.peek? = some e ∧ d.Outside ∧
      ((p.next b).next e).context = d.outermost options ∧
      ((p.next b).next e).cursor =
        ⟨p.cursor.records, p.cursor.position + (b :: inner ++ [e]).length⟩ := by
  intro d
  obtain ⟨s, asks, -⟩ := b.effect_of_wellFormed opens right p.cursor.position
  obtain ⟨-, children, symbols⟩ := Record.fresh_of_read (Record.effect_eq_opens asks)
  have moved := cursor_next_of_begin (by rw [same]; exact skips) distinct lies asks points pointed
    fits
  have found : (p.next b).cursor.peek? = some e := by
    rw [moved]
    exact getElem?_of_drop lies
  have entered : c.perform (b.effect p.cursor.position) =
      c.enterScope form s (ScopeForm.endOffset? b) := by rw [asks]; rfl
  have opened := congrArg Context.stack
    (Context.enterScope_of_empty outside.stack_eq form s (ScopeForm.endOffset? b))
  obtain ⟨through, kept⟩ :=
    Context.inside_goOver within rfl opened (p.cursor.position + 1)
  have gone : d = ((c.enterScope form s (ScopeForm.endOffset? b)).goOver (p.cursor.position + 1)
      inner).closeScope e.kind := by
    simp only [d, Context.goOver_cons, Context.goOver_append, entered,
      Record.effect_of_isEnd ends]
    rfl
  have closed := Context.outside_scope outside s (ScopeForm.endOffset? b) fits
  have inside := through.close_both opened (kept.trans opened) fits
  have empty := congrArg Context.stack (Context.closeScope_of_fits (kept.trans opened) fits)
  obtain ⟨stays, outer⟩ := Context.outermost_of_inside options closed inside empty
  have skipped := Context.outermost_scope options outside (ScopeForm.endOffset? b) fits children
    symbols
  rw [gone]
  refine ⟨found, stays, ?_, ?_⟩
  · rw [outer, skipped, ← same]
    simp only [next, asks, Record.effect_of_isEnd ends]
    rfl
  · have length : (b :: inner ++ [e]).length = 1 + inner.length + 1 := by simp; omega
    rw [length]
    simp only [next, Record.effect_of_isEnd ends]
    change (⟨(p.next b).cursor.records, (p.next b).cursor.position + 1⟩ : Cursor) = _
    rw [moved]
    simp only [Nat.add_assoc]

theorem skipping_requests {inside : Bool} (bracketed : Bracketed inside word)
    (outer : inside = false) (skips : options.descendScopes = false)
    (distinct : DistinctOffsets p.cursor.records)
    (lies : p.cursor.records.drop p.cursor.position = word)
    (outside : c.Outside) (same : p.context = c.outermost options) :
    let d := c.goOver p.cursor.position word
    d.Outside ∧ p.context.performAll p.requests = d.outermost options := by
  induction bracketed generalizing p c with
  | empty =>
    have ended : p.cursor.peek? = none := by
      rw [Cursor.peek?, ← List.head?_drop, lies]
      rfl
    rw [requests_of_exhausted ended]
    exact ⟨outside, same⟩
  | @neutral inside r word inert plain later ih =>
    have found := peek?_of_drop lies
    obtain ⟨stays, next, moved⟩ := outermost_next inert outside same
    have rest : (p.next r).cursor.records.drop (p.next r).cursor.position = word := by
      rw [moved, ← List.drop_drop, lies]
      rfl
    have goes := ih outer (by rwa [moved]) rest stays next
    rw [requests_of_peek? found]
    rw [moved] at goes
    exact goes
  | @scope inside b e form inner word opens right points pointed ends fits within later inward ih =>
    obtain ⟨found, stays, next, moved⟩ := outermost_next_scope skips distinct lies opens right
      points pointed ends fits within outside same
    have split : b :: inner ++ e :: word = (b :: inner ++ [e]) ++ word := by simp
    have rest : ((p.next b).next e).cursor.records.drop ((p.next b).next e).cursor.position =
        word := by
      rw [moved, ← List.drop_drop, lies, split, List.drop_left]
    have goes := ih outer (by rwa [moved]) rest stays next
    rw [requests_of_peek? (peek?_of_drop lies), requests_of_peek? found, split,
      Context.goOver_append]
    rw [moved] at goes
    exact goes

end Progress

/-- A run that skips scopes finds what a run that goes through them finds outside of all scopes. -/
theorem skipping_agrees_outside_scopes (records : List Record) (bracketed : Bracketed false records)
    (distinct : DistinctOffsets records) (layout : Option LoadLayout) (options otherwise : Options)
    (skips : options.descendScopes = false) (descends : otherwise.descendScopes = true) :
    let a := (run standard { layout, options } { records }).progress.context
    let b := (run standard { layout, options := otherwise } { records }).progress.context
    a.sections = b.sections ∧ a.addresses = b.addresses ∧ a.groups = b.groups ∧
      a.units = b.units ∧ a.stack = [] ∧ b.stack = [] ∧
      a.top.map a.scope? = b.top.map (fun id => (b.scope? id).map Scope.emptied) ∧
      a.symbols = b.symbols.filter (fun s => s.scope.isNone) ∧
      a.unresolved.map a.referent? =
        (b.unresolved.filter b.isOuter).map fun item => (b.referent? item).map .emptied := by
  intro a b
  let p : Progress := { context := { layout, options }, cursor := { records } }
  let q : Progress := { context := { layout, options := otherwise }, cursor := { records } }
  have gone : b = ({ layout, options := otherwise } : Context).goOver 0 records := by
    have ran : b = q.context.performAll q.requests := q.context_run_eq
    rw [ran, Progress.requests_of_descends descends]
    rfl
  obtain ⟨outside, found⟩ := @Progress.skipping_requests p { layout, options := otherwise } options
    records false bracketed rfl skips distinct rfl (Context.outside_fresh layout otherwise) rfl
  have skipped : a = b.outermost options := by
    have ran : a = p.context.performAll p.requests := p.context_run_eq
    rw [ran, found, gone]
  have ended : b.Outside := gone ▸ outside
  rw [skipped]
  refine ⟨rfl, rfl, rfl, rfl, rfl, ended.stack_eq, Context.scopes_outermost options ended, rfl, ?_⟩
  rw [Context.outermost, List.map_map]
  apply List.map_congr_left
  intro item member
  exact Context.referent?_renumbered options ended (List.mem_filter.1 member).2

/-- A block with a symbol lies in a procedure, and a public symbol behind it. Nothing has an address
yet. -/
theorem skipping_agrees_outside_scopes_for_nested :
    let unit : Record := { kind := Kind.objectName, name := "m", offset := some 0 }
    let procedure : Record :=
      { kind := Kind.globalProcedure, name := "f", sectionIndex := 1, endOffset := 50,
        offset := some 10 }
    let block : Record := { kind := Kind.block, endOffset := 40, offset := some 20 }
    let within : Record := { kind := Kind.localData, name := "v", offset := some 30 }
    let shut : Record := { kind := Kind.scopeEnd, offset := some 40 }
    let close : Record := { kind := Kind.scopeEnd, offset := some 50 }
    let behind : Record := { kind := Kind.publicSymbol, name := "p", offset := some 60 }
    let records := [unit, procedure, block, within, shut, close, behind]
    let a := (run standard { options := { descendScopes := false } } { records }).progress.context
    let b := (run standard {} { records }).progress.context
    Bracketed false records ∧ DistinctOffsets records ∧
      b.arena.map (·.name) = ["f", ""] ∧ b.symbols.map (·.name) = ["v", "p"] ∧
      b.unresolved = [.scope 0, .scope 1, .symbol 0, .symbol 1] ∧
      a.arena.map (·.name) = ["f"] ∧ a.symbols.map (·.name) = ["p"] ∧
      a.unresolved = [.scope 0, .symbol 0] ∧
      a.top.map a.scope? = b.top.map (fun id => (b.scope? id).map Scope.emptied) ∧
      a.symbols = b.symbols.filter (fun s => s.scope.isNone) ∧
      a.unresolved.map a.referent? =
        (b.unresolved.filter b.isOuter).map fun item => (b.referent? item).map .emptied := by
  intro unit procedure block within shut close behind records a b
  have symbol : Bracketed true [within] := .neutral (by decide) (by decide) .empty
  have inner : Bracketed true [block, within, shut] :=
    .scope rfl (by decide) (by decide) rfl (by decide) (by decide) symbol .empty
  have last : Bracketed false [behind] := .neutral (by decide) (by decide) .empty
  have whole : Bracketed false [procedure, block, within, shut, close, behind] :=
    .scope rfl (by decide) (by decide) rfl (by decide) (by decide) inner last
  have bracketed : Bracketed false records := .neutral (by decide) (by decide) whole
  have distinct : DistinctOffsets records := by decide
  obtain ⟨-, -, -, -, -, -, scopes, symbols, unresolved⟩ :=
    skipping_agrees_outside_scopes records bracketed distinct none { descendScopes := false } {} rfl
      rfl
  exact ⟨bracketed, distinct, by decide +kernel, by decide +kernel, by decide +kernel,
    by decide +kernel, by decide +kernel, by decide +kernel, scopes, symbols, unresolved⟩

end SymbolRecovery
