import SymbolRecovery.Proofs.Classes
import SymbolRecovery.Proofs.Completion

/-!
Balanced words of records. A begin record, accepted or not, is matched by the first end record that
is left over behind it, whose kind has to close its scope. Main statement: going down into scopes,
a balanced word leaves the stack as it was, closes what it opens and reports no imbalance; and a
run that starts and ends with an empty stack and reports none went over a balanced word.
-/
namespace SymbolRecovery
open Lookup (standard)

/-- The words in which begin and end records match. -/
inductive Balanced : List Record → Prop where
  | empty : Balanced []
  | neutral {r : Record} {word : List Record} (inert : r.IsNeutral) (later : Balanced word) :
      Balanced (r :: word)
  | scope {b e : Record} {form : ScopeForm} {inner word : List Record}
      (opens : ScopeForm.ofKind? b.kind = some form) (ends : e.IsEnd)
      (fits : e.kind ∈ form.endKinds) (within : Balanced inner) (later : Balanced word) :
      Balanced (b :: inner ++ e :: word)

def Scope.mark (s : Scope) : Int × Bool := (s.position, s.closed)

namespace Context

def marks (c : Context) : List (Int × Bool) := c.arena.map Scope.mark

theorem SameScopes.marks_eq {c d : Context} (same : c.SameScopes d) : d.marks = c.marks :=
  same.map_arena fun _ _ => rfl

variable {c : Context}

theorem length_marks : c.marks.length = c.arena.length := List.length_map _

theorem perform_of_begin {r : Record} {form : ScopeForm}
    (opens : ScopeForm.ofKind? r.kind = some form) (position : Nat) :
    let d := c.perform (r.effect position)
    d.marks = c.marks ++ [((position : Int), false)] ∧
      (c.verdict (r.effect position)).cause? = r.malformation? form := by
  intro d
  cases wrong : r.malformation? form with
  | some cause =>
    simp only [d, Record.effect_of_malformed opens wrong]
    exact ⟨by simp [perform, marks, Scope.mark, ScopeForm.placeholder], rfl⟩
  | none =>
    obtain ⟨s, asks, placed, opened, -⟩ := Record.effect_of_wellFormed opens wrong position
    obtain ⟨unresolved, enters⟩ := c.enterScope_eq form s (ScopeForm.endOffset? r)
    have attached : c.attachScope.arena.map Scope.mark = c.arena.map Scope.mark :=
      c.map_arena_attachScope fun _ _ => rfl
    simp only [d, asks, perform, enters]
    exact ⟨by simp [marks, attached, Scope.mark, found, placed, opened], rfl⟩

theorem perform_of_end {e : Record} {top : OpenScope} {below : List OpenScope} (ends : e.IsEnd)
    (stack : c.stack = top :: below) (fits : e.kind ∈ top.endKinds) (position : Nat) :
    let d := c.perform (e.effect position)
    d.stack = below ∧ d.marks = c.marks.modify top.scope (fun mark => (mark.1, true)) ∧
      (c.verdict (e.effect position)).cause? = none := by
  intro d
  have unwound : c.unwinding e.kind = ⟨some top, [], below⟩ := by
    simp [unwinding, stack, unwind, OpenScope.closedBy, fits]
  simp only [d, Record.effect_of_isEnd ends, perform, closeScope_eq, verdict, imbalance?, unwound]
  refine ⟨trivial, ?_, rfl⟩
  apply map_modify_of_comm
  exact fun s => rfl

theorem exists_top_of_end {e : Record} {position : Nat} (ends : e.IsEnd)
    (quiet : (c.verdict (e.effect position)).cause? = none) :
    ∃ top below, c.stack = top :: below ∧ e.kind ∈ top.endKinds := by
  rw [Record.effect_of_isEnd ends] at quiet
  simp only [verdict, imbalance?, unwinding] at quiet
  cases stack : c.stack with
  | nil => simp [stack, unwind, Unwinding.isClean, Verdict.cause?] at quiet
  | cons top below =>
    by_cases fits : e.kind ∈ top.endKinds
    · exact ⟨top, below, rfl, fits⟩
    · simp [stack, unwind, OpenScope.closedBy, fits, Unwinding.isClean, Verdict.cause?] at quiet

theorem category_of_neutral {r : Record} {position : Nat} {cause : FaultCause}
    (neutral : r.IsNeutral) (faulted : (c.verdict (r.effect position)).cause? = some cause) :
    cause.category = .malformedField := by
  rcases Record.effect_of_isNeutral neutral position with asks | ⟨other, asks⟩ | ⟨change, asks⟩
  · simp [asks, verdict, Verdict.cause?] at faulted
  · have refused := Record.category_of_refused asks
    rw [asks] at faulted
    cases faulted
    exact refused
  · simp [asks, verdict, Verdict.cause?] at faulted

end Context
def closedMarks (position : Nat) (word : List Record) : List (Int × Bool) :=
  ((word.zipIdx position).filter fun entry => entry.1.kind ∈ Kind.scopeBegins).map fun entry =>
    ((entry.2 : Int), true)

def malformations (position : Nat) (word : List Record) : List Fault :=
  (word.zipIdx position).filterMap fun entry =>
    ((ScopeForm.ofKind? entry.1.kind).bind entry.1.malformation?).map fun cause =>
      ⟨entry.2, some entry.1.kind, cause⟩

def Fault.ofBegin (fault : Fault) : Bool := fault.kind.any (· ∈ Kind.scopeBegins)

theorem closedMarks_append (position : Nat) (u v : List Record) :
    closedMarks position (u ++ v) =
      closedMarks position u ++ closedMarks (position + u.length) v := by
  simp only [closedMarks, List.zipIdx_append, List.filter_append, List.map_append]

theorem malformations_append (position : Nat) (u v : List Record) :
    malformations position (u ++ v) =
      malformations position u ++ malformations (position + u.length) v := by
  simp only [malformations, List.zipIdx_append, List.filterMap_append]

theorem malformations_singleton (position : Nat) (r : Record) :
    malformations position [r] =
      (((ScopeForm.ofKind? r.kind).bind r.malformation?).map fun cause =>
        (⟨position, some r.kind, cause⟩ : Fault)).toList := by
  simp only [malformations, List.zipIdx_singleton, List.filterMap_cons, List.filterMap_nil]
  cases (ScopeForm.ofKind? r.kind).bind r.malformation? <;> rfl

theorem category_of_malformations {position : Nat} {word : List Record} {fault : Fault}
    (member : fault ∈ malformations position word) : fault.category = .malformedField := by
  obtain ⟨entry, -, reported⟩ := List.mem_filterMap.1 member
  obtain ⟨cause, wrong, rfl⟩ := Option.map_eq_some_iff.1 reported
  obtain ⟨form, -, malformed⟩ := Option.bind_eq_some_iff.1 wrong
  exact Record.category_of_malformation? malformed

namespace Progress
variable {p q s : Progress} {r b e : Record} {u v word : List Record}

structure Passes (word : List Record) (p q : Progress) : Prop where
  reached : p.after standard word.length = some q
  options_eq : q.context.options = p.context.options
  cursor_eq : q.cursor = ⟨p.cursor.records, p.cursor.position + word.length⟩
  faults_eq : ∃ faults, q.tally.faults = p.tally.faults ++ faults ∧
    (∀ fault ∈ faults, fault.category ≠ .scopeImbalance) ∧
    faults.filter Fault.ofBegin = malformations p.cursor.position word

/-- A word that is gone over and leaves the scopes balanced: the same stack, and every scope that
was opened in between is closed. -/
structure Balances (word : List Record) (p q : Progress) : Prop extends Passes word p q where
  stack_eq : q.context.stack = p.context.stack
  marks_eq : q.context.marks = p.context.marks ++ closedMarks p.cursor.position word

theorem Passes.append (first : Passes u p q) (second : Passes v q s) : Passes (u ++ v) p s where
  reached := by
    rw [List.length_append, after_add, first.reached, Option.bind_some, second.reached]
  options_eq := second.options_eq.trans first.options_eq
  cursor_eq := by
    rw [second.cursor_eq, first.cursor_eq, List.length_append, Nat.add_assoc]
  faults_eq := by
    obtain ⟨before, grown, balanced, begins⟩ := first.faults_eq
    obtain ⟨behind, grows, balances, opens⟩ := second.faults_eq
    refine ⟨before ++ behind, ?_, ?_, ?_⟩
    · rw [grows, grown, List.append_assoc]
    · intro fault member
      rcases List.mem_append.1 member with early | late
      · exact balanced fault early
      · exact balances fault late
    · rw [List.filter_append, begins, opens, first.cursor_eq, malformations_append]

theorem Balances.append (first : Balances u p q) (second : Balances v q s) :
    Balances (u ++ v) p s where
  toPasses := first.toPasses.append second.toPasses
  stack_eq := second.stack_eq.trans first.stack_eq
  marks_eq := by
    rw [second.marks_eq, first.marks_eq, first.cursor_eq, closedMarks_append, List.append_assoc]

theorem balances_nil (p : Progress) : Balances [] p p where
  reached := rfl
  options_eq := rfl
  cursor_eq := rfl
  faults_eq := ⟨[], by simp, by simp, rfl⟩
  stack_eq := rfl
  marks_eq := by simp [closedMarks]

theorem passes_next (descends : p.context.options.descendScopes = true)
    (found : p.cursor.peek? = some r)
    (quiet : ∀ cause, (p.context.verdict (r.effect p.cursor.position)).cause? = some cause →
      cause.category ≠ .scopeImbalance)
    (own : ∀ form, ScopeForm.ofKind? r.kind = some form →
      (p.context.verdict (r.effect p.cursor.position)).cause? = r.malformation? form) :
    Passes [r] p (p.next r) where
  reached := after_succ_of_peek? found 0
  options_eq := by simp [next]
  cursor_eq := by simp [next, descends, Cursor.following_of_descends]
  faults_eq := by
    refine ⟨(p.fault? r).toList, faults_next p r, ?_, ?_⟩
    · intro fault member
      obtain ⟨cause, faulted, rfl⟩ := Option.map_eq_some_iff.1 (Option.mem_toList.1 member)
      exact quiet cause faulted
    · rw [malformations_singleton]
      unfold fault?
      cases opens : ScopeForm.ofKind? r.kind with
      | none =>
        have inert : r.kind ∉ Kind.scopeBegins := by simp [Role.mem_scopeBegins_iff, opens]
        cases (p.context.verdict (r.effect p.cursor.position)).cause? with
        | none => rfl
        | some cause => simp [Fault.ofBegin, inert]
      | some form =>
        have begins : r.kind ∈ Kind.scopeBegins := by simp [Role.mem_scopeBegins_iff, opens]
        rw [own form opens, Option.bind_some]
        cases r.malformation? form with
        | none => rfl
        | some cause => simp [Fault.ofBegin, begins]

theorem balances_neutral (descends : p.context.options.descendScopes = true)
    (found : p.cursor.peek? = some r) (neutral : r.IsNeutral) : Balances [r] p (p.next r) := by
  have same := p.context.sameScopes_of_neutral neutral p.cursor.position
  have inert : r.kind ∉ Kind.scopeBegins := neutral.1
  refine { toPasses := passes_next descends found ?_ ?_, stack_eq := same.stack_eq, marks_eq := ?_ }
  · intro cause faulted
    rw [Context.category_of_neutral neutral faulted]
    decide
  · intro form opens
    exact absurd (Record.isBegin_iff.2 ⟨form, opens⟩) neutral.1
  · have nothing : closedMarks p.cursor.position [r] = [] := by simp [closedMarks, inert]
    rw [nothing, List.append_nil]
    exact same.marks_eq

theorem passes_begin {form : ScopeForm} (descends : p.context.options.descendScopes = true)
    (found : p.cursor.peek? = some b) (opens : ScopeForm.ofKind? b.kind = some form) :
    Passes [b] p (p.next b) := by
  obtain ⟨-, judged⟩ := p.context.perform_of_begin opens p.cursor.position
  refine passes_next descends found ?_ ?_
  · intro cause faulted
    rw [judged] at faulted
    rw [Record.category_of_malformation? faulted]
    decide
  · intro other same
    rw [opens] at same
    cases same
    exact judged

theorem passes_end {top : OpenScope} {below : List OpenScope}
    (descends : p.context.options.descendScopes = true) (found : p.cursor.peek? = some e)
    (ends : e.IsEnd) (stack : p.context.stack = top :: below) (fits : e.kind ∈ top.endKinds) :
    Passes [e] p (p.next e) := by
  obtain ⟨-, -, judged⟩ := p.context.perform_of_end ends stack fits p.cursor.position
  refine passes_next descends found ?_ ?_
  · intro cause faulted
    rw [judged] at faulted
    cases faulted
  · intro form opens
    exact absurd (Record.isBegin_iff.2 ⟨form, opens⟩) ends.not_isBegin

def Faces (p : Progress) (word : List Record) : Prop :=
  word <+: p.cursor.records.drop p.cursor.position

theorem Faces.peek? (faces : p.Faces (r :: word)) : p.cursor.peek? = some r := by
  obtain ⟨rest, same⟩ := faces
  have first := congrArg List.head? same
  rw [List.head?_drop] at first
  exact first.symm

theorem Faces.later (faces : p.Faces (u ++ v)) (passes : Passes u p q) : q.Faces v := by
  obtain ⟨rest, same⟩ := faces
  refine ⟨rest, ?_⟩
  rw [passes.cursor_eq, ← List.drop_drop, ← same, List.append_assoc, List.drop_left]

theorem balances_scope {form : ScopeForm} (descends : p.context.options.descendScopes = true)
    (found : p.cursor.peek? = some b) (opens : ScopeForm.ofKind? b.kind = some form)
    (inner : Balances word (p.next b) q) (finds : q.cursor.peek? = some e) (ends : e.IsEnd)
    (fits : e.kind ∈ form.endKinds) : Balances (b :: word ++ [e]) p (q.next e) := by
  obtain ⟨endOffset, pushed⟩ := p.context.stack_of_begin opens p.cursor.position
  obtain ⟨marked, -⟩ := p.context.perform_of_begin opens p.cursor.position
  have stack : q.context.stack = p.context.newFrame form endOffset :: p.context.stack :=
    inner.stack_eq.trans pushed
  have first := passes_begin descends found opens
  have descending : q.context.options.descendScopes = true := by
    rw [inner.options_eq, first.options_eq, descends]
  have last := passes_end descending finds ends stack fits
  obtain ⟨popped, modified, -⟩ :=
    q.context.perform_of_end ends stack fits q.cursor.position
  refine { toPasses := (first.append inner.toPasses).append last, stack_eq := popped,
           marks_eq := ?_ }
  have before : q.context.marks = p.context.marks ++
      ((p.cursor.position : Int), false) :: closedMarks (p.cursor.position + 1) word := by
    rw [inner.marks_eq, first.cursor_eq]
    exact (congrArg (· ++ _) marked).trans (List.append_assoc _ _ _)
  have here : (p.context.newFrame form endOffset).scope = p.context.marks.length :=
    Context.length_marks.symm
  have begins : b.kind ∈ Kind.scopeBegins := Record.isBegin_iff.2 ⟨form, opens⟩
  have closes : e.kind ∉ Kind.scopeBegins := ends.not_isBegin
  change (q.context.perform (e.effect q.cursor.position)).marks = _
  rw [modified, before, here, modify_length_append]
  simp [closedMarks, begins, closes, List.zipIdx_append]

theorem exists_balances (balanced : Balanced word)
    (descends : p.context.options.descendScopes = true) (faces : p.Faces word) :
    ∃ q, Balances word p q := by
  induction balanced generalizing p with
  | empty => exact ⟨p, balances_nil p⟩
  | @neutral r word inert later ih =>
    have first := balances_neutral descends faces.peek? inert
    obtain ⟨q, behind⟩ := ih (first.options_eq ▸ descends)
      (Faces.later (u := [r]) faces first.toPasses)
    exact ⟨q, first.append behind⟩
  | @scope b e form inner word opens ends fits within later ihInner ihLater =>
    have found := faces.peek?
    have first := passes_begin descends found opens
    have inside : (p.next b).Faces (inner ++ e :: word) :=
      Faces.later (u := [b]) faces first
    have descending : (p.next b).context.options.descendScopes = true :=
      first.options_eq ▸ descends
    obtain ⟨q, between⟩ := ihInner descending (List.IsPrefix.trans (List.prefix_append _ _) inside)
    have finds := (inside.later between.toPasses).peek?
    have whole := balances_scope descends found opens between finds ends fits
    have split : b :: inner ++ e :: word = (b :: inner ++ [e]) ++ word := by simp
    rw [split] at faces ⊢
    obtain ⟨s, behind⟩ := ihLater (whole.options_eq ▸ descends) (faces.later whole.toPasses)
    exact ⟨s, whole.append behind⟩

end Progress

def Closes : List OpenScope → List Record → Prop
  | [], word => Balanced word
  | top :: below, word =>
    ∃ inner e later, word = inner ++ e :: later ∧ Balanced inner ∧ e.IsEnd ∧
      e.kind ∈ top.endKinds ∧ Closes below later

section
variable {stack : List OpenScope} {word : List Record}

theorem closes_neutral {r : Record} (inert : r.IsNeutral) (closes : Closes stack word) :
    Closes stack (r :: word) := by
  cases stack with
  | nil => exact .neutral inert closes
  | cons top below =>
    obtain ⟨inner, e, later, rfl, balanced, ends, fits, rest⟩ := closes
    exact ⟨r :: inner, e, later, rfl, .neutral inert balanced, ends, fits, rest⟩

theorem closes_begin {b : Record} {form : ScopeForm} {top : OpenScope}
    (opens : ScopeForm.ofKind? b.kind = some form) (waits : top.endKinds = form.endKinds)
    (closes : Closes (top :: stack) word) : Closes stack (b :: word) := by
  obtain ⟨inner, e, later, rfl, balanced, ends, fits, rest⟩ := closes
  rw [waits] at fits
  cases stack with
  | nil => exact .scope opens ends fits balanced rest
  | cons next below =>
    obtain ⟨between, f, behind, rfl, level, ends', fits', rest⟩ := rest
    refine ⟨b :: inner ++ e :: between, f, behind, ?_, ?_, ends', fits', rest⟩
    · simp
    · exact .scope opens ends fits balanced level

theorem closes_end {e : Record} {top : OpenScope} (ends : e.IsEnd) (fits : e.kind ∈ top.endKinds)
    (closes : Closes stack word) : Closes (top :: stack) (e :: word) :=
  ⟨[], e, word, rfl, .empty, ends, fits, closes⟩

end

namespace Progress
variable {p q : Progress} {r : Record} {n : Nat}

theorem closes_of_next {word : List Record} (closes : Closes (p.next r).context.stack word)
    (quiet : ∀ fault ∈ p.fault? r, fault.category ≠ .scopeImbalance) :
    Closes p.context.stack (r :: word) := by
  by_cases begins : r.IsBegin
  · obtain ⟨form, opens⟩ := Record.isBegin_iff.1 begins
    obtain ⟨endOffset, pushed⟩ := p.context.stack_of_begin opens p.cursor.position
    have closes : Closes (p.context.perform (r.effect p.cursor.position)).stack word := closes
    rw [pushed] at closes
    exact closes_begin opens rfl closes
  · by_cases ends : r.IsEnd
    · have judged : (p.context.verdict (r.effect p.cursor.position)).cause? = none := by
        cases faulted : (p.context.verdict (r.effect p.cursor.position)).cause? with
        | none => rfl
        | some cause =>
          have reported := quiet ⟨p.cursor.position, some r.kind, cause⟩ (by simp [fault?, faulted])
          rw [Record.effect_of_isEnd ends] at faulted
          simp only [Context.verdict] at faulted
          split at faulted
          · cases faulted
          · next unbalanced =>
            cases faulted
            exact absurd (Context.category_of_imbalance? unbalanced) reported
      obtain ⟨top, below, stack, fits⟩ := Context.exists_top_of_end ends judged
      obtain ⟨popped, -⟩ := p.context.perform_of_end ends stack fits p.cursor.position
      have closes : Closes (p.context.perform (r.effect p.cursor.position)).stack word := closes
      rw [popped] at closes
      rw [stack]
      exact closes_end ends fits closes
    · have same := p.context.sameScopes_of_neutral ⟨begins, ends⟩ p.cursor.position
      have closes : Closes (p.context.perform (r.effect p.cursor.position)).stack word := closes
      rw [same.stack_eq] at closes
      exact closes_neutral ⟨begins, ends⟩ closes

/-- The parse of the records is read off backwards from a run that reports no imbalance. -/
theorem closes_of_after (reached : p.after standard n = some q) (ended : q.cursor.peek? = none)
    (descends : p.context.options.descendScopes = true) (empty : q.context.stack = [])
    (quiet : ∀ fault ∈ q.tally.faults, fault.category ≠ .scopeImbalance) :
    Closes p.context.stack (p.cursor.records.drop p.cursor.position) := by
  induction n generalizing p with
  | zero =>
    cases reached
    rw [empty, List.drop_eq_nil_of_le (List.getElem?_eq_none_iff.1 ended)]
    exact .empty
  | succ n ih =>
    obtain ⟨r, found, reached⟩ := exists_of_after_succ reached
    have descending : (p.next r).context.options.descendScopes = true := by
      simpa [next] using descends
    have closes := ih reached descending
    have moved : (p.next r).cursor = ⟨p.cursor.records, p.cursor.position + 1⟩ := by
      simp [next, descends, Cursor.following_of_descends]
    rw [moved] at closes
    obtain ⟨inside, rfl⟩ := List.getElem?_eq_some_iff.1 found
    rw [List.drop_eq_getElem_cons inside]
    refine closes_of_next closes ?_
    intro fault member
    refine quiet fault ((faults_after reached).subset ?_)
    rw [faults_next]
    exact List.mem_append_right _ (Option.mem_toList.2 member)

theorem stack_of_quiet (reports : p.context.options.reportUnclosed = true)
    (quiet : ∀ fault ∈ (p.report p.unclosed?).tally.faults, fault.category ≠ .scopeImbalance) :
    p.context.stack = [] := by
  cases stack : p.context.stack with
  | nil => rfl
  | cons top below =>
    have due : p.unclosed? = some ⟨p.cursor.position, none,
        .unclosed (p.context.stack.map p.context.label)⟩ := by
      simp [unclosed?, reports, stack]
    refine absurd (category_of_unclosed? due) (quiet _ ?_)
    rw [tally_report, due]
    exact List.mem_append_right _ (List.mem_singleton_self _)

theorem balanced_of_quiet (reached : p.after standard n = some q) (ended : q.cursor.peek? = none)
    (descends : p.context.options.descendScopes = true)
    (reports : p.context.options.reportUnclosed = true) (empty : p.context.stack = [])
    (quiet : ∀ fault ∈ (q.report q.unclosed?).tally.faults, fault.category ≠ .scopeImbalance) :
    Balanced (p.cursor.records.drop p.cursor.position) := by
  have reporting : q.context.options.reportUnclosed = true :=
    (congrArg Options.reportUnclosed (options_after reached)).trans reports
  have closes := closes_of_after reached ended descends (stack_of_quiet reporting quiet) (by
    intro fault member
    refine quiet fault ?_
    rw [tally_report]
    exact List.mem_append_left _ member)
  rw [empty] at closes
  exact closes

theorem quiet_of_balanced (reached : p.after standard n = some q) (ended : q.cursor.peek? = none)
    (descends : p.context.options.descendScopes = true) (empty : p.context.stack = [])
    (blank : p.tally.faults = [])
    (balanced : Balanced (p.cursor.records.drop p.cursor.position)) :
    ∀ fault ∈ (q.report q.unclosed?).tally.faults, fault.category ≠ .scopeImbalance := by
  obtain ⟨last, balances⟩ := exists_balances balanced descends (List.prefix_refl _)
  have exhausted : last.cursor.peek? = none := by
    rw [balances.cursor_eq, Cursor.peek?, List.getElem?_eq_none_iff, List.length_drop]
    dsimp only
    omega
  have same : n = (p.cursor.records.drop p.cursor.position).length :=
    (length_trace_of_after reached ended).symm.trans
      (length_trace_of_after balances.reached exhausted)
  rw [same, balances.reached] at reached
  cases reached
  have nothing : q.unclosed? = none := by simp [unclosed?, balances.stack_eq, empty]
  obtain ⟨faults, grown, quiet, -⟩ := balances.faults_eq
  rw [nothing, tally_report, grown, blank]
  simpa using quiet

end Progress

/-- Balanced words are balanced by every run that goes down into scopes, and runs that report no
imbalance go over balanced words only. -/
theorem balance_recognised_exactly :
    (∀ (p : Progress) (word : List Record), p.context.options.descendScopes = true →
      p.Faces word → Balanced word →
      (∃ q, Progress.Balances word p q) ∧
        ∀ fault ∈ malformations p.cursor.position word, fault.category = .malformedField) ∧
    (∀ (context : Context) (cursor : Cursor) (token : Token),
      context.options.descendScopes = true → context.options.reportUnclosed = true →
      context.stack = [] →
      let outcome := run standard context cursor token
      outcome.ending = .ok .completed →
      ((∀ fault ∈ outcome.progress.tally.faults, fault.category ≠ .scopeImbalance) ↔
        Balanced (cursor.records.drop cursor.position))) := by
  constructor
  · intro p word descends faces balanced
    exact ⟨Progress.exists_balances balanced descends faces,
      fun fault member => category_of_malformations member⟩
  · intro context cursor token descends reports empty outcome completes
    let start : Progress := { context, cursor }
    obtain ⟨last, reached, ended, ends, -⟩ := start.run_uncancelled
    have progress : outcome.progress = last.report last.unclosed? :=
      (Progress.run_of_completed completes).trans ends
    rw [progress]
    constructor
    · intro quiet
      exact Progress.balanced_of_quiet reached ended descends reports empty quiet
    · intro balanced
      exact Progress.quiet_of_balanced reached ended descends empty rfl balanced

/-- A procedure in a section that cannot be, and in it an inline site and a label. -/
theorem balance_recognised_of_malformed_begin :
    let word : List Record :=
      [{ kind := Kind.globalProcedure, sectionIndex := 0x10000 }, { kind := Kind.inlineSite },
        { kind := Kind.label }, { kind := Kind.inlineSiteEnd }, { kind := Kind.scopeEnd }]
    let start : Progress := { context := {}, cursor := { records := word } }
    (∃ q, Progress.Balances word start q) ∧
      malformations 0 word =
        [⟨0, some Kind.globalProcedure, .field (.sectionIndex "section" 0x10000 0)⟩] ∧
      ∀ fault ∈ (run standard {} { records := word }).progress.tally.faults,
        fault.category ≠ .scopeImbalance := by
  intro word start
  have label : Balanced [{ kind := Kind.label }] := .neutral (by decide) .empty
  have site : Balanced
      [{ kind := Kind.inlineSite }, { kind := Kind.label }, { kind := Kind.inlineSiteEnd }] :=
    .scope rfl (by decide) (by decide) label .empty
  have balanced : Balanced word := .scope rfl (by decide) (by decide) site .empty
  have main := balance_recognised_exactly
  obtain ⟨-, -, -, -, completes⟩ := start.run_uncancelled
  refine ⟨(main.1 start word rfl (List.prefix_refl _) balanced).1, by decide, ?_⟩
  exact (main.2 {} { records := word } (.flag false) rfl rfl rfl completes).2 balanced

end SymbolRecovery
