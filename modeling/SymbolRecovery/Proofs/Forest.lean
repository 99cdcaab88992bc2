import SymbolRecovery.Proofs.Classes
import SymbolRecovery.Proofs.Trace
import SymbolRecovery.Proofs.Walk

/-!
The forest that a run recovers. Main statement: in every state of a run from a fresh context the
walk meets each scope once and in the order of the records, parents and children agree, and every
open scope of an accepted begin record lies in the scope of the frame below it.
-/
namespace SymbolRecovery
open Lookup (standard)

def Linked : List OpenScope → Prop
  | [] => True
  | top :: below => top.below = below.head?.map (·.scope) ∧ Linked below

theorem Linked.of_suffix {stack lower : List OpenScope} (linked : Linked stack)
    (suffix : lower <:+ stack) : Linked lower := by
  induction stack with
  | nil =>
    rw [List.suffix_nil.1 suffix]
    trivial
  | cons top below ih =>
    rcases List.suffix_cons_iff.1 suffix with same | deeper
    · rw [same]
      exact linked
    · exact ih linked.2 deeper

namespace Context

/-- The scopes of a context form a forest that follows the order of the records. -/
structure WellNested (records : List Record) (c : Context) : Prop where
  walk_known : ∀ id ∈ c.walk, ∃ s, c.scope? id = some s
  walk_distinct : c.walk.Nodup
  walk_follows_records : c.walk.Pairwise fun first second =>
    ∀ s t, c.scope? first = some s → c.scope? second = some t → s.position < t.position
  walk_from_top : ∀ id ∈ c.top, id ∈ c.walk
  walk_to_children : ∀ id ∈ c.walk, ∀ s, c.scope? id = some s →
    ∀ child ∈ s.children, child ∈ c.walk
  top_parentless : ∀ id ∈ c.top, ∃ s, c.scope? id = some s ∧ s.parent = none
  children_distinct : ∀ id s, c.scope? id = some s → s.children.Nodup
  children_owned : ∀ id s, c.scope? id = some s → ∀ child ∈ s.children,
    child ∉ c.top ∧ (∃ t, c.scope? child = some t ∧ t.parent = some id) ∧
      ∀ other u, c.scope? other = some u → child ∈ u.children → other = id
  frames_distinct : (c.stack.map (·.scope)).Nodup
  frames_linked : Linked c.stack
  frames_nested : ∀ o ∈ c.stack, ∃ s r form, ∃ position : Nat,
    c.scope? o.scope = some s ∧ s.position = position ∧ records[position]? = some r ∧
      ScopeForm.ofKind? r.kind = some form ∧ (r.malformation? form = none → s.parent = o.below)

variable {c : Context}

theorem exists_scope? {id : ScopeId} (known : id < c.nest.size) : ∃ s, c.scope? id = some s := by
  have inside : id < c.arena.length := by simpa [nest, Nest.size] using known
  exact ⟨_, List.getElem?_eq_getElem inside⟩

theorem nest_of_scope? {id : ScopeId} {s : Scope} (here : c.scope? id = some s) :
    c.nest.parent? id = s.parent ∧ c.nest.children id = s.children ∧
      c.nest.position? id = some s.position := by
  unfold scope? at here
  simp [Nest.parent?, Nest.children, Nest.position?, nest, here, Scope.link]

theorem SameScopes.nest_eq {d : Context} (same : c.SameScopes d) : d.nest = c.nest := by
  have links : d.arena.map Scope.link = c.arena.map Scope.link := same.map_arena fun _ _ => rfl
  unfold nest
  rw [same.top_eq, same.stack_eq, links]

theorem head?_frames : c.nest.frames.head? = c.currentScope? := List.head?_map

theorem nest_hold (form : ScopeForm) (r : Record) (position : Nat) :
    (c.pushScope (form.placeholder r position) form.endKinds).nest = c.nest.hold position := by
  simp [nest, Nest.hold, Nest.size, Scope.link, ScopeForm.placeholder, newFrame]

theorem nest_enter (form : ScopeForm) {s : Scope} (leaf : s.children = [])
    (endOffset : Option Int) :
    (c.enterScope form s endOffset).nest = c.nest.enter s.position := by
  obtain ⟨unresolved, enters⟩ := c.enterScope_eq form s endOffset
  rw [enters]
  unfold Nest.enter attachScope
  rw [head?_frames]
  cases current : c.currentScope? with
  | none => simp [nest, Scope.link, found, newFrame, Nest.size, leaf, current]
  | some owner =>
    have attached : (c.arena.modify owner fun p =>
          { p with children := p.children ++ [c.arena.length] }).map Scope.link =
        (c.arena.map Scope.link).modify owner fun link =>
          { link with children := link.children ++ [c.arena.length] } := by
      apply map_modify_of_comm
      exact fun s => rfl
    simp [nest, modifyScope, attached, Scope.link, found, newFrame, Nest.size, leaf, current]

theorem nest_close (kind : Kind) :
    (c.closeScope kind).nest =
      { c.nest with frames := (c.unwinding kind).remaining.map (·.scope) } := by
  rw [closeScope_eq]
  cases (c.unwinding kind).closed with
  | none => rfl
  | some o =>
    have kept : (c.arena.modify o.scope fun s => { s with closed := true }).map Scope.link =
        c.arena.map Scope.link := by
      apply map_modify_of_blind
      exact fun s => rfl
    simp [nest, kept]

theorem remaining_suffix (kind : Kind) : (c.closeScope kind).stack <:+ c.stack := by
  rw [closeScope_eq]
  exact ⟨_, (unwind_parts kind c.stack).symm⟩

theorem nest_of_begin (ordered : c.nest.Ordered) {r : Record} {form : ScopeForm}
    (opens : ScopeForm.ofKind? r.kind = some form) (position : Nat) :
    let n := (c.perform (r.effect position)).nest
    n.Ordered ∧
      (∀ id, n.position? id = if id = c.nest.size then some ↑position else c.nest.position? id) ∧
      (∀ id, id < c.nest.size → n.parent? id = c.nest.parent? id) ∧
      (r.malformation? form = none → n.parent? c.nest.size = c.currentScope?) := by
  intro n
  cases wrong : r.malformation? form with
  | some cause =>
    have grows : n = c.nest.hold position := by
      simp only [n, Record.effect_of_malformed opens wrong, perform]
      exact nest_hold form r position
    rw [grows]
    refine ⟨ordered.hold position, fun id => Nest.position?_hold, fun id _ => Nest.parent?_hold, ?_⟩
    intro right
    cases right
  | none =>
    obtain ⟨s, asks, placed, -, leaf⟩ := Record.effect_of_wellFormed opens wrong position
    have grows : n = c.nest.enter position := by
      simp only [n, asks, perform]
      rw [nest_enter form leaf, placed]
    rw [grows]
    refine ⟨ordered.enter position, fun id => Nest.position?_enter, ?_, ?_⟩
    · intro id old
      rw [Nest.parent?_enter, if_neg (Nat.ne_of_lt old)]
    · intro _
      rw [Nest.parent?_enter, if_pos rfl, head?_frames]

end Context

def Opened (records : List Record) (n : Nest) (o : OpenScope) : Prop :=
  ∃ (position : Nat) (r : Record) (form : ScopeForm),
    n.position? o.scope = some (position : Int) ∧ records[position]? = some r ∧
      ScopeForm.ofKind? r.kind = some form ∧
      (r.malformation? form = none → n.parent? o.scope = o.below)

namespace Progress

structure Nested (p : Progress) : Prop where
  ordered : p.context.nest.Ordered
  passed : ∀ {id position}, p.context.nest.position? id = some position →
    position < p.cursor.position
  ascend : ∀ {id last before after}, id < last → p.context.nest.position? id = some before →
    p.context.nest.position? last = some after → before < after
  linked : Linked p.context.stack
  opened : ∀ o ∈ p.context.stack, Opened p.cursor.records p.context.nest o

variable {p q : Progress} {r : Record} {n : Nat}

theorem nested_fresh (layout : Option LoadLayout) (options : Options) (cursor : Cursor) :
    Nested { context := { layout, options }, cursor } where
  ordered := Nest.ordered_empty
  passed := by simp [Context.nest, Nest.position?]
  ascend := by simp [Context.nest, Nest.position?]
  linked := trivial
  opened := by simp

theorem Nested.of_suffix (nested : p.Nested) (behind : p.cursor.Precedes q.cursor)
    (suffix : q.context.stack <:+ p.context.stack)
    (kept : q.context.nest =
      { p.context.nest with frames := q.context.stack.map (·.scope) }) : q.Nested where
  ordered := by
    rw [kept]
    exact nested.ordered.of_sublist (suffix.sublist.map _)
  passed := by
    intro id position here
    rw [kept] at here
    have before := nested.passed here
    have forwards := behind.position_le
    omega
  ascend := by
    intro id last before after ascends here there
    rw [kept] at here there
    exact nested.ascend ascends here there
  linked := nested.linked.of_suffix suffix
  opened := by
    intro o member
    obtain ⟨position, b, form, placed, read, opens, lies⟩ := nested.opened o (suffix.subset member)
    rw [kept, behind.records_eq]
    exact ⟨position, b, form, placed, read, opens, lies⟩

theorem Nested.begin (nested : p.Nested) (found : p.cursor.peek? = some r) {form : ScopeForm}
    (opens : ScopeForm.ofKind? r.kind = some form) : (p.next r).Nested := by
  obtain ⟨endOffset, stack⟩ := p.context.stack_of_begin opens p.cursor.position
  obtain ⟨ordered, positions, parents, own⟩ :=
    Context.nest_of_begin nested.ordered opens p.cursor.position
  have forwards := p.cursor.lt_following p.context.options.descendScopes
    (r.effect p.cursor.position)
  have numbered : (p.context.newFrame form endOffset).scope = p.context.nest.size := by
    simp [Context.newFrame, Context.nest, Nest.size]
  refine ⟨ordered, ?_, ?_, ?_, ?_⟩
  · intro id position here
    simp only [next] at here ⊢
    rw [positions] at here
    split at here
    · cases here
      omega
    · have before := nested.passed here
      omega
  · intro id last before after ascends here there
    simp only [next] at here there
    rw [positions] at here there
    split at there
    · next new =>
      rw [if_neg (by omega)] at here
      cases there
      exact nested.passed here
    · have known := Nest.lt_size_of_position? there
      rw [if_neg (by omega)] at here
      exact nested.ascend ascends here there
  · simp only [next]
    rw [stack]
    exact ⟨rfl, nested.linked⟩
  · intro o member
    simp only [next] at member ⊢
    rw [stack] at member
    rcases List.mem_cons.1 member with new | old
    · rw [new]
      refine ⟨p.cursor.position, r, form, ?_, found, opens, ?_⟩
      · rw [positions, if_pos numbered]
      · intro right
        rw [numbered]
        exact own right
    · obtain ⟨position, b, other, placed, read, opens, lies⟩ := nested.opened o old
      have known := Nest.lt_size_of_position? placed
      refine ⟨position, b, other, ?_, read, opens, ?_⟩
      · rw [positions, if_neg (Nat.ne_of_lt known)]
        exact placed
      · rw [parents _ known]
        exact lies

theorem Nested.next (nested : p.Nested) (found : p.cursor.peek? = some r) : (p.next r).Nested := by
  have behind := precedes_next p r
  by_cases begins : r.IsBegin
  · obtain ⟨form, opens⟩ := Record.isBegin_iff.1 begins
    exact nested.begin found opens
  · by_cases ends : r.IsEnd
    · have closes : (p.next r).context = p.context.closeScope r.kind := by
        simp only [Progress.next, Record.effect_of_isEnd ends, Context.perform]
      refine nested.of_suffix behind ?_ ?_
      · rw [closes]
        exact Context.remaining_suffix r.kind
      · rw [closes, Context.nest_close, Context.closeScope_eq]
    · have same := p.context.sameScopes_of_neutral ⟨begins, ends⟩ p.cursor.position
      refine nested.of_suffix behind ?_ ?_
      · exact ⟨[], same.stack_eq⟩
      · simp only [Progress.next]
        rw [same.nest_eq, same.stack_eq]
        rfl

theorem nested_after (reached : p.after standard n = some q) (nested : p.Nested) : q.Nested :=
  after_keeps (motive := Nested) (fun _ _ found nested => nested.next found) reached nested

theorem Nested.wellNested (nested : p.Nested) : p.context.WellNested p.cursor.records where
  walk_known := by
    intro id member
    exact Context.exists_scope? (Context.walk_closed nested.ordered member).1
  walk_distinct := (Context.walk_ascends nested.ordered).imp fun before => Nat.ne_of_lt before
  walk_follows_records := by
    refine (Context.walk_ascends nested.ordered).imp ?_
    intro first second ascends s t here there
    exact nested.ascend ascends (Context.nest_of_scope? here).2.2 (Context.nest_of_scope? there).2.2
  walk_from_top := fun id root => Context.mem_walk_of_top nested.ordered root
  walk_to_children := by
    intro id member s here child listed
    rw [← (Context.nest_of_scope? here).2.1] at listed
    exact (Context.walk_closed nested.ordered member).2 child listed
  top_parentless := by
    intro id root
    obtain ⟨known, parentless⟩ := nested.ordered.root root
    obtain ⟨s, here⟩ := Context.exists_scope? known
    exact ⟨s, here, (Context.nest_of_scope? here).1.symm.trans parentless⟩
  children_distinct := by
    intro id s here
    rw [← (Context.nest_of_scope? here).2.1]
    exact (nested.ordered.children_ascend id).imp fun before => Nat.ne_of_lt before
  children_owned := by
    intro id s here child listed
    rw [← (Context.nest_of_scope? here).2.1] at listed
    have owned := nested.ordered.child_iff.1 listed
    refine ⟨?_, ?_, ?_⟩
    · intro root
      have parentless := (nested.ordered.root root).2
      rw [owned] at parentless
      cases parentless
    · obtain ⟨t, there⟩ := Context.exists_scope? (Nest.lt_size_of_parent? owned)
      exact ⟨t, there, (Context.nest_of_scope? there).1.symm.trans owned⟩
    · intro other u elsewhere also
      rw [← (Context.nest_of_scope? elsewhere).2.1] at also
      exact Option.some.inj ((nested.ordered.child_iff.1 also).symm.trans owned)
  frames_distinct := nested.ordered.frames_descend.imp fun before => Nat.ne_of_gt before
  frames_linked := nested.linked
  frames_nested := by
    intro o member
    obtain ⟨position, r, form, placed, read, opens, lies⟩ := nested.opened o member
    obtain ⟨s, here⟩ := Context.exists_scope? (Nest.lt_size_of_position? placed)
    obtain ⟨parent, -, positioned⟩ := Context.nest_of_scope? here
    rw [positioned] at placed
    rw [parent] at lies
    exact ⟨s, r, form, position, here, Option.some.inj placed, read, opens, lies⟩

end Progress

/-- From a fresh context every state of a run holds a forest in the order of the records, and so
does the result, however the run ends. -/
theorem recovered_scopes_well_nested (cursor : Cursor) (layout : Option LoadLayout)
    (options : Options) :
    let start : Progress := { context := { layout, options }, cursor }
    (∀ n p, start.after standard n = some p → p.context.WellNested cursor.records) ∧
      ∀ token, (run standard start.context cursor token).progress.context.WellNested
        cursor.records := by
  intro start
  have fresh : start.Nested := Progress.nested_fresh layout options cursor
  have states : ∀ n p, start.after standard n = some p → p.context.WellNested cursor.records := by
    intro n p reached
    have nested := (Progress.nested_after reached fresh).wellNested
    rw [(Progress.precedes_after reached).records_eq] at nested
    exact nested
  refine ⟨states, ?_⟩
  intro token
  obtain ⟨n, q, reached, same⟩ := start.exists_after_run token
  have nested := states n q reached
  rw [← same] at nested
  exact nested

/-- The inline site lies in the block that is not accepted, and so outside of the walk. -/
theorem recovered_scopes_well_nested_under_placeholder :
    let records : List Record :=
      [{ kind := Kind.globalProcedure }, { kind := Kind.block, sectionIndex := 0x10000 },
        { kind := Kind.inlineSite }]
    let start : Progress := { context := {}, cursor := { records } }
    ∃ p, start.after standard 3 = some p ∧ p.context.stack.map (·.scope) = [2, 1, 0] ∧
      p.context.walk = [0] ∧ p.context.WellNested records := by
  intro records start
  have seen : (start.after standard 3).map (fun p =>
      (p.context.stack.map (·.scope), p.context.walk)) = some ([2, 1, 0], [0]) := by
    decide +kernel
  obtain ⟨p, reached, frames⟩ := Option.map_eq_some_iff.1 seen
  obtain ⟨stack, walk⟩ := Prod.mk.inj frames
  exact ⟨p, reached, stack, walk, (recovered_scopes_well_nested { records } none {}).1 3 p reached⟩

end SymbolRecovery
