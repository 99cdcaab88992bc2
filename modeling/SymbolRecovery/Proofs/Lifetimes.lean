import SymbolRecovery.Proofs.Balance
import SymbolRecovery.Proofs.Symbols
import SymbolRecovery.Proofs.Unwinding

/-!
What becomes of a scope. It is opened with a frame on the stack, and leaves the stack when an end
record closes it or when it is discarded, together with the scopes around it or on the way to one.
Main statement: a scope is closed exactly if an end record closed it, and once it is off the stack
nothing changes it any more, nor does it come back.
-/
namespace SymbolRecovery
open Lookup (standard)

namespace Context

def OnStack (c : Context) (id : ScopeId) : Prop := id ∈ c.stack.map (·.scope)

/-- What was off the stack has stayed off, and as it was. -/
def Freezes (c d : Context) : Prop :=
  ∀ id s, c.scope? id = some s → ¬ c.OnStack id → d.scope? id = some s ∧ ¬ d.OnStack id

theorem Freezes.refl (c : Context) : c.Freezes c := fun _ _ here off => ⟨here, off⟩

theorem Freezes.trans {c d e : Context} (first : c.Freezes d) (second : d.Freezes e) :
    c.Freezes e := by
  intro id s here off
  obtain ⟨there, still⟩ := first id s here off
  exact second id s there still

variable {c d : Context} {e : Effect} {id : ScopeId} {s : Scope}

theorem lt_length_of_scope? (here : c.scope? id = some s) : id < c.arena.length :=
  (List.getElem?_eq_some_iff.1 here).1

theorem onStack_of_currentScope? (current : c.currentScope? = some id) : c.OnStack id := by
  obtain ⟨o, top, rfl⟩ := Option.map_eq_some_iff.1 current
  exact List.mem_map.2 ⟨o, List.mem_of_head? top, rfl⟩

theorem onStack_of_closed {kind : Kind} {o : OpenScope}
    (closes : (c.unwinding kind).closed = some o) : c.OnStack o.scope := by
  have member : o ∈ c.stack := by
    rw [unwind_parts kind c.stack]
    unfold unwinding at closes
    simp [closes]
  exact List.mem_map.2 ⟨o, member, rfl⟩

theorem scope?_perform_of_off (here : c.scope? id = some s) (off : ¬ c.OnStack id) (e : Effect) :
    (c.perform e).scope? id = some s := by
  have known := lt_length_of_scope? here
  have other : ∀ {owner}, c.OnStack owner → owner ≠ id := fun on same => off (same ▸ on)
  cases e with
  | ignored => exact here
  | refused cause => exact here
  | describes change =>
    cases adds : (Effect.describes change).symbol? with
    | none => rwa [perform, scope?, (make_of_other adds).1]
    | some t =>
      cases Effect.symbol?_eq_some.1 adds
      obtain ⟨unresolved, same⟩ := c.make_addSymbol t
      rw [perform, same, scope?]
      cases current : c.currentScope? with
      | none => exact here
      | some owner =>
        exact (List.getElem?_modify_ne _ _ (other (onStack_of_currentScope? current))).trans here
  | holds form placeholder cause =>
    exact (List.getElem?_append_left known).trans here
  | opens form t endOffset =>
    obtain ⟨unresolved, enters⟩ := c.enterScope_eq form t endOffset
    have attached : c.attachScope.arena[id]? = some s := by
      unfold attachScope
      cases current : c.currentScope? with
      | none => exact here
      | some owner =>
        exact (List.getElem?_modify_ne _ _ (other (onStack_of_currentScope? current))).trans here
    rw [perform, enters, scope?, List.getElem?_append_left (List.getElem?_eq_some_iff.1 attached).1,
      attached]
  | closes kind =>
    rw [perform, closeScope_eq, scope?]
    cases closes : (c.unwinding kind).closed with
    | none => exact here
    | some o => exact (List.getElem?_modify_ne _ _ (other (onStack_of_closed closes))).trans here

theorem onStack_of_perform (on : (c.perform e).OnStack id) :
    c.OnStack id ∨ id = c.arena.length := by
  cases e with
  | ignored => exact .inl on
  | refused cause => exact .inl on
  | describes change =>
    rw [OnStack, perform, (c.sameScopes_make change).stack_eq] at on
    exact .inl on
  | holds form placeholder cause =>
    rcases List.mem_cons.1 on with new | old
    · exact .inr new
    · exact .inl old
  | opens form t endOffset =>
    obtain ⟨unresolved, enters⟩ := c.enterScope_eq form t endOffset
    rw [OnStack, perform, enters] at on
    rcases List.mem_cons.1 on with new | old
    · exact .inr new
    · exact .inl old
  | closes kind => exact .inl ((remaining_suffix kind).map _ |>.subset on)

theorem freezes_perform (c : Context) (e : Effect) : c.Freezes (c.perform e) := by
  intro id s here off
  refine ⟨scope?_perform_of_off here off e, ?_⟩
  intro on
  rcases onStack_of_perform on with before | new
  · exact off before
  · exact Nat.ne_of_lt (lt_length_of_scope? here) new

def isClosed? (c : Context) (id : ScopeId) : Option Bool := (c.scope? id).map (·.closed)

theorem isClosed?_eq (c : Context) (id : ScopeId) : c.isClosed? id = c.marks[id]?.map (·.2) := by
  rw [isClosed?, marks, scope?, List.getElem?_map, Option.map_map]
  rfl

theorem isClosed?_closeScope_of_passed {kind : Kind}
    (passed : ∀ o ∈ c.stack, o.closedBy kind = false) (id : ScopeId) :
    (c.closeScope kind).isClosed? id = c.isClosed? id := by
  rw [closeScope_of_passed passed]
  rfl

theorem isClosed?_closeScope_of_innermost {kind : Kind} {above below : List OpenScope}
    {o : OpenScope} (innermost : Innermost kind c.stack above o below) (id : ScopeId) :
    (c.closeScope kind).isClosed? id =
      if id = o.scope then (c.isClosed? id).map fun _ => true else c.isClosed? id := by
  rw [isClosed?, scope?_closeScope_of_innermost innermost]
  split <;> simp [isClosed?, Function.comp_def]

end Context

theorem Innermost.apart {kind : Kind} {stack above below : List OpenScope} {o : OpenScope}
    (innermost : Innermost kind stack above o below)
    (distinct : (stack.map (·.scope)).Nodup) :
    o.scope ∉ above.map (·.scope) ∧ o.scope ∉ below.map (·.scope) ∧
      ∀ id ∈ above.map (·.scope), id ∉ below.map (·.scope) := by
  rw [innermost.split, List.map_append, List.map_cons, List.nodup_append, List.nodup_cons]
    at distinct
  obtain ⟨-, ⟨last, -⟩, apart⟩ := distinct
  refine ⟨?_, last, ?_⟩
  · exact fun member => apart _ member _ List.mem_cons_self rfl
  · exact fun id member later => apart id member id (List.mem_cons_of_mem _ later) rfl

namespace Progress
variable {p q : Progress} {r : Record} {id : ScopeId} {visited : List Progress}

def Closes (p : Progress) (id : ScopeId) : Prop :=
  ∃ r above o below, p.cursor.peek? = some r ∧ r.IsEnd ∧
    Innermost r.kind p.context.stack above o below ∧ o.scope = id

def Discards (p : Progress) (id : ScopeId) : Prop :=
  ∃ r, p.cursor.peek? = some r ∧ r.IsEnd ∧
    ((∃ above o below, Innermost r.kind p.context.stack above o below ∧
        id ∈ above.map (·.scope)) ∨
      (∀ o ∈ p.context.stack, o.closedBy r.kind = false) ∧ p.context.OnStack id)

theorem Closes.onStack (closes : p.Closes id) : p.context.OnStack id := by
  obtain ⟨r, above, o, below, -, -, innermost, rfl⟩ := closes
  rw [Context.OnStack, innermost.split]
  simp

theorem Discards.onStack (discards : p.Discards id) : p.context.OnStack id := by
  obtain ⟨r, -, -, ⟨above, o, below, innermost, member⟩ | ⟨-, on⟩⟩ := discards
  · rw [Context.OnStack, innermost.split, List.map_append]
    exact List.mem_append_left _ member
  · exact on

theorem context_next_of_isEnd (ends : r.IsEnd) :
    (p.next r).context = p.context.closeScope r.kind := by
  simp only [next, Record.effect_of_isEnd ends, Context.perform]

variable (found : p.cursor.peek? = some r) (distinct : (p.context.stack.map (·.scope)).Nodup)
include found distinct

theorem Closes.next (closes : p.Closes id) :
    ¬ p.Discards id ∧ ¬ (p.next r).context.OnStack id ∧
      (p.next r).context.isClosed? id = (p.context.isClosed? id).map fun _ => true := by
  obtain ⟨_, above, o, below, same, ends, innermost, rfl⟩ := closes
  cases found.symm.trans same
  obtain ⟨first, last, -⟩ := innermost.apart distinct
  refine ⟨?_, ?_, ?_⟩
  · rintro ⟨_, same, -, discards⟩
    cases found.symm.trans same
    rcases discards with ⟨others, inner, rest, also, member⟩ | ⟨passed, -⟩
    · cases innermost.unwind_eq.symm.trans also.unwind_eq
      exact first member
    · have waits := passed o (by simp [innermost.split])
      rw [innermost.closes] at waits
      cases waits
  · rw [context_next_of_isEnd ends, Context.OnStack, Context.closeScope_of_innermost innermost]
    exact last
  · rw [context_next_of_isEnd ends, Context.isClosed?_closeScope_of_innermost innermost, if_pos rfl]

theorem Discards.next (discards : p.Discards id) :
    ¬ (p.next r).context.OnStack id ∧
      (p.next r).context.isClosed? id = p.context.isClosed? id := by
  obtain ⟨_, same, ends, gone⟩ := discards
  cases found.symm.trans same
  rw [context_next_of_isEnd ends]
  rcases gone with ⟨above, o, below, innermost, member⟩ | ⟨passed, -⟩
  · obtain ⟨first, -, apart⟩ := innermost.apart distinct
    have other : id ≠ o.scope := fun here => first (here ▸ member)
    constructor
    · rw [Context.OnStack, Context.closeScope_of_innermost innermost]
      exact apart id member
    · rw [Context.isClosed?_closeScope_of_innermost innermost, if_neg other]
  · constructor
    · rw [Context.OnStack, Context.closeScope_of_passed passed]
      exact List.not_mem_nil
    · exact Context.isClosed?_closeScope_of_passed passed id

omit distinct in
theorem onStack_next (known : id < p.context.arena.length) (on : p.context.OnStack id)
    (unclosed : ¬ p.Closes id) (undiscarded : ¬ p.Discards id) :
    (p.next r).context.OnStack id ∧
      (p.next r).context.isClosed? id = p.context.isClosed? id := by
  by_cases begins : r.IsBegin
  · obtain ⟨form, opens⟩ := Record.isBegin_iff.1 begins
    obtain ⟨endOffset, stack⟩ := p.context.stack_of_begin opens p.cursor.position
    obtain ⟨marks, -⟩ := p.context.perform_of_begin opens p.cursor.position
    constructor
    · rw [Context.OnStack, next, stack]
      exact List.mem_cons_of_mem _ on
    · rw [Context.isClosed?_eq, Context.isClosed?_eq, next, marks, List.getElem?_append_left]
      rwa [Context.length_marks]
  · by_cases ends : r.IsEnd
    · rw [context_next_of_isEnd ends]
      rcases innermost_or_passed r.kind p.context.stack with
        ⟨above, o, below, innermost⟩ | passed
      · have other : id ≠ o.scope := fun here =>
          unclosed ⟨r, above, o, below, found, ends, innermost, here.symm⟩
        have lower : id ∉ above.map (·.scope) := fun member =>
          undiscarded ⟨r, found, ends, .inl ⟨above, o, below, innermost, member⟩⟩
        constructor
        · rw [Context.OnStack, innermost.split, List.map_append, List.map_cons, List.mem_append,
            List.mem_cons] at on
          rw [Context.OnStack, Context.closeScope_of_innermost innermost]
          exact (on.resolve_left lower).resolve_left other
        · rw [Context.isClosed?_closeScope_of_innermost innermost, if_neg other]
      · exact absurd ⟨r, found, ends, .inr ⟨passed, on⟩⟩ undiscarded
    · have same := p.context.sameScopes_of_neutral ⟨begins, ends⟩ p.cursor.position
      constructor
      · rwa [Context.OnStack, next, same.stack_eq]
      · rw [Context.isClosed?_eq, Context.isClosed?_eq, next, same.marks_eq]

omit found distinct in
theorem onStack_next_of_unknown (unknown : p.context.arena.length ≤ id) {closed : Bool}
    (here : (p.next r).context.isClosed? id = some closed) :
    (p.next r).context.OnStack id ∧ closed = false := by
  have without : p.context.marks[id]? = none :=
    List.getElem?_eq_none (Nat.le_trans (Nat.le_of_eq Context.length_marks) unknown)
  by_cases begins : r.IsBegin
  · obtain ⟨form, opens⟩ := Record.isBegin_iff.1 begins
    obtain ⟨endOffset, stack⟩ := p.context.stack_of_begin opens p.cursor.position
    obtain ⟨marks, -⟩ := p.context.perform_of_begin opens p.cursor.position
    rw [Context.isClosed?_eq, next, marks, getElem?_concat, without, Context.length_marks] at here
    split at here
    · next new =>
      rw [Context.OnStack, next, stack]
      exact ⟨List.mem_cons.2 (.inl new.symm), (Option.some.inj here).symm⟩
    · cases here
  · by_cases ends : r.IsEnd
    · rw [context_next_of_isEnd ends] at here
      have absent : p.context.isClosed? id = none := by
        rw [Context.isClosed?_eq, without]
        rfl
      rcases innermost_or_passed r.kind p.context.stack with
        ⟨above, o, below, innermost⟩ | passed
      · simp [Context.isClosed?_closeScope_of_innermost innermost, absent] at here
      · rw [Context.isClosed?_closeScope_of_passed passed, absent] at here
        cases here
    · have same := p.context.sameScopes_of_neutral ⟨begins, ends⟩ p.cursor.position
      rw [Context.isClosed?_eq, next, same.marks_eq, without] at here
      cases here

end Progress

inductive Context.Lived (visited : List Progress) (c : Context) (id : ScopeId) : Bool → Prop where
  | opened (on : c.OnStack id) (unclosed : ∀ p ∈ visited, ¬ p.Closes id)
      (undiscarded : ∀ p ∈ visited, ¬ p.Discards id) : Lived visited c id false
  | closed (off : ¬ c.OnStack id) (closes : ∃ p ∈ visited, p.Closes id)
      (undiscarded : ∀ p ∈ visited, ¬ p.Discards id) : Lived visited c id true
  | discarded (off : ¬ c.OnStack id) (unclosed : ∀ p ∈ visited, ¬ p.Closes id)
      (discards : ∃ p ∈ visited, p.Discards id) : Lived visited c id false

namespace Progress
variable {p q : Progress} {r : Record} {id : ScopeId} {visited : List Progress} {closed : Bool}

theorem Lived.next (found : p.cursor.peek? = some r)
    (distinct : (p.context.stack.map (·.scope)).Nodup) (known : id < p.context.arena.length)
    (here : p.context.isClosed? id = some closed) (lived : p.context.Lived visited id closed) :
    ∃ closed, (p.next r).context.isClosed? id = some closed ∧
      (p.next r).context.Lived (visited ++ [p]) id closed := by
  have never : ∀ {event : Progress → Prop}, (∀ q ∈ visited, ¬ event q) → ¬ event p →
      ∀ q ∈ visited ++ [p], ¬ event q := fun before now =>
    List.forall_mem_append.2 ⟨before, List.forall_mem_singleton.2 now⟩
  have once : ∀ {event : Progress → Prop}, (∃ q ∈ visited, event q) →
      ∃ q ∈ visited ++ [p], event q := fun ⟨q, member, event⟩ =>
    ⟨q, List.mem_append_left _ member, event⟩
  have frozen : ¬ p.context.OnStack id →
      (p.next r).context.isClosed? id = some closed ∧ ¬ (p.next r).context.OnStack id := by
    intro off
    obtain ⟨s, there, same⟩ := Option.map_eq_some_iff.1 here
    obtain ⟨kept, stays⟩ := p.context.freezes_perform _ id s there off
    exact ⟨Option.map_eq_some_iff.2 ⟨s, kept, same⟩, stays⟩
  cases lived with
  | opened on unclosed undiscarded =>
    by_cases closes : p.Closes id
    · obtain ⟨kept, off, now⟩ := closes.next found distinct
      rw [here] at now
      exact ⟨true, now, .closed off ⟨p, by simp, closes⟩ (never undiscarded kept)⟩
    · by_cases discards : p.Discards id
      · obtain ⟨off, now⟩ := discards.next found distinct
        exact ⟨false, now.trans here, .discarded off (never unclosed closes) ⟨p, by simp, discards⟩⟩
      · obtain ⟨still, now⟩ := onStack_next found known on closes discards
        exact ⟨false, now.trans here,
          .opened still (never unclosed closes) (never undiscarded discards)⟩
  | closed off closes undiscarded =>
    obtain ⟨now, stays⟩ := frozen off
    exact ⟨true, now,
      .closed stays (once closes) (never undiscarded fun event => off event.onStack)⟩
  | discarded off unclosed discards =>
    obtain ⟨now, stays⟩ := frozen off
    exact ⟨false, now,
      .discarded stays (never unclosed fun event => off event.onStack) (once discards)⟩

structure Follows (visited : List Progress) (p : Progress) : Prop where
  nested : p.Nested
  known : ∀ q ∈ visited, ∀ id, q.context.OnStack id → (p.context.isClosed? id).isSome
  lived : ∀ id closed, p.context.isClosed? id = some closed → p.context.Lived visited id closed

theorem follows_fresh (layout : Option LoadLayout) (options : Options) (cursor : Cursor) :
    Follows [] { context := { layout, options }, cursor } where
  nested := nested_fresh layout options cursor
  known := by simp
  lived := by simp [Context.isClosed?, Context.scope?]

theorem Nested.isSome_isClosed? (nested : p.Nested) (on : p.context.OnStack id) :
    (p.context.isClosed? id).isSome := by
  obtain ⟨s, here⟩ := Context.exists_scope? (nested.ordered.frame_known on)
  rw [Context.isClosed?, here]
  rfl

theorem lt_length_iff (p : Progress) (id : ScopeId) :
    id < p.context.arena.length ↔ (p.context.isClosed? id).isSome := by
  simp [Context.isClosed?, Context.scope?]

theorem Follows.next (follows : Follows visited p) (found : p.cursor.peek? = some r) :
    Follows (visited ++ [p]) (p.next r) := by
  have distinct : (p.context.stack.map (·.scope)).Nodup :=
    follows.nested.ordered.frames_descend.imp fun before => Nat.ne_of_gt before
  have seen : ∀ q ∈ visited ++ [p], ∀ id, q.context.OnStack id →
      (p.context.isClosed? id).isSome :=
    List.forall_mem_append.2 ⟨follows.known,
      List.forall_mem_singleton.2 fun id on => follows.nested.isSome_isClosed? on⟩
  have onward : ∀ id closed, p.context.isClosed? id = some closed →
      ∃ closed, (p.next r).context.isClosed? id = some closed ∧
        (p.next r).context.Lived (visited ++ [p]) id closed := by
    intro id closed here
    have known := (p.lt_length_iff id).2 (by rw [here]; rfl)
    exact Lived.next found distinct known here (follows.lived id closed here)
  refine ⟨follows.nested.next found, ?_, ?_⟩
  · intro q member id on
    obtain ⟨before, here⟩ := Option.isSome_iff_exists.1 (seen q member id on)
    obtain ⟨closed, now, -⟩ := onward id before here
    rw [now]
    rfl
  · intro id closed now
    cases here : p.context.isClosed? id with
    | some before =>
      obtain ⟨later, also, lived⟩ := onward id before here
      cases now.symm.trans also
      exact lived
    | none =>
      have unseen : ∀ q ∈ visited ++ [p], ¬ q.context.OnStack id := by
        intro q member on
        have there := seen q member id on
        rw [here] at there
        cases there
      have unknown : p.context.arena.length ≤ id := by
        rw [← Nat.not_lt, p.lt_length_iff, here]
        simp
      obtain ⟨on, rfl⟩ := onStack_next_of_unknown unknown now
      exact .opened on (fun q member closes => unseen q member closes.onStack)
        fun q member discards => unseen q member discards.onStack

theorem freezes_after {n : Nat} (reached : p.after standard n = some q) :
    p.context.Freezes q.context := by
  refine after_keeps (motive := fun q => p.context.Freezes q.context) ?_ reached (.refl _)
  intro s r found frozen
  exact frozen.trans (s.context.freezes_perform _)

end Progress

inductive Fate where
  | opened | closed | discarded
deriving Repr, DecidableEq

namespace Context

def Meets (visited : List Progress) (c : Context) (id : ScopeId) (s : Scope) : Fate → Prop
  | .opened => c.OnStack id ∧ s.closed = false
  | .closed => ¬ c.OnStack id ∧ s.closed = true
  | .discarded => ¬ c.OnStack id ∧ ∃ p ∈ visited, p.Discards id

/-- What the visited records have made of the scopes. -/
structure Lifetimes (visited : List Progress) (c : Context) : Prop where
  unclosed : ∀ id, c.OnStack id → ∃ s, c.scope? id = some s ∧ s.closed = false
  closed_iff : ∀ id s, c.scope? id = some s → (s.closed = true ↔ ∃ p ∈ visited, p.Closes id)
  discarded : ∀ id s, c.scope? id = some s → (∃ p ∈ visited, p.Discards id) → s.closed = false
  one_fate : ∀ id s, c.scope? id = some s → ∃! fate, c.Meets visited id s fate

variable {c : Context} {visited : List Progress} {id : ScopeId} {s : Scope}

theorem Lived.closed_iff {closed : Bool} (lived : c.Lived visited id closed) :
    closed = true ↔ ∃ p ∈ visited, p.Closes id := by
  cases lived with
  | opened on unclosed undiscarded => simpa using unclosed
  | closed off closes undiscarded => simpa using closes
  | discarded off unclosed discards => simpa using unclosed

theorem Lived.eq_false_of_onStack {closed : Bool} (lived : c.Lived visited id closed)
    (on : c.OnStack id) : closed = false := by
  cases lived with
  | opened => rfl
  | closed off => exact absurd on off
  | discarded => rfl

theorem Lived.eq_false_of_discards {closed : Bool} (lived : c.Lived visited id closed)
    (discards : ∃ p ∈ visited, p.Discards id) : closed = false := by
  obtain ⟨p, member, now⟩ := discards
  cases lived with
  | opened => rfl
  | closed off closes undiscarded => exact absurd now (undiscarded p member)
  | discarded => rfl

theorem Lived.existsUnique_fate (lived : c.Lived visited id s.closed) :
    ∃! fate, c.Meets visited id s fate := by
  generalize flag : s.closed = closed at lived
  cases lived with
  | opened on unclosed undiscarded =>
    refine ⟨.opened, ⟨on, flag⟩, ?_⟩
    intro fate meets
    cases fate with
    | opened => rfl
    | closed => exact absurd on meets.1
    | discarded => exact absurd on meets.1
  | closed off closes undiscarded =>
    refine ⟨.closed, ⟨off, flag⟩, ?_⟩
    intro fate meets
    cases fate with
    | opened => exact absurd meets.1 off
    | closed => rfl
    | discarded =>
      obtain ⟨-, p, member, discards⟩ := meets
      exact absurd discards (undiscarded p member)
  | discarded off unclosed discards =>
    refine ⟨.discarded, ⟨off, discards⟩, ?_⟩
    intro fate meets
    cases fate with
    | opened => exact absurd meets.1 off
    | closed =>
      rw [Meets, flag] at meets
      cases meets.2
    | discarded => rfl

end Context

namespace Progress
variable {visited : List Progress} {p : Progress}

theorem Follows.lifetimes (follows : Follows visited p) : p.context.Lifetimes visited := by
  have lived : ∀ id s, p.context.scope? id = some s → p.context.Lived visited id s.closed := by
    intro id s here
    exact follows.lived id s.closed (by rw [Context.isClosed?, here]; rfl)
  refine ⟨?_, ?_, ?_, ?_⟩
  · intro id on
    obtain ⟨s, here⟩ := Context.exists_scope? (follows.nested.ordered.frame_known on)
    exact ⟨s, here, (lived id s here).eq_false_of_onStack on⟩
  · exact fun id s here => (lived id s here).closed_iff
  · exact fun id s here => (lived id s here).eq_false_of_discards
  · exact fun id s here => (lived id s here).existsUnique_fate

end Progress

/-- From a fresh context, a scope is open as long as it is on the stack, and closed afterwards if an
end record closed it and not if it was discarded; and of any two states the second finds every scope
that was off the stack in the first off the stack and as it was. -/
theorem scopes_frozen_off_stack (cursor : Cursor) (layout : Option LoadLayout)
    (options : Options) :
    let start : Progress := { context := { layout, options }, cursor }
    (∀ m p, start.after standard m = some p →
      p.context.Lifetimes (start.history m) ∧
        ∀ n q, p.after standard n = some q → p.context.Freezes q.context) ∧
      ∀ token, let c := (run standard start.context cursor token).progress.context
        c.Lifetimes (start.dispatches standard token) ∧
          ∀ p ∈ start.dispatches standard token, p.context.Freezes c := by
  intro start
  have states : ∀ m p, start.after standard m = some p →
      p.context.Lifetimes (start.history m) := by
    intro m p reached
    refine (Progress.history_keeps (motive := Progress.Follows)
      (Progress.follows_fresh layout options cursor) ?_ reached).lifetimes
    exact fun visited s r found follows => follows.next found
  refine ⟨?_, ?_⟩
  · intro m p reached
    exact ⟨states m p reached, fun n q later => Progress.freezes_after later⟩
  · intro token c
    obtain ⟨n, q, reached, visits, same⟩ := start.exists_history_run token
    have ends : c = q.context := same
    rw [ends, visits]
    refine ⟨states n q reached, ?_⟩
    intro p member
    obtain ⟨m, k, -, later⟩ := Progress.exists_of_mem_history reached member
    exact Progress.freezes_after later

/-- The end record of the first procedure closes it and discards the block in it; the end record of
an inline site clears the second procedure away; and the third is still open. -/
theorem scopes_frozen_off_stack_after_discards :
    let records : List Record :=
      [{ kind := Kind.globalProcedure, sectionIndex := 1 }, { kind := Kind.block },
        { kind := Kind.procedureEnd }, { kind := Kind.globalProcedure, sectionIndex := 1 },
        { kind := Kind.inlineSiteEnd }, { kind := Kind.globalProcedure, sectionIndex := 1 }]
    let start : Progress := { context := {}, cursor := { records } }
    ∃ p q, start.after standard 3 = some p ∧ p.after standard 3 = some q ∧
      q.context.stack.map (·.scope) = [3] ∧
      q.context.arena.map (·.closed) = [true, false, false, false] ∧
      p.context.Lifetimes (start.history 3) ∧ q.context.Lifetimes (start.history 6) ∧
      p.context.Freezes q.context := by
  intro records start
  have halfway : (start.after standard 3).isSome := by decide +kernel
  obtain ⟨p, reached⟩ := Option.isSome_iff_exists.1 halfway
  have seen : (start.after standard (3 + 3)).map (fun q =>
      (q.context.stack.map (·.scope), q.context.arena.map (·.closed))) =
      some ([3], [true, false, false, false]) := by decide +kernel
  obtain ⟨q, ends, views⟩ := Option.map_eq_some_iff.1 seen
  obtain ⟨stack, flags⟩ := Prod.mk.inj views
  have later := ends
  rw [Progress.after_add, reached, Option.bind_some] at later
  obtain ⟨states, -⟩ := scopes_frozen_off_stack { records } none {}
  obtain ⟨lifetimes, frozen⟩ := states 3 p reached
  exact ⟨p, q, reached, later, stack, flags, lifetimes, (states 6 q ends).1, frozen 3 q later⟩

end SymbolRecovery
