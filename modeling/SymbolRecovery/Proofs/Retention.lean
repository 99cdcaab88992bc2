import Mathlib.Data.List.Nodup
import SymbolRecovery.Proofs.Forest

/-!
Which scopes the recovered forest holds. The walk meets a scope if its chain of parents ends at the
top level. A placeholder has no place there, and a scope that is opened above a placeholder belongs
to the placeholder. Main statement: the walk after a run meets the scope of an accepted begin
record once if no placeholder was open when the record was applied, and not at all otherwise.
-/
namespace SymbolRecovery
open Lookup (standard)

namespace Nest

inductive Rooted (n : Nest) : Nat → Prop where
  | top {id : Nat} (listed : id ∈ n.top) : Rooted n id
  | child {id owner : Nat} (has : n.parent? id = some owner) (above : Rooted n owner) : Rooted n id

variable {m n : Nest} {id : Nat} {position : Int}

theorem Rooted.lt_size (ordered : n.Ordered) (rooted : n.Rooted id) : id < n.size := by
  cases rooted with
  | top listed => exact (ordered.root listed).1
  | child has above => exact lt_size_of_parent? has

theorem Rooted.of_subset (tops : n.top ⊆ m.top)
    (parents : ∀ id owner, n.parent? id = some owner → m.parent? id = some owner)
    (rooted : n.Rooted id) : m.Rooted id := by
  induction rooted with
  | top listed => exact .top (tops listed)
  | child has _ ih => exact .child (parents _ _ has) ih

theorem rooted_hold : (n.hold position).Rooted id ↔ n.Rooted id := by
  constructor
  · refine Rooted.of_subset (List.Subset.refl _) ?_
    intro id owner has
    rwa [parent?_hold] at has
  · refine Rooted.of_subset (List.Subset.refl _) ?_
    intro id owner has
    rwa [parent?_hold]

theorem rooted_frames (frames : List Nat) : Rooted { n with frames } id ↔ n.Rooted id :=
  ⟨Rooted.of_subset (List.Subset.refl _) fun _ _ has => has,
    Rooted.of_subset (List.Subset.refl _) fun _ _ has => has⟩

theorem rooted_enter_of_lt (ordered : n.Ordered) (old : id < n.size) :
    (n.enter position).Rooted id ↔ n.Rooted id := by
  constructor
  · intro rooted
    induction rooted with
    | top listed =>
      rw [top_enter] at listed
      split at listed
      · rcases List.mem_append.1 listed with before | new
        · exact .top before
        · have last := List.mem_singleton.1 new
          omega
      · exact .top listed
    | child has above ih =>
      rw [parent?_enter, if_neg (Nat.ne_of_lt old)] at has
      have lower := ordered.owner_lt has
      exact .child has (ih (by omega))
  · refine Rooted.of_subset ?_ ?_
    · rw [top_enter]
      split
      · exact List.subset_append_left _ _
      · exact List.Subset.refl _
    · intro id owner has
      have known := lt_size_of_parent? has
      rw [parent?_enter, if_neg (Nat.ne_of_lt known), has]

theorem rooted_enter_size (ordered : n.Ordered) :
    (n.enter position).Rooted n.size ↔ ∀ owner, n.frames.head? = some owner → n.Rooted owner := by
  have known : ∀ owner, n.frames.head? = some owner → owner < n.size := by
    intro owner inner
    exact ordered.frame_known (List.mem_of_head? inner)
  constructor
  · intro rooted owner inner
    cases rooted with
    | top listed =>
      rw [top_enter, inner, if_neg (by simp)] at listed
      have old := (ordered.root listed).1
      omega
    | child has above =>
      rw [parent?_enter, if_pos rfl, inner] at has
      cases has
      exact (rooted_enter_of_lt ordered (known _ inner)).1 above
  · intro above
    cases inner : n.frames.head? with
    | none =>
      refine .top ?_
      rw [top_enter, if_pos inner]
      exact List.mem_concat_self
    | some owner =>
      have has : (n.enter position).parent? n.size = some owner := by
        rw [parent?_enter, if_pos rfl, inner]
      exact .child has ((rooted_enter_of_lt ordered (known _ inner)).2 (above owner inner))

structure Extends (n m : Nest) : Prop where
  size_le : n.size ≤ m.size
  position_eq : ∀ id, id < n.size → m.position? id = n.position? id
  rooted_iff : ∀ id, id < n.size → (m.Rooted id ↔ n.Rooted id)

theorem Extends.refl (n : Nest) : n.Extends n :=
  ⟨Nat.le_refl _, fun _ _ => rfl, fun _ _ => Iff.rfl⟩

theorem Extends.trans {l m n : Nest} (first : l.Extends m) (second : m.Extends n) :
    l.Extends n where
  size_le := Nat.le_trans first.size_le second.size_le
  position_eq := by
    intro id known
    have between := Nat.lt_of_lt_of_le known first.size_le
    rw [second.position_eq id between, first.position_eq id known]
  rooted_iff := by
    intro id known
    have between := Nat.lt_of_lt_of_le known first.size_le
    rw [second.rooted_iff id between, first.rooted_iff id known]

theorem extends_hold (n : Nest) (position : Int) : n.Extends (n.hold position) where
  size_le := by simp
  position_eq := by
    intro id known
    rw [position?_hold, if_neg (Nat.ne_of_lt known)]
  rooted_iff := fun _ _ => rooted_hold

theorem extends_enter (ordered : n.Ordered) (position : Int) : n.Extends (n.enter position) where
  size_le := by simp
  position_eq := by
    intro id known
    rw [position?_enter, if_neg (Nat.ne_of_lt known)]
  rooted_iff := fun _ known => rooted_enter_of_lt ordered known

theorem extends_frames (n : Nest) (frames : List Nat) : n.Extends { n with frames } :=
  ⟨Nat.le_refl _, fun _ _ => rfl, fun _ _ => rooted_frames frames⟩

end Nest

namespace Context
variable {c : Context} {id root : ScopeId}

theorem rooted_of_mem_below (ordered : c.nest.Ordered) (known : root < c.nest.size)
    (rooted : c.nest.Rooted root) (member : id ∈ c.below root) : c.nest.Rooted id := by
  induction root, known using induction_on_children ordered with
  | step root known ih =>
    rw [below_eq ordered known] at member
    rcases List.mem_cons.1 member with here | later
    · rw [here]
      exact rooted
    · obtain ⟨child, listed, inside⟩ := List.mem_flatMap.1 later
      exact ih child listed (.child (ordered.child_iff.1 listed) rooted) inside

theorem mem_walk_iff_rooted (ordered : c.nest.Ordered) : id ∈ c.walk ↔ c.nest.Rooted id := by
  constructor
  · intro member
    obtain ⟨root, listed, inside⟩ := List.mem_flatMap.1 member
    exact rooted_of_mem_below ordered (ordered.root listed).1 (.top listed) inside
  · intro rooted
    induction rooted with
    | top listed => exact mem_walk_of_top ordered listed
    | child has _ ih => exact (walk_closed ordered ih).2 _ (ordered.child_iff.2 has)

theorem nest_perform (c : Context) (r : Record) (position : Nat) :
    let n := (c.perform (r.effect position)).nest
    (∃ form, ScopeForm.ofKind? r.kind = some form ∧
      n = if r.malformation? form = none then c.nest.enter position else c.nest.hold position) ∨
    (¬ r.IsBegin ∧ ∃ frames, n = { c.nest with frames }) := by
  intro n
  by_cases begins : r.IsBegin
  · obtain ⟨form, opens⟩ := Record.isBegin_iff.1 begins
    refine .inl ⟨form, opens, ?_⟩
    cases wrong : r.malformation? form with
    | some cause =>
      rw [if_neg (by simp)]
      simp only [n, Record.effect_of_malformed opens wrong, perform]
      exact nest_hold form r position
    | none =>
      obtain ⟨s, asks, placed, -, leaf⟩ := Record.effect_of_wellFormed opens wrong position
      rw [if_pos rfl]
      simp only [n, asks, perform]
      rw [nest_enter form leaf, placed]
  · refine .inr ⟨begins, ?_⟩
    by_cases ends : r.IsEnd
    · simp only [n, Record.effect_of_isEnd ends, perform, nest_close]
      exact ⟨_, rfl⟩
    · exact ⟨_, (c.sameScopes_of_neutral ⟨begins, ends⟩ position).nest_eq⟩

/-- The frame stands for a begin record that was not accepted. -/
def IsPlaceholder (records : List Record) (c : Context) (o : OpenScope) : Prop :=
  ∃ s r form, ∃ position : Nat, c.scope? o.scope = some s ∧ s.position = position ∧
    records[position]? = some r ∧ ScopeForm.ofKind? r.kind = some form ∧
      r.malformation? form ≠ none

theorem isPlaceholder_iff {records : List Record} {o : OpenScope} :
    c.IsPlaceholder records o ↔ ∃ (position : Nat) (r : Record) (form : ScopeForm),
      c.nest.position? o.scope = some (position : Int) ∧ records[position]? = some r ∧
        ScopeForm.ofKind? r.kind = some form ∧ r.malformation? form ≠ none := by
  constructor
  · rintro ⟨s, r, form, position, here, placed, read, opens, wrong⟩
    have known := (nest_of_scope? here).2.2
    exact ⟨position, r, form, known.trans (congrArg some placed), read, opens, wrong⟩
  · rintro ⟨position, r, form, placed, read, opens, wrong⟩
    obtain ⟨s, here⟩ := exists_scope? (Nest.lt_size_of_position? placed)
    rw [(nest_of_scope? here).2.2] at placed
    exact ⟨s, r, form, position, here, Option.some.inj placed, read, opens, wrong⟩

def walkPositions (c : Context) : List Int :=
  c.walk.filterMap fun id => (c.scope? id).map (·.position)

end Context

namespace Progress

/-- Between a frame that has a place in the forest and the bottom of the stack there is no
placeholder. -/
structure Retains (p : Progress) : Prop where
  nested : p.Nested
  rooted_frame : ∀ {o below}, o :: below <:+ p.context.stack →
    (p.context.nest.Rooted o.scope ↔
      ∀ f ∈ o :: below, ¬ p.context.IsPlaceholder p.cursor.records f)

variable {p q : Progress} {r : Record} {n : Nat}

theorem nest_extends_next (nested : p.Nested) (r : Record) :
    p.context.nest.Extends (p.next r).context.nest := by
  rcases p.context.nest_perform r p.cursor.position with ⟨form, -, grows⟩ | ⟨-, frames, kept⟩
  · simp only [next, grows]
    split
    · exact Nest.extends_enter nested.ordered _
    · exact Nest.extends_hold _ _
  · simp only [next, kept]
    exact Nest.extends_frames _ _

theorem isPlaceholder_next (nested : p.Nested) (r : Record) {o : OpenScope}
    (opened : o ∈ p.context.stack) :
    (p.next r).context.IsPlaceholder p.cursor.records o ↔
      p.context.IsPlaceholder p.cursor.records o := by
  have known := nested.ordered.frame_known (List.mem_map_of_mem opened)
  have same := (nest_extends_next nested r).position_eq o.scope known
  rw [Context.isPlaceholder_iff, Context.isPlaceholder_iff, same]

theorem retains_fresh (layout : Option LoadLayout) (options : Options) (cursor : Cursor) :
    Retains { context := { layout, options }, cursor } where
  nested := nested_fresh layout options cursor
  rooted_frame := by
    intro o below suffix
    have nothing := List.suffix_nil.1 suffix
    cases nothing

theorem Retains.old (retains : p.Retains) (r : Record) {o : OpenScope} {below : List OpenScope}
    (suffix : o :: below <:+ p.context.stack) :
    (p.next r).context.nest.Rooted o.scope ↔
      ∀ f ∈ o :: below, ¬ (p.next r).context.IsPlaceholder p.cursor.records f := by
  have opened : ∀ f ∈ o :: below, f ∈ p.context.stack := fun f member => suffix.subset member
  have known := retains.nested.ordered.frame_known
    (List.mem_map_of_mem (opened o List.mem_cons_self))
  rw [(nest_extends_next retains.nested r).rooted_iff o.scope known, retains.rooted_frame suffix]
  refine forall₂_congr fun f member => ?_
  rw [isPlaceholder_next retains.nested r (opened f member)]

theorem scope_newFrame (form : ScopeForm) (endOffset : Option Int) :
    (p.context.newFrame form endOffset).scope = p.context.nest.size := by
  simp [Context.newFrame, Context.nest, Nest.size]

theorem isPlaceholder_new (retains : p.Retains) (found : p.cursor.peek? = some r)
    {form : ScopeForm} (opens : ScopeForm.ofKind? r.kind = some form) (endOffset : Option Int) :
    (p.next r).context.IsPlaceholder p.cursor.records (p.context.newFrame form endOffset) ↔
      r.malformation? form ≠ none := by
  obtain ⟨-, positions, -⟩ :=
    Context.nest_of_begin retains.nested.ordered opens p.cursor.position
  have placed : (p.next r).context.nest.position? p.context.nest.size =
      some (p.cursor.position : Int) := by
    simp only [next, positions, ↓reduceIte]
  rw [Context.isPlaceholder_iff, scope_newFrame, placed]
  constructor
  · rintro ⟨position, b, other, same, read, begins, wrong⟩
    have here : p.cursor.position = position := Int.ofNat.inj (Option.some.inj same)
    rw [← here] at read
    have record := Option.some.inj (found.symm.trans read)
    subst record
    have forms := Option.some.inj (opens.symm.trans begins)
    subst forms
    exact wrong
  · intro wrong
    exact ⟨p.cursor.position, r, form, rfl, found, opens, wrong⟩

theorem Retains.new (retains : p.Retains) (found : p.cursor.peek? = some r) {form : ScopeForm}
    (opens : ScopeForm.ofKind? r.kind = some form) (endOffset : Option Int) :
    (p.next r).context.nest.Rooted p.context.nest.size ↔
      ∀ f ∈ p.context.newFrame form endOffset :: p.context.stack,
        ¬ (p.next r).context.IsPlaceholder p.cursor.records f := by
  have ordered := retains.nested.ordered
  rw [List.forall_mem_cons, isPlaceholder_new retains found opens]
  obtain ⟨other, also, grows⟩ := (p.context.nest_perform r p.cursor.position).resolve_right
    fun inert => inert.1 (Record.isBegin_iff.2 ⟨form, opens⟩)
  have forms := Option.some.inj (opens.symm.trans also)
  subst forms
  have nest : (p.next r).context.nest = _ := grows
  rw [nest]
  split
  · next right =>
    rw [Nest.rooted_enter_size ordered, Context.head?_frames, Context.currentScope?]
    cases stack : p.context.stack with
    | nil => simp [right]
    | cons o below =>
      have whole : o :: below <:+ p.context.stack := by
        simp only [stack, List.suffix_refl]
      have lower := retains.old r whole
      have known : o.scope < p.context.nest.size :=
        ordered.frame_known (by simp [Context.nest, stack])
      rw [(nest_extends_next retains.nested r).rooted_iff o.scope known] at lower
      simp only [List.head?_cons, Option.map_some, Option.some.injEq, forall_eq', right, ne_eq,
        not_true_eq_false, not_false_eq_true, true_and]
      exact lower
  · next wrong =>
    rw [Nest.rooted_hold]
    constructor
    · intro rooted
      exact absurd (rooted.lt_size ordered) (Nat.lt_irrefl _)
    · intro right
      exact absurd wrong right.1

theorem Retains.next (retains : p.Retains) (found : p.cursor.peek? = some r) :
    (p.next r).Retains where
  nested := retains.nested.next found
  rooted_frame := by
    intro o below suffix
    have kept : o :: below <:+ p.context.stack → _ := retains.old r
    by_cases begins : r.IsBegin
    · obtain ⟨form, opens⟩ := Record.isBegin_iff.1 begins
      obtain ⟨endOffset, stack⟩ := p.context.stack_of_begin opens p.cursor.position
      have pushed : (p.next r).context.stack = _ := stack
      rw [pushed] at suffix
      rcases List.suffix_cons_iff.1 suffix with whole | lower
      · obtain ⟨top, rest⟩ := List.cons.inj whole
        rw [top, rest]
        rw [scope_newFrame]
        exact retains.new found opens endOffset
      · exact kept lower
    · refine kept (suffix.trans ?_)
      by_cases ends : r.IsEnd
      · simp only [Progress.next, Record.effect_of_isEnd ends, Context.perform]
        exact Context.remaining_suffix r.kind
      · have same := p.context.sameScopes_of_neutral ⟨begins, ends⟩ p.cursor.position
        exact ⟨[], same.stack_eq⟩

theorem retains_after (reached : p.after standard n = some q) (retains : p.Retains) : q.Retains :=
  after_keeps (motive := Retains) (fun _ _ found retains => retains.next found) reached retains

theorem nest_extends_after (reached : p.after standard n = some q) (nested : p.Nested) :
    p.context.nest.Extends q.context.nest := by
  have both := after_keeps (motive := fun q => q.Nested ∧ p.context.nest.Extends q.context.nest)
    ?_ reached ⟨nested, .refl _⟩
  · exact both.2
  · intro s r found ⟨inner, before⟩
    exact ⟨inner.next found, before.trans (nest_extends_next inner r)⟩

theorem mem_walkPositions_iff (nested : p.Nested) {id : ScopeId} {position : Int}
    (placed : p.context.nest.position? id = some position) :
    position ∈ p.context.walkPositions ↔ p.context.nest.Rooted id := by
  unfold Context.walkPositions
  rw [← Context.mem_walk_iff_rooted nested.ordered, List.mem_filterMap]
  constructor
  · rintro ⟨other, member, here⟩
    obtain ⟨s, there, same⟩ := Option.map_eq_some_iff.1 here
    have also := (Context.nest_of_scope? there).2.2
    rw [same] at also
    rcases Nat.lt_trichotomy other id with before | equal | behind
    · have ascends := nested.ascend before also placed
      omega
    · rw [← equal]
      exact member
    · have ascends := nested.ascend behind placed also
      omega
  · intro member
    obtain ⟨s, here⟩ := Context.exists_scope? (Nest.lt_size_of_position? placed)
    have same := (Context.nest_of_scope? here).2.2
    rw [placed] at same
    exact ⟨id, member, Option.map_eq_some_iff.2 ⟨s, here, (Option.some.inj same).symm⟩⟩

theorem nodup_walkPositions (nested : p.Nested) : p.context.walkPositions.Nodup := by
  unfold Context.walkPositions List.Nodup
  rw [List.pairwise_filterMap]
  refine nested.wellNested.walk_follows_records.imp ?_
  intro first second ascends before here after there
  obtain ⟨s, known, rfl⟩ := Option.map_eq_some_iff.1 here
  obtain ⟨t, also, rfl⟩ := Option.map_eq_some_iff.1 there
  exact Int.ne_of_lt (ascends s t known also)

theorem Retains.count_walkPositions (retains : p.Retains) (found : p.cursor.peek? = some r)
    {form : ScopeForm} (opens : ScopeForm.ofKind? r.kind = some form)
    (right : r.malformation? form = none) (reached : (p.next r).after standard n = some q) :
    let places := q.context.walkPositions.count (p.cursor.position : Int)
    let clear := ∀ o ∈ p.context.stack, ¬ p.context.IsPlaceholder p.cursor.records o
    (clear → places = 1) ∧ (¬ clear → places = 0) := by
  intro places clear
  have further := retains.next found
  have last := retains_after reached further
  have grows := nest_extends_after reached further.nested
  obtain ⟨-, positions, -⟩ :=
    Context.nest_of_begin retains.nested.ordered opens p.cursor.position
  have first : (p.next r).context.nest.position? p.context.nest.size =
      some (p.cursor.position : Int) := by
    simp only [Progress.next, positions, ↓reduceIte]
  have known := Nest.lt_size_of_position? first
  have placed := (grows.position_eq _ known).trans first
  have rooted : q.context.nest.Rooted p.context.nest.size ↔ clear := by
    rw [grows.rooted_iff _ known, retains.new found opens none, List.forall_mem_cons,
      isPlaceholder_new retains found opens]
    simp only [right, ne_eq, not_true_eq_false, not_false_eq_true, true_and, clear]
    refine forall₂_congr fun o opened => ?_
    rw [isPlaceholder_next retains.nested r opened]
  have member := mem_walkPositions_iff last.nested placed
  constructor
  · intro none
    exact List.count_eq_one_of_mem (nodup_walkPositions last.nested) (member.2 (rooted.2 none))
  · intro some
    exact List.count_eq_zero.2 fun listed => some (rooted.1 (member.1 listed))

theorem malformation?_of_processed {form : ScopeForm}
    (opens : ScopeForm.ofKind? r.kind = some form) (accepted : p.fault? r = none) :
    r.malformation? form = none := by
  have judged := Option.map_eq_none_iff.1 accepted
  cases wrong : r.malformation? form with
  | none => rfl
  | some cause =>
    rw [Record.effect_of_malformed opens wrong] at judged
    cases judged

end Progress

/-- After a run the walk meets the scope of every begin record that was processed once, if no
placeholder was open when the record was applied, and otherwise not at all. -/
theorem processed_scope_kept_unless_under_placeholder (cursor : Cursor)
    (layout : Option LoadLayout) (options : Options) (p : Progress) (r : Record)
    (dispatched : p ∈ ({ context := { layout, options }, cursor } : Progress).trace standard)
    (found : p.cursor.peek? = some r) (begins : r.IsBegin) (processed : p.fault? r = none) :
    let recovered := (run standard { layout, options } cursor).progress.context
    let clear := ∀ o ∈ p.context.stack, ¬ p.context.IsPlaceholder cursor.records o
    (clear → recovered.walkPositions.count (p.cursor.position : Int) = 1) ∧
      (¬ clear → recovered.walkPositions.count (p.cursor.position : Int) = 0) := by
  intro recovered clear
  let start : Progress := { context := { layout, options }, cursor }
  obtain ⟨n, here⟩ := List.getElem?_of_mem dispatched
  obtain ⟨reached, -⟩ := Progress.getElem?_trace.1 here
  have before : n < (start.trace standard).length := (List.getElem?_eq_some_iff.1 here).1
  obtain ⟨last, arrives, -, ends, -⟩ := Progress.run_uncancelled start
  obtain ⟨rest, length⟩ : ∃ rest, (start.trace standard).length = n + (rest + 1) :=
    ⟨(start.trace standard).length - n - 1, by omega⟩
  rw [length, Progress.after_add, reached, Option.bind_some,
    Progress.after_succ_of_peek? found] at arrives
  have retains := Progress.retains_after reached (Progress.retains_fresh layout options cursor)
  have same := (Progress.precedes_after reached).records_eq
  obtain ⟨form, opens⟩ := Record.isBegin_iff.1 begins
  have right := Progress.malformation?_of_processed opens processed
  have kept := retains.count_walkPositions found opens right arrives
  rw [same] at kept
  have context : recovered = last.context :=
    (congrArg Progress.context ends).trans (Progress.context_report _ _)
  rw [context]
  exact kept

/-- The scope that was opened before the block is found; the block itself is not accepted. -/
theorem processed_scope_kept_before_placeholder :
    let main : Record := { kind := Kind.globalProcedure, name := "main" }
    let records := [main, { kind := Kind.block, sectionIndex := 0x10000 },
      { kind := Kind.inlineSite }, { kind := Kind.scopeEnd }]
    let start : Progress := { context := {}, cursor := { records } }
    start ∈ start.trace standard ∧ start.cursor.peek? = some main ∧ start.fault? main = none ∧
      (run standard {} { records }).progress.context.walkPositions.count 0 = 1 := by
  intro main records start
  have found : start.cursor.peek? = some main := rfl
  have dispatched : start ∈ start.trace standard := by
    rw [Progress.trace_of_peek? found]
    exact List.mem_cons_self
  have processed : start.fault? main = none := by decide +kernel
  have begins : main.IsBegin := by decide +kernel
  have kept := processed_scope_kept_unless_under_placeholder { records } none {} start main
    dispatched found begins processed
  exact ⟨dispatched, found, processed, kept.1 (by simp [start])⟩

/-- The procedure is processed, and the walk does not meet its scope: it belongs to a block that is
not accepted. -/
theorem processed_scope_lost_under_placeholder :
    let main : Record := { kind := Kind.globalProcedure, name := "main", sectionIndex := 1 }
    let records := [{ kind := Kind.block, sectionIndex := 0x10000 }, main,
      { kind := Kind.scopeEnd }, { kind := Kind.scopeEnd }]
    let start : Progress := { context := {}, cursor := { records } }
    main.IsBegin ∧
      (∃ p ∈ start.trace standard, p.cursor.position = 1 ∧ p.cursor.peek? = some main ∧
        p.fault? main = none) ∧
      (run standard {} { records }).progress.context.walkPositions.count 1 = 0 := by
  intro main records start
  have seen : ((start.trace standard)[1]?).map (fun p =>
      (p.cursor.position, p.cursor.peek?, p.fault? main)) = some (1, some main, none) := by
    decide +kernel
  obtain ⟨p, here, facts⟩ := Option.map_eq_some_iff.1 seen
  obtain ⟨position, found, processed⟩ := Prod.mk.inj facts |>.imp_right Prod.mk.inj
  refine ⟨by decide +kernel, ⟨p, List.mem_of_getElem? here, position, found, processed⟩, ?_⟩
  decide +kernel

end SymbolRecovery
