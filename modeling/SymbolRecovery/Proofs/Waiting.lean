import SymbolRecovery.Proofs.Classes
import SymbolRecovery.Proofs.Operations

/-!
The items that wait for an address. Contributions, symbols and the scopes whose begin records say
where they lie are located when they are found; placeholders and inline sites are not. Main
statement: after every history of operations the unresolved items are the located ones without an
address, each of them once and in the order in which they were located.
-/
namespace SymbolRecovery

/-- The item was given an address, or put among the unresolved ones, when it was found. -/
inductive Context.Located (start : Context) (history : List Operation) : Item → Prop where
  | contribution {group : String} {g : SectionGroup} {index : Nat} {part : Contribution}
      (known : (start.operateAll history).groups.get? group = some g)
      (listed : g.contributions[index]? = some part) :
      Located start history (.contribution group index)
  | symbol {id : SymbolId} {s : Symbol}
      (listed : (start.operateAll history).symbols[id]? = some s) :
      Located start history (.symbol id)
  | scope {earlier later : List Operation} {cursor : Cursor} {r : Record} {form : ScopeForm}
      (split : history = earlier ++ .dispatch cursor :: later) (found : cursor.peek? = some r)
      (opens : ScopeForm.ofKind? r.kind = some form) (addressed : form.addressed = true)
      (right : r.malformation? form = none) :
      Located start history (.scope (start.operateAll earlier).arena.length)

/-- When the second item had not been located yet, the first one had. -/
def Context.LocatedBefore (start : Context) (history : List Operation) (x y : Item) : Prop :=
  ∃ earlier later, history = earlier ++ later ∧ start.Located earlier x ∧ ¬ start.Located earlier y

/-- The begin record of this scope was that of an inline site, or was not accepted. -/
def Context.Unplaced (start : Context) (history : List Operation) (id : ScopeId) : Prop :=
  ∃ earlier cursor later r form, history = earlier ++ .dispatch cursor :: later ∧
    cursor.peek? = some r ∧ ScopeForm.ofKind? r.kind = some form ∧
    (form.addressed = false ∨ r.malformation? form ≠ none) ∧
    id = (start.operateAll earlier).arena.length

def Operation.effect : Operation → Effect
  | .dispatch cursor => cursor.effect
  | _ => .ignored

structure Context.Gains (c : Context) (found : Option Finding) (d : Context) : Prop where
  kept : ∀ item, (∀ f, found = some f → f.item ≠ item) → d.spot? item = c.spot? item
  fresh : ∀ f, found = some f → c.spot? f.item = none
  new : ∀ f, found = some f → d.spot? f.item = some ⟨f.sectionIndex, f.offset, c.lookUp f⟩
  unresolved_eq : d.unresolved = c.unresolved ++ ((found.filter c.awaits).map (·.item)).toList

theorem Record.wellFormed_of_effect {r : Record} {position : Nat} {form : ScopeForm} {s : Scope}
    {endOffset : Option Int} (asks : r.effect position = .opens form s endOffset) :
    ScopeForm.ofKind? r.kind = some form ∧ r.malformation? form = none := by
  have begins : r.IsBegin := by
    by_contra inert
    by_cases ends : r.IsEnd
    · rw [effect_of_isEnd ends] at asks
      cases asks
    · rcases effect_of_isNeutral ⟨inert, ends⟩ position with other | ⟨_, other⟩ | ⟨_, other⟩ <;>
        rw [other] at asks <;> cases asks
  obtain ⟨named, opens⟩ := isBegin_iff.1 begins
  cases wrong : r.malformation? named with
  | some cause =>
    rw [effect_of_malformed opens wrong] at asks
    cases asks
  | none =>
    obtain ⟨_, same, -⟩ := effect_of_wellFormed opens wrong position
    rw [same] at asks
    cases asks
    exact ⟨opens, wrong⟩

namespace Context
variable {start c d : Context} {history : List Operation} {o : Operation} {item : Item}
  {f : Finding} {id : ScopeId}

theorem finding?_eq_scope_iff {cursor : Cursor} :
    (∃ f, c.finding? cursor.effect = some f ∧ f.located = true ∧ f.item = .scope id) ↔
      ∃ r form, cursor.peek? = some r ∧ ScopeForm.ofKind? r.kind = some form ∧
        form.addressed = true ∧ r.malformation? form = none ∧ id = c.arena.length := by
  constructor
  · rintro ⟨f, adds, located, here⟩
    unfold finding? at adds
    split at adds
    · cases adds
      cases here
    · cases adds
      cases here
    · cases adds
      cases located
    · next form s endOffset asks =>
      cases adds
      unfold Cursor.effect at asks
      split at asks
      · next r found =>
        obtain ⟨opens, right⟩ := Record.wellFormed_of_effect asks
        exact ⟨r, form, found, opens, located, right, (Item.scope.inj here).symm⟩
      · cases asks
    · cases adds
  · rintro ⟨r, form, found, opens, addressed, right, rfl⟩
    obtain ⟨s, asks, -⟩ := Record.effect_of_wellFormed opens right cursor.position
    rw [← Cursor.effect_of_peek? found] at asks
    exact ⟨_, by rw [asks, finding?], addressed, rfl⟩

theorem located_of_finding? {e : Effect} (adds : c.finding? e = some f)
    (other : ∀ id, f.item ≠ .scope id) : f.located = true := by
  unfold finding? at adds
  split at adds <;> cases adds
  · rfl
  · rfl
  · exact absurd rfl (other _)
  · exact absurd rfl (other _)

theorem finding?_of_section? {e : Effect} {s : ImageSection} (registers : e.section? = some s) :
    c.finding? e = none := by
  unfold Effect.section? at registers
  split at registers
  · rfl
  · cases registers

theorem Receives.gains {found : Option Finding} (receives : c.Receives found d) :
    c.Gains found d :=
  ⟨receives.kept, receives.fresh, receives.new, receives.unresolved_eq⟩

theorem mem_waiting_iff {found : Option Finding} :
    item ∈ ((found.filter c.awaits).map (·.item)).toList ↔
      ∃ f, found = some f ∧ c.awaits f = true ∧ f.item = item := by
  simp [Option.filter_eq_some_iff, and_assoc]

theorem gains_none (spots : ∀ item, d.spot? item = c.spot? item)
    (unresolved : d.unresolved = c.unresolved) : c.Gains none d where
  kept := fun item _ => spots item
  fresh := by simp
  new := by simp
  unresolved_eq := by simp [unresolved]

theorem gains_addSection (c : Context) (s : ImageSection) : c.Gains none (c.addSection s) := by
  obtain ⟨sections, addresses, same⟩ := c.addSection_eq s
  exact gains_none (c.spot?_addSection s) (by rw [same])

theorem gains_operate (c : Context) (once : o ≠ .retry) :
    c.Gains (c.finding? o.effect) (c.operate o) := by
  cases o with
  | dispatch cursor =>
    rw [operate_dispatch, Operation.effect]
    cases registers : cursor.effect.section? with
    | none => exact (receives_perform cursor.unlocated_effect registers).gains
    | some s =>
      rw [perform_of_section? registers, finding?_of_section? registers]
      exact c.gains_addSection s
  | addSection s => exact c.gains_addSection s
  | setLayout layout => exact gains_none (spot?_congr rfl rfl rfl) rfl
  | resolve =>
    obtain ⟨sections, addresses, same⟩ := c.resolveSections_eq
    rw [operate, same]
    exact gains_none (spot?_congr rfl rfl rfl) rfl
  | retry => exact absurd rfl once

theorem spot?_retry_isSome (c : Context) (item : Item) :
    (c.retryUnresolved.2.spot? item).isSome = (c.spot? item).isSome := by
  rw [spot?_retryUnresolved]
  split
  · rw [Option.isSome_map]
  · rfl

theorem isSome_spot?_operate (c : Context) (o : Operation) (item : Item) :
    ((c.operate o).spot? item).isSome ↔
      (c.spot? item).isSome ∨ ∃ f, c.finding? o.effect = some f ∧ f.item = item := by
  by_cases again : o = .retry
  · subst again
    rw [operate, spot?_retry_isSome]
    simp [Operation.effect, finding?]
  · have gains := c.gains_operate again
    by_cases new : ∃ f, c.finding? o.effect = some f ∧ f.item = item
    · obtain ⟨f, adds, rfl⟩ := new
      rw [gains.new f adds]
      exact ⟨fun _ => .inr ⟨f, adds, rfl⟩, fun _ => rfl⟩
    · rw [gains.kept item fun f adds same => new ⟨f, adds, same⟩]
      simp only [new, or_false]

theorem located_iff_of_not_scope (other : ∀ id, item ≠ .scope id) :
    start.Located history item ↔ ((start.operateAll history).spot? item).isSome := by
  constructor
  · intro located
    cases located with
    | contribution known listed => simp [spot?, known, listed]
    | symbol listed => simp [spot?, listed]
    | scope => exact absurd rfl (other _)
  · intro there
    cases item with
    | contribution group index =>
      obtain ⟨_, there⟩ := Option.isSome_iff_exists.1 there
      obtain ⟨g, known, listed⟩ := Option.bind_eq_some_iff.1 there
      obtain ⟨part, listed, -⟩ := Option.map_eq_some_iff.1 listed
      exact .contribution known listed
    | symbol id =>
      obtain ⟨_, there⟩ := Option.isSome_iff_exists.1 there
      obtain ⟨s, listed, -⟩ := Option.map_eq_some_iff.1 there
      exact .symbol listed
    | scope id => exact absurd rfl (other id)

theorem located_scope_concat_iff :
    start.Located (history ++ [o]) (.scope id) ↔ start.Located history (.scope id) ∨
      ∃ f, (start.operateAll history).finding? o.effect = some f ∧ f.located = true ∧
        f.item = .scope id := by
  constructor
  · intro located
    cases located with
    | scope split found opens addressed right =>
      rename_i earlier later cursor r form
      rcases List.eq_nil_or_concat' later with rfl | ⟨later, last, rfl⟩
      · obtain ⟨rfl, rfl⟩ := List.append_inj' split rfl |>.imp_right List.singleton_inj.1
        exact .inr (finding?_eq_scope_iff.2 ⟨r, form, found, opens, addressed, right, rfl⟩)
      · rw [← List.cons_append, ← List.append_assoc] at split
        obtain ⟨split, -⟩ := List.append_inj' split rfl
        exact .inl (.scope split found opens addressed right)
  · rintro (located | ⟨f, adds, located, here⟩)
    · cases located with
      | scope split found opens addressed right =>
        exact .scope (by rw [split, List.append_assoc, List.cons_append]) found opens addressed
          right
    · cases o with
      | dispatch cursor =>
        obtain ⟨r, form, found, opens, addressed, right, rfl⟩ :=
          finding?_eq_scope_iff.1 ⟨f, adds, located, here⟩
        exact .scope rfl found opens addressed right
      | _ => cases adds

theorem located_concat_iff :
    start.Located (history ++ [o]) item ↔ start.Located history item ∨
      ∃ f, (start.operateAll history).finding? o.effect = some f ∧ f.located = true ∧
        f.item = item := by
  by_cases scope : ∃ id, item = .scope id
  · obtain ⟨id, rfl⟩ := scope
    exact located_scope_concat_iff
  · have other : ∀ id, item ≠ .scope id := fun id same => scope ⟨id, same⟩
    rw [located_iff_of_not_scope other, located_iff_of_not_scope other, operateAll_concat,
      isSome_spot?_operate]
    refine or_congr_right ⟨?_, ?_⟩
    · rintro ⟨f, adds, rfl⟩
      exact ⟨f, adds, located_of_finding? adds other, rfl⟩
    · rintro ⟨f, adds, -, same⟩
      exact ⟨f, adds, same⟩

structure Exact (start : Context) (history : List Operation) : Prop where
  there : ∀ item, start.Located history item → ((start.operateAll history).spot? item).isSome
  count_eq : ∀ item, start.Located history item →
    (start.operateAll history).unresolved.count item =
      if (start.operateAll history).recorded? item = none then 1 else 0
  only : ∀ item ∈ (start.operateAll history).unresolved, start.Located history item
  ordered : (start.operateAll history).unresolved.Pairwise (start.LocatedBefore history)

theorem LocatedBefore.concat {x y : Item} (before : start.LocatedBefore history x y) :
    start.LocatedBefore (history ++ [o]) x y := by
  obtain ⟨earlier, later, rfl, first, second⟩ := before
  exact ⟨earlier, later ++ [o], List.append_assoc _ _ _, first, second⟩

theorem exact_nil (layout : Option LoadLayout) (options : Options) :
    Exact { layout, options } [] where
  there := by
    intro item located
    cases located with
    | contribution known => cases known
    | symbol listed => cases listed
    | scope split => simp at split
  count_eq := by
    intro item located
    cases located with
    | contribution known => cases known
    | symbol listed => cases listed
    | scope split => simp at split
  only := by simp [operateAll]
  ordered := List.Pairwise.nil

theorem Exact.retry (exact : start.Exact history) : start.Exact (history ++ [.retry]) := by
  have same : ∀ item, start.Located (history ++ [.retry]) item ↔ start.Located history item := by
    intro item
    rw [located_concat_iff]
    simp [Operation.effect, finding?]
  obtain ⟨groups, arena, symbols, retried⟩ := (start.operateAll history).retryUnresolved_eq
  have unresolved : (start.operateAll (history ++ [.retry])).unresolved =
      (start.operateAll history).unresolved.filter fun item =>
        ((start.operateAll history).itemAddress? item).isNone := by
    rw [operateAll_concat, operate, retried]
  refine ⟨?_, ?_, ?_, ?_⟩
  · intro item located
    rw [operateAll_concat, operate, spot?_retry_isSome]
    exact exact.there item ((same item).1 located)
  · intro item located
    have once := exact.count_eq item ((same item).1 located)
    rw [unresolved, operateAll_concat, operate, recorded?_retryUnresolved]
    split at once
    · have waits : item ∈ (start.operateAll history).unresolved :=
        List.count_pos_iff.1 (by omega)
      rw [if_pos waits]
      cases now : (start.operateAll history).itemAddress? item with
      | none => rw [List.count_filter (by simp [now]), once, if_pos rfl]
      | some address =>
        rw [if_neg (by simp), List.count_eq_zero]
        simp [now]
    · next known =>
      have gone := List.count_eq_zero.1 once
      rw [if_neg gone, if_neg known, List.count_eq_zero]
      exact fun member => gone (List.mem_filter.1 member).1
  · intro item member
    rw [unresolved] at member
    exact (same item).2 (exact.only item (List.mem_filter.1 member).1)
  · rw [unresolved]
    exact (exact.ordered.sublist List.filter_sublist).imp .concat

theorem Exact.gain (exact : start.Exact history) (once : o ≠ .retry) :
    start.Exact (history ++ [o]) := by
  have gains := (start.operateAll history).gains_operate once
  rw [← operateAll_concat] at gains
  have old : ∀ item, start.Located history item →
      ∀ f, (start.operateAll history).finding? o.effect = some f → f.item ≠ item := by
    rintro item located f adds rfl
    have there := exact.there f.item located
    rw [gains.fresh f adds] at there
    cases there
  refine ⟨?_, ?_, ?_, ?_⟩
  · intro item located
    rcases located_concat_iff.1 located with before | ⟨f, adds, -, rfl⟩
    · rw [gains.kept item (old item before)]
      exact exact.there item before
    · rw [gains.new f adds]
      rfl
  · intro item located
    rw [gains.unresolved_eq, List.count_append, recorded?]
    rcases located_concat_iff.1 located with before | ⟨f, adds, looked, rfl⟩
    · rw [gains.kept item (old item before), exact.count_eq item before, recorded?,
        Nat.add_eq_left, List.count_eq_zero]
      intro member
      obtain ⟨f, adds, -, same⟩ := mem_waiting_iff.1 member
      exact old item before f adds same
    · have absent : f.item ∉ (start.operateAll history).unresolved := fun member =>
        old f.item (exact.only f.item member) f adds rfl
      rw [gains.new f adds, List.count_eq_zero.2 absent, Nat.zero_add, adds]
      cases known : (start.operateAll history).lookUp f <;>
        simp [awaits, Option.filter, looked, known]
  · intro item member
    rw [gains.unresolved_eq, List.mem_append] at member
    rcases member with before | new
    · exact located_concat_iff.2 (.inl (exact.only item before))
    · obtain ⟨f, adds, waits, same⟩ := mem_waiting_iff.1 new
      have looked : f.located = true := (Bool.and_eq_true_iff.1 waits).1
      exact located_concat_iff.2 (.inr ⟨f, adds, looked, same⟩)
  · rw [gains.unresolved_eq, List.pairwise_append]
    refine ⟨exact.ordered.imp .concat, ?_, ?_⟩
    · cases ((start.operateAll history).finding? o.effect).filter _ <;> simp
    · intro item before other new
      obtain ⟨f, adds, -, rfl⟩ := mem_waiting_iff.1 new
      have located := exact.only item before
      exact ⟨history, [o], rfl, located, fun sooner => old f.item sooner f adds rfl⟩

theorem Exact.concat (exact : start.Exact history) (o : Operation) :
    start.Exact (history ++ [o]) := by
  by_cases again : o = .retry
  · rw [again]
    exact exact.retry
  · exact exact.gain again

theorem exact_of_fresh (layout : Option LoadLayout) (options : Options)
    (history : List Operation) : Exact { layout, options } history := by
  induction history using List.reverseRecOn with
  | nil => exact exact_nil layout options
  | append_singleton history o ih => exact ih.concat o

theorem finding?_fresh (adds : c.finding? o.effect = some f) : c.spot? f.item = none := by
  by_cases again : o = .retry
  · subst again
    cases adds
  · exact (c.gains_operate again).fresh f adds

theorem there_and_not_located_append {later : List Operation}
    (there : ((start.operateAll history).spot? item).isSome)
    (unlocated : ¬ start.Located history item) :
    ((start.operateAll (history ++ later)).spot? item).isSome ∧
      ¬ start.Located (history ++ later) item := by
  induction later using List.reverseRecOn with
  | nil =>
    rw [List.append_nil]
    exact ⟨there, unlocated⟩
  | append_singleton later o ih =>
    rw [← List.append_assoc, operateAll_concat, isSome_spot?_operate, located_concat_iff]
    refine ⟨.inl ih.1, ?_⟩
    rintro (located | ⟨f, adds, -, rfl⟩)
    · exact ih.2 located
    · rw [finding?_fresh adds] at ih
      cases ih.1

theorem finding?_of_begin {cursor : Cursor} {r : Record} {form : ScopeForm}
    (found : cursor.peek? = some r) (opens : ScopeForm.ofKind? r.kind = some form) :
    ∃ f, c.finding? cursor.effect = some f ∧ f.item = .scope c.arena.length := by
  rw [Cursor.effect_of_peek? found]
  cases wrong : r.malformation? form with
  | some cause => exact ⟨_, by rw [Record.effect_of_malformed opens wrong, finding?], rfl⟩
  | none =>
    obtain ⟨s, asks, -⟩ := Record.effect_of_wellFormed opens wrong cursor.position
    exact ⟨_, by rw [asks, finding?], rfl⟩

theorem Unplaced.not_located {layout : Option LoadLayout} {options : Options}
    (unplaced : Unplaced { layout, options } history id) :
    ¬ Located { layout, options } history (.scope id) := by
  obtain ⟨earlier, cursor, later, r, form, rfl, found, opens, without, rfl⟩ := unplaced
  have before := exact_of_fresh layout options earlier
  generalize ({ layout, options } : Context) = start at before ⊢
  have fresh : (start.operateAll earlier).spot? (.scope (start.operateAll earlier).arena.length) =
      none := by simp [spot?]
  rw [List.append_cons]
  refine (there_and_not_located_append ?_ ?_).2
  · rw [operateAll_concat, isSome_spot?_operate]
    exact .inr (finding?_of_begin found opens)
  · rw [located_concat_iff]
    rintro (located | looked)
    · have there := before.there _ located
      rw [fresh] at there
      cases there
    · obtain ⟨other, named, again, opened, addressed, right, -⟩ := finding?_eq_scope_iff.1 looked
      rw [found] at again
      cases again
      rw [opens] at opened
      cases opened
      rcases without with plain | wrong
      · rw [plain] at addressed
        cases addressed
      · exact wrong right

end Context

/-- The unresolved items are the located ones that have no address, once each and in the order in
which they were located. -/
theorem unresolved_items_exact (layout : Option LoadLayout) (options : Options)
    (history : List Operation) :
    let start : Context := { layout, options }
    let c := start.operateAll history
    (∀ item, start.Located history item → ∃ spot, c.spot? item = some spot ∧
      c.unresolved.count item = if spot.address = none then 1 else 0) ∧
    (∀ item ∈ c.unresolved, start.Located history item) ∧
    (∀ id, start.Unplaced history id → .scope id ∉ c.unresolved) ∧
    c.unresolved.Pairwise (start.LocatedBefore history) := by
  intro start c
  have exact : start.Exact history := Context.exact_of_fresh layout options history
  refine ⟨?_, exact.only, ?_, exact.ordered⟩
  · intro item located
    obtain ⟨spot, here⟩ := Option.isSome_iff_exists.1 (exact.there item located)
    refine ⟨spot, here, (exact.count_eq item located).trans ?_⟩
    rw [Context.recorded?, here]
    rfl
  · intro id unplaced member
    exact unplaced.not_located (exact.only _ member)

/-- A symbol, a contribution, a procedure and a block are located while no section is known; an
inline site and a block of negative length are not. Then section 1 comes, and only the block in
section 2 waits on. -/
theorem unresolved_items_exact_after_section :
    let global : Record := { kind := Kind.globalData, sectionIndex := 1, address := 0x10 }
    let group : Record := { kind := Kind.sectionGroup, name := ".text", sectionIndex := 1 }
    let procedure : Record := { kind := Kind.globalProcedure, sectionIndex := 1, length := 8 }
    let site : Record := { kind := Kind.inlineSite }
    let broken : Record := { kind := Kind.block, sectionIndex := 1, length := -1 }
    let block : Record := { kind := Kind.block, sectionIndex := 2, length := 4 }
    let records := [global, group, procedure, site, broken, block]
    let found : List Operation := (List.range 6).map fun position => .dispatch ⟨records, position⟩
    let later : List Operation :=
      [.setLayout (some (.imageBase 0x1000)), .addSection { index := 1, rva := 0, length := 0x100 },
        .retry]
    let start : Context := {}
    (start.operateAll found).unresolved =
        [.symbol 0, .contribution ".text" 0, .scope 0, .scope 3] ∧
      start.LocatedBefore found (.symbol 0) (.scope 3) ∧
      (start.operateAll (found ++ later)).unresolved.count (.symbol 0) = 0 ∧
      (start.operateAll (found ++ later)).unresolved.count (.scope 3) = 1 ∧
      .scope 1 ∉ (start.operateAll (found ++ later)).unresolved ∧
      .scope 2 ∉ (start.operateAll (found ++ later)).unresolved := by
  intro global group procedure site broken block records found later start
  obtain ⟨-, -, -, ordered⟩ := unresolved_items_exact none {} found
  obtain ⟨once, -, unplaced, -⟩ := unresolved_items_exact none {} (found ++ later)
  have waiting : (start.operateAll found).unresolved =
      [.symbol 0, .contribution ".text" 0, .scope 0, .scope 3] := by decide +kernel
  refine ⟨waiting, ?_, ?_, ?_, ?_, ?_⟩
  · rw [waiting] at ordered
    exact List.rel_of_pairwise_cons ordered (by simp)
  · have listed : (start.operateAll (found ++ later)).symbols[0]? = some
        { kind := Kind.globalData, name := "", sectionIndex := 1, offset := 0x10
          address := some 0x1010, position := 0 } := by decide +kernel
    obtain ⟨spot, here, count⟩ := once (.symbol 0) (.symbol listed)
    rw [Context.spot?, listed] at here
    cases here
    exact count
  · have place : (start.operateAll (found.take 5)).arena.length = 3 := by decide +kernel
    have split : found ++ later = found.take 5 ++ .dispatch ⟨records, 5⟩ :: later := rfl
    have located : start.Located (found ++ later)
        (.scope (start.operateAll (found.take 5)).arena.length) := .scope split rfl rfl rfl rfl
    rw [place] at located
    obtain ⟨spot, here, count⟩ := once (.scope 3) located
    have known : (start.operateAll (found ++ later)).spot? (.scope 3) = some ⟨2, 0, none⟩ := by
      decide +kernel
    cases known.symm.trans here
    exact count
  · exact unplaced 1 ⟨found.take 3, ⟨records, 3⟩, found.drop 4 ++ later, site, _, rfl, rfl, rfl,
      .inl rfl, by decide +kernel⟩
  · exact unplaced 2 ⟨found.take 4, ⟨records, 4⟩, found.drop 5 ++ later, broken, _, rfl, rfl, rfl,
      .inr (by decide +kernel), by decide +kernel⟩

end SymbolRecovery
