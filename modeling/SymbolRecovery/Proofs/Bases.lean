import SymbolRecovery.Proofs.Operations

/-!
Where the bases of sections come from. A section is asked for when it is registered, and again by
every late resolution for as long as it has no base. Main statement: after every history of
operations the sections with a base are those that have an address, at that base; the layout gave
it when the section was asked for, and nothing has touched the section since; and the other
sections are pending.
-/
namespace SymbolRecovery

def Context.Asks (c : Context) (s : ImageSection) : Operation → Prop
  | .dispatch cursor => ∃ r, cursor.peek? = some r ∧ r.registers? = some s
  | .addSection t => t = s
  | .resolve => s ∈ c.pendingSections
  | .setLayout _ | .retry => False

/-- A section without a base was asked for, the layout answered with this load base, and the
section with the base that follows from it has been in the table ever since. -/
def Context.Loaded (start : Context) (history : List Operation) (s : ImageSection)
    (loadBase : Int) : Prop :=
  ∃ earlier o later t, history = earlier ++ o :: later ∧
    (start.operateAll earlier).Asks t o ∧ t.base = none ∧
    (start.operateAll earlier).loadBase? t.index = some loadBase ∧
    s = { t with base := some (loadBase + t.rva) } ∧
    ∀ middle, middle <+: later →
      (start.operateAll (earlier ++ o :: middle)).sections.get? s.index = some s

namespace Context
variable {start c : Context} {history : List Operation} {o : Operation} {s t : ImageSection}
  {index base : Int}

theorem loadedAt_of_base (based : (s.loadedAt (c.loadBase? index)).base = some base) :
    ∃ loadBase, c.loadBase? index = some loadBase ∧
      s.loadedAt (c.loadBase? index) = { s with base := some (loadBase + s.rva) } := by
  cases known : c.loadBase? index with
  | none => simp [known, ImageSection.loadedAt] at based
  | some loadBase => exact ⟨loadBase, rfl, rfl⟩

theorem kept_or_loaded_addSection (pending : t.base = none)
    (here : (c.addSection t).sections.get? index = some s) (based : s.base = some base) :
    c.sections.get? index = some s ∨
      ∃ loadBase, c.loadBase? t.index = some loadBase ∧
        s = { t with base := some (loadBase + t.rva) } := by
  rw [get?_addSection pending] at here
  split at here
  · next same =>
    cases here
    rw [← same] at based ⊢
    exact .inr (loadedAt_of_base based)
  · exact .inl here

theorem kept_or_loaded (consistent : c.Consistent)
    (unbased : ∀ t, o = .addSection t → t.base = none)
    (here : (c.operate o).sections.get? index = some s) (based : s.base = some base) :
    c.sections.get? index = some s ∨
      ∃ t loadBase, c.Asks t o ∧ t.base = none ∧ c.loadBase? t.index = some loadBase ∧
        s = { t with base := some (loadBase + t.rva) } := by
  cases o with
  | dispatch cursor =>
    rw [operate_dispatch] at here
    cases registers : cursor.effect.section? with
    | none =>
      rw [(receives_perform cursor.unlocated_effect registers).sections_eq] at here
      exact .inl here
    | some t =>
      have pending := cursor.unlocated_effect.section_base t registers
      rw [perform_of_section? registers] at here
      refine (kept_or_loaded_addSection pending here based).imp_right ?_
      rintro ⟨loadBase, answer, same⟩
      refine ⟨t, loadBase, ?_, pending, answer, same⟩
      unfold Cursor.effect at registers
      split at registers
      · next r found => exact ⟨r, found, (r.section?_effect _).symm.trans registers⟩
      · cases registers
  | addSection t =>
    refine (kept_or_loaded_addSection (unbased t rfl) here based).imp_right ?_
    rintro ⟨loadBase, answer, same⟩
    exact ⟨t, loadBase, rfl, unbased t rfl, answer, same⟩
  | setLayout layout => exact .inl here
  | resolve =>
    rw [operate, consistent.resolveSections.2] at here
    obtain ⟨t, there, became⟩ := Option.map_eq_some_iff.1 here
    have stands := consistent.index_eq there
    rw [← stands] at there became ⊢
    split at became
    · next pending =>
      rw [← became] at based ⊢
      obtain ⟨loadBase, answer, same⟩ := loadedAt_of_base based
      have asked := (mem_pendingSections_iff consistent).2 ⟨there, pending⟩
      exact .inr ⟨t, loadBase, asked, pending, answer, same⟩
    · rw [← became]
      exact .inl there
  | retry =>
    obtain ⟨groups, arena, symbols, same⟩ := c.retryUnresolved_eq
    rw [operate, same] at here
    exact .inl here

theorem Loaded.concat {loadBase : Int} (loaded : start.Loaded history s loadBase)
    (here : (start.operateAll (history ++ [o])).sections.get? s.index = some s) :
    start.Loaded (history ++ [o]) s loadBase := by
  obtain ⟨earlier, first, later, t, rfl, asks, pending, answer, same, since⟩ := loaded
  refine ⟨earlier, first, later ++ [o], t, by simp, asks, pending, answer, same, ?_⟩
  intro middle part
  rcases List.prefix_concat_iff.1 part with rfl | sooner
  · simpa using here
  · exact since middle sooner

theorem exists_loaded (consistent : start.Consistent) (empty : start.sections = {})
    (unbased : ∀ s, .addSection s ∈ history → s.base = none)
    (here : (start.operateAll history).sections.get? index = some s)
    (based : s.base = some base) :
    ∃ loadBase, base = loadBase + s.rva ∧ start.Loaded history s loadBase := by
  induction history using List.reverseRecOn with
  | nil =>
    rw [operateAll, List.foldl_nil, empty] at here
    cases here
  | append_singleton history o ih =>
    have before : ∀ s, .addSection s ∈ history → s.base = none :=
      fun s member => unbased s (List.mem_append_left _ member)
    have last : ∀ t, o = .addSection t → t.base = none :=
      fun t same => unbased t (by simp [same])
    obtain rfl := (consistent.operateAll unbased).index_eq here
    have held := consistent.operateAll before
    have now := here
    rw [operateAll_concat] at now
    rcases kept_or_loaded held last now based with kept | ⟨t, loadBase, asks, pending, answer, rfl⟩
    · obtain ⟨loadBase, sum, loaded⟩ := ih before kept
      exact ⟨loadBase, sum, loaded.concat here⟩
    · refine ⟨loadBase, (Option.some.inj based).symm, ?_⟩
      refine ⟨history, o, [], t, rfl, asks, pending, answer, rfl, ?_⟩
      intro middle part
      rw [List.prefix_nil.1 part]
      exact here

theorem pendingSections_eq (consistent : c.Consistent) :
    c.pendingSections = c.sections.values.filter fun s => (c.addresses.get? s.index).isNone := by
  apply List.filter_congr
  intro s member
  obtain ⟨index, here⟩ := (Table.mem_values_iff consistent.sections_distinct).1 member
  rw [consistent.address_eq, consistent.index_eq here, here, Option.bind_some,
    ImageSection.isResolved, Option.not_isSome]

end Context

/-- The table of sections and the table of addresses say the same, and say what the layout gave. -/
theorem section_tables_in_step (layout : Option LoadLayout) (options : Options)
    (history : List Operation) (unbased : ∀ s, .addSection s ∈ history → s.base = none) :
    let start : Context := { layout, options }
    let c := start.operateAll history
    (∀ index s, c.sections.get? index = some s → s.index = index) ∧
    (∀ index base, c.addresses.get? index = some base ↔
      ∃ s, c.sections.get? index = some s ∧ s.base = some base) ∧
    (∀ index s base, c.sections.get? index = some s → s.base = some base →
      ∃ loadBase, base = loadBase + s.rva ∧ start.Loaded history s loadBase) ∧
    c.pendingSections = c.sections.values.filter (fun s => (c.addresses.get? s.index).isNone) ∧
    ∀ index offset, c.translate index offset =
      (c.sections.get? index).bind fun s => s.base.map (· + offset) := by
  intro start c
  have fresh : start.Consistent := Context.consistent_fresh layout options
  have consistent : c.Consistent := fresh.operateAll unbased
  refine ⟨fun _ _ => consistent.index_eq, ?_, ?_, Context.pendingSections_eq consistent,
    Context.translate_eq consistent⟩
  · intro index base
    rw [consistent.address_eq, Option.bind_eq_some_iff]
  · intro index s base here based
    exact Context.exists_loaded fresh rfl unbased here based

/-- Section 1 comes without a layout and waits until there is one that knows it; that layout no
longer knows section 2, which keeps the base that it has got. Section 3 is registered twice, and
loses the base of the first time. -/
theorem section_tables_in_step_across_layouts :
    let text : ImageSection := { index := 1, rva := 0x1000, length := 0x100 }
    let data : Record :=
      { kind := Kind.imageSection, sectionIndex := 2, address := 0x2000, length := 0x100 }
    let rest : ImageSection := { index := 3, rva := 0x3000, length := 0x100 }
    let history : List Operation :=
      [.addSection text, .setLayout (some (.imageBase 0x400000)), .dispatch ⟨[data], 0⟩,
        .addSection rest, .setLayout (some (.listed [(1, some 0x10000)])), .retry, .resolve,
        .addSection rest]
    let start : Context := {}
    let c := start.operateAll history
    (∀ s, .addSection s ∈ history → s.base = none) ∧
      start.Loaded history { text with base := some 0x11000 } 0x10000 ∧
      start.Loaded history
        { index := 2, rva := 0x2000, length := 0x100, base := some 0x402000 } 0x400000 ∧
      c.pendingSections = [rest] ∧ c.addresses.get? 3 = none ∧
      c.translate 1 0x10 = some 0x11010 := by
  intro text data rest history start c
  have unbased : ∀ s, .addSection s ∈ history → s.base = none := by
    intro s member
    simp only [history, List.mem_cons, Operation.addSection.injEq, reduceCtorEq, false_or,
      or_false, List.not_mem_nil] at member
    rcases member with rfl | rfl | rfl <;> rfl
  obtain ⟨-, known, loaded, pending, translated⟩ :=
    section_tables_in_step none {} history unbased
  have first : c.sections.get? 1 = some { text with base := some 0x11000 } := by decide +kernel
  have second : c.sections.get? 2 =
      some { index := 2, rva := 0x2000, length := 0x100, base := some 0x402000 } := by
    decide +kernel
  have third : c.sections.get? 3 = some rest := by decide +kernel
  refine ⟨unbased, ?_, ?_, ?_, ?_, ?_⟩
  · obtain ⟨loadBase, sum, moment⟩ := loaded 1 _ _ first rfl
    obtain rfl : loadBase = 0x10000 := by simp only [text] at sum; omega
    exact moment
  · obtain ⟨loadBase, sum, moment⟩ := loaded 2 _ _ second rfl
    obtain rfl : loadBase = 0x400000 := by simp only at sum; omega
    exact moment
  · exact pending.trans (by decide +kernel)
  · refine Option.eq_none_iff_forall_not_mem.2 fun base member => ?_
    obtain ⟨s, here, based⟩ := (known 3 base).1 member
    cases third.symm.trans here
    cases based
  · exact (translated 1 0x10).trans (by rw [first]; rfl)

end SymbolRecovery
