import SymbolRecovery.Context.Addresses
import SymbolRecovery.Proofs.Tables

/-!
The table of sections and the table of their addresses. Registering a section and asking the layout
again change the two together. Main statements: they keep to say the same; a section has the
address that the layout gave it when it was last asked; and under a layout that stays the same
there is nothing to be gained from asking again.
-/
namespace SymbolRecovery

def ImageSection.loadedAt (s : ImageSection) (base : Option Int) : ImageSection :=
  { s with base := base.map (· + s.rva) }

theorem ImageSection.loadedAt_none {s : ImageSection} (pending : s.base = none) :
    s.loadedAt none = s := by
  cases s
  cases pending
  rfl

namespace Context

structure Consistent (c : Context) : Prop where
  sections_distinct : c.sections.keys.Nodup
  addresses_distinct : c.addresses.keys.Nodup
  index_eq : ∀ {index s}, c.sections.get? index = some s → s.index = index
  address_eq : ∀ index, c.addresses.get? index = (c.sections.get? index).bind (·.base)

def Current (c : Context) : Prop :=
  ∀ index s, c.sections.get? index = some s → s = s.loadedAt (c.loadBase? index)

variable {c : Context} {s : ImageSection}

theorem consistent_fresh (layout : Option LoadLayout) (options : Options) :
    Consistent { layout, options } where
  sections_distinct := List.nodup_nil
  addresses_distinct := List.nodup_nil
  index_eq := by
    intro index s here
    cases here
  address_eq := fun _ => rfl

theorem Consistent.congr {d : Context} (consistent : c.Consistent)
    (sections : d.sections = c.sections) (addresses : d.addresses = c.addresses) :
    d.Consistent where
  sections_distinct := sections ▸ consistent.sections_distinct
  addresses_distinct := addresses ▸ consistent.addresses_distinct
  index_eq := sections ▸ consistent.index_eq
  address_eq := sections ▸ addresses ▸ consistent.address_eq

theorem resolveSection_eq (c : Context) (s : ImageSection) :
    ∃ sections addresses, c.resolveSection s = { c with sections, addresses } := by
  unfold resolveSection
  split
  · exact ⟨_, _, rfl⟩
  · exact ⟨_, _, rfl⟩

theorem addSection_eq (c : Context) (s : ImageSection) :
    ∃ sections addresses, c.addSection s = { c with sections, addresses } := by
  obtain ⟨sections, addresses, same⟩ := resolveSection_eq { c with
    sections := c.sections.insert s.index s
    addresses := if c.sections.contains s.index then c.addresses.erase s.index else c.addresses } s
  exact ⟨sections, addresses, same⟩

theorem loadBase?_resolveSection (c : Context) (s : ImageSection) (index : Int) :
    (c.resolveSection s).loadBase? index = c.loadBase? index := by
  obtain ⟨sections, addresses, same⟩ := c.resolveSection_eq s
  rw [same]
  rfl

theorem loadBase?_addSection (c : Context) (s : ImageSection) (index : Int) :
    (c.addSection s).loadBase? index = c.loadBase? index := by
  obtain ⟨sections, addresses, same⟩ := c.addSection_eq s
  rw [same]
  rfl

theorem keys_resolveSection (known : s.index ∈ c.sections.keys) :
    (c.resolveSection s).sections.keys = c.sections.keys := by
  unfold resolveSection
  split
  · rfl
  · rw [Table.keys_insert, if_pos known]

theorem get?_resolveSection (here : c.sections.get? s.index = some s) (pending : s.base = none)
    (index : Int) :
    (c.resolveSection s).sections.get? index =
      if s.index = index then some (s.loadedAt (c.loadBase? index))
      else c.sections.get? index := by
  unfold resolveSection
  cases known : c.loadBase? s.index with
  | none =>
    dsimp only
    split
    · next same =>
      rw [← same, here, known, ImageSection.loadedAt_none pending]
    · rfl
  | some base =>
    simp only [Table.get?_insert]
    split
    · next same =>
      rw [← same, known]
      rfl
    · rfl

theorem Consistent.resolveSection (consistent : c.Consistent)
    (here : c.sections.get? s.index = some s) (pending : s.base = none) :
    (c.resolveSection s).Consistent := by
  have tables := get?_resolveSection here pending
  unfold Context.resolveSection at tables ⊢
  split at tables
  · exact consistent
  · next base known =>
    refine ⟨Table.nodup_keys_insert consistent.sections_distinct _ _,
      Table.nodup_keys_insert consistent.addresses_distinct _ _, ?_, ?_⟩
    · intro index t there
      rw [tables] at there
      split at there
      · next same =>
        cases there
        exact same
      · exact consistent.index_eq there
    · intro index
      rw [tables, Table.get?_insert]
      split
      · next same =>
        rw [← same, known]
        rfl
      · exact consistent.address_eq index

theorem get?_addSection (pending : s.base = none) (index : Int) :
    (c.addSection s).sections.get? index =
      if s.index = index then some (s.loadedAt (c.loadBase? index))
      else c.sections.get? index := by
  unfold addSection
  rw [get?_resolveSection _ pending]
  · simp only [loadBase?, Table.get?_insert]
    split <;> rfl
  · rw [Table.get?_insert, if_pos rfl]

theorem Consistent.addSection (consistent : c.Consistent) (pending : s.base = none) :
    (c.addSection s).Consistent := by
  refine Consistent.resolveSection ?_ ?_ pending
  · refine ⟨Table.nodup_keys_insert consistent.sections_distinct _ _, ?_, ?_, ?_⟩
    · dsimp only
      split
      · exact Table.nodup_keys_erase consistent.addresses_distinct _
      · exact consistent.addresses_distinct
    · intro index t there
      rw [Table.get?_insert] at there
      split at there
      · next same =>
        cases there
        exact same
      · exact consistent.index_eq there
    · intro index
      rw [Table.get?_insert]
      by_cases same : s.index = index
      · subst same
        rw [if_pos rfl, Option.bind_some, pending]
        by_cases replaced : c.sections.contains s.index
        · rw [if_pos replaced, Table.get?_erase, if_pos rfl]
        · rw [if_neg replaced, consistent.address_eq]
          simp only [Table.contains, Option.not_isSome_iff_eq_none] at replaced
          rw [replaced]
          rfl
      · rw [if_neg same, ← consistent.address_eq]
        split
        · rw [Table.get?_erase, if_neg same]
        · rfl
  · rw [Table.get?_insert, if_pos rfl]

theorem mem_pendingSections_iff (consistent : c.Consistent) :
    s ∈ c.pendingSections ↔ c.sections.get? s.index = some s ∧ s.base = none := by
  rw [pendingSections, List.mem_filter, Table.mem_values_iff consistent.sections_distinct]
  simp only [ImageSection.isResolved, Bool.not_eq_eq_eq_not, Bool.not_true,
    Option.isSome_eq_false_iff, Option.isNone_iff_eq_none]
  constructor
  · rintro ⟨⟨index, here⟩, pending⟩
    rw [consistent.index_eq here]
    exact ⟨here, pending⟩
  · rintro ⟨here, pending⟩
    exact ⟨⟨s.index, here⟩, pending⟩

theorem nodup_pendingSections (consistent : c.Consistent) :
    (c.pendingSections.map (·.index)).Nodup := by
  have keys : c.sections.values.map (·.index) = c.sections.keys := by
    simp only [Table.values, Table.keys, List.map_map]
    refine List.map_congr_left fun entry member => ?_
    exact consistent.index_eq (Table.get?_of_mem consistent.sections_distinct member)
  have distinct := consistent.sections_distinct
  rw [← keys] at distinct
  exact distinct.sublist (List.filter_sublist.map _)

theorem resolve_each {pending : List ImageSection} (distinct : (pending.map (·.index)).Nodup)
    (consistent : c.Consistent)
    (stand : ∀ s ∈ pending, c.sections.get? s.index = some s ∧ s.base = none) :
    let d := pending.foldl resolveSection c
    d.Consistent ∧ ∀ index, d.sections.get? index = (c.sections.get? index).map fun s =>
      if s ∈ pending then s.loadedAt (c.loadBase? index) else s := by
  induction pending generalizing c with
  | nil => simp [consistent]
  | cons s rest ih =>
    rw [List.map_cons, List.nodup_cons] at distinct
    obtain ⟨here, without⟩ := stand s List.mem_cons_self
    have other : ∀ t ∈ rest, s.index ≠ t.index := by
      intro t member same
      exact distinct.1 (same ▸ List.mem_map_of_mem member)
    have tables := get?_resolveSection here without
    obtain ⟨kept, answers⟩ := ih distinct.2 (consistent.resolveSection here without) (by
      intro t member
      obtain ⟨there, lacks⟩ := stand t (List.mem_cons_of_mem _ member)
      rw [tables, if_neg (other t member)]
      exact ⟨there, lacks⟩)
    refine ⟨kept, fun index => ?_⟩
    rw [List.foldl_cons, answers, tables, loadBase?_resolveSection]
    by_cases same : s.index = index
    · have gone : s.loadedAt (c.loadBase? index) ∉ rest := fun member => other _ member rfl
      rw [if_pos same, ← same, here]
      simp [same, gone]
    · rw [if_neg same]
      cases there : c.sections.get? index with
      | none => rfl
      | some t =>
        have elsewhere : t ≠ s := by
          intro equal
          exact same (equal ▸ consistent.index_eq there)
        simp [elsewhere]

theorem resolveSections_eq (c : Context) :
    ∃ sections addresses, c.resolveSections.2 = { c with sections, addresses } := by
  simp only [resolveSections]
  generalize c.pendingSections = pending
  induction pending generalizing c with
  | nil => exact ⟨_, _, rfl⟩
  | cons s rest ih =>
    obtain ⟨sections, addresses, same⟩ := c.resolveSection_eq s
    obtain ⟨later, others, rest⟩ := ih (c.resolveSection s)
    refine ⟨later, others, ?_⟩
    rw [List.foldl_cons, rest, same]

theorem loadBase?_resolveSections (c : Context) (index : Int) :
    c.resolveSections.2.loadBase? index = c.loadBase? index := by
  obtain ⟨sections, addresses, same⟩ := c.resolveSections_eq
  rw [same]
  rfl

theorem Consistent.resolveSections (consistent : c.Consistent) :
    c.resolveSections.2.Consistent ∧ ∀ index, c.resolveSections.2.sections.get? index =
      (c.sections.get? index).map fun s =>
        if s.base = none then s.loadedAt (c.loadBase? index) else s := by
  obtain ⟨kept, answers⟩ := resolve_each (nodup_pendingSections consistent) consistent
    fun s member => (mem_pendingSections_iff consistent).1 member
  refine ⟨kept, fun index => (answers index).trans ?_⟩
  cases here : c.sections.get? index with
  | none => rfl
  | some s =>
    have pending : s ∈ c.pendingSections ↔ s.base = none := by
      rw [mem_pendingSections_iff consistent, consistent.index_eq here, here]
      simp
    simp only [Option.map_some, pending]

theorem resolveSections_of_unknown
    (unknown : ∀ s ∈ c.pendingSections, c.loadBase? s.index = none) :
    c.resolveSections = (0, c) := by
  have nothing : ∀ s ∈ c.pendingSections, c.resolveSection s = c := by
    intro s member
    simp only [resolveSection, unknown s member]
  have none_found : (c.pendingSections.countP fun s => (c.loadBase? s.index).isSome) = 0 := by
    rw [List.countP_eq_zero]
    intro s member
    rw [unknown s member]
    exact Bool.false_ne_true
  rw [resolveSections, none_found, Prod.mk.injEq]
  refine ⟨rfl, ?_⟩
  generalize c.pendingSections = pending at nothing
  induction pending with
  | nil => rfl
  | cons s rest ih =>
    rw [List.foldl_cons, nothing s List.mem_cons_self]
    exact ih fun t member => nothing t (List.mem_cons_of_mem _ member)

theorem Current.resolveSections_eq_self (consistent : c.Consistent) (current : c.Current) :
    c.resolveSections.2 = c := by
  rw [resolveSections_of_unknown]
  intro s member
  obtain ⟨here, without⟩ := (mem_pendingSections_iff consistent).1 member
  have base := congrArg ImageSection.base (current s.index s here)
  rw [without] at base
  simpa [ImageSection.loadedAt] using base.symm

theorem translate_eq (consistent : c.Consistent) (index offset : Int) :
    c.translate index offset =
      (c.sections.get? index).bind fun s => s.base.map (· + offset) := by
  rw [translate, consistent.address_eq]
  cases c.sections.get? index <;> rfl

/-- The sections of the table are these, of which one stands before those that it replaced. -/
structure Holds (c : Context) (registered : List ImageSection) : Prop where
  consistent : c.Consistent
  section_eq : ∀ index, c.sections.get? index =
    (registered.find? fun s => s.index = index).map (·.loadedAt (c.loadBase? index))

theorem holds_fresh (layout : Option LoadLayout) (options : Options) :
    Holds { layout, options } [] where
  consistent := consistent_fresh layout options
  section_eq := fun _ => rfl

variable {registered : List ImageSection}

theorem Holds.current (holds : c.Holds registered) : c.Current := by
  intro index s here
  rw [holds.section_eq] at here
  obtain ⟨t, -, rfl⟩ := Option.map_eq_some_iff.1 here
  rfl

theorem Holds.addSection (holds : c.Holds registered) (pending : s.base = none) :
    (c.addSection s).Holds (s :: registered) where
  consistent := holds.consistent.addSection pending
  section_eq := by
    intro index
    rw [get?_addSection pending, List.find?_cons, loadBase?_addSection, holds.section_eq]
    split <;> simp [*]

theorem Holds.congr {d : Context} (holds : c.Holds registered)
    (layout : d.layout = c.layout) (sections : d.sections = c.sections)
    (addresses : d.addresses = c.addresses) : d.Holds registered := by
  have bases : d.loadBase? = c.loadBase? := by
    funext index
    rw [loadBase?, layout, loadBase?]
  refine ⟨holds.consistent.congr sections addresses, ?_⟩
  rw [sections, bases]
  exact holds.section_eq

theorem Holds.resolveSections {layout : LoadLayout} (holds : c.Holds registered)
    (keeps : ∀ index base, c.loadBase? index = some base → layout index = some base) :
    ({ c with layout := some layout }.resolveSections.2).Holds registered := by
  have consistent : { c with layout := some layout }.Consistent := holds.consistent.congr rfl rfl
  obtain ⟨kept, answers⟩ := consistent.resolveSections
  refine ⟨kept, ?_⟩
  intro index
  rw [loadBase?_resolveSections, answers]
  simp only [loadBase?, Option.bind_some]
  rw [holds.section_eq, Option.map_map]
  congr 1
  funext s
  cases known : c.loadBase? index with
  | none => rfl
  | some base =>
    rw [keeps index base known]
    rfl

end Context
end SymbolRecovery
