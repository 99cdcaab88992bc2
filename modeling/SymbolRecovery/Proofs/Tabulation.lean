import SymbolRecovery.Proofs.Descent
import SymbolRecovery.Proofs.Descriptions

/-!
The tables of sections and of groups as summaries of the records. A section that comes again takes
the place of the earlier one, while a group keeps what it was first seen with and gathers its parts.
Main statement: a descending run leaves the tables that the section and group records describe, as
far as they are valid, and no other record has any influence on them.
-/
namespace SymbolRecovery
open Lookup (standard)

namespace Context

def tables (c : Context) : Context :=
  { layout := c.layout, sections := c.sections, addresses := c.addresses, groups := c.groups }

def tabulate (c : Context) (r : Record) : Context :=
  if r.IsSection then c.addSection r.imageSection
  else if r.IsPart then c.addContribution r.name r.characteristics r.part
  else c

variable {c : Context} {r : Record} {position : Nat}

theorem parts_of_tables {d : Context} (same : d.tables = c.tables) :
    d.layout = c.layout ∧ d.sections = c.sections ∧ d.addresses = c.addresses ∧
      d.groups = c.groups := by
  unfold tables at same
  simp_all

theorem tables_addSection (c : Context) (s : ImageSection) :
    (c.addSection s).tables = c.tables.addSection s := by
  simp only [addSection, resolveSection]
  have known : c.tables.layout = c.layout := rfl
  simp only [loadBase?, known]
  cases c.layout.bind (· s.index) <;> rfl

theorem tables_addContribution (c : Context) (name : String) (characteristics : Int)
    (part : Contribution) :
    (c.addContribution name characteristics part).tables =
      (c.tables.addContribution name characteristics part).tables := by
  simp only [addContribution, await_eq_append]
  rfl

theorem tables_perform_of_other (isSection : ¬ r.IsSection) (isPart : ¬ r.IsPart) (position : Nat) :
    (c.perform (r.effect position)).tables = c.tables := by
  by_cases silent : ∀ change, r.effect position ≠ .describes change
  · obtain ⟨arena, top, stack, unresolved, scopes⟩ := c.perform_of_silent silent
    rw [scopes]
    rfl
  · obtain ⟨change, asks⟩ := not_forall_not.1 silent
    rw [asks, perform]
    cases Record.effect_eq_describes_iff.1 asks with
    | imageSection valid => exact absurd valid isSection
    | part valid => exact absurd valid isPart
    | symbol valid =>
      obtain ⟨unresolved, adds⟩ := c.make_addSymbol (r.symbol position)
      rw [adds]
      rfl
    | objectName valid => rfl
    | compiler valid =>
      simp only [make, describeUnit]
      split <;> rfl

theorem tables_perform (c : Context) (r : Record) (position : Nat) :
    (c.perform (r.effect position)).tables = (c.tables.tabulate r).tables := by
  by_cases isSection : r.IsSection
  · rw [(Record.Describes.imageSection isSection).effect_eq, perform, make, tables_addSection,
      tabulate, if_pos isSection, tables_addSection]
    rfl
  · by_cases isPart : r.IsPart
    · rw [(Record.Describes.part isPart).effect_eq, perform, make, tables_addContribution, tabulate,
        if_neg isSection, if_pos isPart]
    · rw [tables_perform_of_other isSection isPart, tabulate, if_neg isSection, if_neg isPart]
      rfl

theorem tables_goOver_filter {d : Context} (same : c.tables = d.tables) (word : List Record)
    (position other : Nat) :
    (c.goOver position word).tables =
      (d.goOver other (word.filter fun r => r.IsSection ∨ r.IsPart)).tables := by
  induction word generalizing c d position other with
  | nil => exact same
  | cons r rest ih =>
    by_cases tells : r.IsSection ∨ r.IsPart
    · rw [List.filter_cons, if_pos (decide_eq_true tells), goOver_cons, goOver_cons]
      refine ih ?_ _ _
      rw [tables_perform, tables_perform, same]
    · rw [List.filter_cons, if_neg (by simpa using tells), goOver_cons]
      refine ih ?_ _ _
      obtain ⟨isSection, isPart⟩ := not_or.1 tells
      rw [tables_perform_of_other isSection isPart, same]

end Context

theorem eraseDups_concat {α : Type} [DecidableEq α] (l : List α) (a : α) :
    (l ++ [a]).eraseDups = if a ∈ l.eraseDups then l.eraseDups else l.eraseDups ++ [a] := by
  rw [List.eraseDups_append]
  by_cases known : a ∈ l
  · simp [List.removeAll, known]
  · simp [List.removeAll, known, List.eraseDups_cons]

namespace SectionGroup

def unlocated (g : SectionGroup) : SectionGroup :=
  { g with contributions := g.contributions.map fun part => { part with address := none } }

def ofParts? (name : String) : List Record → Option SectionGroup
  | [] => none
  | first :: later => some
    { name, characteristics := first.characteristics
      contributions := (first :: later).map Record.part }

variable {g : SectionGroup} {name : String} {parts : List Record}

theorem ofParts?_concat (name : String) (parts : List Record) (r : Record) :
    let g := (ofParts? name parts).getD { name, characteristics := r.characteristics }
    ofParts? name (parts ++ [r]) =
      some { g with contributions := g.contributions ++ [r.part] } := by
  cases parts <;> simp [ofParts?]

theorem sections_of_ofParts? (described : ofParts? name parts = some g.unlocated) :
    g.sections = (parts.map (·.sectionIndex)).eraseDups := by
  have unlocated : g.unlocated.contributions.map (·.sectionIndex) =
      g.contributions.map (·.sectionIndex) := by simp [unlocated, Function.comp_def]
  rw [sections, ← unlocated]
  cases parts with
  | nil => cases described
  | cons first later =>
    rw [← Option.some.inj described, List.map_map]
    rfl

end SectionGroup

namespace Context

/-- The tables are those that some records describe. A section is the last of its number, at the
base that the layout gives. -/
structure TablesOf (word : List Record) (c : Context) : Prop where
  section_keys : c.sections.keys =
    ((word.filter fun r => r.IsSection).map (·.sectionIndex)).eraseDups
  sections : ∀ index, c.sections.get? index =
    (word.filter fun r => r.IsSection ∧ r.sectionIndex = index).getLast?.map fun r =>
      r.imageSection.loadedAt (c.loadBase? index)
  group_keys : c.groups.keys = ((word.filter fun r => r.IsPart).map (·.name)).eraseDups
  groups : ∀ name, (c.groups.get? name).map SectionGroup.unlocated =
    SectionGroup.ofParts? name (word.filter fun r => r.IsPart ∧ r.name = name)
  group_sections : ∀ name g, c.groups.get? name = some g → g.sections =
    ((word.filter fun r => r.IsPart ∧ r.name = name).map (·.sectionIndex)).eraseDups

variable {c d : Context} {r : Record} {word : List Record}

theorem keys_addSection (c : Context) (s : ImageSection) :
    (c.addSection s).sections.keys =
      if s.index ∈ c.sections.keys then c.sections.keys else c.sections.keys ++ [s.index] := by
  unfold addSection
  rw [keys_resolveSection]
  · exact Table.keys_insert _ _ _
  · rw [Table.mem_keys_iff, Table.get?_insert, if_pos rfl]
    rfl

theorem tablesOf_fresh (layout : Option LoadLayout) (options : Options) :
    TablesOf [] { layout, options } where
  section_keys := rfl
  sections := fun index => rfl
  group_keys := rfl
  groups := fun name => rfl
  group_sections := by
    intro name g here
    cases here

theorem TablesOf.of_other (tablesOf : c.TablesOf word) (same : d.tables = c.tables)
    (isSection : ¬ r.IsSection) (isPart : ¬ r.IsPart) : d.TablesOf (word ++ [r]) := by
  obtain ⟨layout, sections, -, groups⟩ := parts_of_tables same
  constructor
  · simpa [sections, isSection] using tablesOf.section_keys
  · simpa [sections, isSection, loadBase?, layout] using tablesOf.sections
  · simpa [groups, isPart] using tablesOf.group_keys
  · simpa [groups, isPart] using tablesOf.groups
  · simpa [groups, isPart] using tablesOf.group_sections

theorem TablesOf.addSection (tablesOf : c.TablesOf word) (isSection : r.IsSection) :
    (c.addSection r.imageSection).TablesOf (word ++ [r]) := by
  have isPart := Record.not_isPart_of_isSection isSection
  obtain ⟨sections, addresses, same⟩ := c.addSection_eq r.imageSection
  have groups : (c.addSection r.imageSection).groups = c.groups := by rw [same]
  constructor
  · have grown : (word ++ [r]).filter (fun r => r.IsSection) =
        word.filter (fun r => r.IsSection) ++ [r] := by simp [isSection]
    rw [keys_addSection, tablesOf.section_keys, grown, List.map_append, List.map_singleton,
      eraseDups_concat]
    congr
  · intro index
    rw [get?_addSection rfl, loadBase?_addSection, tablesOf.sections]
    simp only [List.filter_append]
    by_cases here : r.sectionIndex = index
    · simp [isSection, Record.imageSection, here]
    · simp [isSection, Record.imageSection, here]
  · simpa [groups, isPart] using tablesOf.group_keys
  · simpa [groups, isPart] using tablesOf.groups
  · simpa [groups, isPart] using tablesOf.group_sections

theorem unlocated_addContribution (c : Context) (r : Record) (name : String) :
    ((c.addContribution r.name r.characteristics r.part).groups.get? name).map
        SectionGroup.unlocated =
      if r.name = name then
        let g := ((c.groups.get? name).map SectionGroup.unlocated).getD
          { name, characteristics := r.characteristics }
        some { g with contributions := g.contributions ++ [r.part] }
      else (c.groups.get? name).map SectionGroup.unlocated := by
  simp only [addContribution, await_eq_append, Table.get?_insert]
  by_cases here : r.name = name
  · subst here
    cases c.groups.get? r.name <;> simp [SectionGroup.unlocated, Record.part]
  · simp [here]

theorem TablesOf.addContribution (tablesOf : c.TablesOf word) (isPart : r.IsPart) :
    (c.addContribution r.name r.characteristics r.part).TablesOf (word ++ [r]) := by
  have isSection : ¬ r.IsSection := fun isSection => Record.not_isPart_of_isSection isSection isPart
  have groups : ∀ name, ((c.addContribution r.name r.characteristics r.part).groups.get? name).map
      SectionGroup.unlocated = SectionGroup.ofParts? name
        ((word ++ [r]).filter fun r => r.IsPart ∧ r.name = name) := by
    intro name
    rw [unlocated_addContribution, tablesOf.groups]
    by_cases here : r.name = name
    · have grown : (word ++ [r]).filter (fun r => r.IsPart ∧ r.name = name) =
          word.filter (fun r => r.IsPart ∧ r.name = name) ++ [r] := by simp [isPart, here]
      rw [if_pos here, grown, SectionGroup.ofParts?_concat]
    · simp [here]
  have sections : (c.addContribution r.name r.characteristics r.part).sections = c.sections := by
    simp only [Context.addContribution, await_eq_append]
  have layout : (c.addContribution r.name r.characteristics r.part).layout = c.layout := by
    simp only [Context.addContribution, await_eq_append]
  constructor
  · simpa [sections, isSection] using tablesOf.section_keys
  · simpa [sections, isSection, loadBase?, layout] using tablesOf.sections
  · have grown : (word ++ [r]).filter (fun r => r.IsPart) =
        word.filter (fun r => r.IsPart) ++ [r] := by simp [isPart]
    simp only [Context.addContribution, await_eq_append]
    rw [Table.keys_insert, tablesOf.group_keys, grown, List.map_append, List.map_singleton,
      eraseDups_concat]
  · exact groups
  · intro name g here
    apply SectionGroup.sections_of_ofParts?
    rw [← groups name, here]
    rfl

theorem TablesOf.concat (tablesOf : c.TablesOf word) (r : Record) (position : Nat) :
    (c.perform (r.effect position)).TablesOf (word ++ [r]) := by
  by_cases isSection : r.IsSection
  · rw [(Record.Describes.imageSection isSection).effect_eq]
    exact tablesOf.addSection isSection
  · by_cases isPart : r.IsPart
    · rw [(Record.Describes.part isPart).effect_eq]
      exact tablesOf.addContribution isPart
    · exact tablesOf.of_other (tables_perform_of_other isSection isPart position) isSection isPart

end Context

/-- The states of a descending run have the tables that the records so far describe, and its end has
the tables of a run over the valid section and group records alone. -/
theorem tables_summarise_valid_records (cursor : Cursor) (layout : Option LoadLayout)
    (options : Options) (descends : options.descendScopes = true) :
    let start : Progress := { context := { layout, options }, cursor }
    let word := cursor.records.drop cursor.position
    let valid : Cursor := { records := word.filter fun r => r.IsSection ∨ r.IsPart }
    let c := (run standard start.context cursor).progress.context
    let d := (run standard start.context valid).progress.context
    (∀ n p, start.after standard n = some p → p.context.TablesOf (word.take n)) ∧
      c.TablesOf word ∧
      c.sections = d.sections ∧ c.addresses = d.addresses ∧ c.groups = d.groups := by
  intro start word valid c d
  have all : ∀ word, (start.context.goOver cursor.position word).TablesOf word := by
    intro word
    refine Context.goOver_keeps (motive := fun word c => c.TablesOf word)
      (Context.tablesOf_fresh layout options) ?_ word
    exact fun word c r tablesOf => tablesOf.concat r _
  obtain ⟨states, ends⟩ :=
    Progress.holds_of_descends (motive := fun word c => c.TablesOf word) descends all
  refine ⟨states, ends, ?_⟩
  have gone : c = start.context.goOver cursor.position word :=
    Progress.context_run_of_descends (p := start) descends
  have also : d = start.context.goOver 0 valid.records :=
    Progress.context_run_of_descends (p := ⟨start.context, valid, {}⟩) descends
  have same : c.tables = d.tables := by
    rw [gone, also]
    exact Context.tables_goOver_filter rfl word _ _
  exact (Context.parts_of_tables same).2

/-- Section 2 comes again with another name, section 1 with too large an alignment, and one part of
the group names section zero. -/
theorem tables_summarise_valid_records_of_repeated :
    let records : List Record :=
      [{ kind := Kind.imageSection, sectionIndex := 2, name := "b" },
        { kind := Kind.imageSection, sectionIndex := 1, name := "a" },
        { kind := Kind.sectionGroup, sectionIndex := 1, name := "g", characteristics := 5 },
        { kind := Kind.imageSection, sectionIndex := 1, name := "x", alignment := 14 },
        { kind := Kind.sectionGroup, sectionIndex := 0, name := "g" },
        { kind := Kind.sectionGroup, sectionIndex := 2, name := "g", characteristics := 9 },
        { kind := Kind.imageSection, sectionIndex := 2, name := "c" },
        { kind := Kind.sectionGroup, sectionIndex := 1, name := "g", length := 8 }]
    let c := (run standard {} { records }).progress.context
    c.sections.keys = [2, 1] ∧ (c.sections.get? 2).map (·.name) = some "c" ∧
      (c.sections.get? 1).map (·.name) = some "a" ∧ c.groups.keys = ["g"] ∧
      (c.groups.get? "g").map (fun g => g.unlocated) = some
        { name := "g", characteristics := 5
          contributions := [⟨1, 0, 0, none⟩, ⟨2, 0, 0, none⟩, ⟨1, 0, 8, none⟩] } ∧
      ∀ g, c.groups.get? "g" = some g → g.sections = [1, 2] := by
  intro records c
  obtain ⟨-, tables, -⟩ := tables_summarise_valid_records { records } none {} rfl
  refine ⟨?_, ?_, ?_, ?_, ?_, ?_⟩
  · exact tables.section_keys.trans (by decide +kernel)
  · rw [tables.sections 2, Option.map_map]
    decide +kernel
  · rw [tables.sections 1, Option.map_map]
    decide +kernel
  · exact tables.group_keys.trans (by decide +kernel)
  · exact (tables.groups "g").trans (by decide +kernel)
  · intro g here
    exact (tables.group_sections "g" g here).trans (by decide +kernel)

end SymbolRecovery
