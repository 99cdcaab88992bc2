import SymbolRecovery.Proofs.Settling
import SymbolRecovery.Proofs.Waiting

/-!
Late resolution, of sections and of items. Both go over a list that they change on the way, and say
how much they have achieved by a count of their own. Here each is compared with what becomes of
every section and of every item by itself. Main statement: after every history of operations both
do what the layout and the tables have answers for, leave alone whatever has an address, and find
nothing more to do when they are asked once more.
-/
namespace SymbolRecovery

namespace Context

def basesFound (c : Context) : List (Int × Int) :=
  c.pendingSections.filterMap fun s =>
    (c.loadBase? s.index).map fun base => (s.index, base + s.rva)

/-- Every section that waits is at the base that the layout has for it. -/
def withBases (c : Context) : Context :=
  { c with
    sections := c.sections.mapValues fun s =>
      if s.base = none then s.loadedAt (c.loadBase? s.index) else s
    addresses := { entries := c.addresses.entries ++ c.basesFound } }

def readdress (c : Context) (item : Item) (spot : Spot) : Option Int :=
  if item ∈ c.unresolved then c.translate spot.sectionIndex spot.offset else spot.address

/-- Every item that waits has the address that the tables have for it. -/
def withAddresses (c : Context) : Context :=
  { c with
    groups := c.groups.mapWithKeys fun name g =>
      { g with contributions := g.contributions.mapIdx fun index part =>
          { part with address := c.readdress (.contribution name index) part.spot } }
    arena := c.arena.mapIdx fun id s => { s with address := c.readdress (.scope id) s.spot }
    symbols := c.symbols.mapIdx fun id s => { s with address := c.readdress (.symbol id) s.spot }
    unresolved := c.unresolved.filter fun item => (c.itemAddress? item).isNone }

variable {c : Context} {history : List Operation} {item : Item}

theorem entries_resolve_each {pending : List ImageSection}
    (distinct : (pending.map (·.index)).Nodup)
    (unknown : ∀ s ∈ pending, c.addresses.get? s.index = none) :
    (pending.foldl resolveSection c).addresses.entries = c.addresses.entries ++
      pending.filterMap fun s => (c.loadBase? s.index).map fun base => (s.index, base + s.rva) := by
  induction pending generalizing c with
  | nil => simp
  | cons s rest ih =>
    rw [List.map_cons, List.nodup_cons] at distinct
    have new := unknown s List.mem_cons_self
    have others : ∀ t ∈ rest, (c.resolveSection s).addresses.get? t.index = none := by
      intro t member
      have elsewhere : s.index ≠ t.index :=
        fun same => distinct.1 (same ▸ List.mem_map_of_mem member)
      have before := unknown t (List.mem_cons_of_mem _ member)
      unfold resolveSection
      split
      · exact before
      · rw [Table.get?_insert, if_neg elsewhere]
        exact before
    rw [List.foldl_cons, ih distinct.2 others]
    simp only [loadBase?_resolveSection, List.filterMap_cons]
    unfold resolveSection
    cases c.loadBase? s.index with
    | none => rfl
    | some base =>
      dsimp only [Option.map_some]
      rw [Table.entries_insert_of_new new, List.append_assoc, List.singleton_append]

theorem keys_resolve_each {pending : List ImageSection}
    (known : ∀ s ∈ pending, s.index ∈ c.sections.keys) :
    (pending.foldl resolveSection c).sections.keys = c.sections.keys := by
  induction pending generalizing c with
  | nil => rfl
  | cons s rest ih =>
    have keys := keys_resolveSection (known s List.mem_cons_self)
    rw [List.foldl_cons, ih, keys]
    intro t member
    rw [keys]
    exact known t (List.mem_cons_of_mem _ member)

theorem Consistent.resolveSections_eq (consistent : c.Consistent) :
    c.resolveSections = (c.basesFound.length, c.withBases) := by
  have stand := fun s => (mem_pendingSections_iff (s := s) consistent).1
  have count : (c.pendingSections.countP fun s => (c.loadBase? s.index).isSome) =
      c.basesFound.length := by
    simp only [basesFound, List.length_filterMap_eq_countP, Option.isSome_map]
  have sections : c.resolveSections.2.sections = c.withBases.sections := by
    obtain ⟨kept, answers⟩ := consistent.resolveSections
    refine Table.eq_of_get?_eq kept.sections_distinct ?_ ?_
    · rw [withBases, Table.keys_mapValues]
      refine keys_resolve_each fun s member => ?_
      rw [Table.mem_keys_iff, (stand s member).1]
      rfl
    · intro index
      rw [answers, withBases, Table.get?_mapValues]
      cases here : c.sections.get? index with
      | none => rfl
      | some s => rw [Option.map_some, Option.map_some, consistent.index_eq here]
  have addresses : c.resolveSections.2.addresses = c.withBases.addresses := by
    have unknown : ∀ s ∈ c.pendingSections, c.addresses.get? s.index = none := by
      intro s member
      obtain ⟨here, pending⟩ := stand s member
      rw [consistent.address_eq, here, Option.bind_some, pending]
    have entries := entries_resolve_each (nodup_pendingSections consistent) unknown
    exact congrArg Table.mk entries
  obtain ⟨others, more, same⟩ := c.resolveSections_eq
  refine Prod.ext count ?_
  rw [same] at sections addresses ⊢
  dsimp only at sections addresses
  rw [sections, addresses]
  rfl

theorem Consistent.based_withBases (consistent : c.Consistent) {index base : Int}
    {s : ImageSection} (here : c.sections.get? index = some s)
    (based : s.base.or ((c.loadBase? index).map (· + s.rva)) = some base) :
    c.withBases.sections.get? index = some { s with base := some base } ∧
      c.withBases.addresses.get? index = some base := by
  obtain ⟨kept, answers⟩ := consistent.resolveSections
  rw [consistent.resolveSections_eq] at kept answers
  have stands : c.withBases.sections.get? index = some { s with base := some base } := by
    rw [answers, here, Option.map_some]
    cases before : s.base with
    | none =>
      rw [before, Option.none_or] at based
      rw [if_pos rfl, ImageSection.loadedAt, based]
    | some other =>
      rw [before, Option.some_or] at based
      rw [if_neg (by simp), ← based, ← before]
  refine ⟨stands, ?_⟩
  rw [kept.address_eq, stands, Option.bind_some]

theorem pendingSections_withBases (c : Context) :
    c.withBases.pendingSections =
      c.pendingSections.filter fun s => (c.loadBase? s.index).isNone := by
  have values : c.withBases.sections.values = c.sections.values.map fun s =>
      if s.base = none then s.loadedAt (c.loadBase? s.index) else s := by
    simp [withBases, Table.mapValues, Table.mapWithKeys, Table.values]
  rw [pendingSections, values, List.filter_map, pendingSections, List.filter_filter]
  have waits : ∀ s : ImageSection,
      (!(if s.base = none then s.loadedAt (c.loadBase? s.index) else s).isResolved) =
        ((c.loadBase? s.index).isNone && !s.isResolved) := by
    intro s
    cases pending : s.base <;> cases c.loadBase? s.index <;>
      simp [ImageSection.isResolved, ImageSection.loadedAt, pending]
  simp only [Function.comp_def, waits]
  refine (List.map_congr_left fun s member => ?_).trans (List.map_id' _)
  obtain ⟨-, unknown⟩ := List.mem_filter.1 member
  rw [Bool.and_eq_true, Option.isNone_iff_eq_none] at unknown
  split
  · next pending => rw [unknown.1, ImageSection.loadedAt_none pending]
  · rfl

theorem length_basesFound (c : Context) :
    c.basesFound.length + c.withBases.pendingSections.length = c.pendingSections.length := by
  rw [pendingSections_withBases, basesFound, List.length_filterMap_eq_countP,
    ← List.countP_eq_length_filter, List.length_eq_countP_add_countP
      fun s => (c.loadBase? s.index).isSome]
  simp only [Option.isSome_map, decide_not, Bool.decide_eq_true, Option.not_isSome]

theorem resolveSections_withBases (c : Context) :
    c.withBases.resolveSections = (0, c.withBases) := by
  apply resolveSections_of_unknown
  intro s member
  rw [pendingSections_withBases, List.mem_filter, Option.isNone_iff_eq_none] at member
  exact member.2

theorem bare_withAddresses (c : Context) : c.withAddresses.bare = c.bare := by
  have parts : ∀ (name : String) (g : SectionGroup),
      SectionGroup.relabel (fun _ => none) { g with
        contributions := g.contributions.mapIdx fun index part =>
          { part with address := c.readdress (.contribution name index) part.spot } } =
        g.relabel fun _ => none := by
    intro name g
    simp only [SectionGroup.relabel]
    rw [map_mapIdx_of_blind]
    exact fun index part => rfl
  simp only [bare, relabel, withAddresses, Table.mapValues, Table.mapWithKeys, List.map_map,
    Function.comp_def, parts]
  rw [map_mapIdx_of_blind, map_mapIdx_of_blind]
  · exact fun id s => rfl
  · exact fun id s => rfl

theorem spot?_withAddresses (c : Context) (item : Item) :
    c.withAddresses.spot? item =
      (c.spot? item).map fun spot => spot.readdressed (c.readdress item spot) := by
  cases item with
  | contribution group index =>
    simp only [spot?, withAddresses, Table.get?_mapWithKeys]
    cases c.groups.get? group with
    | none => rfl
    | some g =>
      simp only [Option.map_some, Option.bind_some, List.getElem?_mapIdx, Option.map_map]
      rfl
  | symbol id =>
    simp only [spot?, withAddresses, List.getElem?_mapIdx, Option.map_map]
    rfl
  | scope id =>
    simp only [spot?, withAddresses, List.getElem?_mapIdx, Option.map_map]
    rfl

theorem spot?_withAddresses_of_not_mem (absent : item ∉ c.unresolved) :
    c.withAddresses.spot? item = c.spot? item := by
  rw [spot?_withAddresses]
  cases c.spot? item with
  | none => rfl
  | some spot =>
    rw [Option.map_some, readdress, if_neg absent]
    rfl

theorem recorded?_withAddresses (c : Context) (item : Item) :
    c.withAddresses.recorded? item =
      if item ∈ c.unresolved then c.itemAddress? item else c.recorded? item := by
  rw [recorded?, spot?_withAddresses, itemAddress?_eq, recorded?]
  cases c.spot? item with
  | none => simp
  | some spot =>
    simp only [Option.map_some, Option.bind_some, Spot.readdressed, readdress]

theorem retryUnresolved_eq_withAddresses (distinct : c.groups.keys.Nodup) :
    c.retryUnresolved.2 = c.withAddresses := by
  have alike : c.retryUnresolved.2.bare = c.withAddresses.bare :=
    c.bare_retryUnresolved.trans c.bare_withAddresses.symm
  have keys : c.retryUnresolved.2.groups.keys.Nodup :=
    groups_keys_of_bare c.bare_retryUnresolved ▸ distinct
  have recorded : ∀ item,
      c.retryUnresolved.2.recorded? item = c.withAddresses.recorded? item := by
    intro item
    rw [recorded?_retryUnresolved, recorded?_withAddresses]
  obtain ⟨groups, arena, symbols, same⟩ := c.retryUnresolved_eq
  rw [same] at alike keys recorded ⊢
  exact eq_of_recorded?_eq alike rfl rfl rfl rfl keys recorded

theorem retryUnresolved_of_unknown (distinct : c.groups.keys.Nodup)
    (unknown : ∀ item ∈ c.unresolved, c.itemAddress? item = none ∧ c.recorded? item = none) :
    c.retryUnresolved = (0, c) := by
  have count : (c.unresolved.countP fun item => (c.itemAddress? item).isSome) = 0 := by
    rw [List.countP_eq_zero]
    intro item member
    simp [(unknown item member).1]
  have unresolved : (c.unresolved.filter fun item => (c.itemAddress? item).isNone) =
      c.unresolved := by
    rw [List.filter_eq_self]
    intro item member
    simp [(unknown item member).1]
  have recorded : ∀ item, c.withAddresses.recorded? item = c.recorded? item := by
    intro item
    rw [recorded?_withAddresses]
    split
    · next member => rw [(unknown item member).1, (unknown item member).2]
    · rfl
  refine Prod.ext count ?_
  rw [retryUnresolved_eq_withAddresses distinct]
  refine eq_of_recorded?_eq c.bare_withAddresses rfl rfl rfl unresolved ?_ recorded
  exact groups_keys_of_bare c.bare_withAddresses ▸ distinct

theorem itemAddress?_withAddresses (c : Context) (item : Item) :
    c.withAddresses.itemAddress? item = c.itemAddress? item := by
  rw [itemAddress?_eq, itemAddress?_eq, spot?_withAddresses, Option.bind_map]
  rfl

theorem retryUnresolved_withAddresses (distinct : c.groups.keys.Nodup) :
    c.withAddresses.retryUnresolved = (0, c.withAddresses) := by
  apply retryUnresolved_of_unknown
  · exact groups_keys_of_bare c.bare_withAddresses ▸ distinct
  · intro item member
    obtain ⟨waited, unknown⟩ := List.mem_filter.1 member
    rw [Option.isNone_iff_eq_none] at unknown
    rw [itemAddress?_withAddresses, recorded?_withAddresses, if_pos waited]
    exact ⟨unknown, unknown⟩

theorem nodup_groups_operate (distinct : c.groups.keys.Nodup) (o : Operation) :
    (c.operate o).groups.keys.Nodup := by
  cases o with
  | dispatch cursor =>
    rw [operate_dispatch]
    exact nodup_groups_perform distinct cursor.effect
  | addSection s =>
    exact groups_keys_of_bare (c.bare_addSection s) ▸ distinct
  | setLayout layout => exact distinct
  | resolve =>
    obtain ⟨sections, addresses, same⟩ := c.resolveSections_eq
    rw [operate, same]
    exact distinct
  | retry =>
    exact groups_keys_of_bare c.bare_retryUnresolved ▸ distinct

theorem nodup_groups_operateAll (distinct : c.groups.keys.Nodup) (history : List Operation) :
    (c.operateAll history).groups.keys.Nodup := by
  induction history generalizing c with
  | nil => exact distinct
  | cons o rest ih => exact ih (nodup_groups_operate distinct o)

theorem Exact.waits {start : Context} (exact : start.Exact history)
    (member : item ∈ (start.operateAll history).unresolved) :
    (start.operateAll history).unresolved.count item = 1 ∧
      ∃ spot, (start.operateAll history).spot? item = some spot ∧ spot.address = none := by
  have located := exact.only item member
  have once := exact.count_eq item located
  have some_times : 0 < (start.operateAll history).unresolved.count item :=
    List.count_pos_iff.2 member
  obtain ⟨spot, here⟩ := Option.isSome_iff_exists.1 (exact.there item located)
  split at once
  · next without =>
    rw [recorded?, here] at without
    exact ⟨once, spot, here, without⟩
  · omega

end Context

/-- Late resolution gives what there is to give, takes nothing away, and finds nothing more to do
when it is asked again. -/
theorem late_resolution_exact (first layout : Option LoadLayout) (options : Options)
    (history : List Operation) (unbased : ∀ s, .addSection s ∈ history → s.base = none) :
    let c := { Context.operateAll { layout := first, options } history with layout }
    let d := c.withBases
    let e := c.withAddresses
    (c.resolveSections = (c.basesFound.length, d) ∧ d.resolveSections = (0, d) ∧
      c.basesFound.length + d.pendingSections.length = c.pendingSections.length ∧
      d.pendingSections = c.pendingSections.filter (fun s => (c.loadBase? s.index).isNone) ∧
      (∀ index s base, c.sections.get? index = some s →
        s.base.or ((c.loadBase? index).map (· + s.rva)) = some base →
        d.sections.get? index = some { s with base := some base } ∧
        d.addresses.get? index = some base) ∧
      ∀ item, d.spot? item = c.spot? item) ∧
    (c.retryUnresolved = (c.unresolved.countP fun item => (e.recorded? item).isSome, e) ∧
      e.retryUnresolved = (0, e) ∧ c.unresolved.Nodup ∧
      e.unresolved = c.unresolved.filter (fun item => (e.recorded? item).isNone) ∧
      (∀ item ∈ c.unresolved, ∃ spot, c.spot? item = some spot ∧ spot.address = none ∧
        e.recorded? item = (c.addresses.get? spot.sectionIndex).map (· + spot.offset)) ∧
      (∀ item, item ∉ c.unresolved → e.spot? item = c.spot? item) ∧
      (∀ item address, c.recorded? item = some address → e.recorded? item = some address) ∧
      e.bare = c.bare ∧ e.sections = c.sections ∧ e.addresses = c.addresses) := by
  intro c d e
  let start : Context := { layout := first, options }
  have reached : start.operateAll (history ++ [.setLayout layout]) = c :=
    start.operateAll_concat history _
  have consistent : c.Consistent :=
    ((Context.consistent_fresh first options).operateAll unbased).congr rfl rfl
  have distinct : c.groups.keys.Nodup :=
    Context.nodup_groups_operateAll (c := start) List.nodup_nil history
  have waits : ∀ item ∈ c.unresolved, c.unresolved.count item = 1 ∧
      ∃ spot, c.spot? item = some spot ∧ spot.address = none := by
    have exact := Context.exact_of_fresh first options (history ++ [.setLayout layout])
    rw [← reached]
    exact fun item => exact.waits
  have now : ∀ item ∈ c.unresolved, e.recorded? item = c.itemAddress? item := by
    intro item member
    rw [Context.recorded?_withAddresses, if_pos member]
  refine ⟨⟨consistent.resolveSections_eq, c.resolveSections_withBases, c.length_basesFound,
    c.pendingSections_withBases, ?_, Context.spot?_congr rfl rfl rfl⟩, ?_,
    Context.retryUnresolved_withAddresses distinct, ?_, ?_, ?_, ?_, ?_, c.bare_withAddresses, rfl,
    rfl⟩
  · exact fun index s base here based => consistent.based_withBases here based
  · refine Prod.ext ?_ (Context.retryUnresolved_eq_withAddresses distinct)
    refine List.countP_congr fun item member => ?_
    rw [now item member]
  · rw [List.nodup_iff_count_eq_one]
    exact fun item member => (waits item member).1
  · refine List.filter_congr fun item member => ?_
    rw [now item member]
  · intro item member
    obtain ⟨-, spot, here, without⟩ := waits item member
    refine ⟨spot, here, without, ?_⟩
    rw [now item member, Context.itemAddress?_eq, here]
    rfl
  · exact fun item => Context.spot?_withAddresses_of_not_mem
  · intro item address recorded
    have absent : item ∉ c.unresolved := by
      intro member
      obtain ⟨-, spot, here, without⟩ := waits item member
      rw [Context.recorded?, here, Option.bind_some, without] at recorded
      cases recorded
    rw [Context.recorded?, Context.spot?_withAddresses_of_not_mem absent]
    exact recorded

/-- A symbol waits for section 1, which comes after it, and a procedure for section 2, of which the
first layout knows nothing. No section 3 ever comes for the contribution. The layout that is there
in the end has other bases for all of them. -/
theorem late_resolution_exact_under_new_layout :
    let records : List Record :=
      [{ kind := Kind.globalData, name := "s", sectionIndex := 1, address := 0x10 },
        { kind := Kind.imageSection, sectionIndex := 1, address := 0x1000, length := 0x100 },
        { kind := Kind.imageSection, sectionIndex := 2, address := 0x2000, length := 0x100 },
        { kind := Kind.globalProcedure, name := "f", sectionIndex := 2, address := 0x20 },
        { kind := Kind.sectionGroup, name := "g", sectionIndex := 3, address := 0x30 }]
    let history : List Operation :=
      (List.range 5).map fun position => .dispatch ⟨records, position⟩
    let first := some (LoadLayout.listed [(1, some 0x400000)])
    let c := { Context.operateAll { layout := first } history with
      layout := some (.imageBase 0x800000) }
    (∀ s, .addSection s ∈ history → s.base = none) ∧
      c.unresolved = [.symbol 0, .scope 0, .contribution "g" 0] ∧
      c.resolveSections = (1, c.withBases) ∧ c.withBases.resolveSections = (0, c.withBases) ∧
      c.withBases.addresses.get? 1 = some 0x401000 ∧
      c.withBases.addresses.get? 2 = some 0x802000 ∧
      c.retryUnresolved = (1, c.withAddresses) ∧
      c.withAddresses.retryUnresolved = (0, c.withAddresses) ∧
      c.withAddresses.unresolved = [.scope 0, .contribution "g" 0] ∧
      c.withAddresses.recorded? (.symbol 0) = some 0x401010 := by
  intro records history first c
  have unbased : ∀ s, .addSection s ∈ history → s.base = none := by
    intro s member
    obtain ⟨position, -, other⟩ := List.mem_map.1 member
    cases other
  obtain ⟨⟨resolved, again, -, -, based, -⟩, retried, once, -, remaining, -⟩ :=
    late_resolution_exact first (some (.imageBase 0x800000)) {} history unbased
  have found : c.basesFound.length = 1 := by decide +kernel
  have second : c.sections.get? 2 = some { index := 2, rva := 0x2000, length := 0x100 } := by
    decide +kernel
  have one : c.sections.get? 1 =
      some { index := 1, rva := 0x1000, length := 0x100, base := some 0x401000 } := by
    decide +kernel
  have count : (c.unresolved.countP fun item => (c.withAddresses.recorded? item).isSome) = 1 := by
    decide +kernel
  refine ⟨unbased, by decide +kernel, ?_, again, (based 1 _ _ one rfl).2,
    (based 2 _ _ second rfl).2, ?_, once, ?_, by decide +kernel⟩
  · rw [← found]
    exact resolved
  · rw [← count]
    exact retried
  · exact remaining.trans (by decide +kernel)

end SymbolRecovery
