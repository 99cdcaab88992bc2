import SymbolRecovery.Proofs.Agreement

/-!
Where addresses end up. A context is compared with a reference that performs the same effects
without layout and sections, so that the unresolved items of the reference are all those that are
looked up, in the order in which they were found. While no section is registered twice, a context
tracks its reference: what it has recorded is what the tables give, and what it lacks is
unresolved. Main statement: after the unresolved items were looked up once more, the addresses and
the list of what stays unresolved are determined by the reference and the tables, whatever
happened when.
-/
namespace SymbolRecovery

structure Context.Blank (n : Context) : Prop where
  addresses_eq : n.addresses = {}
  there : ∀ item ∈ n.unresolved, (n.spot? item).isSome
  groups_distinct : n.groups.keys.Nodup

/-- Items have the addresses that the tables give, or none and are unresolved. -/
structure Context.Tracks (n c : Context) : Prop where
  alike : c.bare = n.bare
  sound : ∀ item a, c.recorded? item = some a →
    item ∈ n.unresolved ∧ c.itemAddress? item = some a
  waiting : c.unresolved = n.unresolved.filter fun item => (c.recorded? item).isNone

structure Context.Settled (n c : Context) : Prop where
  alike : c.bare = n.bare
  settled : ∀ item, c.recorded? item = if item ∈ n.unresolved then c.itemAddress? item else none
  waiting : c.unresolved = n.unresolved.filter fun item => (c.itemAddress? item).isNone

namespace Context
variable {n c d : Context} {e : Effect}

theorem blank_fresh (options : Options) : Blank { options } where
  addresses_eq := rfl
  there := by simp
  groups_distinct := List.nodup_nil

theorem tracks_fresh (layout : Option LoadLayout) (options : Options) :
    Tracks { options } { layout, options } where
  alike := rfl
  sound := by
    intro item a recorded
    rw [recorded?, spot?_fresh] at recorded
    cases recorded
  waiting := rfl

theorem Blank.translate_eq_none (blank : n.Blank) (sectionIndex offset : Int) :
    n.translate sectionIndex offset = none := by
  rw [translate, blank.addresses_eq]
  rfl

theorem nodup_groups_perform (distinct : c.groups.keys.Nodup) (e : Effect) :
    (c.perform e).groups.keys.Nodup := by
  cases e with
  | ignored => exact distinct
  | refused cause => exact distinct
  | describes change =>
    cases change with
    | addSection s =>
      obtain ⟨sections, addresses, same⟩ := c.addSection_eq s
      simp only [perform, make, same, distinct]
    | addContribution group characteristics part =>
      simp only [perform, make, addContribution, await_eq_append]
      exact Table.nodup_keys_insert distinct _ _
    | addSymbol s =>
      obtain ⟨arena, -, same⟩ := addSymbol_eq (c.locateSymbol s).2 (c.locateSymbol s).1
      simp only [perform, make]
      rw [same]
      simp only [locateSymbol, await_eq_append, distinct]
    | addUnit u => exact distinct
    | describeUnit position language machine version =>
      simp only [perform, make, describeUnit]
      split <;> exact distinct
  | holds form placeholder cause => exact distinct
  | opens form s endOffset =>
    obtain ⟨unresolved, enters⟩ := c.enterScope_eq form s endOffset
    simp only [perform, enters, attachScope]
    split <;> exact distinct
  | closes kind =>
    rw [perform, closeScope_eq]
    exact distinct

theorem Blank.unresolved_perform (blank : n.Blank) (unlocated : e.Unlocated)
    (quiet : e.section? = none) :
    (n.perform e).unresolved =
      n.unresolved ++ (((n.finding? e).filter (·.located)).map (·.item)).toList := by
  rw [(receives_perform unlocated quiet).unresolved_eq]
  have waits : n.awaits = fun f => f.located := by
    funext f
    simp [awaits, lookUp, blank.translate_eq_none]
  rw [waits]

theorem Blank.perform (blank : n.Blank) (unlocated : e.Unlocated) (quiet : e.section? = none) :
    (n.perform e).Blank where
  addresses_eq := (receives_perform unlocated quiet).addresses_eq.trans blank.addresses_eq
  there := by
    have receives := receives_perform (c := n) unlocated quiet
    intro item member
    rw [blank.unresolved_perform unlocated quiet] at member
    rcases List.mem_append.1 member with old | new
    · rw [receives.spot?_of_isSome (blank.there item old)]
      exact blank.there item old
    · simp only [Option.mem_toList, Option.map_eq_some_iff,
        Option.filter_eq_some_iff] at new
      obtain ⟨f, ⟨found, -⟩, rfl⟩ := new
      rw [receives.new f found]
      rfl
  groups_distinct := nodup_groups_perform blank.groups_distinct e

theorem Tracks.perform (blank : n.Blank) (tracks : n.Tracks c) (unlocated : e.Unlocated)
    (quiet : e.section? = none) : (n.perform e).Tracks (c.perform e) := by
  have receives := receives_perform (c := c) unlocated quiet
  have news := blank.unresolved_perform unlocated quiet
  rw [← finding?_congr tracks.alike e] at news
  refine ⟨bare_perform tracks.alike e, ?_, ?_⟩
  · intro item a recorded
    rw [news]
    rcases receives.recorded?_cases recorded with ⟨f, found, rfl, located, address⟩ | ⟨old, same⟩
    · exact ⟨by simp [found, located, Option.filter], address⟩
    · obtain ⟨member, address⟩ := tracks.sound item a old
      exact ⟨List.mem_append_left _ member, same.trans address⟩
  · have former : ∀ item ∈ n.unresolved,
        ((c.perform e).recorded? item).isNone = (c.recorded? item).isNone := by
      intro item member
      have there := blank.there item member
      rw [← isSome_spot?_congr tracks.alike] at there
      rw [recorded?, receives.spot?_of_isSome there, recorded?]
    rw [receives.unresolved_eq, news, List.filter_append, List.filter_congr former,
      ← tracks.waiting]
    congr 1
    cases found : c.finding? e with
    | none => rfl
    | some f =>
      have recorded := receives.recorded?_new found
      cases located : f.located <;> cases known : c.lookUp f <;>
        simp [awaits, Option.filter, located, known, recorded]

theorem Tracks.of_tables {layout : Option LoadLayout} {sections : Table Int ImageSection}
    {addresses : Table Int Int} (tracks : n.Tracks c)
    (same : d = { c with layout, sections, addresses })
    (gains : ∀ index base, c.addresses.get? index = some base →
      d.addresses.get? index = some base) : n.Tracks d := by
  have spots : ∀ item, d.spot? item = c.spot? item := by
    subst same
    exact spot?_congr rfl rfl rfl
  refine ⟨?_, ?_, ?_⟩
  · rw [← tracks.alike, same]
    rfl
  · intro item a recorded
    rw [recorded?, spots] at recorded
    obtain ⟨member, address⟩ := tracks.sound item a recorded
    refine ⟨member, ?_⟩
    rw [itemAddress?_eq] at address ⊢
    rw [spots]
    obtain ⟨spot, here, translated⟩ := Option.bind_eq_some_iff.1 address
    obtain ⟨base, known, sum⟩ := Option.map_eq_some_iff.1 translated
    rw [here, Option.bind_some, translate, gains _ base known, Option.map_some, sum]
  · simp only [recorded?, spots]
    rw [same]
    exact tracks.waiting

theorem Tracks.addSection {s : ImageSection} (tracks : n.Tracks c) (consistent : c.Consistent)
    (pending : s.base = none) (new : c.sections.get? s.index = none) :
    n.Tracks (c.addSection s) := by
  obtain ⟨sections, addresses, same⟩ := c.addSection_eq s
  apply tracks.of_tables same
  intro index base known
  rw [consistent.address_eq] at known
  rw [(consistent.addSection pending).address_eq, get?_addSection pending, if_neg, known]
  intro here
  rw [← here, new] at known
  cases known

theorem Tracks.resolveSections (tracks : n.Tracks c) (consistent : c.Consistent) :
    n.Tracks c.resolveSections.2 := by
  obtain ⟨sections, addresses, same⟩ := c.resolveSections_eq
  obtain ⟨kept, answers⟩ := consistent.resolveSections
  apply tracks.of_tables same
  intro index base known
  rw [consistent.address_eq] at known
  obtain ⟨s, here, resolved⟩ := Option.bind_eq_some_iff.1 known
  rw [kept.address_eq, answers, here]
  simp [resolved]

theorem Tracks.settled (tracks : n.Tracks c) : n.Settled c.retryUnresolved.2 where
  alike := c.bare_retryUnresolved.trans tracks.alike
  settled := by
    intro item
    simp only [recorded?_retryUnresolved, itemAddress?_retryUnresolved, tracks.waiting,
      List.mem_filter, Option.isNone_iff_eq_none]
    cases recorded : c.recorded? item with
    | none => simp
    | some a =>
      obtain ⟨member, address⟩ := tracks.sound item a recorded
      simp [member, address]
  waiting := by
    obtain ⟨groups, arena, symbols, same⟩ := c.retryUnresolved_eq
    simp only [itemAddress?_retryUnresolved]
    rw [same]
    dsimp only
    rw [tracks.waiting, List.filter_filter]
    apply List.filter_congr
    intro item member
    cases recorded : c.recorded? item with
    | none => simp
    | some a => simp [(tracks.sound item a recorded).2]

variable {es : List Effect} {registered : List ImageSection}

theorem Holds.perform (holds : c.Holds registered) (unlocated : e.Unlocated) :
    (c.perform e).Holds (e.section?.toList ++ registered) := by
  cases registers : e.section? with
  | none =>
    have receives := receives_perform (c := c) unlocated registers
    exact holds.congr receives.layout_eq receives.sections_eq receives.addresses_eq
  | some s =>
    rw [perform_of_section? registers]
    exact holds.addSection (unlocated.section_base s registers)

theorem Holds.performAll (holds : c.Holds registered) (unlocated : ∀ e ∈ es, e.Unlocated) :
    (c.performAll es).Holds ((es.filterMap Effect.section?).reverse ++ registered) := by
  induction es generalizing c registered with
  | nil => exact holds
  | cons e rest ih =>
    have step := holds.perform (unlocated e List.mem_cons_self)
    have later := ih step fun e member => unlocated e (List.mem_cons_of_mem _ member)
    rw [performAll_cons, List.filterMap_cons]
    cases registers : e.section? with
    | none => simpa [registers] using later
    | some s => simpa [registers] using later

theorem Tracks.performAll (holds : c.Holds registered) (blank : n.Blank) (tracks : n.Tracks c)
    (unlocated : ∀ e ∈ es, e.Unlocated)
    (distinct : (((es.filterMap Effect.section?).reverse ++ registered).map (·.index)).Nodup) :
    let m := n.performAll (es.filter (·.section?.isNone))
    m.Blank ∧ m.Tracks (c.performAll es) := by
  induction es generalizing n c registered with
  | nil => exact ⟨blank, tracks⟩
  | cons e rest ih =>
    have first := unlocated e List.mem_cons_self
    have others : ∀ e ∈ rest, e.Unlocated :=
      fun e member => unlocated e (List.mem_cons_of_mem _ member)
    have step := holds.perform first
    cases registers : e.section? with
    | none =>
      rw [registers] at step
      rw [List.filterMap_cons_none registers] at distinct
      rw [List.filter_cons_of_pos (by simp [registers])]
      exact ih step (blank.perform first registers) (tracks.perform blank first registers) others
        distinct
    | some s =>
      rw [registers] at step
      rw [List.filterMap_cons_some registers, List.reverse_cons, List.append_assoc] at distinct
      rw [List.filter_cons_of_neg (by simp [registers])]
      have new : c.sections.get? s.index = none := by
        rw [holds.section_eq, Option.map_eq_none_iff, List.find?_eq_none]
        have apart := distinct.sublist ((List.sublist_append_right _ _).map _)
        rw [List.singleton_append, List.map_cons, List.nodup_cons] at apart
        intro t member same
        exact apart.1 (List.mem_map.2 ⟨t, member, of_decide_eq_true same⟩)
      have moved := tracks.addSection holds.consistent (first.section_base s registers) new
      rw [← perform_of_section? registers] at moved
      exact ih step blank moved others distinct

theorem layout_perform (c : Context) (unlocated : e.Unlocated) :
    (c.perform e).layout = c.layout := by
  cases registers : e.section? with
  | none => exact (receives_perform unlocated registers).layout_eq
  | some s =>
    obtain ⟨sections, addresses, same⟩ := c.addSection_eq s
    rw [perform_of_section? registers, same]

theorem layout_performAll (c : Context) (unlocated : ∀ e ∈ es, e.Unlocated) :
    (c.performAll es).layout = c.layout := by
  induction es generalizing c with
  | nil => rfl
  | cons e rest ih =>
    rw [performAll_cons, ih _ fun e member => unlocated e (List.mem_cons_of_mem _ member)]
    exact c.layout_perform (unlocated e List.mem_cons_self)

theorem tracks_of_fresh (layout : Option LoadLayout) (options : Options)
    (unlocated : ∀ e ∈ es, e.Unlocated)
    (distinct : ((es.filterMap Effect.section?).map (·.index)).Nodup) :
    let n := performAll { options } (es.filter (·.section?.isNone))
    let c := performAll { layout, options } es
    n.Blank ∧ n.Tracks c ∧ c.Holds (es.filterMap Effect.section?).reverse := by
  have holds := holds_fresh layout options
  have apart : (((es.filterMap Effect.section?).reverse ++ []).map
      fun s : ImageSection => s.index).Nodup := by
    rw [List.append_nil, List.map_reverse]
    exact List.nodup_reverse.2 distinct
  obtain ⟨blank, tracks⟩ :=
    (tracks_fresh layout options).performAll holds (blank_fresh options) unlocated apart
  have held := holds.performAll unlocated
  rw [List.append_nil] at held
  exact ⟨blank, tracks, held⟩

theorem Holds.retryUnresolved (holds : c.Holds registered) :
    c.retryUnresolved.2.Holds registered := by
  obtain ⟨groups, arena, symbols, same⟩ := c.retryUnresolved_eq
  rw [same]
  exact holds.congr rfl rfl rfl

theorem loadBase?_retryUnresolved (c : Context) (index : Int) :
    c.retryUnresolved.2.loadBase? index = c.loadBase? index := by
  obtain ⟨groups, arena, symbols, same⟩ := c.retryUnresolved_eq
  rw [same]
  rfl

theorem agreement_of_settled {others : List ImageSection} (blank : n.Blank)
    (left : n.Settled c) (right : n.Settled d) (holds : c.Holds registered)
    (held : d.Holds others)
    (sections : ∀ index, registered.find? (fun s => s.index = index) =
      others.find? fun s => s.index = index)
    (bases : ∀ index, c.loadBase? index = d.loadBase? index) :
    (c.agreement d).complete = true := by
  have alike : c.bare = d.bare := left.alike.trans right.alike.symm
  have tables : ∀ index, c.sections.get? index = d.sections.get? index := by
    intro index
    rw [holds.section_eq, held.section_eq, sections, bases]
  have addresses : ∀ index, c.addresses.get? index = d.addresses.get? index := by
    intro index
    rw [holds.consistent.address_eq, held.consistent.address_eq, tables]
  have translates : ∀ item, c.itemAddress? item = d.itemAddress? item := by
    intro item
    simp only [itemAddress?_eq_of_bare, alike, translate, addresses]
  obtain ⟨groups, arena, symbols⟩ := found_eq alike fun item => by
    rw [left.settled, right.settled, translates]
  have keys : ∀ {b : Context}, b.bare = n.bare → b.groups.keys.Nodup :=
    fun same => groups_keys_of_bare same ▸ blank.groups_distinct
  have top : c.bare.top = d.bare.top := congrArg Context.top alike
  have stack : c.bare.stack = d.bare.stack := congrArg Context.stack alike
  exact Matches.complete {
    sections := Table.same_of_get?_eq holds.consistent.sections_distinct
      held.consistent.sections_distinct tables
    addresses := Table.same_of_get?_eq holds.consistent.addresses_distinct
      held.consistent.addresses_distinct addresses
    groups_same := Table.same_of_get?_eq (keys left.alike) (keys right.alike) groups
    groups, arena, top, symbols, stack
    units := units_of_bare alike
    unresolved := by simp only [left.waiting, right.waiting, translates] }

end Context
end SymbolRecovery
