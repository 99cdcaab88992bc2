import SymbolRecovery.Context.Comparison
import SymbolRecovery.Proofs.Bare

/-!
When two contexts agree. Main statements: contexts whose tables give the same answers and that are
the same otherwise agree in every part; and what contexts hold is the same if it is the same
without addresses and every item has the same address.
-/
namespace SymbolRecovery

theorem eq_of_views_eq {α β γ : Type} {f : α → β} {g : α → Option γ} (restore : β → Option γ → α)
    (restores : ∀ a, restore (f a) (g a) = a) {l m : List α} (first : l.map f = m.map f)
    (second : ∀ i : Nat, l[i]?.bind g = m[i]?.bind g) : l = m := by
  apply List.ext_getElem?
  intro i
  have here := congrArg (fun views : List β => views[i]?) first
  simp only [List.getElem?_map] at here
  have there := second i
  cases left : l[i]? with
  | none => simpa [left] using here.symm
  | some a =>
    cases right : m[i]? with
    | none => simp [left, right] at here
    | some b =>
      simp only [left, right, Option.map_some, Option.some.injEq, Option.bind_some] at here there
      rw [← restores a, here, there, restores]

theorem SectionGroup.eq_of_relabel {g h : SectionGroup}
    (same : g.relabel (fun _ => none) = h.relabel fun _ => none)
    (addresses : ∀ i : Nat, g.contributions[i]?.bind (·.address) =
      h.contributions[i]?.bind (·.address)) : g = h := by
  have parts := congrArg SectionGroup.contributions same
  have contributions := eq_of_views_eq (fun p address => { p with address }) (fun _ => rfl) parts
    addresses
  cases g
  cases h
  simp_all [relabel]

namespace Context
variable {c d : Context}

theorem outline_congr (arena : c.arena = d.arena) (symbols : c.symbols = d.symbols) :
    c.outline = d.outline := by
  funext id
  simp only [outline, subtree, subtrees, arena]
  congr 1
  funext node
  simp only [outlineNode?, scope?, arena, symbols]

theorem itemOutline?_congr (groups : ∀ name, c.groups.get? name = d.groups.get? name)
    (arena : c.arena = d.arena) (symbols : c.symbols = d.symbols) :
    c.itemOutline? = d.itemOutline? := by
  funext item
  cases item with
  | contribution group index => simp only [itemOutline?, groups]
  | symbol id => simp only [itemOutline?, symbols]
  | scope id => simp only [itemOutline?, outline_congr arena symbols]

theorem found_eq (alike : c.bare = d.bare)
    (recorded : ∀ item, c.recorded? item = d.recorded? item) :
    (∀ name, c.groups.get? name = d.groups.get? name) ∧ c.arena = d.arena ∧
      c.symbols = d.symbols := by
  refine ⟨?_, ?_, ?_⟩
  · intro name
    have groups := congrArg (fun b : Context => b.groups.get? name) alike
    simp only [bare, relabel, Table.get?_mapValues] at groups
    have parts := fun index => recorded (.contribution name index)
    simp only [recorded?, spot?] at parts
    cases left : c.groups.get? name with
    | none =>
      rw [left, Option.map_none] at groups
      exact (Option.map_eq_none_iff.1 groups.symm).symm
    | some g =>
      rw [left, Option.map_some] at groups
      obtain ⟨h, right, same⟩ := Option.map_eq_some_iff.1 groups.symm
      rw [right, SectionGroup.eq_of_relabel same.symm]
      intro index
      have here := parts index
      simp only [left, right, Option.bind_some, Option.bind_map] at here
      exact here
  · refine eq_of_views_eq (fun s address => { s with address }) (fun _ => rfl)
      (congrArg Context.arena alike) ?_
    intro id
    have here := recorded (.scope id)
    simp only [recorded?, spot?, Option.bind_map] at here
    exact here
  · refine eq_of_views_eq (fun s address => { s with address }) (fun _ => rfl)
      (congrArg Context.symbols alike) ?_
    intro id
    have here := recorded (.symbol id)
    simp only [recorded?, spot?, Option.bind_map] at here
    exact here

theorem eq_of_recorded?_eq (alike : c.bare = d.bare) (layout : c.layout = d.layout)
    (sections : c.sections = d.sections) (addresses : c.addresses = d.addresses)
    (unresolved : c.unresolved = d.unresolved) (distinct : c.groups.keys.Nodup)
    (recorded : ∀ item, c.recorded? item = d.recorded? item) : c = d := by
  obtain ⟨answers, arena, symbols⟩ := found_eq alike recorded
  have groups := Table.eq_of_get?_eq distinct (groups_keys_of_bare alike) answers
  have units := units_of_bare alike
  have options : c.bare.options = d.bare.options := congrArg Context.options alike
  have top : c.bare.top = d.bare.top := congrArg Context.top alike
  have stack : c.bare.stack = d.bare.stack := congrArg Context.stack alike
  cases c
  cases d
  simp_all [bare, relabel]

/-- The order in which tables were filled is all in which these may differ. -/
structure Matches (c d : Context) : Prop where
  sections : c.sections.same d.sections = true
  addresses : c.addresses.same d.addresses = true
  groups_same : c.groups.same d.groups = true
  groups : ∀ name, c.groups.get? name = d.groups.get? name
  arena : c.arena = d.arena
  top : c.top = d.top
  symbols : c.symbols = d.symbols
  units : c.units = d.units
  stack : c.stack = d.stack
  unresolved : c.unresolved = d.unresolved

theorem Matches.complete (same : c.Matches d) : (c.agreement d).complete = true := by
  have outlines := outline_congr same.arena same.symbols
  have frames : c.frameOutline = d.frameOutline := by
    funext o
    simp only [frameOutline, outlines]
  have items := itemOutline?_congr same.groups same.arena same.symbols
  simp [Agreement.complete, agreement, same.sections, same.addresses, same.groups_same, outlines,
    frames, items, same.top, same.symbols, same.units, same.stack, same.unresolved]

end Context
end SymbolRecovery
