import SymbolRecovery.Proofs.Settling

/-!
Where section records stand among the others. Main statement: if every record is applied and the
unresolved items are looked up once more, then section records can be put in any order and at any
place without another result than other positions of what is found.
-/
namespace SymbolRecovery
open Lookup (standard)

def Context.withoutPositions (c : Context) : Context := c.relabel id fun _ => (0 : Nat)

theorem find?_index_eq_some_iff {l : List ImageSection} (distinct : (l.map (·.index)).Nodup)
    {index : Int} {s : ImageSection} :
    l.find? (fun s => s.index = index) = some s ↔ s ∈ l ∧ s.index = index := by
  constructor
  · intro found
    exact ⟨List.mem_of_find?_eq_some found, by simpa using List.find?_some found⟩
  · rintro ⟨member, same⟩
    induction l with
    | nil => cases member
    | cons t rest ih =>
      rw [List.map_cons, List.nodup_cons] at distinct
      rw [List.find?_cons]
      rcases List.mem_cons.1 member with rfl | later
      · simp [same]
      · have elsewhere : ¬ t.index = index := by
          intro here
          exact distinct.1 (List.mem_map.2 ⟨s, later, same.trans here.symm⟩)
        simp [elsewhere, ih distinct.2 later]

theorem find?_index_of_perm {l m : List ImageSection} (distinct : (l.map (·.index)).Nodup)
    (perm : l.Perm m) (index : Int) :
    l.find? (fun s => s.index = index) = m.find? fun s => s.index = index := by
  have apart : (m.map (·.index)).Nodup := (perm.map _).nodup_iff.1 distinct
  apply Option.ext
  intro s
  rw [find?_index_eq_some_iff distinct, find?_index_eq_some_iff apart, perm.mem_iff]

theorem filterMap_registers? (records : List Record) :
    records.filterMap Record.registers? =
      (records.filter fun r => r.kind = Kind.imageSection).filterMap Record.registers? := by
  rw [List.filterMap_filter]
  apply List.filterMap_congr
  intro r _
  split
  · rfl
  · next kind => exact Record.registers?_of_kind_ne (by simpa using kind)

theorem Context.performAll_unregistered (records : List Record) (c : Context) :
    c.performAll ((records.map (·.effect 0)).filter (·.section?.isNone)) =
      c.performAll ((records.filter fun r => r.kind ≠ Kind.imageSection).map (·.effect 0)) := by
  induction records generalizing c with
  | nil => rfl
  | cons r rest ih =>
    have registers := r.section?_effect 0
    by_cases kind : r.kind = Kind.imageSection
    · have skipped : (r :: rest).filter (fun r => r.kind ≠ Kind.imageSection) =
          rest.filter fun r => r.kind ≠ Kind.imageSection :=
        List.filter_cons_of_neg (by simp [kind])
      rw [skipped, List.map_cons]
      cases known : r.registers? with
      | none =>
        rw [List.filter_cons_of_pos (by simp [registers, known]), performAll_cons,
          Record.perform_of_unregistered kind known, ih]
      | some s => rw [List.filter_cons_of_neg (by simp [registers, known]), ih]
    · have quiet := Record.registers?_of_kind_ne kind
      rw [List.map_cons, List.filter_cons_of_pos (by simp [registers, quiet]),
        List.filter_cons_of_pos (by simpa using kind), List.map_cons, performAll_cons,
        performAll_cons, ih]

theorem Progress.renumber_requests {p : Progress}
    (descends : p.context.options.descendScopes = true) (start : p.cursor.position = 0) :
    p.requests.map (·.renumber fun _ => (0 : Nat)) = p.cursor.records.map (·.effect 0) := by
  rw [requests_of_descends descends, start, List.drop_zero, List.map_map]
  have renumbered : (fun visit : Record × Nat => visit.1.effect 0) =
      (·.renumber fun _ => (0 : Nat)) ∘ fun visit => visit.1.effect visit.2 := by
    funext visit
    exact (visit.1.renumber_effect visit.2 0).symm
  rw [← renumbered]
  conv => rhs; rw [← List.zipIdx_map_fst 0 p.cursor.records, List.map_map]
  rfl

theorem Context.withoutPositions_run {layout : Option LoadLayout} {options : Options}
    (descends : options.descendScopes = true) (records : List Record) :
    let last := (run standard { layout, options } { records }).progress.context
    last.retryUnresolved.2.withoutPositions =
      (performAll { layout, options } (records.map (·.effect 0))).retryUnresolved.2 := by
  intro last
  let p : Progress := { context := { layout, options }, cursor := { records } }
  have ran : last = p.context.performAll p.requests := p.context_run_eq
  rw [withoutPositions, renumber_retryUnresolved, ran, renumber_performAll,
    Progress.renumber_requests descends rfl]
  rfl

/-- Section records can be put anywhere. -/
theorem section_placement_irrelevant (records others : List Record) (layout : Option LoadLayout)
    (options : Options) (descends : options.descendScopes = true)
    (distinct : DistinctSections records)
    (rest : records.filter (fun r => r.kind ≠ Kind.imageSection) =
      others.filter fun r => r.kind ≠ Kind.imageSection)
    (moved : (records.filter fun r => r.kind = Kind.imageSection).Perm
      (others.filter fun r => r.kind = Kind.imageSection)) :
    let a := (run standard { layout, options } { records }).progress.context.retryUnresolved.2
    let b :=
      (run standard { layout, options } { records := others }).progress.context.retryUnresolved.2
    (a.withoutPositions.agreement b.withoutPositions).complete = true := by
  intro a b
  have registered : ∀ l : List Record,
      (l.map (·.effect 0)).filterMap Effect.section? = l.filterMap Record.registers? := by
    intro l
    rw [List.filterMap_map]
    exact List.filterMap_congr fun r _ => r.section?_effect 0
  have unlocated : ∀ l : List Record, ∀ e ∈ l.map (·.effect 0), e.Unlocated := by
    intro l e member
    obtain ⟨r, -, rfl⟩ := List.mem_map.1 member
    exact r.unlocated_effect 0
  have perm : (records.filterMap Record.registers?).Perm (others.filterMap Record.registers?) := by
    rw [filterMap_registers? records, filterMap_registers? others]
    exact moved.filterMap _
  have apart : DistinctSections others := (perm.map _).nodup_iff.1 distinct
  obtain ⟨blank, tracks, holds⟩ := Context.tracks_of_fresh layout options (unlocated records)
    (by rw [registered]; exact distinct)
  obtain ⟨-, tracked, held⟩ := Context.tracks_of_fresh layout options (unlocated others)
    (by rw [registered]; exact apart)
  rw [Context.performAll_unregistered] at blank tracks tracked
  rw [← rest] at tracked
  rw [registered] at holds held
  change ((Context.withoutPositions _).agreement (Context.withoutPositions _)).complete = true
  rw [Context.withoutPositions_run descends, Context.withoutPositions_run descends]
  refine Context.agreement_of_settled blank tracks.settled tracked.settled
    holds.retryUnresolved held.retryUnresolved ?_ fun index => ?_
  · apply find?_index_of_perm
    · rw [List.map_reverse]
      exact List.nodup_reverse.2 distinct
    · exact (List.reverse_perm _).trans (perm.trans (List.reverse_perm _).symm)
  · rw [Context.loadBase?_retryUnresolved, Context.loadBase?_retryUnresolved, Context.loadBase?,
      Context.loadBase?, Context.layout_performAll _ (unlocated records),
      Context.layout_performAll _ (unlocated others)]

/-- A symbol and a contribution come before their section in one order and behind it in the other.
The malformed section record is moved as well. -/
theorem section_placement_irrelevant_for_forward_references :
    let first : Record :=
      { kind := Kind.imageSection, sectionIndex := 1, address := 0x1000, length := 0x100 }
    let second : Record :=
      { kind := Kind.imageSection, sectionIndex := 2, address := 0x2000, length := 0x100 }
    let malformed : Record := { kind := Kind.imageSection, sectionIndex := 0 }
    let symbol : Record :=
      { kind := Kind.publicSymbol, name := "p", sectionIndex := 1, address := 0x10 }
    let contribution : Record :=
      { kind := Kind.sectionGroup, name := "g", sectionIndex := 2, address := 0x20 }
    let records := [symbol, contribution, first, second, malformed]
    let others := [malformed, second, first, symbol, contribution]
    let layout := some (LoadLayout.imageBase 0x400000)
    let a := (run standard { layout } { records }).progress.context.retryUnresolved.2
    let b := (run standard { layout } { records := others }).progress.context.retryUnresolved.2
    DistinctSections records ∧
      records.filter (fun r => r.kind ≠ Kind.imageSection) =
        others.filter (fun r => r.kind ≠ Kind.imageSection) ∧
      (records.filter fun r => r.kind = Kind.imageSection).Perm
        (others.filter fun r => r.kind = Kind.imageSection) ∧
      a.symbols.map (·.position) = [0] ∧ b.symbols.map (·.position) = [3] ∧
      (a.withoutPositions.agreement b.withoutPositions).complete = true := by
  intro first second malformed symbol contribution records others layout a b
  have distinct : DistinctSections records := by decide
  have rest : records.filter (fun r => r.kind ≠ Kind.imageSection) =
      others.filter (fun r => r.kind ≠ Kind.imageSection) := by decide
  have moved : (records.filter fun r => r.kind = Kind.imageSection).Perm
      (others.filter fun r => r.kind = Kind.imageSection) := by decide
  exact ⟨distinct, rest, moved, by decide +kernel, by decide +kernel,
    section_placement_irrelevant records others layout {} rfl distinct rest moved⟩

end SymbolRecovery
