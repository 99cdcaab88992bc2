import SymbolRecovery.Proofs.Settling

/-!
A layout that comes late. Main statement: records that are applied while the layout has no or only
some answers, and for which sections and items are looked up again once it has them all, lead to
the same result as records that are applied under the full layout from the start.
-/
namespace SymbolRecovery
open Lookup (standard)

/-- However much of the layout is known during the run, the rest can be given afterwards. -/
theorem late_layout_converges (records : List Record) (options : Options) (layout : LoadLayout)
    (known : Option LoadLayout) (distinct : DistinctSections records)
    (partially : ∀ index base, known.bind (· index) = some base → layout index = some base) :
    let first := (run standard { layout := known, options } { records }).progress.context
    let late := { first with layout := some layout }.resolveSections.2.retryUnresolved.2
    let full := (run standard { layout := some layout, options } { records }).progress.context
    let early := full.retryUnresolved.2
    (late.agreement early).complete = true := by
  intro first late full early
  let p : Progress := { context := { layout := known, options }, cursor := { records } }
  let q : Progress := { context := { layout := some layout, options }, cursor := { records } }
  have unlocated : ∀ e ∈ p.requests, e.Unlocated := fun _ => Progress.unlocated_of_mem_requests
  have apart := Progress.distinct_requests (p := p) rfl distinct
  have firstEq : first = p.context.performAll p.requests := p.context_run_eq
  have fullEq : full = q.context.performAll p.requests := by
    rw [← Progress.requests_congr (p := p) (q := q) rfl rfl]
    exact q.context_run_eq
  obtain ⟨blank, tracks, holds⟩ := Context.tracks_of_fresh known options unlocated apart
  obtain ⟨-, tracked, held⟩ := Context.tracks_of_fresh (some layout) options unlocated apart
  rw [← firstEq] at tracks holds
  rw [← fullEq] at tracked held
  have firstLayout : first.layout = known := by
    rw [firstEq]
    exact Context.layout_performAll _ unlocated
  have fullLayout : full.layout = some layout := by
    rw [fullEq]
    exact Context.layout_performAll _ unlocated
  have resolved : ({ first with layout := some layout }.resolveSections.2).Holds _ :=
    holds.resolveSections fun index base answers =>
      partially index base (by rwa [Context.loadBase?, firstLayout] at answers)
  have moved := tracks.of_tables (d := { first with layout := some layout }) rfl fun _ _ => id
  have followed := moved.resolveSections (holds.consistent.congr rfl rfl)
  refine Context.agreement_of_settled blank followed.settled tracked.settled
    resolved.retryUnresolved held.retryUnresolved (fun _ => rfl) fun index => ?_
  rw [Context.loadBase?_retryUnresolved, Context.loadBase?_retryUnresolved,
    Context.loadBase?_resolveSections, Context.loadBase?, Context.loadBase?, fullLayout]

/-- Of two sections the layout knows one during the run. A label is found before either of them,
and a procedure and a contribution lie in the one that is known late. -/
theorem late_layout_converges_from_partial :
    let records : List Record :=
      [{ kind := Kind.label, name := "l", sectionIndex := 1, address := 0x10 },
        { kind := Kind.imageSection, sectionIndex := 1, address := 0x1000, length := 0x100 },
        { kind := Kind.imageSection, sectionIndex := 2, address := 0x2000, length := 0x100 },
        { kind := Kind.globalProcedure, name := "f", sectionIndex := 2, address := 0x20 },
        { kind := Kind.sectionGroup, name := "g", sectionIndex := 2, address := 0x30 }]
    let layout := LoadLayout.imageBase 0x400000
    let known := LoadLayout.listed [(1, some 0x400000)]
    let first := (run standard { layout := some known } { records }).progress.context
    let late := { first with layout := some layout }.resolveSections.2.retryUnresolved.2
    let full := (run standard { layout := some layout } { records }).progress.context
    DistinctSections records ∧
      (∀ index base, (some known).bind (· index) = some base → layout index = some base) ∧
      first.unresolved =
        [.symbol 0, .scope 0, .contribution "g" 0] ∧
      late.arena.map (·.address) = [some 0x402020] ∧
      (late.agreement full.retryUnresolved.2).complete = true := by
  intro records layout known first late full
  have distinct : DistinctSections records := by decide
  have partially : ∀ index base,
      (some known).bind (· index) = some base → layout index = some base := by
    intro index base answers
    simp only [known, LoadLayout.listed, Option.bind_some, List.reverse_singleton,
      List.lookup_cons] at answers
    split at answers
    · exact answers
    · cases answers
  exact ⟨distinct, partially, by decide +kernel, by decide +kernel,
    late_layout_converges records {} layout (some known) distinct partially⟩

end SymbolRecovery
