import Mathlib.Data.List.Induction
import SymbolRecovery.Proofs.Settling

/-!
Recorded addresses against the table of section addresses. The next record can be applied, the
layout can be asked again and the unresolved items can be looked up again, in any order. Main
statement: an address that was recorded for an item is the one that the tables give, unless a
record has registered the item's section again since; then the address may be that of the earlier
section, since nothing looks up an item that has one.
-/
namespace SymbolRecovery
open Lookup (standard)

inductive Move where
  | dispatch
  | resolve
  | retry
deriving Repr, DecidableEq

namespace Progress

def move (lookup : Lookup) (p : Progress) : Move → Option Progress
  | .dispatch =>
    let step := p.dispatch lookup
    if step.failure = none then some step.progress else none
  | .resolve => some { p with context := p.context.resolveSections.2 }
  | .retry => some { p with context := p.context.retryUnresolved.2 }

def moves (lookup : Lookup) (p : Progress) (history : List Move) : Option Progress :=
  history.foldlM (move lookup) p

/-- A step that registers the section of an item again and so takes away the address that the item
has and the tables gave. -/
structure Supersedes (p q : Progress) (item : Item) (address : Int) : Prop where
  dispatched : p.move standard .dispatch = some q
  registers : ∃ r s, p.cursor.peek? = some r ∧ r.registers? = some s ∧
    (p.context.place? item).map (·.1) = some s.index
  recorded : p.context.recorded? item = some address
  current : p.context.itemAddress? item = some address
  outdated : q.context.itemAddress? item ≠ some address

def Superseded (start : Progress) (history : List Move) (item : Item) (address : Int) : Prop :=
  ∃ earlier later p q, history = earlier ++ .dispatch :: later ∧
    start.moves standard earlier = some p ∧ p.Supersedes q item address

variable {start p q : Progress} {r : Record} {history : List Move} {item : Item} {address : Int}

theorem moves_concat (history : List Move) (m : Move) :
    start.moves standard (history ++ [m]) =
      (start.moves standard history).bind fun p => p.move standard m := by
  simp only [moves, List.foldlM_append, List.foldlM_cons, List.foldlM_nil]
  cases history.foldlM (move standard) start <;> simp

theorem move_dispatch_eq_some (moved : p.move standard .dispatch = some q) :
    ∃ r, p.cursor.peek? = some r ∧ q = p.next r := by
  cases found : p.cursor.peek? with
  | none => simp [move, dispatch_exhausted found] at moved
  | some r =>
    obtain ⟨succeeds, moves, -⟩ := dispatch_standard found
    simp only [move, succeeds, moves, ↓reduceIte, Option.some.injEq] at moved
    exact ⟨r, rfl, moved.symm⟩

theorem Superseded.concat (superseded : Superseded start history item address) (m : Move) :
    Superseded start (history ++ [m]) item address := by
  obtain ⟨earlier, later, p, q, rfl, rest⟩ := superseded
  exact ⟨earlier, later ++ [m], p, q, by simp, rest⟩

theorem move_resolve_eq {registered : List ImageSection} (holds : p.context.Holds registered)
    (moved : p.move standard .resolve = some q) : q = p := by
  simp only [move, holds.current.resolveSections_eq_self holds.consistent] at moved
  cases moved
  rfl

theorem holds_move {registered : List ImageSection} (holds : p.context.Holds registered) {m : Move}
    (moved : p.move standard m = some q) : ∃ registered, q.context.Holds registered := by
  cases m with
  | dispatch =>
    obtain ⟨r, -, rfl⟩ := move_dispatch_eq_some moved
    exact ⟨_, holds.perform (r.unlocated_effect _)⟩
  | resolve =>
    rw [move_resolve_eq holds moved]
    exact ⟨_, holds⟩
  | retry =>
    cases moved
    exact ⟨_, holds.retryUnresolved⟩

theorem holds_moves {registered : List ImageSection} (holds : start.context.Holds registered)
    (reached : start.moves standard history = some q) :
    ∃ registered, q.context.Holds registered := by
  induction history using List.reverseRecOn generalizing q with
  | nil =>
    cases reached
    exact ⟨_, holds⟩
  | append_singleton history m ih =>
    rw [moves_concat] at reached
    obtain ⟨p, before, moved⟩ := Option.bind_eq_some_iff.1 reached
    obtain ⟨_, held⟩ := ih before
    exact holds_move held moved

theorem itemAddress?_addSection {c : Context} {s : ImageSection} (consistent : c.Consistent)
    (pending : s.base = none) (elsewhere : (c.place? item).map (·.1) ≠ some s.index) :
    (c.addSection s).itemAddress? item = c.itemAddress? item := by
  simp only [Context.itemAddress?_eq, Context.spot?_addSection]
  rw [Context.place?_eq] at elsewhere
  cases here : c.spot? item with
  | none => rfl
  | some spot =>
    have other : s.index ≠ spot.sectionIndex := by
      intro same
      rw [here, same] at elsewhere
      exact elsewhere rfl
    rw [Option.bind_some, Option.bind_some, Context.translate_eq (consistent.addSection pending),
      Context.translate_eq consistent, Context.get?_addSection pending, if_neg other]

theorem supersedes_of_outdated {registered : List ImageSection} {s : ImageSection}
    (holds : p.context.Holds registered) (moved : p.move standard .dispatch = some (p.next r))
    (found : p.cursor.peek? = some r) (known : r.registers? = some s)
    (recorded : p.context.recorded? item = some address)
    (current : p.context.itemAddress? item = some address)
    (outdated : (p.next r).context.itemAddress? item ≠ some address) :
    p.Supersedes (p.next r) item address where
  dispatched := moved
  registers := by
    refine ⟨r, s, found, known, ?_⟩
    have registers : (r.effect p.cursor.position).section? = some s :=
      (r.section?_effect p.cursor.position).trans known
    have pending := (r.unlocated_effect p.cursor.position).section_base s registers
    by_contra elsewhere
    apply outdated
    rw [next, Context.perform_of_section? registers,
      itemAddress?_addSection holds.consistent pending elsewhere]
    exact current
  recorded := recorded
  current := current
  outdated := outdated

theorem agrees_or_superseded_move {registered : List ImageSection}
    (holds : p.context.Holds registered) (before : start.moves standard history = some p) {m : Move}
    (moved : p.move standard m = some q) (recorded : q.context.recorded? item = some address)
    (earlier : p.context.recorded? item = some address →
      p.context.itemAddress? item = some address ∨ Superseded start history item address) :
    q.context.itemAddress? item = some address ∨
      Superseded start (history ++ [m]) item address := by
  cases m with
  | dispatch =>
    obtain ⟨r, found, rfl⟩ := move_dispatch_eq_some moved
    have unlocated := r.unlocated_effect p.cursor.position
    have registers := r.section?_effect p.cursor.position
    cases known : r.registers? with
    | some s =>
      rw [known] at registers
      have step := Context.perform_of_section? (c := p.context) registers
      rw [next, step, Context.recorded?, Context.spot?_addSection] at recorded
      rcases earlier recorded with agrees | superseded
      · by_cases kept : (p.next r).context.itemAddress? item = some address
        · exact .inl kept
        · exact .inr ⟨history, [], p, p.next r, rfl, before,
            supersedes_of_outdated holds moved found known recorded agrees kept⟩
      · exact .inr (superseded.concat _)
    | none =>
      rw [known] at registers
      have receives := Context.receives_perform (c := p.context) unlocated registers
      rcases receives.recorded?_cases recorded with ⟨f, -, -, -, agrees⟩ | ⟨old, same⟩
      · exact .inl agrees
      · rcases earlier old with agrees | superseded
        · exact .inl (same.trans agrees)
        · exact .inr (superseded.concat _)
  | resolve =>
    rw [move_resolve_eq holds moved] at recorded ⊢
    rcases earlier recorded with agrees | superseded
    · exact .inl agrees
    · exact .inr (superseded.concat _)
  | retry =>
    cases moved
    simp only [Context.recorded?_retryUnresolved, Context.itemAddress?_retryUnresolved]
      at recorded ⊢
    split at recorded
    · exact .inl recorded
    · rcases earlier recorded with agrees | superseded
      · exact .inl agrees
      · exact .inr (superseded.concat _)

theorem agrees_or_superseded {registered : List ImageSection}
    (holds : start.context.Holds registered)
    (blank : ∀ item, start.context.recorded? item = none)
    (reached : start.moves standard history = some q)
    (recorded : q.context.recorded? item = some address) :
    q.context.itemAddress? item = some address ∨ Superseded start history item address := by
  induction history using List.reverseRecOn generalizing q with
  | nil =>
    cases reached
    rw [blank] at recorded
    cases recorded
  | append_singleton history m ih =>
    rw [moves_concat] at reached
    obtain ⟨p, before, moved⟩ := Option.bind_eq_some_iff.1 reached
    obtain ⟨_, held⟩ := holds_moves holds before
    exact agrees_or_superseded_move held before moved recorded (ih before)

end Progress

/-- The address of an item is its offset behind the base that its section has now, unless the
section was registered again after the item got its address. -/
theorem recorded_address_current_or_superseded (records : List Record)
    (layout : Option LoadLayout) (options : Options) (history : List Move) (q : Progress)
    (item : Item) (address : Int)
    (reached : ({ context := { layout, options }, cursor := { records } } : Progress).moves
      standard history = some q)
    (recorded : q.context.recorded? item = some address) :
    (∃ sectionIndex offset s base, q.context.place? item = some (sectionIndex, offset) ∧
      q.context.translate sectionIndex offset = some address ∧
      q.context.sections.get? sectionIndex = some s ∧ s.base = some base ∧
      address = base + offset) ∨
    Progress.Superseded { context := { layout, options }, cursor := { records } } history item
      address := by
  have fresh := Context.holds_fresh layout options
  have blank : ∀ item, Context.recorded? { layout, options } item = none := by
    intro item
    rw [Context.recorded?, Context.spot?_fresh]
    rfl
  refine (Progress.agrees_or_superseded fresh blank reached recorded).imp_left fun agrees => ?_
  obtain ⟨registered, holds⟩ := Progress.holds_moves fresh reached
  obtain ⟨⟨sectionIndex, offset⟩, place, translated⟩ := Option.bind_eq_some_iff.1 agrees
  have sum := translated
  rw [Context.translate_eq holds.consistent] at sum
  obtain ⟨s, here, based⟩ := Option.bind_eq_some_iff.1 sum
  obtain ⟨base, known, total⟩ := Option.map_eq_some_iff.1 based
  exact ⟨sectionIndex, offset, s, base, place, translated, here, known, total.symm⟩

/-- The section is moved while a symbol in it has an address; looking up again does not help. -/
theorem recorded_address_superseded_by_update :
    let records : List Record :=
      [{ kind := Kind.imageSection, sectionIndex := 1, address := 0x1000, length := 0x100 },
        { kind := Kind.publicSymbol, name := "p", sectionIndex := 1, address := 0x10 },
        { kind := Kind.imageSection, sectionIndex := 1, address := 0x2000, length := 0x300 }]
    let start : Progress :=
      { context := { layout := some (.imageBase 0x400000) }, cursor := { records } }
    let history : List Move := [.dispatch, .dispatch, .dispatch, .resolve, .retry]
    ∃ q, start.moves standard history = some q ∧
      q.context.recorded? (.symbol 0) = some 0x401010 ∧
      q.context.itemAddress? (.symbol 0) = some 0x402010 ∧
      start.Superseded history (.symbol 0) 0x401010 := by
  intro records start history
  have answers : (start.moves standard history).map (fun q =>
      (q.context.recorded? (.symbol 0), q.context.itemAddress? (.symbol 0))) =
        some (some 0x401010, some 0x402010) := by decide +kernel
  obtain ⟨q, reached, found⟩ := Option.map_eq_some_iff.1 answers
  have recorded : q.context.recorded? (.symbol 0) = some 0x401010 := congrArg Prod.fst found
  have now : q.context.itemAddress? (.symbol 0) = some 0x402010 := congrArg Prod.snd found
  refine ⟨q, reached, recorded, now, ?_⟩
  rcases recorded_address_current_or_superseded records _ {} history q (.symbol 0) 0x401010 reached
    recorded with ⟨sectionIndex, offset, _, _, place, translated, -⟩ | superseded
  · rw [Context.itemAddress?, place, Option.bind_some, translated] at now
    cases now
  · exact superseded

/-- So the tables do not always give what was recorded. -/
theorem recorded_address_stale_after_update :
    let records : List Record :=
      [{ kind := Kind.imageSection, sectionIndex := 1, address := 0x1000, length := 0x100 },
        { kind := Kind.publicSymbol, name := "p", sectionIndex := 1, address := 0x10 },
        { kind := Kind.imageSection, sectionIndex := 1, address := 0x2000, length := 0x300 }]
    let c := (run standard { layout := some (.imageBase 0x400000) } { records }).progress.context
    ¬ ∀ item address, c.recorded? item = some address → c.itemAddress? item = some address := by
  intro records c agree
  have recorded : c.recorded? (.symbol 0) = some 0x401010 := by decide +kernel
  have now : c.itemAddress? (.symbol 0) = some 0x402010 := by decide +kernel
  rw [agree _ _ recorded] at now
  cases now

end SymbolRecovery
