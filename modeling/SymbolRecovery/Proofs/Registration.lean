import SymbolRecovery.Proofs.Effect

/-!
Section records among the others. Main statements: an effect registers a section exactly if its
record is a section record that is accepted, wherever the record stands; a section record that is
not accepted has no effect on the context; and whatever is registered or found has no address
before one is looked up.
-/
namespace SymbolRecovery

namespace Effect

def section? : Effect → Option ImageSection
  | describes (.addSection s) => some s
  | _ => none

def scope? : Effect → Option Scope
  | holds _ s _ | opens _ s _ => some s
  | _ => none

structure Unlocated (e : Effect) : Prop where
  section_base : ∀ s, e.section? = some s → s.base = none
  scope_address : ∀ s, e.scope? = some s → s.address = none

end Effect

namespace Record
variable {r : Record} {position : Nat}

/-- The section that a record registers, if it is a section record and is accepted. -/
def registers? (r : Record) : Option ImageSection :=
  if r.kind = Kind.imageSection ∧ r.truncated = false then (Subject.readSection r).toOption
  else none

theorem unlessTruncated_eq_ok {α : Type} {read : Except FieldError α} {value : α} :
    r.unlessTruncated read = .ok value ↔ r.truncated = false ∧ read = .ok value := by
  unfold unlessTruncated
  cases r.truncated <;> cases read <;> simp

theorem readSection_eq_ok {s : ImageSection} :
    Subject.readSection r = .ok s ↔
      (1 ≤ r.sectionIndex ∧ r.sectionIndex ≤ 0xFFFF) ∧
      (0 ≤ r.address ∧ r.address ≤ 0xFFFFFFFF) ∧ (0 ≤ r.length ∧ r.length ≤ 0xFFFFFFFF) ∧
      (0 ≤ r.alignment ∧ r.alignment ≤ 13) ∧
      s = { index := r.sectionIndex, rva := r.address, length := r.length
            characteristics := r.characteristics, alignment := r.alignment, name := r.name } := by
  simp only [Subject.readSection, Field.bind_eq_ok, Field.checkSection_eq_ok,
    Field.checkRange_eq_ok, Field.checkAlignment_eq_ok, pure, Except.pure]
  simp [and_assoc, eq_comm (b := s)]

theorem base_of_readSection {s : ImageSection} (read : Subject.readSection r = .ok s) :
    s.base = none := by
  obtain ⟨-, -, -, -, rfl⟩ := readSection_eq_ok.1 read
  rfl

theorem fresh_of_read {form : ScopeForm} {s : Scope} (read : form.read r position = .ok s) :
    s.address = none ∧ s.children = [] ∧ s.symbols = [] := by
  unfold ScopeForm.read at read
  simp only [bind, Except.bind, pure, Except.pure] at read
  repeat' split at read
  all_goals cases read
  all_goals exact ⟨rfl, rfl, rfl⟩

theorem effect_eq_describes {change : Change} :
    r.effect position = .describes change ↔ ∃ subject,
      Role.ofKind? r.kind = some (.describes subject) ∧
        r.truncated = false ∧ subject.read r position = .ok change := by
  unfold effect
  cases given : Role.ofKind? r.kind with
  | none => simp
  | some role =>
    cases role with
    | describes subject =>
      simp only [Option.some.injEq, Role.describes.injEq, exists_eq_left']
      rw [← unlessTruncated_eq_ok]
      split <;> simp [*]
    | opens form => dsimp only; split <;> simp
    | closes => dsimp only; split <;> simp

theorem effect_eq_opens {form : ScopeForm} {s : Scope} {endOffset : Option Int}
    (asks : r.effect position = .opens form s endOffset) : form.read r position = .ok s := by
  unfold effect at asks
  split at asks
  · cases asks
  · split at asks <;> cases asks
  · split at asks
    · cases asks
    · next accepted =>
      cases asks
      exact (unlessTruncated_eq_ok.1 accepted).2
  · split at asks <;> cases asks

theorem effect_eq_holds {form : ScopeForm} {s : Scope} {cause : FaultCause}
    (asks : r.effect position = .holds form s cause) : s = form.placeholder r position := by
  unfold effect at asks
  split at asks
  · cases asks
  · split at asks <;> cases asks
  · split at asks <;> cases asks
    rfl
  · split at asks <;> cases asks

theorem ofKind?_eq_describes_imageSection (kind : Kind) :
    Role.ofKind? kind = some (.describes .imageSection) ↔ kind = Kind.imageSection :=
  Role.ofKind?_eq_describes_iff.trans List.mem_singleton

theorem read_eq_addSection {subject : Subject} {s : ImageSection} :
    subject.read r position = .ok (.addSection s) ↔
      subject = .imageSection ∧ Subject.readSection r = .ok s := by
  cases subject <;> simp [Subject.read, Field.map_eq_ok]

theorem registers?_eq_some {s : ImageSection} :
    r.registers? = some s ↔
      r.kind = Kind.imageSection ∧ r.truncated = false ∧ Subject.readSection r = .ok s := by
  unfold registers?
  split
  · next accepted => cases Subject.readSection r <;> simp [Except.toOption, accepted]
  · next rejected => simp_all

theorem section?_effect (r : Record) (position : Nat) :
    (r.effect position).section? = r.registers? := by
  apply Option.ext
  intro s
  have asks : (r.effect position).section? = some s ↔
      r.effect position = .describes (.addSection s) := by
    unfold Effect.section?
    split <;> simp_all
  rw [asks, effect_eq_describes, registers?_eq_some]
  simp only [read_eq_addSection]
  constructor
  · rintro ⟨subject, given, whole, rfl, read⟩
    exact ⟨(ofKind?_eq_describes_imageSection _).1 given, whole, read⟩
  · rintro ⟨kind, whole, read⟩
    exact ⟨_, (ofKind?_eq_describes_imageSection _).2 kind, whole, rfl, read⟩

theorem unlocated_effect (r : Record) (position : Nat) : (r.effect position).Unlocated where
  section_base := by
    intro s registers
    rw [section?_effect, registers?_eq_some] at registers
    exact base_of_readSection registers.2.2
  scope_address := by
    intro s found
    cases asks : r.effect position with
    | holds form placeholder cause =>
      rw [asks] at found
      cases found
      rw [effect_eq_holds asks]
      rfl
    | opens form scope endOffset =>
      rw [asks] at found
      cases found
      exact (fresh_of_read (effect_eq_opens asks)).1
    | _ => simp [asks, Effect.scope?] at found

theorem perform_of_unregistered {r : Record} (kind : r.kind = Kind.imageSection)
    (registers : r.registers? = none) (c : Context) (position : Nat) :
    c.perform (r.effect position) = c := by
  have given := (ofKind?_eq_describes_imageSection r.kind).2 kind
  unfold effect
  rw [given]
  dsimp only
  split
  · rfl
  · next change accepted =>
    obtain ⟨whole, read⟩ := unlessTruncated_eq_ok.1 accepted
    cases known : Subject.readSection r with
    | error e => simp [Subject.read, known, Except.map] at read
    | ok s => rw [registers?_eq_some.2 ⟨kind, whole, known⟩] at registers; cases registers

theorem registers?_of_kind_ne {r : Record} (kind : r.kind ≠ Kind.imageSection) :
    r.registers? = none := by
  rw [registers?, if_neg fun both => kind both.1]

end Record

end SymbolRecovery
