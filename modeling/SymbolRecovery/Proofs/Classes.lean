import SymbolRecovery.Proofs.Scopes

/-!
Begin records, end records and the others. Main statements: a begin record opens its scope unless
it is truncated or one of its fields is out of range, and then it still puts a placeholder on the
stack; an end record closes; and every other record leaves the scopes alone.
-/
namespace SymbolRecovery

namespace Record

/-- The record is to open a scope, whether or not it is accepted. -/
def IsBegin (r : Record) : Prop := r.kind ∈ Kind.scopeBegins

def IsEnd (r : Record) : Prop := r.kind ∈ Kind.scopeEnds ∧ r.truncated = false

def IsNeutral (r : Record) : Prop := ¬ r.IsBegin ∧ ¬ r.IsEnd

instance (r : Record) : Decidable r.IsBegin := inferInstanceAs (Decidable (_ ∈ _))

instance (r : Record) : Decidable r.IsEnd := inferInstanceAs (Decidable (_ ∧ _))

instance (r : Record) : Decidable r.IsNeutral := inferInstanceAs (Decidable (_ ∧ _))

def malformation? (r : Record) (form : ScopeForm) : Option FaultCause :=
  if r.truncated then some (.truncated r.kind)
  else if form.addressed then
    if r.sectionIndex < 0 ∨ 0xFFFF < r.sectionIndex then
      some (.field (.sectionIndex "section" r.sectionIndex 0))
    else if r.address < 0 ∨ 0xFFFFFFFF < r.address then some (.field (.range "offset" r.address))
    else if r.length < 0 ∨ 0xFFFFFFFF < r.length then some (.field (.range "length" r.length))
    else none
  else none

variable {r : Record} {form : ScopeForm} {cause : FaultCause}

theorem isBegin_iff : r.IsBegin ↔ ∃ form, ScopeForm.ofKind? r.kind = some form := by
  rw [IsBegin, Role.mem_scopeBegins_iff, Option.isSome_iff_exists]

theorem ofKind?_of_not_isBegin (inert : ¬ r.IsBegin) : ScopeForm.ofKind? r.kind = none := by
  cases opens : ScopeForm.ofKind? r.kind with
  | none => rfl
  | some form => exact absurd (isBegin_iff.2 ⟨form, opens⟩) inert

theorem category_of_malformation? (wrong : r.malformation? form = some cause) :
    cause.category = .malformedField := by
  unfold malformation? at wrong
  split at wrong
  · cases wrong
    rfl
  · split at wrong
    · split at wrong
      · cases wrong
        rfl
      · split at wrong
        · cases wrong
          rfl
        · split at wrong
          · cases wrong
            rfl
          · cases wrong
    · cases wrong

theorem read_of_malformed (wrong : r.malformation? form = some cause) (position : Nat) :
    r.unlessTruncated (form.read r position) = .error cause := by
  unfold malformation? at wrong
  unfold unlessTruncated ScopeForm.read
  rw [Field.checkSection_eq, Field.checkRange_eq, Field.checkRange_eq]
  split at wrong
  · cases wrong
    simp [*]
  · split at wrong
    · split at wrong
      · cases wrong
        simp [*, bind, Except.bind]
      · split at wrong
        · cases wrong
          simp [*, bind, Except.bind]
        · split at wrong
          · cases wrong
            simp [*, bind, Except.bind]
          · cases wrong
    · cases wrong

theorem read_of_wellFormed (right : r.malformation? form = none) (position : Nat) :
    ∃ s, r.unlessTruncated (form.read r position) = .ok s ∧
      s.position = position ∧ s.closed = false ∧ s.children = [] := by
  unfold malformation? at right
  unfold unlessTruncated ScopeForm.read
  rw [Field.checkSection_eq, Field.checkRange_eq, Field.checkRange_eq]
  split at right
  · cases right
  · split at right
    · split at right
      · cases right
      · split at right
        · cases right
        · split at right
          · cases right
          · simp [*, bind, Except.bind, pure, Except.pure]
    · simp [*]

theorem effect_of_malformed (opens : ScopeForm.ofKind? r.kind = some form)
    (wrong : r.malformation? form = some cause) (position : Nat) :
    r.effect position = .holds form (form.placeholder r position) cause := by
  simp only [effect, Role.ofKind?, opens, read_of_malformed wrong]

theorem effect_of_wellFormed (opens : ScopeForm.ofKind? r.kind = some form)
    (right : r.malformation? form = none) (position : Nat) :
    ∃ s, r.effect position = .opens form s (ScopeForm.endOffset? r) ∧
      s.position = position ∧ s.closed = false ∧ s.children = [] := by
  obtain ⟨s, read, new⟩ := read_of_wellFormed right position
  exact ⟨s, by simp only [effect, Role.ofKind?, opens, read], new⟩

theorem IsEnd.not_isBegin (ends : r.IsEnd) : ¬ r.IsBegin := by
  have closes := ends.1
  simp only [Kind.scopeEnds, List.mem_cons, List.not_mem_nil, or_false] at closes
  unfold IsBegin
  rcases closes with kind | kind | kind <;> rw [kind] <;> decide

theorem effect_of_isEnd (ends : r.IsEnd) (position : Nat) :
    r.effect position = .closes r.kind := by
  have without := ofKind?_of_not_isBegin ends.not_isBegin
  obtain ⟨closes, whole⟩ := ends
  simp [effect, Role.ofKind?, without, closes, unlessTruncated, whole]

theorem effect_of_isNeutral (neutral : r.IsNeutral) (position : Nat) :
    r.effect position = .ignored ∨ (∃ cause, r.effect position = .refused cause) ∨
      ∃ change, r.effect position = .describes change := by
  obtain ⟨begins, ends⟩ := neutral
  have without := ofKind?_of_not_isBegin begins
  unfold effect Role.ofKind?
  rw [without]
  by_cases closes : r.kind ∈ Kind.scopeEnds
  · have early : r.truncated = true := by
      cases whole : r.truncated with
      | true => rfl
      | false => exact absurd ⟨closes, whole⟩ ends
    simp [closes, unlessTruncated, early]
  · cases Subject.ofKind? r.kind with
    | none => simp [closes]
    | some subject =>
      simp only [closes, ↓reduceIte, Option.map_some]
      split
      · exact .inr (.inl ⟨_, rfl⟩)
      · exact .inr (.inr ⟨_, rfl⟩)

end Record
namespace Context
variable {c : Context}

theorem stack_of_begin {r : Record} {form : ScopeForm}
    (opens : ScopeForm.ofKind? r.kind = some form) (position : Nat) :
    ∃ endOffset, (c.perform (r.effect position)).stack = c.newFrame form endOffset :: c.stack := by
  cases wrong : r.malformation? form with
  | some cause =>
    rw [Record.effect_of_malformed opens wrong]
    exact ⟨none, rfl⟩
  | none =>
    obtain ⟨s, asks, -⟩ := Record.effect_of_wellFormed opens wrong position
    obtain ⟨unresolved, enters⟩ := c.enterScope_eq form s (ScopeForm.endOffset? r)
    rw [asks, perform, enters]
    exact ⟨_, rfl⟩

theorem sameScopes_of_neutral {r : Record} (neutral : r.IsNeutral) (position : Nat) :
    c.SameScopes (c.perform (r.effect position)) := by
  rcases Record.effect_of_isNeutral neutral position with asks | ⟨cause, asks⟩ | ⟨change, asks⟩
  · rw [asks]
    exact .refl c
  · rw [asks]
    exact .refl c
  · rw [asks]
    exact c.sameScopes_make change

end Context
end SymbolRecovery
