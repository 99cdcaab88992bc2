import SymbolRecovery.Registry

/-!
What the kind of a record decides. The program's registry is a table of appliers that derive from
one another; here the same is said by kinds alone: a record of a kind describes something, opens a
scope or closes one. Main statement: the applier of a kind acts in the role of that kind and
accepts it, and exactly the kinds without a role have no applier.
-/
namespace SymbolRecovery

inductive Role where
  | describes (subject : Subject)
  | opens (form : ScopeForm)
  | closes
deriving Repr, DecidableEq

def ScopeForm.ofKind? (kind : Kind) : Option ScopeForm :=
  if kind ∈ Kind.procedures then some .procedure
  else if kind = Kind.block then some .block
  else if kind = Kind.thunk then some .thunk
  else if kind = Kind.inlineSite then some .inlineSite
  else none

def Subject.ofKind? (kind : Kind) : Option Subject :=
  if kind ∈ Kind.data ∨ kind = Kind.publicSymbol ∨ kind = Kind.label then some .symbol
  else if kind = Kind.imageSection then some .imageSection
  else if kind = Kind.sectionGroup then some .sectionGroup
  else if kind = Kind.objectName then some .objectName
  else if kind = Kind.compiler then some .compiler
  else none

namespace Role

def ofKind? (kind : Kind) : Option Role :=
  match ScopeForm.ofKind? kind with
  | some form => some (.opens form)
  | none =>
    if kind ∈ Kind.scopeEnds then some .closes
    else (Subject.ofKind? kind).map .describes

def action : Role → Action
  | describes subject => .change subject
  | opens form => .beginScope form
  | closes => .endScope

def kinds : List Kind :=
  Kind.scopeBegins ++ Kind.scopeEnds ++ Kind.data ++ [Kind.publicSymbol, Kind.label]
    ++ [Kind.imageSection, Kind.sectionGroup, Kind.objectName, Kind.compiler]

theorem mem_scopeBegins_iff (kind : Kind) :
    kind ∈ Kind.scopeBegins ↔ (ScopeForm.ofKind? kind).isSome := by
  simp only [Kind.scopeBegins, ScopeForm.ofKind?, List.mem_append, List.mem_cons,
    List.not_mem_nil, or_false]
  split
  · simp_all
  · split
    · simp_all
    · split
      · simp_all
      · split <;> simp_all

theorem mem_kinds_of_ofKind? {kind : Kind} {role : Role} (given : ofKind? kind = some role) :
    kind ∈ kinds := by
  unfold ofKind? at given
  simp only [kinds, List.mem_append]
  split at given
  · next opens =>
    exact .inl (.inl (.inl (.inl ((mem_scopeBegins_iff kind).2 (by simp [opens])))))
  · split at given
    · next closes => exact .inl (.inl (.inl (.inr closes)))
    · unfold Subject.ofKind? at given
      grind

end Role

def Subject.kinds : Subject → List Kind
  | imageSection => [Kind.imageSection]
  | sectionGroup => [Kind.sectionGroup]
  | symbol => Kind.data ++ [Kind.publicSymbol, Kind.label]
  | objectName => [Kind.objectName]
  | compiler => [Kind.compiler]

theorem Role.ofKind?_eq_describes_iff {kind : Kind} {subject : Subject} :
    ofKind? kind = some (.describes subject) ↔ kind ∈ subject.kinds := by
  constructor
  · intro given
    unfold ofKind? Subject.ofKind? at given
    cases subject <;> simp only [Subject.kinds, List.mem_append, List.mem_cons, List.not_mem_nil,
      or_false] <;> grind
  · revert kind
    cases subject <;> decide

def Action.role? : Action → Option Role
  | change subject => some (.describes subject)
  | beginScope form => some (.opens form)
  | endScope => some .closes
  | _ => none

theorem Action.eq_of_role? {action : Action} {role : Role} (plays : action.role? = some role) :
    action = role.action := by
  cases action <;> simp_all [role?] <;> subst plays <;> rfl

namespace Registry

def entrySuits (entry : Kind × ApplierId) : Bool :=
  (standard.applier? entry.2).any fun a =>
    entry.1 ∈ a.kinds ∧ a.action.role? = Role.ofKind? entry.1 ∧ (Role.ofKind? entry.1).isSome

theorem entries_suit : ∀ entry ∈ standard.appliers.entries, entrySuits entry := by
  decide +kernel

theorem kinds_registered : ∀ kind ∈ Role.kinds, kind ∈ standard.appliers.keys := by
  decide +kernel

theorem digits_of_applierFor? {registry : Registry} {kind : Kind} {a : Applier}
    (applier : registry.applierFor? kind = some a) : a.digits = none := by
  obtain ⟨id, -, declared⟩ := Option.bind_eq_some_iff.1 applier
  obtain ⟨d, -, rfl⟩ := Option.map_eq_some_iff.1 declared
  rfl

theorem applierFor?_of_entry {kind : Kind} {id : ApplierId}
    (entered : standard.appliers.get? kind = some id) :
    ∃ role a, Role.ofKind? kind = some role ∧ standard.applierFor? kind = some a ∧
      kind ∈ a.kinds ∧ a.action = role.action := by
  have suits := entries_suit (kind, id) (Table.mem_of_find? entered)
  simp only [entrySuits, Option.any_eq_true, decide_eq_true_eq] at suits
  obtain ⟨a, declared, accepts, plays, named⟩ := suits
  obtain ⟨role, given⟩ := Option.isSome_iff_exists.1 named
  refine ⟨role, a, given, ?_, accepts, Action.eq_of_role? (plays.trans given)⟩
  simp [applierFor?, entered, declared]

theorem exists_applierFor? {kind : Kind} {role : Role} (given : Role.ofKind? kind = some role) :
    ∃ a, standard.applierFor? kind = some a ∧ kind ∈ a.kinds ∧ a.action = role.action := by
  have entered := kinds_registered kind (Role.mem_kinds_of_ofKind? given)
  rw [Table.mem_keys_iff, Option.isSome_iff_exists] at entered
  obtain ⟨id, entered⟩ := entered
  obtain ⟨other, a, same, applier, accepts, acts⟩ := applierFor?_of_entry entered
  rw [given] at same
  cases same
  exact ⟨a, applier, accepts, acts⟩

theorem applierFor?_eq_none {kind : Kind} (without : Role.ofKind? kind = none) :
    standard.applierFor? kind = none := by
  cases entered : standard.appliers.get? kind with
  | none => simp [applierFor?, entered]
  | some id =>
    obtain ⟨role, a, given, -⟩ := applierFor?_of_entry entered
    rw [without] at given
    cases given

end Registry
end SymbolRecovery
