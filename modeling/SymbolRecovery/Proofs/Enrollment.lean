import SymbolRecovery.Proofs.Rejection
import SymbolRecovery.Proofs.Tables

/-!
Appliers and the kinds that they are registered for. The kinds of one application are entered one
by one, and the applier accepts them when the last is in. Main statement: an application that fails
has entered the kinds before the first that is taken, and nothing else; a kind keeps the applier
that it was entered for; and this applier accepts the kind, so that no record is given to it in
vain, unless the application that entered the kind was cut short.
-/
namespace SymbolRecovery

/-- A step in the making of a registry. -/
inductive Enrollment where
  | declare (d : Declaration)
  | register (id : ApplierId) (kinds : List Kind)

namespace Registry

/-- Have kinds handled by an applier, without a look at what is there. -/
def enter (registry : Registry) (id : ApplierId) (kinds : List Kind) : Registry :=
  { registry with
    appliers := { entries := registry.appliers.entries ++ kinds.map (·, id) } }

def accept (registry : Registry) (id : ApplierId) (kinds : List Kind) : Registry :=
  { registry with
    declarations := registry.declarations.modify id fun d =>
      { d with kinds := some (registry.kindsOf id ++ kinds) } }

structure Admits (registry : Registry) (kinds : List Kind) : Prop where
  distinct : kinds.Nodup
  free : ∀ kind ∈ kinds, registry.appliers.get? kind = none

def ownKinds? (registry : Registry) (id : ApplierId) : Option (List Kind) :=
  registry.declarations[id]?.bind (·.kinds)

def Sound (registry : Registry) : Prop :=
  ∀ kind id, registry.appliers.get? kind = some id →
    ∃ own, registry.ownKinds? id = some own ∧ kind ∈ own

def follow (registry : Registry) : Enrollment → Registry
  | .declare d => (registry.declare d).2
  | .register id kinds => (registry.register id kinds).2

def followAll (registry : Registry) (steps : List Enrollment) : Registry :=
  steps.foldl follow registry

def Declared (registry : Registry) : List Enrollment → Prop
  | [] => True
  | .declare d :: rest => (registry.follow (.declare d)).Declared rest
  | .register id kinds :: rest =>
    id < registry.declarations.length ∧ (registry.follow (.register id kinds)).Declared rest

instance decidableDeclared : (registry : Registry) → (steps : List Enrollment) →
    Decidable (registry.Declared steps)
  | _, [] => inferInstanceAs (Decidable True)
  | registry, .declare d :: rest => decidableDeclared (registry.follow (.declare d)) rest
  | registry, .register id kinds :: rest =>
    have := decidableDeclared (registry.follow (.register id kinds)) rest
    inferInstanceAs (Decidable (_ ∧ _))

/-- The kind was entered by an application that was cut short at a later kind. -/
def LeftBehind (start : Registry) (steps : List Enrollment) (kind : Kind) (id : ApplierId) : Prop :=
  ∃ earlier front taken back later,
    steps = earlier ++ .register id (front ++ taken :: back) :: later ∧ kind ∈ front ∧
      (start.followAll earlier).Admits front ∧ ¬ (start.followAll earlier).Admits (front ++ [taken])

variable {registry start : Registry} {id other : ApplierId} {kind : Kind}
  {kinds front back : List Kind} {steps : List Enrollment}

theorem get?_enter (registry : Registry) (id : ApplierId) (kinds : List Kind) (kind : Kind) :
    (registry.enter id kinds).appliers.get? kind =
      (registry.appliers.get? kind).or (if kind ∈ kinds then some id else none) := by
  rw [enter, Table.get?, Table.find?_append, Table.find?_map_pair]
  rfl

theorem enter_nil (registry : Registry) (id : ApplierId) : registry.enter id [] = registry := by
  rw [enter, List.map_nil, List.append_nil]

theorem enter_assign (free : registry.appliers.get? kind = none) (kinds : List Kind) :
    (registry.assign kind id).enter id kinds = registry.enter id (kind :: kinds) := by
  simp only [enter, assign, Table.entries_insert_of_new free, List.append_assoc, List.map_cons,
    List.singleton_append]

theorem Admits.assign (admits : registry.Admits (kind :: kinds)) (id : ApplierId) :
    (registry.assign kind id).Admits kinds := by
  obtain ⟨absent, distinct⟩ := List.nodup_cons.1 admits.distinct
  refine ⟨distinct, fun later member => ?_⟩
  rw [Registry.assign, Table.get?_insert, if_neg]
  · exact admits.free later (List.mem_cons_of_mem _ member)
  · rintro rfl
    exact absent member

theorem enroll_of_admits (admits : registry.Admits kinds) (id : ApplierId) :
    enroll id kinds registry = (none, registry.enter id kinds) := by
  induction kinds generalizing registry with
  | nil => rw [enroll, enter_nil]
  | cons kind rest ih =>
    have free := admits.free kind List.mem_cons_self
    rw [enroll, free]
    dsimp only
    rw [ih (admits.assign id), enter_assign free]

theorem enroll_of_taken {holder : ApplierId} (admits : registry.Admits front)
    (taken : (registry.enter id front).appliers.get? kind = some holder) (back : List Kind) :
    enroll id (front ++ kind :: back) registry =
      (some ⟨kind, registry.nameOf holder⟩, registry.enter id front) := by
  induction front generalizing registry with
  | nil =>
    rw [enter_nil] at taken ⊢
    rw [List.nil_append, enroll, taken]
  | cons first rest ih =>
    have free := admits.free first List.mem_cons_self
    rw [← enter_assign free] at taken ⊢
    rw [List.cons_append, enroll, free]
    exact ih (admits.assign id) taken

theorem admits_concat_iff (admits : registry.Admits front) (id : ApplierId) (kind : Kind) :
    registry.Admits (front ++ [kind]) ↔
      (registry.enter id front).appliers.get? kind = none := by
  rw [get?_enter, Option.or_eq_none_iff]
  constructor
  · intro all
    have absent : kind ∉ front := by
      have distinct := all.distinct
      rw [List.nodup_append] at distinct
      exact fun member => distinct.2.2 kind member kind List.mem_cons_self rfl
    exact ⟨all.free kind (by simp), if_neg absent⟩
  · rintro ⟨free, absent⟩
    refine ⟨?_, ?_⟩
    · rw [List.nodup_append]
      refine ⟨admits.distinct, List.nodup_singleton kind, ?_⟩
      rintro early member late last rfl
      rw [List.mem_singleton] at last
      rw [← last, if_pos member] at absent
      cases absent
    · intro later member
      rcases List.mem_append.1 member with early | last
      · exact admits.free later early
      · rw [List.mem_singleton.1 last]
        exact free

theorem admits_or_taken (registry : Registry) (id : ApplierId) (kinds : List Kind) :
    registry.Admits kinds ∨ ∃ front kind back holder, kinds = front ++ kind :: back ∧
      registry.Admits front ∧ (registry.enter id front).appliers.get? kind = some holder := by
  induction kinds using List.reverseRecOn with
  | nil => exact .inl ⟨List.nodup_nil, nofun⟩
  | append_singleton kinds last ih =>
    rcases ih with admits | ⟨front, kind, back, holder, rfl, admits, taken⟩
    · cases met : (registry.enter id kinds).appliers.get? last with
      | none => exact .inl ((admits_concat_iff admits id last).2 met)
      | some holder => exact .inr ⟨kinds, last, [], holder, rfl, admits, met⟩
    · exact .inr ⟨front, kind, back ++ [last], holder, by simp, admits, taken⟩

theorem not_admits_of_taken {holder : ApplierId} (admits : registry.Admits front)
    (taken : (registry.enter id front).appliers.get? kind = some holder) :
    ¬ registry.Admits (front ++ [kind]) := by
  rw [admits_concat_iff admits id, taken]
  exact nofun

theorem register_of_admits (admits : registry.Admits kinds) (id : ApplierId) :
    registry.register id kinds = (none, (registry.enter id kinds).accept id kinds) := by
  rw [register, enroll_of_admits admits]
  rfl

theorem register_of_taken {holder : ApplierId} (admits : registry.Admits front)
    (taken : (registry.enter id front).appliers.get? kind = some holder) (back : List Kind) :
    registry.register id (front ++ kind :: back) =
      (some ⟨kind, registry.nameOf holder⟩, registry.enter id front) := by
  rw [register, enroll_of_taken admits taken]

theorem register_eq_none_iff (registry : Registry) (id : ApplierId) (kinds : List Kind) :
    (registry.register id kinds).1 = none ↔ registry.Admits kinds := by
  constructor
  · intro succeeds
    rcases registry.admits_or_taken id kinds with admits | ⟨_, _, back, _, rfl, admits, taken⟩
    · exact admits
    · rw [register_of_taken admits taken back] at succeeds
      cases succeeds
  · intro admits
    rw [register_of_admits admits]

theorem kindsOf_of_own {own : List Kind} (said : registry.ownKinds? id = some own) :
    registry.kindsOf id = own := by
  obtain ⟨d, there, kinds⟩ := Option.bind_eq_some_iff.1 said
  have inside := (List.getElem?_eq_some_iff.1 there).1
  obtain ⟨visits, length⟩ := Nat.exists_eq_add_of_lt inside
  rw [kindsOf, length, kindsAlong]
  simp only [there, kinds]

structure Extends (before after : Registry) : Prop where
  entries : ∀ kind id, before.appliers.get? kind = some id → after.appliers.get? kind = some id
  own : ∀ id own, before.ownKinds? id = some own →
    ∃ more, after.ownKinds? id = some (own ++ more)

theorem Extends.refl (registry : Registry) : registry.Extends registry where
  entries := fun _ _ entered => entered
  own := fun _ own said => ⟨[], by rw [List.append_nil, said]⟩

theorem Extends.trans {first second third : Registry} (earlier : first.Extends second)
    (later : second.Extends third) : first.Extends third where
  entries := fun kind id entered => later.entries kind id (earlier.entries kind id entered)
  own := by
    intro id own said
    obtain ⟨more, then_said⟩ := earlier.own id own said
    obtain ⟨others, at_last⟩ := later.own id _ then_said
    exact ⟨more ++ others, by rw [at_last, List.append_assoc]⟩

theorem extends_enter (registry : Registry) (id : ApplierId) (kinds : List Kind) :
    registry.Extends (registry.enter id kinds) where
  entries := by
    intro kind holder entered
    rw [get?_enter, entered, Option.some_or]
  own := (Extends.refl registry).own

theorem ownKinds?_accept (registry : Registry) (id other : ApplierId) (kinds : List Kind) :
    (registry.accept id kinds).ownKinds? other =
      if id = other then registry.declarations[other]?.map fun _ => registry.kindsOf id ++ kinds
      else registry.ownKinds? other := by
  simp only [ownKinds?, accept, List.getElem?_modify]
  cases registry.declarations[other]? <;> by_cases same : id = other <;> simp [same]

theorem extends_accept (registry : Registry) (id : ApplierId) (kinds : List Kind) :
    registry.Extends (registry.accept id kinds) where
  entries := fun _ _ entered => entered
  own := by
    intro other own said
    rw [ownKinds?_accept]
    split
    · next same =>
      subst same
      obtain ⟨d, there, -⟩ := Option.bind_eq_some_iff.1 said
      exact ⟨kinds, by rw [there, Option.map_some, kindsOf_of_own said]⟩
    · exact (Extends.refl registry).own other own said

theorem extends_register (registry : Registry) (id : ApplierId) (kinds : List Kind) :
    registry.Extends (registry.register id kinds).2 := by
  rcases registry.admits_or_taken id kinds with admits | ⟨front, _, back, _, rfl, admits, taken⟩
  · rw [register_of_admits admits]
    exact (registry.extends_enter id kinds).trans (extends_accept _ id kinds)
  · rw [register_of_taken admits taken back]
    exact registry.extends_enter id front

theorem extends_follow (registry : Registry) (step : Enrollment) :
    registry.Extends (registry.follow step) := by
  cases step with
  | declare d =>
    refine ⟨fun _ _ entered => entered, fun id own said => ⟨[], ?_⟩⟩
    obtain ⟨known, there, kinds⟩ := Option.bind_eq_some_iff.1 said
    have inside := (List.getElem?_eq_some_iff.1 there).1
    rw [List.append_nil, follow, declare, ownKinds?, List.getElem?_append_left inside, there]
    exact kinds
  | register id kinds => exact registry.extends_register id kinds

theorem followAll_append (start : Registry) (earlier later : List Enrollment) :
    start.followAll (earlier ++ later) = (start.followAll earlier).followAll later :=
  List.foldl_append

theorem extends_followAll (registry : Registry) (steps : List Enrollment) :
    registry.Extends (registry.followAll steps) := by
  induction steps generalizing registry with
  | nil => exact .refl registry
  | cons step rest ih => exact (registry.extends_follow step).trans (ih _)

theorem declared_append_iff (start : Registry) (earlier later : List Enrollment) :
    start.Declared (earlier ++ later) ↔
      start.Declared earlier ∧ (start.followAll earlier).Declared later := by
  induction earlier generalizing start with
  | nil => exact ⟨fun declared => ⟨trivial, declared⟩, And.right⟩
  | cons step rest ih =>
    cases step with
    | declare d => exact ih _
    | register id kinds =>
      rw [List.cons_append, Declared, ih, Declared, and_assoc]
      rfl

theorem LeftBehind.concat (left : start.LeftBehind steps kind id) (step : Enrollment) :
    start.LeftBehind (steps ++ [step]) kind id := by
  obtain ⟨earlier, front, taken, back, later, rfl, rest⟩ := left
  exact ⟨earlier, front, taken, back, later ++ [step], by simp, rest⟩

theorem accepted_or_cut_short (there : id < registry.declarations.length)
    (entered : (registry.register id kinds).2.appliers.get? kind = some other)
    (new : registry.appliers.get? kind = none) :
    other = id ∧
      ((∃ own, (registry.register id kinds).2.ownKinds? id = some own ∧ kind ∈ own) ∨
        ∃ front taken back, kinds = front ++ taken :: back ∧ kind ∈ front ∧
          registry.Admits front ∧ ¬ registry.Admits (front ++ [taken])) := by
  have same : ∀ {part : List Kind}, (registry.enter id part).appliers.get? kind = some other →
      kind ∈ part ∧ other = id := by
    intro part entered
    rw [get?_enter, new, Option.none_or] at entered
    split at entered
    · next member =>
      cases entered
      exact ⟨member, rfl⟩
    · cases entered
  rcases registry.admits_or_taken id kinds with
    admits | ⟨front, last, back, holder, rfl, admits, taken⟩
  · rw [register_of_admits admits] at entered ⊢
    obtain ⟨member, here⟩ := same entered
    refine ⟨here, .inl ⟨registry.kindsOf id ++ kinds, ?_, List.mem_append_right _ member⟩⟩
    rw [ownKinds?_accept, if_pos rfl]
    change registry.declarations[id]?.map (fun _ => registry.kindsOf id ++ kinds) = _
    rw [List.getElem?_eq_getElem there, Option.map_some]
  · rw [register_of_taken admits taken back] at entered
    obtain ⟨member, here⟩ := same entered
    exact ⟨here, .inr ⟨front, last, back, rfl, member, admits, not_admits_of_taken admits taken⟩⟩

theorem accepted_or_left_behind (sound : start.Sound) (declared : start.Declared steps)
    (entered : (start.followAll steps).appliers.get? kind = some id) :
    (∃ own, (start.followAll steps).ownKinds? id = some own ∧ kind ∈ own) ∨
      start.LeftBehind steps kind id := by
  induction steps using List.reverseRecOn with
  | nil => exact .inl (sound kind id entered)
  | append_singleton steps step ih =>
    rw [declared_append_iff] at declared
    have goes_on := (start.followAll steps).extends_follow step
    have next : start.followAll (steps ++ [step]) = (start.followAll steps).follow step :=
      start.followAll_append steps [step]
    rw [next] at entered ⊢
    cases before : (start.followAll steps).appliers.get? kind with
    | some holder =>
      obtain rfl : holder = id :=
        Option.some.inj ((goes_on.entries kind holder before).symm.trans entered)
      rcases ih declared.1 before with ⟨own, said, member⟩ | left
      · obtain ⟨more, still⟩ := goes_on.own holder own said
        exact .inl ⟨own ++ more, still, List.mem_append_left _ member⟩
      · exact .inr (left.concat step)
    | none =>
      cases step with
      | declare d => exact absurd (before.symm.trans entered) nofun
      | register target kinds =>
        have there : target < (start.followAll steps).declarations.length := declared.2.1
        obtain ⟨rfl, accepted | ⟨front, taken, back, rfl, member, admits, cut⟩⟩ :=
          accepted_or_cut_short there entered before
        · exact .inl accepted
        · exact .inr ⟨steps, front, taken, back, [], rfl, member, admits, cut⟩

end Registry

/-- The work on a record starts with a look at its kind. -/
def Action.Checks : Action → Prop
  | .change _ | .beginScope _ | .beginUnnamedScope _ | .endScope | .look => True
  | .unimplemented | .custom _ => False

namespace Applier
variable {a : Applier} {c : Context} {cursor : Cursor} {r : Record}

theorem fault_cases {cause : FaultCause} (checks : a.action.Checks)
    (faulted : (a.apply c cursor r).ending = .fault cause) :
    a.check r = .error cause ∨ (∃ e, cause = .field e) ∨ c.imbalance? r.kind = some cause := by
  cases does : a.action with
  | change subject =>
    simp only [apply, does, applyChange] at faulted
    split at faulted
    · next fails =>
      cases faulted
      exact .inl fails
    · split at faulted <;> cases faulted
      exact .inr (.inl ⟨_, rfl⟩)
  | beginScope form =>
    simp only [apply, does, applyBegin] at faulted
    split at faulted
    · next fails =>
      cases faulted
      exact .inl fails
    · next fails =>
      cases faulted
      exact .inl fails
    · split at faulted
      · cases faulted
      · cases faulted
        exact .inr (.inl ⟨_, rfl⟩)
      · split at faulted <;> cases faulted
  | beginUnnamedScope addressed =>
    simp only [apply, does, applyUnnamedBegin] at faulted
    split at faulted
    · cases faulted
    · next fails =>
      cases faulted
      exact .inl fails
    · cases faulted
  | endScope =>
    simp only [apply, does, applyEnd] at faulted
    split at faulted
    · next fails =>
      cases faulted
      exact .inl fails
    · split at faulted
      · next unbalanced =>
        cases faulted
        exact .inr (.inr unbalanced)
      · cases faulted
  | look =>
    simp only [apply, does, applyLook] at faulted
    split at faulted
    · next fails =>
      cases faulted
      exact .inl fails
    · cases faulted
  | unimplemented =>
    rw [does] at checks
    exact checks.elim
  | custom script =>
    rw [does] at checks
    exact checks.elim

theorem category_of_accepts {cause : FaultCause} (accepts : r.kind ∈ a.kinds)
    (checks : a.action.Checks) (faulted : (a.apply c cursor r).ending = .fault cause) :
    cause.category ≠ .dispatchMismatch := by
  rcases fault_cases checks faulted with fails | ⟨e, rfl⟩ | unbalanced
  · rw [check_eq accepts] at fails
    split at fails <;> cases fails
    exact nofun
  · exact nofun
  · rw [Context.category_of_imbalance? unbalanced]
    exact nofun

theorem position_ne_of_checks (checks : a.action.Checks) (reads : a.action ≠ .look)
    (inside : cursor.position < cursor.records.length) :
    (a.apply c cursor r).cursor.position ≠ cursor.position := by
  have onward : cursor.advance.position ≠ cursor.position := by
    rw [Cursor.advance_position inside]
    omega
  have moves : ∀ role : Role, a.action = role.action →
      (a.apply c cursor r).cursor.position ≠ cursor.position := by
    intro role acts
    have outcome := outcome_apply (c := c) (r := r) acts inside
    generalize a.apply c cursor r = work at outcome
    cases outcome with
    | accepted ahead => exact Nat.ne_of_gt ahead
    | faulted | unprintable => exact onward
  cases does : a.action with
  | change subject => exact moves (.describes subject) does
  | beginScope form => exact moves (.opens form) does
  | endScope => exact moves .closes does
  | beginUnnamedScope addressed =>
    simp only [apply, does]
    exact onward
  | look => exact absurd does reads
  | unimplemented =>
    rw [does] at checks
    exact checks.elim
  | custom script =>
    rw [does] at checks
    exact checks.elim

end Applier

namespace Progress
variable {lookup : Lookup} {p : Progress} {r : Record} {a : Applier}

theorem mem_faults_settle {work : Applied} {cause : Option FaultCause} {fault : Fault}
    (member : fault ∈ (p.settle a r work cause).progress.tally.faults) :
    fault ∈ p.tally.faults ∨ cause = some fault.cause ∨
      work.cursor.position = p.cursor.position ∧ fault.cause = .notConsumed a.name := by
  by_cases stalled : work.cursor.position = p.cursor.position
  · simp only [settle, stalled, ↓reduceIte] at member
    rcases List.mem_append.1 member with old | new
    · exact .inl old
    · rw [List.mem_singleton.1 new]
      cases cause with
      | none => exact .inr (.inr ⟨stalled, rfl⟩)
      | some cause => exact .inr (.inl rfl)
  · simp only [settle, stalled, ↓reduceIte] at member
    cases cause with
    | none => exact .inl member
    | some cause =>
      rcases List.mem_append.1 member with old | new
      · exact .inl old
      · rw [List.mem_singleton.1 new]
        exact .inr (.inl rfl)

theorem faults_dispatch_of_accepts (found : p.cursor.peek? = some r)
    (applier : lookup r.kind = some a) (accepts : r.kind ∈ a.kinds) (checks : a.action.Checks)
    {fault : Fault} (member : fault ∈ (p.dispatch lookup).progress.tally.faults) :
    fault ∈ p.tally.faults ∨ fault.category ≠ .dispatchMismatch ∨
      a.action = .look ∧ fault.cause = .notConsumed a.name := by
  have inside := Cursor.lt_length_of_peek? found
  have stays : (a.apply p.context p.cursor r).cursor.position = p.cursor.position →
      a.action = .look := by
    intro stalled
    by_contra reads
    exact Applier.position_ne_of_checks checks reads inside stalled
  simp only [dispatch, found, applier] at member
  cases ending : (a.apply p.context p.cursor r).ending with
  | failure failure =>
    rw [ending] at member
    exact .inl member
  | done =>
    rw [ending] at member
    rcases mem_faults_settle member with old | told | ⟨stalled, told⟩
    · exact .inl old
    · cases told
    · exact .inr (.inr ⟨stays stalled, told⟩)
  | fault cause =>
    rw [ending] at member
    rcases mem_faults_settle member with old | told | ⟨stalled, told⟩
    · exact .inl old
    · cases told
      exact .inr (.inl (Applier.category_of_accepts accepts checks ending))
    · exact .inr (.inr ⟨stays stalled, told⟩)

end Progress

namespace Registry

theorem mem_kinds_of_applierFor? {registry : Registry} {kind : Kind} {a : Applier}
    (applier : registry.applierFor? kind = some a)
    (accepts : ∀ id, registry.appliers.get? kind = some id → kind ∈ registry.kindsOf id) :
    kind ∈ a.kinds := by
  obtain ⟨id, entered, declared⟩ := Option.bind_eq_some_iff.1 applier
  obtain ⟨d, -, rfl⟩ := Option.map_eq_some_iff.1 declared
  exact accepts id entered

theorem own_kinds_standard : ∀ entry ∈ standard.appliers.entries,
    (standard.ownKinds? entry.2).any (entry.1 ∈ ·) := by
  decide +kernel

theorem sound_standard : standard.Sound := by
  intro kind id entered
  have said := own_kinds_standard (kind, id) (Table.mem_of_find? entered)
  obtain ⟨own, here, member⟩ := (Option.any_eq_true _ _).1 said
  exact ⟨own, here, of_decide_eq_true member⟩

end Registry

/-- Kinds are entered and accepted together, unless an application is cut short: such a one leaves
behind the kinds that it has entered, and does nothing else. -/
theorem registration_consistent_unless_cut_short {start : Registry} (sound : start.Sound)
    {steps : List Enrollment} (declared : start.Declared steps) :
    let registry := start.followAll steps
    (∀ earlier id kinds later, steps = earlier ++ .register id kinds :: later →
      let before := start.followAll earlier
      let applied := before.register id kinds
      (applied.1 = none ↔ before.Admits kinds) ∧
      (applied.1 = none → applied.2.appliers = (before.enter id kinds).appliers) ∧
      (applied.1 ≠ none → (∀ kind ∈ kinds, ¬ start.LeftBehind steps kind id) →
        applied.2 = before) ∧
      ∀ duplicate, applied.1 = some duplicate → ∃ front back holder,
        kinds = front ++ duplicate.kind :: back ∧ before.Admits front ∧
        applied.2 = before.enter id front ∧
        (∀ other, applied.2.kindsOf other = before.kindsOf other) ∧
        applied.2.appliers.get? duplicate.kind = some holder ∧
        duplicate.holder = before.nameOf holder) ∧
    (∀ earlier later kind id, steps = earlier ++ later →
      (start.followAll earlier).appliers.get? kind = some id →
      registry.appliers.get? kind = some id) ∧
    (∀ kind id, registry.appliers.get? kind = some id →
      kind ∈ registry.kindsOf id ∨ start.LeftBehind steps kind id) ∧
    ∀ (p : Progress) (r : Record) (a : Applier), p.cursor.peek? = some r →
      registry.applierFor? r.kind = some a → a.action.Checks →
      (∀ id, ¬ start.LeftBehind steps r.kind id) →
      ∀ fault ∈ (p.dispatch registry.applierFor?).progress.tally.faults,
        fault ∈ p.tally.faults ∨ fault.category ≠ .dispatchMismatch ∨
          a.action = .look ∧ fault.cause = .notConsumed a.name := by
  intro registry
  have accepted : ∀ kind id, registry.appliers.get? kind = some id →
      kind ∈ registry.kindsOf id ∨ start.LeftBehind steps kind id := by
    intro kind id entered
    refine (Registry.accepted_or_left_behind sound declared entered).imp_left ?_
    rintro ⟨own, said, member⟩
    rw [Registry.kindsOf_of_own said]
    exact member
  refine ⟨?_, ?_, accepted, ?_⟩
  · intro earlier id kinds later split before applied
    rcases before.admits_or_taken id kinds with
      admits | ⟨front, kind, back, holder, rfl, admits, taken⟩
    · have whole : applied = (none, (before.enter id kinds).accept id kinds) :=
        Registry.register_of_admits admits id
      rw [whole]
      exact ⟨⟨fun _ => admits, fun _ => rfl⟩, fun _ => rfl, fun fails => absurd rfl fails, nofun⟩
    · have cut : applied = (some ⟨kind, before.nameOf holder⟩, before.enter id front) :=
        Registry.register_of_taken admits taken back
      refine ⟨before.register_eq_none_iff id _, ?_, ?_, ?_⟩
      · rw [cut]
        exact nofun
      · intro _ complete
        cases front with
        | nil => rw [cut, Registry.enter_nil]
        | cons first rest =>
          refine absurd ?_ (complete first List.mem_cons_self)
          exact ⟨earlier, first :: rest, kind, back, later, split, List.mem_cons_self, admits,
            Registry.not_admits_of_taken admits taken⟩
      · rw [cut]
        rintro duplicate ⟨⟩
        exact ⟨front, back, holder, rfl, admits, rfl, fun other => rfl, taken, rfl⟩
  · rintro earlier later kind id rfl entered
    simp only [registry, start.followAll_append]
    exact (Registry.extends_followAll _ later).entries kind id entered
  · intro p r a found applier checks kept fault member
    have accepts := Registry.mem_kinds_of_applierFor? applier fun id entered =>
      (accepted r.kind id entered).resolve_right (kept id)
    exact Progress.faults_dispatch_of_accepts found applier accepts checks member

/-- The first applier is registered for two kinds, and then once more for one of them. The second
has several bases, and its application is cut short at a kind of the first. -/
theorem registration_consistent_unless_cut_short_for_derived :
    let first : Declaration :=
      { name := "First", action := .change .imageSection, base := some 14 }
    let second : Declaration :=
      { name := "Second", action := .change .imageSection, line := [18, 14, 1, 0] }
    let sound : List Enrollment :=
      [.declare first, .register 18 [0x2000, 0x2001], .register 18 [0x2001], .declare second]
    let steps : List Enrollment := sound ++ [.register 19 [0x3000, 0x2000, 0x3001]]
    let registry := Registry.standard.followAll steps
    let r : Record := { kind := 0x2001, truncated := true }
    let p : Progress := ⟨{}, { records := [r] }, {}⟩
    Registry.standard.Sound ∧ Registry.standard.Declared steps ∧
      Registry.standard.followAll (sound.take 3) = Registry.standard.followAll (sound.take 2) ∧
      (∀ other, registry.kindsOf other = (Registry.standard.followAll sound).kindsOf other) ∧
      registry.kindsOf 19 = [Kind.imageSection, 0x2000, 0x2001] ∧
      registry.appliers.get? 0x2000 = some 18 ∧ 0x2001 ∈ registry.kindsOf 18 ∧
      Registry.standard.LeftBehind steps 0x3000 19 ∧
      (p.dispatch registry.applierFor?).progress.tally.faults ≠ [] ∧
      ∀ fault ∈ (p.dispatch registry.applierFor?).progress.tally.faults,
        fault.category ≠ .dispatchMismatch := by
  intro first second sound steps registry r p
  have declared : Registry.standard.Declared steps := by decide +kernel
  obtain ⟨applied, stays, accepted, told⟩ :=
    registration_consistent_unless_cut_short Registry.sound_standard declared
  have complete : ∀ id, ¬ Registry.standard.LeftBehind steps 0x2001 id := by
    rintro id ⟨earlier, front, taken, back, later, split, member, -⟩
    have listed : .register id (front ++ taken :: back) ∈ steps := by
      rw [split]
      exact List.mem_append_right _ List.mem_cons_self
    have early : 0x2001 ∈ (front ++ taken :: back).dropLast := by
      rw [List.dropLast_append_cons]
      exact List.mem_append_left _ member
    simp only [steps, sound, List.mem_append, List.mem_cons, Enrollment.register.injEq,
      reduceCtorEq, false_or, or_false, List.not_mem_nil] at listed
    rcases listed with (⟨-, kinds⟩ | ⟨-, kinds⟩) | ⟨-, kinds⟩ <;> rw [kinds] at early <;>
      revert early <;> decide
  have fails : ((Registry.standard.followAll sound).register 19 [0x3000, 0x2000, 0x3001]).1 =
      some ⟨0x2000, "First"⟩ := by decide +kernel
  have entered : registry.appliers.get? 0x2001 = some 18 := by decide +kernel
  refine ⟨Registry.sound_standard, declared, ?_, ?_, by decide +kernel, ?_, ?_, ?_,
    by decide +kernel, ?_⟩
  · obtain ⟨-, -, whole, -⟩ := applied (sound.take 2) 18 [0x2001] _ rfl
    refine whole (by decide +kernel) fun kind member => ?_
    rw [List.mem_singleton.1 member]
    exact complete 18
  · obtain ⟨-, -, -, cut⟩ := applied sound 19 _ [] rfl
    obtain ⟨_, _, _, -, -, -, kept, -⟩ := cut _ fails
    exact kept
  · exact stays (sound.take 2) (sound.drop 2 ++ [.register 19 [0x3000, 0x2000, 0x3001]]) _ _ rfl
      (by decide +kernel)
  · exact (accepted _ _ entered).resolve_right (complete 18)
  · exact (accepted _ _ (by decide +kernel)).resolve_left (by decide +kernel)
  · intro fault member
    have applier : registry.applierFor? r.kind =
        some ⟨"First", [Kind.imageSection, 0x2000, 0x2001], .change .imageSection, none⟩ := rfl
    rcases told p r _ rfl applier trivial complete fault member with old | other | ⟨looks, -⟩
    · cases old
    · exact other
    · cases looks

/-- An applier derived from that of sections is registered for a new kind and for that of sections,
which is taken. The new kind stays entered for an applier that does not accept it. -/
theorem registration_cut_short_keeps_kind :
    let registry := (Registry.standard.derive "Late" 14).2
    let applied := registry.register 18 [0x2000, Kind.imageSection]
    let p : Progress := ⟨{}, { records := [{ kind := 0x2000 }] }, {}⟩
    Registry.standard.find? "SectionApplier" = some 14 ∧
      applied.1 = some ⟨Kind.imageSection, "SectionApplier"⟩ ∧
      registry.appliers.get? 0x2000 = none ∧ applied.2.appliers.get? 0x2000 = some 18 ∧
      applied.2.kindsOf 18 = [Kind.imageSection] ∧
      (p.dispatch registry.applierFor?).progress.tally.skips = [⟨0, some 0x2000, .noApplier⟩] ∧
      (p.dispatch applied.2.applierFor?).progress.tally.faults =
        [⟨0, some 0x2000, .wrongKind "Late" 0x2000⟩] := by
  decide +kernel

end SymbolRecovery
