import Mathlib.Algebra.Ring.Nat
import SymbolRecovery.Change

/-!
What the checks of fields come to, each as a case distinction on the value. Main statement: under a
limit on the numbers in messages a record is read as without one, except that an error with too long
a number in it is replaced.
-/
namespace SymbolRecovery

@[simp] theorem FieldError.within_none (e : FieldError) : e.within none = e := rfl

theorem FieldError.within_cases (digits : Option Nat) (e : FieldError) :
    e.within digits = e ∨ ∃ n, digits = some n ∧ e.within digits = .unprintable n := by
  unfold within
  split
  · split
    · exact .inl rfl
    · exact .inr ⟨_, rfl, rfl⟩
  · exact .inl rfl

@[simp] theorem Field.sectionMin_true : Field.sectionMin true = 0 := rfl

@[simp] theorem Field.sectionMin_false : Field.sectionMin false = 1 := rfl

namespace Field
variable {value checked : Int} {field : String} {allowZero : Bool} {digits : Option Nat}

theorem checkSection_eq (value : Int) (field : String) (allowZero : Bool) (digits : Option Nat) :
    checkSection value field allowZero digits =
      if value < sectionMin allowZero ∨ 0xFFFF < value then
        .error (FieldError.within digits (.sectionIndex field value (sectionMin allowZero)))
      else .ok value := by
  unfold checkSection sectionMax
  by_cases within : sectionMin allowZero ≤ value ∧ value ≤ 0xFFFF
  · have inside : ¬ (value < sectionMin allowZero ∨ 0xFFFF < value) := by omega
    simp [within, inside]
  · have outside : value < sectionMin allowZero ∨ 0xFFFF < value := by omega
    simp [within, outside]

theorem checkRange_eq (value : Int) (field : String) :
    checkRange value field =
      if value < 0 ∨ 0xFFFFFFFF < value then .error (.range field value) else .ok value := by
  unfold checkRange addressMax
  by_cases within : 0 ≤ value ∧ value ≤ 0xFFFFFFFF
  · have inside : ¬ (value < 0 ∨ 0xFFFFFFFF < value) := by omega
    simp [within, inside]
  · have outside : value < 0 ∨ 0xFFFFFFFF < value := by omega
    simp [within, outside]

theorem checkAlignment_eq (value : Int) (digits : Option Nat) :
    checkAlignment value digits =
      if value < 0 ∨ 13 < value then .error (FieldError.within digits (.alignment value))
      else .ok value := by
  unfold checkAlignment alignmentMax
  by_cases within : 0 ≤ value ∧ value ≤ 13
  · have inside : ¬ (value < 0 ∨ 13 < value) := by omega
    simp [within, inside]
  · have outside : value < 0 ∨ 13 < value := by omega
    simp [within, outside]

theorem checkSection_eq_ok :
    checkSection value field allowZero digits = .ok checked ↔
      (sectionMin allowZero ≤ value ∧ value ≤ 0xFFFF) ∧ checked = value := by
  rw [checkSection_eq, ← Int.not_lt, ← Int.not_lt, ← not_or]
  split <;> simp [*, eq_comm]

theorem checkRange_eq_ok :
    checkRange value field = .ok checked ↔
      (0 ≤ value ∧ value ≤ 0xFFFFFFFF) ∧ checked = value := by
  rw [checkRange_eq, ← Int.not_lt, ← Int.not_lt, ← not_or]
  split <;> simp [*, eq_comm]

theorem checkAlignment_eq_ok :
    checkAlignment value digits = .ok checked ↔ (0 ≤ value ∧ value ≤ 13) ∧ checked = value := by
  rw [checkAlignment_eq, ← Int.not_lt, ← Int.not_lt, ← not_or]
  split <;> simp [*, eq_comm]

theorem checkSection_eq_unprintable {n : Nat} :
    checkSection value field allowZero (some n) = .error (.unprintable n) ↔
      (value < sectionMin allowZero ∨ 0xFFFF < value) ∧ 10 ^ n ≤ value.natAbs := by
  rw [checkSection_eq, ← Nat.not_lt]
  split
  · simp [*, FieldError.within, FieldError.decimal?, Nat.pow_eq]
  · simp [*]

theorem checkAlignment_eq_unprintable {n : Nat} :
    checkAlignment value (some n) = .error (.unprintable n) ↔
      (value < 0 ∨ 13 < value) ∧ 10 ^ n ≤ value.natAbs := by
  rw [checkAlignment_eq, ← Nat.not_lt]
  split
  · simp [*, FieldError.within, FieldError.decimal?, Nat.pow_eq]
  · simp [*]

section
variable {α β : Type} {check : Except FieldError α} {later : α → Except FieldError β}
  {result : β} {e : FieldError}

theorem bind_eq_ok :
    (check >>= later) = .ok result ↔ ∃ first, check = .ok first ∧ later first = .ok result := by
  cases check <;> simp [bind, Except.bind]

theorem bind_eq_error : (check >>= later) = .error e ↔
    check = .error e ∨ ∃ first, check = .ok first ∧ later first = .error e := by
  cases check <;> simp [bind, Except.bind]

theorem map_eq_ok {f : α → β} :
    check.map f = .ok result ↔ ∃ checked, check = .ok checked ∧ f checked = result := by
  cases check <;> simp [Except.map]

theorem map_eq_error {f : α → β} : check.map f = .error e ↔ check = .error e := by
  cases check <;> simp [Except.map]

end

/-- What is read under a limit is what is read without one, but that an error with too long a number
in it is replaced. -/
structure Limits {α : Type} (read : Option Nat → Except FieldError α) : Prop where
  within : ∀ digits, read digits = (read none).mapError (FieldError.within digits)
  told : ∀ n, read none ≠ .error (.unprintable n)

section
variable {α β : Type} {read : Option Nat → Except FieldError α} {n : Nat}

theorem limits_ok (a : α) : Limits fun _ => .ok a := ⟨fun _ => rfl, fun _ => nofun⟩

theorem limits_checkSection (value : Int) (field : String) (allowZero : Bool) :
    Limits fun digits => checkSection value field allowZero digits where
  within digits := by
    rw [checkSection_eq, checkSection_eq]
    split <;> rfl
  told n := by
    rw [checkSection_eq]
    split <;> simp [FieldError.within]

theorem limits_checkAlignment (value : Int) :
    Limits fun digits => checkAlignment value digits where
  within digits := by
    rw [checkAlignment_eq, checkAlignment_eq]
    split <;> rfl
  told n := by
    rw [checkAlignment_eq]
    split <;> simp [FieldError.within]

theorem limits_checkRange (value : Int) (field : String) :
    Limits fun _ => checkRange value field where
  within digits := by
    rw [checkRange_eq]
    split
    · cases digits <;> rfl
    · rfl
  told n := by
    rw [checkRange_eq]
    split <;> simp

theorem checkRange_ne_unprintable {value : Int} {field : String} (n : Nat) :
    checkRange value field ≠ .error (.unprintable n) :=
  (limits_checkRange value field).told n

theorem Limits.bind {later : Option Nat → α → Except FieldError β} (first : Limits read)
    (rest : ∀ a, Limits fun digits => later digits a) :
    Limits fun digits => read digits >>= later digits where
  within digits := by
    rw [first.within digits]
    cases read none with
    | error e => rfl
    | ok a => exact (rest a).within digits
  told n fails := by
    rcases bind_eq_error.1 fails with early | ⟨a, -, late⟩
    · exact first.told n early
    · exact (rest a).told n late

theorem Limits.map (limits : Limits read) (f : α → β) :
    Limits fun digits => (read digits).map f where
  within digits := by
    rw [limits.within digits]
    cases read none <;> rfl
  told n fails := limits.told n (map_eq_error.1 fails)

theorem Limits.eq_some {digits : Option Nat} (limits : Limits read)
    (fails : read digits = .error (.unprintable n)) : digits = some n := by
  rw [limits.within digits] at fails
  cases known : read none with
  | ok value =>
    rw [known] at fails
    cases fails
  | error e =>
    rw [known] at fails
    have long : e.within digits = .unprintable n := Except.error.inj fails
    rcases e.within_cases digits with same | ⟨m, limit, shown⟩
    · exact absurd (known.trans (congrArg Except.error (same.symm.trans long))) (limits.told n)
    · rw [limit, FieldError.unprintable.inj (shown.symm.trans long)]

theorem Limits.eq_of_printable {digits : Option Nat} (limits : Limits read)
    (printable : ∀ e, read none = .error e → e.within digits = e) : read digits = read none := by
  rw [limits.within digits]
  cases known : read none with
  | ok value => rfl
  | error e => exact congrArg Except.error (printable e known)

theorem Limits.ne_unprintable_iff (limits : Limits read) :
    read (some n) ≠ .error (.unprintable n) ↔
      ∀ e, read none = .error e → e.within (some n) = e := by
  constructor
  · intro shown e known
    rcases e.within_cases (some n) with same | ⟨_, ⟨⟩, long⟩
    · exact same
    · rw [limits.within, known] at shown
      exact absurd (congrArg Except.error long) shown
  · intro printable fails
    exact limits.told n (limits.eq_of_printable printable ▸ fails)

end
end Field

section
open SymbolRecovery.Field

theorem Subject.limits (subject : Subject) (r : Record) (position : Nat) :
    Limits fun digits => subject.read r position digits := by
  cases subject with
  | imageSection =>
    exact ((limits_checkSection _ _ _).bind fun _ => (limits_checkRange _ _).bind fun _ =>
      (limits_checkRange _ _).bind fun _ => (limits_checkAlignment _).bind fun _ =>
        limits_ok _).map _
  | sectionGroup =>
    exact ((limits_checkSection _ _ _).bind fun _ => (limits_checkRange _ _).bind fun _ =>
      (limits_checkRange _ _).bind fun _ => limits_ok _).map _
  | symbol =>
    exact ((limits_checkSection _ _ _).bind fun _ => (limits_checkRange _ _).bind fun _ =>
      limits_ok _).map _
  | objectName => exact limits_ok _
  | compiler => exact limits_ok _

theorem ScopeForm.limits (form : ScopeForm) (r : Record) (position : Nat) :
    Limits fun digits => form.read r position digits := by
  unfold read
  split
  · exact (limits_checkSection _ _ _).bind fun _ => (limits_checkRange _ _).bind fun _ =>
      (limits_checkRange _ _).bind fun _ => limits_ok _
  · exact limits_ok _

end
end SymbolRecovery
