import SymbolRecovery.Proofs.Effect

/-!
Asking for records by byte offset. An offset stands for the last record that carries it. Main
statement: where no two records share an offset, a list of records that is cut short answers as
the whole list does, as long as the answer lies inside of it.
-/
namespace SymbolRecovery
variable {offset : Int} {records : List Record} {i j : Nat} {a b : Record}

theorem lastAtOffset?_eq_none_iff :
    lastAtOffset? offset records = none ↔ ∀ r ∈ records, r.offset ≠ some offset := by
  induction records with
  | nil => simp [lastAtOffset?]
  | cons r rest ih =>
    unfold lastAtOffset?
    cases later : lastAtOffset? offset rest with
    | some position =>
      have present : ¬ ∀ r ∈ rest, r.offset ≠ some offset := by
        rw [← ih, later]
        simp
      simp only [List.mem_cons, forall_eq_or_imp, reduceCtorEq, false_iff, not_and]
      exact fun _ => present
    | none =>
      have absent := ih.1 later
      by_cases here : r.offset = some offset <;> simp_all

theorem getElem?_of_lastAtOffset? (found : lastAtOffset? offset records = some i) :
    ∃ r, records[i]? = some r ∧ r.offset = some offset := by
  induction records generalizing i with
  | nil => simp [lastAtOffset?] at found
  | cons r rest ih =>
    unfold lastAtOffset? at found
    split at found
    · next later =>
      cases found
      exact ih later
    · split at found
      · next here =>
        cases found
        exact ⟨r, rfl, here⟩
      · cases found

theorem offset_ne_behind_last (found : lastAtOffset? offset records = some i)
    (behind : i < j) (there : records[j]? = some b) : b.offset ≠ some offset := by
  induction records generalizing i j with
  | nil => simp at there
  | cons r rest ih =>
    obtain ⟨j, rfl⟩ : ∃ k, j = k + 1 := ⟨j - 1, by omega⟩
    rw [List.getElem?_cons_succ] at there
    unfold lastAtOffset? at found
    split at found
    · next later =>
      cases found
      exact ih later (Nat.lt_of_succ_lt_succ behind) there
    · next absent =>
      exact lastAtOffset?_eq_none_iff.1 absent b (List.mem_of_getElem? there)

theorem lastAtOffset?_eq_some_iff :
    lastAtOffset? offset records = some i ↔
      (∃ r, records[i]? = some r ∧ r.offset = some offset) ∧
        ∀ j r, i < j → records[j]? = some r → r.offset ≠ some offset := by
  constructor
  · intro found
    exact ⟨getElem?_of_lastAtOffset? found, fun j r => offset_ne_behind_last found⟩
  · intro ⟨⟨r, here, carries⟩, last⟩
    cases found : lastAtOffset? offset records with
    | none =>
      exact absurd carries (lastAtOffset?_eq_none_iff.1 found r (List.mem_of_getElem? here))
    | some k =>
      obtain ⟨s, there, too⟩ := getElem?_of_lastAtOffset? found
      rcases Nat.lt_trichotomy i k with before | same | behind
      · exact absurd too (last k s before there)
      · rw [same]
      · exact absurd carries (offset_ne_behind_last found behind here)

def DistinctOffsets (records : List Record) : Prop := (records.filterMap (·.offset)).Nodup

instance (records : List Record) : Decidable (DistinctOffsets records) :=
  inferInstanceAs (Decidable (List.Nodup _))

theorem DistinctOffsets.position_eq (distinct : DistinctOffsets records)
    (first : records[i]? = some a) (second : records[j]? = some b)
    (carries : a.offset = some offset) (too : b.offset = some offset) : i = j := by
  unfold DistinctOffsets List.Nodup at distinct
  rw [List.pairwise_filterMap, List.pairwise_iff_getElem] at distinct
  obtain ⟨hi, rfl⟩ := List.getElem?_eq_some_iff.1 first
  obtain ⟨hj, rfl⟩ := List.getElem?_eq_some_iff.1 second
  rcases Nat.lt_trichotomy i j with before | same | behind
  · exact absurd rfl (distinct i j hi hj before offset carries offset too)
  · exact same
  · exact absurd rfl (distinct j i hj hi behind offset too offset carries)

theorem lastAtOffset?_of_distinct (distinct : DistinctOffsets records)
    (here : records[i]? = some a) (carries : a.offset = some offset) :
    lastAtOffset? offset records = some i := by
  refine lastAtOffset?_eq_some_iff.2 ⟨⟨a, here, carries⟩, fun j r behind there too => ?_⟩
  have same := distinct.position_eq here there carries too
  omega

theorem DistinctOffsets.take (distinct : DistinctOffsets records) (m : Nat) :
    DistinctOffsets (records.take m) :=
  distinct.sublist ((List.take_sublist m records).filterMap _)

theorem lastAtOffset?_take (distinct : DistinctOffsets records) (m : Nat) :
    lastAtOffset? offset (records.take m) = (lastAtOffset? offset records).filter (· < m) := by
  cases found : lastAtOffset? offset records with
  | none =>
    refine lastAtOffset?_eq_none_iff.2 fun r member => ?_
    exact lastAtOffset?_eq_none_iff.1 found r (List.mem_of_mem_take member)
  | some i =>
    obtain ⟨r, here, carries⟩ := getElem?_of_lastAtOffset? found
    by_cases inside : i < m
    · have kept : (records.take m)[i]? = some r := by rw [List.getElem?_take_of_lt inside, here]
      rw [lastAtOffset?_of_distinct (distinct.take m) kept carries]
      simp [Option.filter, inside]
    · have lost : lastAtOffset? offset (records.take m) = none := by
        refine lastAtOffset?_eq_none_iff.2 fun s member too => ?_
        obtain ⟨j, within, rfl⟩ := List.getElem_of_mem member
        rw [List.getElem_take] at too
        rw [List.length_take] at within
        have same := distinct.position_eq here (List.getElem?_eq_getElem _) carries too
        omega
      simp [lost, Option.filter, inside]

namespace Cursor

def take (cursor : Cursor) (m : Nat) : Cursor := ⟨cursor.records.take m, cursor.position⟩

@[simp] theorem take_records (cursor : Cursor) (m : Nat) :
    (cursor.take m).records = cursor.records.take m := rfl

@[simp] theorem take_position (cursor : Cursor) (m : Nat) :
    (cursor.take m).position = cursor.position := rfl

theorem peek?_take {cursor : Cursor} {m : Nat} (inside : cursor.position < m) :
    (cursor.take m).peek? = cursor.peek? :=
  List.getElem?_take_of_lt inside

theorem target?_take {cursor : Cursor} (distinct : DistinctOffsets cursor.records) (m : Nat)
    (endOffset : Int) (endKinds : List Kind) :
    (cursor.take m).target? endOffset endKinds =
      (cursor.target? endOffset endKinds).filter (· < m) := by
  unfold target? indexOf? take
  rw [lastAtOffset?_take distinct]
  cases lastAtOffset? endOffset cursor.records with
  | none => rfl
  | some target =>
    by_cases inside : target < m
    · simp only [Option.filter, inside, decide_true, ↓reduceIte, List.getElem?_take_of_lt inside]
      split <;> simp_all
    · simp only [Option.filter, inside, decide_false, Bool.false_eq_true, ↓reduceIte]
      split <;> simp_all

theorem following_take {cursor : Cursor} {descends : Bool} {m : Nat} (effect : Effect)
    (distinct : descends = false → DistinctOffsets cursor.records)
    (inside : cursor.following descends effect < m) :
    (cursor.take m).following descends effect = cursor.following descends effect := by
  unfold following at inside ⊢
  split at inside
  · next form s endOffset =>
    cases descends with
    | true => rfl
    | false =>
      simp only [Bool.false_eq_true, ↓reduceIte] at inside ⊢
      rw [target?_take (distinct rfl)]
      cases found : cursor.target? endOffset form.endKinds with
      | none => rfl
      | some target =>
        simp only [found, Option.getD_some] at inside
        simp [Option.filter, inside]
  · rfl

end Cursor
end SymbolRecovery
