import Mathlib.Data.List.Nodup
import SymbolRecovery.Table

/-!
Tables as functions. Every operation keeps the keys distinct, and a table with distinct keys holds
exactly the entries that it answers with. Main statement: two such tables that give the same answers
are the same table, whatever order their entries came in; and they are equal if the keys have the
same order.
-/
namespace SymbolRecovery.Table
variable {α β γ : Type}

def mapWithKeys (f : α → β → γ) (t : Table α β) : Table α γ :=
  { entries := t.entries.map fun entry => (entry.1, f entry.1 entry.2) }

def mapValues (f : β → γ) (t : Table α β) : Table α γ := t.mapWithKeys fun _ => f

theorem keys_mapValues (f : β → γ) (t : Table α β) : (t.mapValues f).keys = t.keys := by
  simp [mapValues, mapWithKeys, keys]

variable [DecidableEq α] {s t : Table α β} {key : α} {value : β}

theorem nodup_keys_insert (distinct : t.keys.Nodup) (key : α) (value : β) :
    (t.insert key value).keys.Nodup := by
  rw [keys_insert]
  split
  · exact distinct
  · next fresh =>
    refine List.nodup_append.2 ⟨distinct, List.nodup_singleton key, ?_⟩
    intro other old last new same
    rw [List.mem_singleton.1 new] at same
    exact fresh (same ▸ old)

theorem nodup_keys_erase (distinct : t.keys.Nodup) (key : α) : (t.erase key).keys.Nodup :=
  distinct.sublist (List.filter_sublist.map _)

theorem get?_of_mem (distinct : t.keys.Nodup) (member : (key, value) ∈ t.entries) :
    t.get? key = some value := by
  obtain ⟨entries⟩ := t
  simp only [keys, get?] at distinct member ⊢
  induction entries with
  | nil => simp at member
  | cons entry rest ih =>
    rw [List.map_cons, List.nodup_cons] at distinct
    rcases List.mem_cons.1 member with here | later
    · simp [find?, ← here]
    · have elsewhere : entry.1 ≠ key := by
        intro same
        exact distinct.1 (same ▸ List.mem_map_of_mem later)
      rw [find?, if_neg elsewhere]
      exact ih distinct.2 later

theorem mem_entries_iff (distinct : t.keys.Nodup) :
    (key, value) ∈ t.entries ↔ t.get? key = some value :=
  ⟨get?_of_mem distinct, mem_of_find?⟩

theorem mem_values_iff (distinct : t.keys.Nodup) :
    value ∈ t.values ↔ ∃ key, t.get? key = some value := by
  simp only [values, List.mem_map, ← mem_entries_iff distinct, Prod.exists, exists_eq_right]

theorem get?_mapWithKeys (f : α → β → γ) (t : Table α β) (key : α) :
    (t.mapWithKeys f).get? key = (t.get? key).map (f key) := by
  obtain ⟨entries⟩ := t
  simp only [mapWithKeys, get?]
  induction entries with
  | nil => rfl
  | cons entry rest ih =>
    rw [List.map_cons, find?, find?, ih]
    split
    · next here => rw [← here, Option.map_some]
    · rfl

theorem get?_mapValues (f : β → γ) (t : Table α β) (key : α) :
    (t.mapValues f).get? key = (t.get? key).map f :=
  get?_mapWithKeys _ t key

theorem find?_append (key : α) (first second : List (α × β)) :
    find? key (first ++ second) = (find? key first).or (find? key second) := by
  induction first with
  | nil => rfl
  | cons entry rest ih =>
    rw [List.cons_append, find?, find?, ih]
    split <;> rfl

theorem find?_map_pair (key : α) (value : β) (keys : List α) :
    find? key (keys.map (·, value)) = if key ∈ keys then some value else none := by
  induction keys with
  | nil => rfl
  | cons first rest ih =>
    rw [List.map_cons, find?, ih]
    by_cases here : first = key
    · rw [if_pos here, if_pos (by simp [here])]
    · simp [here, Ne.symm here]

theorem entries_insert_of_new (new : t.get? key = none) (value : β) :
    (t.insert key value).entries = t.entries ++ [(key, value)] := by
  obtain ⟨entries⟩ := t
  simp only [get?, insert] at new ⊢
  induction entries with
  | nil => rfl
  | cons entry rest ih =>
    unfold find? at new
    split at new
    · cases new
    · next elsewhere => rw [put, if_neg elsewhere, ih new, List.cons_append]

theorem entries_eq_of_distinct (distinct : t.keys.Nodup) :
    t.entries = t.keys.filterMap fun key => (t.get? key).map (key, ·) := by
  have found : ∀ entry ∈ t.entries,
      (t.get? entry.1).map (entry.1, ·) = some entry := by
    intro entry member
    rw [get?_of_mem distinct member, Option.map_some]
  rw [keys, List.filterMap_map]
  exact (List.filterMap_some).symm.trans (List.filterMap_congr fun e m => (found e m).symm)

theorem eq_of_get?_eq (distinct : s.keys.Nodup) (keys : s.keys = t.keys)
    (alike : ∀ key, s.get? key = t.get? key) : s = t := by
  have entries : s.entries = t.entries := by
    rw [entries_eq_of_distinct distinct, entries_eq_of_distinct (keys ▸ distinct), keys]
    simp only [alike]
  cases s
  cases t
  rw [mk.injEq]
  exact entries

theorem insert_of_get? (there : t.get? key = some value) : t.insert key value = t := by
  obtain ⟨entries⟩ := t
  simp only [get?, insert, mk.injEq] at there ⊢
  induction entries with
  | nil => cases there
  | cons entry rest ih =>
    unfold find? at there
    unfold put
    split at there
    · next here =>
      cases there
      rw [if_pos here, ← here]
    · next elsewhere => rw [if_neg elsewhere, ih there]

theorem mapValues_insert (f : β → γ) (t : Table α β) (key : α) (value : β) :
    (t.insert key value).mapValues f = (t.mapValues f).insert key (f value) := by
  obtain ⟨entries⟩ := t
  simp only [mapValues, mapWithKeys, insert, mk.injEq]
  induction entries with
  | nil => rfl
  | cons entry rest ih =>
    simp only [put, List.map_cons]
    split
    · rfl
    · rw [List.map_cons, ih]

theorem same_of_get?_eq [DecidableEq β] (left : s.keys.Nodup) (right : t.keys.Nodup)
    (alike : ∀ key, s.get? key = t.get? key) : s.same t = true := by
  have keys : s.keys.Perm t.keys := by
    rw [List.perm_ext_iff_of_nodup left right]
    intro key
    rw [mem_keys_iff, mem_keys_iff, alike]
  have sizes : s.size = t.size := by
    simpa [Table.keys, size] using keys.length_eq
  simp only [same, sizes, decide_true, Bool.true_and, List.all_eq_true, decide_eq_true_eq]
  intro entry member
  rw [← alike]
  exact get?_of_mem left member

end SymbolRecovery.Table
