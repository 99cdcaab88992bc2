/-!
Tables in insertion order. A key occurs once; putting a new value under a known key keeps the
key's place, and a key that was taken out and put in again goes to the end.
-/
namespace SymbolRecovery

structure Table (α β : Type) where
  entries : List (α × β) := []
deriving Repr, DecidableEq

namespace Table
variable {α β : Type} [DecidableEq α]

def find? (key : α) : List (α × β) → Option β
  | [] => none
  | entry :: rest => if entry.1 = key then some entry.2 else find? key rest

def get? (t : Table α β) (key : α) : Option β := find? key t.entries

def contains (t : Table α β) (key : α) : Bool := (t.get? key).isSome

def keys (t : Table α β) : List α := t.entries.map (·.1)

def values (t : Table α β) : List β := t.entries.map (·.2)

def size (t : Table α β) : Nat := t.entries.length

def put (key : α) (value : β) : List (α × β) → List (α × β)
  | [] => [(key, value)]
  | entry :: rest =>
    if entry.1 = key then (key, value) :: rest else entry :: put key value rest

def insert (t : Table α β) (key : α) (value : β) : Table α β :=
  { entries := put key value t.entries }

def erase (t : Table α β) (key : α) : Table α β :=
  { entries := t.entries.filter fun entry => entry.1 ≠ key }

/-- Same keys with same values, in whatever order. -/
def same [DecidableEq β] (s t : Table α β) : Bool :=
  s.size = t.size && s.entries.all fun entry => t.get? entry.1 = some entry.2

theorem find?_put (key other : α) (value : β) (entries : List (α × β)) :
    find? other (put key value entries) =
      if key = other then some value else find? other entries := by
  induction entries with
  | nil => simp [put, find?]
  | cons entry rest ih =>
    by_cases here : entry.1 = key
    · subst here
      by_cases same : entry.1 = other <;> simp [put, find?, same]
    · by_cases same : entry.1 = other
      · subst same
        simp [put, find?, here, Ne.symm here]
      · simp [put, find?, here, same, ih]

theorem keys_put (key : α) (value : β) (entries : List (α × β)) :
    (put key value entries).map (·.1) =
      if key ∈ entries.map (·.1) then entries.map (·.1) else entries.map (·.1) ++ [key] := by
  induction entries with
  | nil => simp [put]
  | cons entry rest ih =>
    by_cases here : entry.1 = key
    · simp [put, here]
    · have there : ¬ key = entry.1 := fun same => here same.symm
      simp only [put, here, ↓reduceIte, List.map_cons, ih, List.mem_cons, there, false_or]
      split <;> rfl

theorem find?_filter_ne (key other : α) (entries : List (α × β)) :
    find? other (entries.filter fun entry => entry.1 ≠ key) =
      if key = other then none else find? other entries := by
  induction entries with
  | nil => simp [find?]
  | cons entry rest ih =>
    by_cases here : entry.1 = key
    · subst here
      by_cases same : entry.1 = other <;> simp_all [find?]
    · by_cases same : entry.1 = other
      · subst same
        simp [find?, here, Ne.symm here]
      · simp_all [find?]

theorem mem_of_find? {key : α} {value : β} {entries : List (α × β)}
    (found : find? key entries = some value) : (key, value) ∈ entries := by
  induction entries with
  | nil => simp [find?] at found
  | cons entry rest ih =>
    unfold find? at found
    split at found
    · next here =>
      cases found
      subst here
      exact List.mem_cons_self
    · exact List.mem_cons_of_mem entry (ih found)

theorem get?_insert (t : Table α β) (key other : α) (value : β) :
    (t.insert key value).get? other = if key = other then some value else t.get? other :=
  find?_put key other value t.entries

theorem keys_insert (t : Table α β) (key : α) (value : β) :
    (t.insert key value).keys = if key ∈ t.keys then t.keys else t.keys ++ [key] :=
  keys_put key value t.entries

theorem get?_erase (t : Table α β) (key other : α) :
    (t.erase key).get? other = if key = other then none else t.get? other :=
  find?_filter_ne key other t.entries

theorem mem_keys_iff (t : Table α β) (key : α) : key ∈ t.keys ↔ (t.get? key).isSome := by
  obtain ⟨entries⟩ := t
  simp only [keys, get?]
  induction entries with
  | nil => simp [find?]
  | cons entry rest ih =>
    by_cases here : entry.1 = key
    · simp [find?, here]
    · have there : ¬ key = entry.1 := fun same => here same.symm
      simp only [List.map_cons, List.mem_cons, there, false_or, find?, here, ↓reduceIte, ih]

end Table
end SymbolRecovery
