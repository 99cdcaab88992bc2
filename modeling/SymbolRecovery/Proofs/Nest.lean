/-!
How scopes lie within one another, without what is in them. Scopes are numbered as they are found;
each may have a parent and lists its children, and some of them are open. Main statement: finding a
scope inside the innermost open one, finding one that is kept nowhere and closing scopes all keep
the numbers between a scope and one of its descendants below that scope.
-/
namespace SymbolRecovery

structure Link where
  parent : Option Nat := none
  children : List Nat := []
  position : Int
deriving Repr, DecidableEq

/-- Scopes with those that have no parent, in the order in which they were found, and the open
ones, the innermost first. -/
structure Nest where
  links : List Link := []
  top : List Nat := []
  frames : List Nat := []
deriving Repr, DecidableEq

namespace Nest

def size (n : Nest) : Nat := n.links.length

def parent? (n : Nest) (id : Nat) : Option Nat := n.links[id]?.bind (·.parent)

def children (n : Nest) (id : Nat) : List Nat := (n.links[id]?.map (·.children)).getD []

def position? (n : Nest) (id : Nat) : Option Int := n.links[id]?.map (·.position)

def hold (n : Nest) (position : Int) : Nest :=
  { n with links := n.links ++ [{ position }], frames := n.size :: n.frames }

def enter (n : Nest) (position : Int) : Nest :=
  let attached := match n.frames.head? with
    | some owner => { n with
        links := n.links.modify owner fun link =>
          { link with children := link.children ++ [n.size] } }
    | none => { n with top := n.top ++ [n.size] }
  { attached with
    links := attached.links ++ [{ parent := n.frames.head?, position }]
    frames := n.size :: n.frames }

variable {n : Nest} {id child owner : Nat} {position : Int}

theorem lt_size_of_parent? (has : n.parent? id = some owner) : id < n.size := by
  obtain ⟨link, here, -⟩ := Option.bind_eq_some_iff.1 has
  exact (List.getElem?_eq_some_iff.1 here).1

theorem lt_size_of_position? (has : n.position? id = some position) : id < n.size := by
  obtain ⟨link, here, -⟩ := Option.map_eq_some_iff.1 has
  exact (List.getElem?_eq_some_iff.1 here).1

theorem getElem?_links_of_le (behind : n.size ≤ id) : n.links[id]? = none :=
  List.getElem?_eq_none behind

theorem getElem?_append_new {α : Type} (l : List α) (a : α) (i : Nat) :
    (l ++ [a])[i]? = if i = l.length then some a else l[i]? := by
  rcases Nat.lt_trichotomy i l.length with old | new | none
  · rw [List.getElem?_append_left old, if_neg (Nat.ne_of_lt old)]
  · rw [if_pos new, new, List.getElem?_concat_length]
  · rw [if_neg (Nat.ne_of_gt none), List.getElem?_eq_none (Nat.le_of_lt none),
      List.getElem?_eq_none (by simp; omega)]

theorem getElem?_links_hold :
    (n.hold position).links[id]? = if id = n.size then some { position } else n.links[id]? :=
  getElem?_append_new _ _ _

theorem getElem?_links_enter :
    (n.enter position).links[id]? =
      if id = n.size then some { parent := n.frames.head?, position }
      else n.links[id]?.map fun link =>
        if n.frames.head? = some id then { link with children := link.children ++ [n.size] }
        else link := by
  unfold enter
  cases n.frames.head? with
  | none => simp [getElem?_append_new, size]
  | some owner =>
    simp only [getElem?_append_new, List.length_modify, List.getElem?_modify, Option.some.injEq]
    rfl

@[simp] theorem size_hold : (n.hold position).size = n.size + 1 := by
  simp [hold, size]

@[simp] theorem size_enter : (n.enter position).size = n.size + 1 := by
  unfold enter
  cases n.frames.head? <;> simp [size]

@[simp] theorem parent?_hold : (n.hold position).parent? id = n.parent? id := by
  simp only [parent?, getElem?_links_hold]
  split
  · next new => rw [getElem?_links_of_le (Nat.le_of_eq new.symm)]; rfl
  · rfl

theorem parent?_enter :
    (n.enter position).parent? id = if id = n.size then n.frames.head? else n.parent? id := by
  simp only [parent?, getElem?_links_enter]
  split
  · rfl
  · rw [Option.bind_map]
    congr 1
    funext link
    simp only [Function.comp_apply]
    split <;> rfl

@[simp] theorem children_hold : (n.hold position).children id = n.children id := by
  simp only [children, getElem?_links_hold]
  split
  · next new => rw [getElem?_links_of_le (Nat.le_of_eq new.symm)]; rfl
  · rfl

theorem children_enter (known : ∀ owner ∈ n.frames, owner < n.size) :
    (n.enter position).children id =
      if n.frames.head? = some id then n.children id ++ [n.size] else n.children id := by
  simp only [children, getElem?_links_enter]
  split
  · next new =>
    have other : n.frames.head? ≠ some id := by
      intro same
      have old := known id (List.mem_of_head? same)
      omega
    rw [if_neg other, getElem?_links_of_le (Nat.le_of_eq new.symm)]
    rfl
  · split
    · next inner =>
      have old := known id (List.mem_of_head? inner)
      rw [List.getElem?_eq_getElem old]
      rfl
    · simp

theorem position?_hold :
    (n.hold position).position? id = if id = n.size then some position else n.position? id := by
  simp only [position?, getElem?_links_hold]
  split <;> rfl

theorem position?_enter :
    (n.enter position).position? id = if id = n.size then some position else n.position? id := by
  simp only [position?, getElem?_links_enter]
  split
  · rfl
  · rw [Option.map_map]
    congr 1
    funext link
    simp only [Function.comp_apply]
    split <;> rfl

@[simp] theorem top_hold : (n.hold position).top = n.top := rfl

theorem top_enter :
    (n.enter position).top = if n.frames.head? = none then n.top ++ [n.size] else n.top := by
  unfold enter
  cases n.frames.head? <;> simp

@[simp] theorem frames_hold : (n.hold position).frames = n.size :: n.frames := rfl

@[simp] theorem frames_enter : (n.enter position).frames = n.size :: n.frames := rfl

def Within (n : Nest) (outer id : Nat) : Prop :=
  id ∉ n.top ∧ ∀ owner, n.parent? id = some owner → outer ≤ owner

/-- References agree in both directions and follow the order in which the scopes were found. The
scopes found since a scope was opened lie within it while it is open; so those found between a
scope and a child of it lie within the scope, too, since it was still open when the child came. -/
structure Ordered (n : Nest) : Prop where
  owner_lt : ∀ {id owner}, n.parent? id = some owner → owner < id
  child_iff : ∀ {id child}, child ∈ n.children id ↔ n.parent? child = some id
  children_ascend : ∀ id, (n.children id).Pairwise (· < ·)
  root : ∀ {id}, id ∈ n.top → id < n.size ∧ n.parent? id = none
  top_ascends : n.top.Pairwise (· < ·)
  frame_known : ∀ {id}, id ∈ n.frames → id < n.size
  frames_descend : n.frames.Pairwise (· > ·)
  within_frame : ∀ {outer id}, outer ∈ n.frames → outer < id → n.Within outer id
  within_parent : ∀ {outer id last}, n.parent? last = some outer → outer < id → id ≤ last →
    n.Within outer id

theorem ordered_empty : Ordered {} := by
  constructor <;> simp [parent?, children]

variable {outer : Nat} {frames : List Nat}

theorem parent?_of_le (behind : n.size ≤ id) : n.parent? id = none := by
  rw [parent?, getElem?_links_of_le behind]
  rfl

theorem within_of_le (known : ∀ id ∈ n.top, id < n.size) (behind : n.size ≤ id) :
    n.Within outer id := by
  constructor
  · intro top
    have found := known id top
    omega
  · intro owner has
    rw [parent?_of_le behind] at has
    cases has

theorem Ordered.of_sublist (ordered : n.Ordered) (closes : frames.Sublist n.frames) :
    Ordered { n with frames } where
  owner_lt := ordered.owner_lt
  child_iff := ordered.child_iff
  children_ascend := ordered.children_ascend
  root := ordered.root
  top_ascends := ordered.top_ascends
  frame_known := fun member => ordered.frame_known (closes.subset member)
  frames_descend := ordered.frames_descend.sublist closes
  within_frame := fun member => ordered.within_frame (closes.subset member)
  within_parent := ordered.within_parent

theorem Ordered.hold (ordered : n.Ordered) (position : Int) : (n.hold position).Ordered where
  owner_lt := by
    intro id owner has
    rw [parent?_hold] at has
    exact ordered.owner_lt has
  child_iff := by
    intro id child
    rw [children_hold, parent?_hold]
    exact ordered.child_iff
  children_ascend := by
    intro id
    rw [children_hold]
    exact ordered.children_ascend id
  root := by
    intro id member
    obtain ⟨known, none⟩ := ordered.root member
    rw [size_hold, parent?_hold]
    exact ⟨Nat.lt_succ_of_lt known, none⟩
  top_ascends := ordered.top_ascends
  frame_known := by
    intro id member
    rw [size_hold]
    rcases List.mem_cons.1 member with new | old
    · omega
    · exact Nat.lt_succ_of_lt (ordered.frame_known old)
  frames_descend := by
    rw [frames_hold, List.pairwise_cons]
    exact ⟨fun id old => ordered.frame_known old, ordered.frames_descend⟩
  within_frame := by
    intro outer id member behind
    rw [frames_hold] at member
    simp only [Within, top_hold, parent?_hold]
    rcases List.mem_cons.1 member with new | old
    · exact within_of_le (fun id top => (ordered.root top).1) (by omega)
    · exact ordered.within_frame old behind
  within_parent := by
    intro outer id last has behind before
    rw [parent?_hold] at has
    simp only [Within, top_hold, parent?_hold]
    exact ordered.within_parent has behind before

theorem within_enter (old : id < n.size) (within : n.Within outer id) :
    (n.enter position).Within outer id := by
  obtain ⟨inner, owners⟩ := within
  constructor
  · rw [top_enter]
    split
    · simp only [List.mem_append, List.mem_singleton, not_or]
      exact ⟨inner, Nat.ne_of_lt old⟩
    · exact inner
  · intro owner has
    rw [parent?_enter, if_neg (Nat.ne_of_lt old)] at has
    exact owners owner has

theorem Ordered.new_within (ordered : n.Ordered) (opened : outer ∈ n.frames) :
    (n.enter position).Within outer n.size := by
  cases frames : n.frames with
  | nil => simp [frames] at opened
  | cons inner below =>
    constructor
    · intro top
      rw [top_enter, frames] at top
      have known := (ordered.root top).1
      omega
    · intro owner has
      rw [parent?_enter, if_pos rfl, frames] at has
      cases has
      rw [frames] at opened
      have descend := ordered.frames_descend
      rw [frames, List.pairwise_cons] at descend
      rcases List.mem_cons.1 opened with same | lower
      · exact Nat.le_of_eq same
      · exact Nat.le_of_lt (descend.1 outer lower)

theorem Ordered.root_enter (ordered : n.Ordered) (member : id ∈ (n.enter position).top) :
    id < (n.enter position).size ∧ (n.enter position).parent? id = none := by
  rw [size_enter, parent?_enter]
  rw [top_enter] at member
  have old : id ∈ n.top → id < n.size + 1 ∧
      (if id = n.size then n.frames.head? else n.parent? id) = none := by
    intro top
    obtain ⟨known, parentless⟩ := ordered.root top
    rw [if_neg (Nat.ne_of_lt known)]
    exact ⟨Nat.lt_succ_of_lt known, parentless⟩
  split at member
  · next none =>
    rcases List.mem_append.1 member with top | new
    · exact old top
    · have new := List.mem_singleton.1 new
      rw [if_pos new, new]
      exact ⟨Nat.lt_succ_self _, none⟩
  · exact old member

theorem Ordered.enter (ordered : n.Ordered) (position : Int) : (n.enter position).Ordered where
  owner_lt := by
    intro id owner has
    rw [parent?_enter] at has
    split at has
    · next new =>
      rw [new]
      exact ordered.frame_known (List.mem_of_head? has)
    · exact ordered.owner_lt has
  child_iff := by
    intro id child
    rw [children_enter fun _ => ordered.frame_known, parent?_enter]
    have fresh : child = n.size → child ∉ n.children id := by
      intro new member
      have known := lt_size_of_parent? (ordered.child_iff.1 member)
      omega
    by_cases new : child = n.size
    · rw [if_pos new]
      by_cases inner : n.frames.head? = some id
      · simp [inner, new]
      · simp [inner, fresh new]
    · rw [if_neg new, ← ordered.child_iff]
      by_cases inner : n.frames.head? = some id
      · simp [inner, new]
      · simp [inner]
  children_ascend := by
    intro id
    rw [children_enter fun _ => ordered.frame_known]
    split
    · refine List.pairwise_append.2 ⟨ordered.children_ascend id, List.pairwise_singleton _ _, ?_⟩
      intro child old new last
      rw [List.mem_singleton.1 last]
      exact lt_size_of_parent? (ordered.child_iff.1 old)
    · exact ordered.children_ascend id
  root := fun member => ordered.root_enter member
  top_ascends := by
    rw [top_enter]
    split
    · refine List.pairwise_append.2 ⟨ordered.top_ascends, List.pairwise_singleton _ _, ?_⟩
      intro id old new last
      rw [List.mem_singleton.1 last]
      exact (ordered.root old).1
    · exact ordered.top_ascends
  frame_known := by
    intro id member
    rw [size_enter]
    rcases List.mem_cons.1 member with new | old
    · omega
    · exact Nat.lt_succ_of_lt (ordered.frame_known old)
  frames_descend := by
    rw [frames_enter, List.pairwise_cons]
    exact ⟨fun id old => ordered.frame_known old, ordered.frames_descend⟩
  within_frame := by
    intro outer id member behind
    rw [frames_enter] at member
    rcases Nat.lt_trichotomy id n.size with old | new | none
    · rcases List.mem_cons.1 member with last | opened
      · omega
      · exact within_enter old (ordered.within_frame opened behind)
    · subst new
      rcases List.mem_cons.1 member with last | opened
      · omega
      · exact ordered.new_within opened
    · refine within_of_le (fun id top => (ordered.root_enter top).1) ?_
      rw [size_enter]
      exact none
  within_parent := by
    intro outer id last has behind before
    rw [parent?_enter] at has
    split at has
    · next new =>
      have opened := List.mem_of_head? has
      rcases Nat.lt_or_eq_of_le (new ▸ before) with old | same
      · exact within_enter old (ordered.within_frame opened behind)
      · rw [same]
        exact ordered.new_within opened
    · have known := lt_size_of_parent? has
      exact within_enter (Nat.lt_of_le_of_lt before known)
        (ordered.within_parent has behind before)

end Nest
end SymbolRecovery
