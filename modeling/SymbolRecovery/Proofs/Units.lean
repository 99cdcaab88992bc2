import SymbolRecovery.Proofs.Descent
import SymbolRecovery.Proofs.Descriptions

/-!
Compile units and what belongs to them. The record of an object file begins a unit, and the record
of a compiler completes the unit that was begun last, or begins an unnamed one if there is none. A
unit is completed after symbols and scopes have taken its name. Main statement: a descending run
leaves the units that the records describe, and every symbol and every scope that was opened has the
name of the unit that was begun last before it.
-/
namespace SymbolRecovery
open Lookup (standard)

theorem Record.IsCompiler.not_isObjectName {r : Record} (isCompiler : r.IsCompiler) :
    ¬ r.IsObjectName := by
  intro isObjectName
  have same := isCompiler.1.symm.trans isObjectName.1
  exact absurd same (by decide)

def Record.OpensScope (r : Record) : Prop :=
  ∃ form ∈ ScopeForm.ofKind? r.kind, r.malformation? form = none

instance (r : Record) : Decidable r.OpensScope := inferInstanceAs (Decidable (∃ _ ∈ _, _))

namespace CompileUnit

def unnamed? (visits : List (Record × Nat)) : Option (Record × Nat) :=
  (visits.takeWhile fun v => ¬ v.1.IsObjectName).find? fun v => v.1.IsCompiler

def openings (visits : List (Record × Nat)) : List (Record × Nat) :=
  (unnamed? visits).toList ++ visits.filter fun v => v.1.IsObjectName

def compilers (visits : List (Record × Nat)) (opening : Record × Nat) : List (Record × Nat) :=
  visits.filter fun v => v.1.IsCompiler ∧ opening.2 ≤ v.2 ∧
    ∀ next ∈ openings visits, opening.2 < next.2 → v.2 < next.2

def ofOpening (visits : List (Record × Nat)) (opening : Record × Nat) : CompileUnit :=
  let compiler := (compilers visits opening).getLast?.map (·.1)
  { name := if opening.1.IsObjectName then opening.1.name else ""
    signature := if opening.1.IsObjectName then opening.1.signature else 0
    position := opening.2
    language := compiler.map (·.flags % 256)
    machine := compiler.map (·.machine)
    version := (compiler.map (·.version)).getD "" }

/-- Name of the unit with the greatest position below a position. -/
def moduleAt (units : List CompileUnit) (position : Int) : Option String :=
  (units.find? fun u => u.position < position ∧
    ∀ w ∈ units, w.position < position → w.position ≤ u.position).map (·.name)

def key (u : CompileUnit) : Int × String := (u.position, u.name)

section Openings
variable {visits : List (Record × Nat)} {v : Record × Nat}

theorem unnamed?_concat (visits : List (Record × Nat)) (v : Record × Nat) :
    unnamed? (visits ++ [v]) =
      if v.1.IsCompiler ∧ visits.filter (fun u => u.1.IsObjectName) = [] then
        (unnamed? visits).or (some v)
      else unnamed? visits := by
  unfold unnamed?
  induction visits with
  | nil =>
    by_cases isCompiler : v.1.IsCompiler
    · simp [isCompiler, isCompiler.not_isObjectName]
    · by_cases isObjectName : v.1.IsObjectName <;> simp [isCompiler, isObjectName]
  | cons u rest ih =>
    by_cases isObjectName : u.1.IsObjectName
    · simp [isObjectName]
    · by_cases isCompiler : u.1.IsCompiler
      · simp [isObjectName, isCompiler]
      · simpa only [List.cons_append, List.takeWhile_cons, List.find?_cons, List.filter_cons,
          isObjectName, isCompiler, decide_not, decide_false, Bool.not_false, if_true,
          Bool.false_eq_true, if_false] using ih

theorem openings_concat (visits : List (Record × Nat)) (v : Record × Nat) :
    openings (visits ++ [v]) =
      if v.1.IsObjectName ∨ v.1.IsCompiler ∧ openings visits = [] then openings visits ++ [v]
      else openings visits := by
  unfold openings
  rw [unnamed?_concat, List.filter_append]
  generalize visits.filter (fun u => u.1.IsObjectName) = named
  by_cases isCompiler : v.1.IsCompiler
  · have isObjectName := isCompiler.not_isObjectName
    cases named with
    | nil => cases unnamed? visits <;> simp [isCompiler, isObjectName]
    | cons first named => simp [isObjectName]
  · by_cases isObjectName : v.1.IsObjectName <;> simp [isCompiler, isObjectName]

theorem openings_sublist (visits : List (Record × Nat)) : (openings visits).Sublist visits := by
  induction visits using List.reverseRecOn with
  | nil => exact List.Sublist.refl []
  | append_singleton visits v ih =>
    rw [openings_concat]
    split
    · exact ih.append (List.Sublist.refl _)
    · exact ih.trans (List.sublist_append_left _ _)

variable (later : ∀ u ∈ visits, u.2 < v.2)
include later

theorem openings_le {next : Record × Nat} (listed : next ∈ openings (visits ++ [v])) :
    next.2 ≤ v.2 := by
  rcases List.mem_append.1 ((openings_sublist _).subset listed) with old | new
  · exact Nat.le_of_lt (later next old)
  · cases List.mem_singleton.1 new
    exact Nat.le_refl _

theorem compilers_concat (opening : Record × Nat) :
    compilers (visits ++ [v]) opening = compilers visits opening ++
      if v.1.IsCompiler ∧ opening.2 ≤ v.2 ∧
        ∀ next ∈ openings (visits ++ [v]), next.2 ≤ opening.2 then [v] else [] := by
  unfold compilers
  rw [List.filter_append]
  congr 1
  · apply List.filter_congr
    intro u old
    have same : (∀ next ∈ openings (visits ++ [v]), opening.2 < next.2 → u.2 < next.2) ↔
        ∀ next ∈ openings visits, opening.2 < next.2 → u.2 < next.2 := by
      rw [openings_concat]
      split
      · have before := later u old
        simp [or_imp, forall_and, before]
      · rfl
    simp only [same]
  · have last : (∀ next ∈ openings (visits ++ [v]), opening.2 < next.2 → v.2 < next.2) ↔
        ∀ next ∈ openings (visits ++ [v]), next.2 ≤ opening.2 := by
      apply forall₂_congr
      intro next listed
      have within := openings_le later listed
      omega
    rw [List.filter_singleton]
    simp only [last, Bool.cond_decide]

theorem compilers_eq_nil : compilers visits v = [] := by
  rw [compilers, List.filter_eq_nil_iff]
  intro u old accepted
  have before := later u old
  simp only [decide_eq_true_eq] at accepted
  omega

end Openings

def listed (visits : List (Record × Nat)) : List CompileUnit :=
  (openings visits).map (ofOpening visits)

def describedBy (u : CompileUnit) (r : Record) : CompileUnit :=
  { u with language := some (r.flags % 256), machine := some r.machine, version := r.version }

def heed (units : List CompileUnit) (r : Record) (position : Nat) : List CompileUnit :=
  if r.IsObjectName then units ++ [r.unit position]
  else if r.IsCompiler then
    match units.getLast? with
    | none => [describedBy { name := "", position } r]
    | some u => units.dropLast ++ [u.describedBy r]
  else units

section Listed
variable {visits : List (Record × Nat)} {v : Record × Nat}

theorem ofOpening_congr {others : List (Record × Nat)} {opening : Record × Nat}
    (same : compilers others opening = compilers visits opening) :
    ofOpening others opening = ofOpening visits opening := by
  rw [ofOpening, same, ofOpening]

theorem ofOpening_of_compilers_concat {others : List (Record × Nat)} {opening : Record × Nat}
    (more : compilers others opening = compilers visits opening ++ [v]) :
    ofOpening others opening = (ofOpening visits opening).describedBy v.1 := by
  simp [ofOpening, more, describedBy]

theorem listed_ascend (ascends : visits.Pairwise fun v w => v.2 < w.2) :
    (listed visits).Pairwise fun u w => u.position < w.position := by
  rw [listed, List.pairwise_map]
  refine (ascends.sublist (openings_sublist visits)).imp ?_
  exact fun before => Int.ofNat_lt.2 before

variable (later : ∀ u ∈ visits, u.2 < v.2)
include later

theorem listed_concat_of_first (isCompiler : v.1.IsCompiler) (without : openings visits = []) :
    listed (visits ++ [v]) = [describedBy { name := "", position := v.2 } v.1] := by
  have begins : openings (visits ++ [v]) = [v] := by simp [openings_concat, isCompiler, without]
  have described : compilers (visits ++ [v]) v = compilers visits v ++ [v] := by
    simp [compilers_concat later, isCompiler, begins]
  rw [listed, begins, List.map_singleton, ofOpening_of_compilers_concat described]
  simp [ofOpening, isCompiler.not_isObjectName, compilers_eq_nil later]

theorem listed_concat_of_last (ascends : visits.Pairwise fun v w => v.2 < w.2)
    (isCompiler : v.1.IsCompiler) {earlier : List (Record × Nat)} {last : Record × Nat}
    (opens : openings visits = earlier ++ [last]) :
    listed (visits ++ [v]) =
      earlier.map (ofOpening visits) ++ [(ofOpening visits last).describedBy v.1] := by
  have same : openings (visits ++ [v]) = earlier ++ [last] := by
    simp [openings_concat, isCompiler.not_isObjectName, opens]
  have ordered := ascends.sublist (openings_sublist visits)
  rw [opens, List.pairwise_append] at ordered
  have before : ∀ opening ∈ earlier, opening.2 < last.2 :=
    fun opening member => ordered.2.2 opening member last (List.mem_singleton_self last)
  have member : last ∈ visits := (openings_sublist visits).subset (by simp [opens])
  have described : compilers (visits ++ [v]) last = compilers visits last ++ [v] := by
    have within : ∀ opening ∈ openings (visits ++ [v]), opening.2 ≤ last.2 := by
      intro opening listed
      rw [same] at listed
      rcases List.mem_append.1 listed with old | here
      · exact Nat.le_of_lt (before opening old)
      · cases List.mem_singleton.1 here
        exact Nat.le_refl _
    rw [compilers_concat later, if_pos ⟨isCompiler, Nat.le_of_lt (later last member), within⟩]
  have kept : ∀ opening ∈ earlier,
      ofOpening (visits ++ [v]) opening = ofOpening visits opening := by
    intro opening old
    apply ofOpening_congr
    rw [compilers_concat later, if_neg, List.append_nil]
    intro accepted
    have within := accepted.2.2 last (by simp [same])
    have order := before opening old
    omega
  rw [listed, same, List.map_append, List.map_congr_left kept, List.map_singleton,
    ofOpening_of_compilers_concat described]

theorem listed_concat_of_other (isCompiler : ¬ v.1.IsCompiler) :
    listed (visits ++ [v]) =
      listed visits ++ if v.1.IsObjectName then [v.1.unit v.2] else [] := by
  have kept : ofOpening (visits ++ [v]) = ofOpening visits := by
    funext opening
    apply ofOpening_congr
    simp [compilers_concat later, isCompiler]
  by_cases isObjectName : v.1.IsObjectName
  · have begins : ofOpening visits v = v.1.unit v.2 := by
      simp [ofOpening, compilers_eq_nil later, isObjectName, Record.unit]
    simp [listed, openings_concat, isObjectName, kept, begins]
  · simp [listed, openings_concat, isObjectName, isCompiler, kept]

theorem heed_listed (ascends : visits.Pairwise fun v w => v.2 < w.2) :
    heed (listed visits) v.1 v.2 = listed (visits ++ [v]) := by
  by_cases isCompiler : v.1.IsCompiler
  · rw [heed, if_neg isCompiler.not_isObjectName, if_pos isCompiler]
    rcases List.eq_nil_or_concat (openings visits) with without | ⟨earlier, last, opens⟩
    · rw [listed_concat_of_first later isCompiler without, listed, without]
      rfl
    · rw [List.concat_eq_append] at opens
      rw [listed_concat_of_last later ascends isCompiler opens, listed, opens]
      simp
  · rw [listed_concat_of_other later isCompiler, heed]
    by_cases isObjectName : v.1.IsObjectName <;> simp [isObjectName, isCompiler]

end Listed

theorem key_heed (units : List CompileUnit) (r : Record) (position : Nat) :
    ∃ later, (heed units r position).map key = units.map key ++ later ∧
      ∀ k ∈ later, k.1 = position := by
  unfold heed
  split
  · exact ⟨[key (r.unit position)], by simp, by simp [key, Record.unit]⟩
  · split
    · rcases List.eq_nil_or_concat units with rfl | ⟨earlier, u, rfl⟩
      · exact ⟨[(position, "")], rfl, by simp⟩
      · exact ⟨[], by simp [key, describedBy], by simp⟩
    · exact ⟨[], by simp, by simp⟩

section Module
variable {units grown : List CompileUnit} {position : Int}

theorem find?_greatest (ascend : units.Pairwise fun u w => u.position < w.position)
    (position : Int) :
    (units.find? fun u => u.position < position ∧
      ∀ w ∈ units, w.position < position → w.position ≤ u.position) =
      (units.filter fun u => u.position < position).getLast? := by
  induction units using List.reverseRecOn with
  | nil => rfl
  | append_singleton units u ih =>
    obtain ⟨before, -, last⟩ := List.pairwise_append.1 ascend
    have behind : ∀ w ∈ units, w.position < u.position :=
      fun w member => last w member u (List.mem_singleton_self u)
    rw [List.find?_append, List.filter_append, List.filter_singleton]
    by_cases below : u.position < position
    · have passed : (units.find? fun w => w.position < position ∧
          ∀ x ∈ units ++ [u], x.position < position → x.position ≤ w.position) = none := by
        rw [List.find?_eq_none]
        intro w member accepted
        have order := behind w member
        have bound := (of_decide_eq_true accepted).2 u (by simp) below
        omega
      have greatest : ∀ x ∈ units ++ [u], x.position < position → x.position ≤ u.position := by
        intro x member
        rcases List.mem_append.1 member with old | new
        · have order := behind x old
          omega
        · cases List.mem_singleton.1 new
          omega
      rw [passed, Option.none_or, List.find?_singleton,
        if_pos (decide_eq_true ⟨below, greatest⟩)]
      simp [below]
    · have same : ∀ w : CompileUnit,
          (∀ x ∈ units ++ [u], x.position < position → x.position ≤ w.position) ↔
          ∀ x ∈ units, x.position < position → x.position ≤ w.position := by
        intro w
        simp [or_imp, forall_and, below]
      simp only [same, ih before]
      simp [below]

theorem moduleAt_eq (ascend : units.Pairwise fun u w => u.position < w.position)
    (position : Int) : moduleAt units position =
      (((units.map key).filter fun k => k.1 < position).getLast?).map (·.2) := by
  rw [moduleAt, find?_greatest ascend, List.filter_map, List.getLast?_map, Option.map_map]
  rfl

theorem moduleAt_of_grown (ascend : units.Pairwise fun u w => u.position < w.position)
    (ascends : grown.Pairwise fun u w => u.position < w.position) {later : List (Int × String)}
    (keys : grown.map key = units.map key ++ later) (above : ∀ k ∈ later, position ≤ k.1) :
    moduleAt grown position = moduleAt units position := by
  have out : later.filter (fun k => k.1 < position) = [] := by
    rw [List.filter_eq_nil_iff]
    intro k member
    have bound := above k member
    simpa using bound
  rw [moduleAt_eq ascends, moduleAt_eq ascend, keys, List.filter_append, out, List.append_nil]

theorem moduleAt_of_below (ascend : units.Pairwise fun u w => u.position < w.position)
    (below : ∀ u ∈ units, u.position < position) :
    moduleAt units position = units.getLast?.map (·.name) := by
  rw [moduleAt, find?_greatest ascend, List.filter_eq_self.2]
  simpa using below

end Module
end CompileUnit

namespace Context
variable {c : Context} {visits : List (Record × Nat)} {v : Record × Nat}

theorem units_describeUnit (c : Context) (r : Record) (position : Nat) :
    (c.describeUnit position (r.flags % 256) r.machine r.version).units =
      match c.units.getLast? with
      | none => [CompileUnit.describedBy { name := "", position } r]
      | some u => c.units.dropLast ++ [u.describedBy r] := by
  unfold describeUnit
  rcases List.eq_nil_or_concat c.units with without | ⟨earlier, last, units⟩
  · simp [without, addUnit, CompileUnit.describedBy]
  · simp [units, modify_length_append, CompileUnit.describedBy]

theorem units_perform (c : Context) (r : Record) (position : Nat) :
    (c.perform (r.effect position)).units = CompileUnit.heed c.units r position := by
  unfold CompileUnit.heed
  by_cases isObjectName : r.IsObjectName
  · rw [(Record.Describes.objectName isObjectName).effect_eq, if_pos isObjectName]
    rfl
  · by_cases isCompiler : r.IsCompiler
    · rw [(Record.Describes.compiler isCompiler).effect_eq, if_neg isObjectName,
        if_pos isCompiler]
      exact units_describeUnit c r position
    · rw [if_neg isObjectName, if_neg isCompiler]
      by_cases silent : ∀ change, r.effect position ≠ .describes change
      · obtain ⟨arena, top, stack, unresolved, scopes⟩ := c.perform_of_silent silent
        rw [scopes]
      · obtain ⟨change, asks⟩ := not_forall_not.1 silent
        rw [asks, perform]
        cases Record.effect_eq_describes_iff.1 asks with
        | imageSection valid =>
          obtain ⟨sections, addresses, same⟩ := c.addSection_eq r.imageSection
          rw [make, same]
        | part valid => rw [make, addContribution, await_eq_append]
        | symbol valid =>
          obtain ⟨unresolved, adds⟩ := c.make_addSymbol (r.symbol position)
          rw [adds]
        | objectName valid => exact absurd valid isObjectName
        | compiler valid => exact absurd valid isCompiler

def symbolModules (c : Context) : List (Int × Option String) :=
  c.symbols.map fun s => (s.position, s.module)

def scopeModules (c : Context) : List (Int × Option String) :=
  c.arena.map fun s => (s.position, s.module)

theorem symbolModules_perform (c : Context) (r : Record) (position : Nat) :
    (c.perform (r.effect position)).symbolModules = c.symbolModules ++
      if r.IsSymbol then [((position : Int), c.currentModule?)] else [] := by
  by_cases isSymbol : r.IsSymbol
  · rw [(Record.Describes.symbol isSymbol).effect_eq, perform, symbolModules, symbols_addSymbol,
      if_pos isSymbol, List.map_append]
    rfl
  · have other : (r.effect position).symbol? = none := by
      rw [Option.eq_none_iff_forall_ne_some]
      intro s adds
      cases Record.effect_eq_describes_iff.1 (Effect.symbol?_eq_some.1 adds) with
      | symbol valid => exact isSymbol valid
    have same := perform_of_other (c := c) other fun s => Record.symbols_of_scope?
    rw [symbolModules, same.1, if_neg isSymbol, List.append_nil]
    rfl

theorem scopeModules_perform (c : Context) (r : Record) (position : Nat) :
    (c.perform (r.effect position)).scopeModules = c.scopeModules ++
      if r.IsBegin then [((position : Int), if r.OpensScope then c.currentModule? else none)]
      else [] := by
  by_cases begins : r.IsBegin
  · obtain ⟨form, opens⟩ := Record.isBegin_iff.1 begins
    have accepted : r.OpensScope ↔ r.malformation? form = none := by simp [Record.OpensScope, opens]
    rw [if_pos begins]
    cases wrong : r.malformation? form with
    | some cause =>
      rw [Record.effect_of_malformed opens wrong, perform]
      simp [scopeModules, accepted, wrong, ScopeForm.placeholder]
    | none =>
      obtain ⟨s, asks, placed, -⟩ := Record.effect_of_wellFormed opens wrong position
      obtain ⟨unresolved, enters⟩ := c.enterScope_eq form s (ScopeForm.endOffset? r)
      have attached := c.map_arena_attachScope (f := fun s => (s.position, s.module)) fun _ _ => rfl
      rw [asks, perform, enters, scopeModules, List.map_append, attached]
      simp [scopeModules, found, placed, accepted, wrong]
  · rw [if_neg begins, List.append_nil]
    by_cases ends : r.IsEnd
    · rw [Record.effect_of_isEnd ends]
      exact c.map_arena_closeScope (fun _ => rfl) r.kind
    · exact (sameScopes_of_neutral ⟨begins, ends⟩ position).map_arena fun _ _ => rfl

/-- The units that visited records begin and describe, and what was found in which of them. -/
structure UnitsOf (visits : List (Record × Nat)) (c : Context) : Prop where
  units : c.units = CompileUnit.listed visits
  ascend : c.units.Pairwise fun u later => u.position < later.position
  symbols : c.symbolModules = (visits.filter fun v => v.1.IsSymbol).map fun v =>
    ((v.2 : Int), CompileUnit.moduleAt c.units v.2)
  scopes : c.scopeModules = (visits.filter fun v => v.1.IsBegin).map fun v =>
    ((v.2 : Int), if v.1.OpensScope then CompileUnit.moduleAt c.units v.2 else none)

theorem unitsOf_fresh (layout : Option LoadLayout) (options : Options) :
    UnitsOf [] { layout, options } := ⟨rfl, .nil, rfl, rfl⟩

theorem map_filter_concat {α β : Type} {p : α → Prop} [DecidablePred p] {f g : α → β} {l : List α}
    (same : ∀ a ∈ l, g a = f a) (a : α) :
    ((l ++ [a]).filter (p ·)).map g =
      (l.filter (p ·)).map f ++ if p a then [g a] else [] := by
  rw [List.filter_append, List.map_append]
  congr 1
  · apply List.map_congr_left
    intro b member
    exact same b (List.mem_of_mem_filter member)
  · by_cases here : p a <;> simp [here]

theorem UnitsOf.moduleAt_eq {d : Context} (unitsOf : c.UnitsOf visits)
    (later : ∀ u ∈ visits, u.2 < v.2) (heeds : d.units = CompileUnit.heed c.units v.1 v.2)
    (ascend : d.units.Pairwise fun u later => u.position < later.position) :
    (∀ u ∈ visits, CompileUnit.moduleAt d.units u.2 = CompileUnit.moduleAt c.units u.2) ∧
      CompileUnit.moduleAt d.units v.2 = c.currentModule? := by
  have kept : ∀ position : Int, position ≤ v.2 →
      CompileUnit.moduleAt d.units position = CompileUnit.moduleAt c.units position := by
    intro position bound
    obtain ⟨begun, keys, here⟩ := CompileUnit.key_heed c.units v.1 v.2
    rw [← heeds] at keys
    refine CompileUnit.moduleAt_of_grown unitsOf.ascend ascend keys ?_
    intro k member
    rw [here k member]
    exact bound
  constructor
  · intro u member
    exact kept u.2 (Int.ofNat_le.2 (Nat.le_of_lt (later u member)))
  · rw [kept v.2 (Int.le_refl _), CompileUnit.moduleAt_of_below unitsOf.ascend]
    · rfl
    · intro u member
      rw [unitsOf.units] at member
      obtain ⟨opening, opens, rfl⟩ := List.mem_map.1 member
      exact Int.ofNat_lt.2 (later opening ((CompileUnit.openings_sublist visits).subset opens))

theorem UnitsOf.concat (unitsOf : c.UnitsOf visits)
    (ascends : visits.Pairwise fun v w => v.2 < w.2) (later : ∀ u ∈ visits, u.2 < v.2) :
    (c.perform (v.1.effect v.2)).UnitsOf (visits ++ [v]) := by
  have heeds := c.units_perform v.1 v.2
  have symbols := c.symbolModules_perform v.1 v.2
  have scopes := c.scopeModules_perform v.1 v.2
  generalize c.perform (v.1.effect v.2) = d at heeds symbols scopes ⊢
  have units : d.units = CompileUnit.listed (visits ++ [v]) := by
    rw [heeds, unitsOf.units, CompileUnit.heed_listed later ascends]
  have ordered : (visits ++ [v]).Pairwise fun v w => v.2 < w.2 := by
    refine List.pairwise_append.2 ⟨ascends, by simp, ?_⟩
    intro u old w new
    cases List.mem_singleton.1 new
    exact later u old
  have ascend : d.units.Pairwise fun u later => u.position < later.position := by
    rw [units]
    exact CompileUnit.listed_ascend ordered
  obtain ⟨old, new⟩ := unitsOf.moduleAt_eq later heeds ascend
  refine ⟨units, ascend, ?_, ?_⟩
  · have same : ∀ u ∈ visits, ((u.2 : Int), CompileUnit.moduleAt d.units u.2) =
        ((u.2 : Int), CompileUnit.moduleAt c.units u.2) :=
      fun u member => by rw [old u member]
    rw [symbols, unitsOf.symbols, ← new]
    exact (map_filter_concat (p := fun v : Record × Nat => v.1.IsSymbol) same v).symm
  · have same : ∀ u ∈ visits,
        ((u.2 : Int), if u.1.OpensScope then CompileUnit.moduleAt d.units u.2 else none) =
          ((u.2 : Int), if u.1.OpensScope then CompileUnit.moduleAt c.units u.2 else none) :=
      fun u member => by rw [old u member]
    rw [scopes, unitsOf.scopes, ← new]
    exact (map_filter_concat (p := fun v : Record × Nat => v.1.IsBegin) same v).symm

end Context

/-- In a descending run, the units are those that the records so far begin and describe, and every
symbol and every scope that was opened is in the unit that was begun last before it. -/
theorem units_and_modules_follow_stream (cursor : Cursor) (layout : Option LoadLayout)
    (options : Options) (descends : options.descendScopes = true) :
    let start : Progress := { context := { layout, options }, cursor }
    let word := cursor.records.drop cursor.position
    (∀ n p, start.after standard n = some p →
      p.context.UnitsOf ((word.take n).zipIdx cursor.position)) ∧
      (run standard start.context cursor).progress.context.UnitsOf
        (word.zipIdx cursor.position) := by
  intro start word
  refine Progress.holds_of_descends (p := start)
    (motive := fun word c => c.UnitsOf (word.zipIdx cursor.position)) descends ?_
  intro word
  refine Context.goOver_keeps (motive := fun word c => c.UnitsOf (word.zipIdx cursor.position))
    (Context.unitsOf_fresh layout options) ?_ word
  intro word c r unitsOf
  rw [List.zipIdx_append, List.zipIdx_singleton]
  refine unitsOf.concat (v := (r, cursor.position + word.length)) ?_ ?_
  · rw [← List.pairwise_map (f := Prod.snd), List.zipIdx_map_snd]
    exact List.pairwise_lt_range'
  · intro u member
    exact List.snd_lt_add_of_mem_zipIdx member

/-- The first compiler record has no object file before it, the procedure goes on where the next
unit begins, and two records of units end early. -/
theorem units_and_modules_follow_stream_through_procedure :
    let records : List Record :=
      [{ kind := Kind.objectName, name := "cut", truncated := true },
        { kind := Kind.publicSymbol, sectionIndex := 1 },
        { kind := Kind.compiler, flags := 0x107, machine := 3, version := "1" },
        { kind := Kind.globalProcedure, sectionIndex := 1 },
        { kind := Kind.objectName, name := "a", signature := 5 },
        { kind := Kind.localData, sectionIndex := 1 },
        { kind := Kind.compiler, flags := 1, machine := 4, version := "2" },
        { kind := Kind.compiler, truncated := true },
        { kind := Kind.block, sectionIndex := 0x10000 },
        { kind := Kind.compiler, flags := 2, machine := 4, version := "3" },
        { kind := Kind.objectName, name := "b" },
        { kind := Kind.publicSymbol, sectionIndex := 1 }]
    let c := (run standard {} { records }).progress.context
    c.units =
      [{ name := "", language := some 7, machine := some 3, version := "1", position := 2 },
        { name := "a", signature := 5, language := some 2, machine := some 4, version := "3"
          position := 4 },
        { name := "b", position := 10 }] ∧
      c.symbolModules = [(1, none), (5, some "a"), (11, some "b")] ∧
      c.scopeModules = [(3, some ""), (8, none)] := by
  intro records c
  obtain ⟨-, units⟩ := units_and_modules_follow_stream { records } none {} rfl
  refine ⟨?_, ?_, ?_⟩
  · exact units.units.trans (by decide +kernel)
  · rw [units.symbols, units.units]
    decide +kernel
  · rw [units.scopes, units.units]
    decide +kernel

end SymbolRecovery
