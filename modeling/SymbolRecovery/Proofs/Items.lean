import SymbolRecovery.Proofs.Registration
import SymbolRecovery.Proofs.Scopes
import SymbolRecovery.Proofs.Sections

/-!
Items with their places and addresses. A record adds at most one item: a contribution, a symbol or
a scope. Main statements: the new item has the address that the table gives for its place, and is
put on the list of unresolved ones if that is none; all other items are left alone; and looking up
the unresolved items again changes these items only.
-/
namespace SymbolRecovery

structure Spot where
  sectionIndex : Int
  offset : Int
  address : Option Int
deriving DecidableEq

def Spot.readdressed (e : Spot) (address : Option Int) : Spot := { e with address }

def Contribution.spot (p : Contribution) : Spot := ⟨p.sectionIndex, p.offset, p.address⟩

def Symbol.spot (s : Symbol) : Spot := ⟨s.sectionIndex, s.offset, s.address⟩

def Scope.spot (s : Scope) : Spot := ⟨s.sectionIndex, s.offset, s.address⟩

/-- An item that a record adds. Placeholders and inline sites are not looked up. -/
structure Finding where
  item : Item
  sectionIndex : Int
  offset : Int
  located : Bool

theorem getElem?_concat {α : Type} (l : List α) (a : α) (i : Nat) :
    (l ++ [a])[i]? = if l.length = i then some a else l[i]? := by
  rcases Nat.lt_trichotomy i l.length with inside | here | beyond
  · rw [List.getElem?_append_left inside, if_neg (Nat.ne_of_gt inside)]
  · rw [if_pos here.symm, here, List.getElem?_concat_length]
  · rw [if_neg (Nat.ne_of_lt beyond), List.getElem?_eq_none (Nat.le_of_lt beyond)]
    apply List.getElem?_eq_none
    rw [List.length_append]
    exact beyond

namespace Context

def spot? (c : Context) : Item → Option Spot
  | .contribution group index =>
    (c.groups.get? group).bind fun g => g.contributions[index]?.map Contribution.spot
  | .symbol id => c.symbols[id]?.map Symbol.spot
  | .scope id => c.arena[id]?.map Scope.spot

def recorded? (c : Context) (item : Item) : Option Int := (c.spot? item).bind (·.address)

def groupSize (c : Context) (group : String) : Nat :=
  ((c.groups.get? group).map (·.contributions.length)).getD 0

def finding? (c : Context) : Effect → Option Finding
  | .describes (.addContribution group _ part) =>
    some ⟨.contribution group (c.groupSize group), part.sectionIndex, part.offset, true⟩
  | .describes (.addSymbol s) => some ⟨.symbol c.symbols.length, s.sectionIndex, s.offset, true⟩
  | .holds _ s _ => some ⟨.scope c.arena.length, s.sectionIndex, s.offset, false⟩
  | .opens form s _ => some ⟨.scope c.arena.length, s.sectionIndex, s.offset, form.addressed⟩
  | _ => none

def lookUp (c : Context) (f : Finding) : Option Int :=
  if f.located then c.translate f.sectionIndex f.offset else none

def awaits (c : Context) (f : Finding) : Bool := f.located && (c.lookUp f).isNone

structure Receives (c : Context) (found : Option Finding) (d : Context) : Prop where
  layout_eq : d.layout = c.layout
  sections_eq : d.sections = c.sections
  addresses_eq : d.addresses = c.addresses
  kept : ∀ item, (∀ f, found = some f → f.item ≠ item) → d.spot? item = c.spot? item
  fresh : ∀ f, found = some f → c.spot? f.item = none
  new : ∀ f, found = some f → d.spot? f.item = some ⟨f.sectionIndex, f.offset, c.lookUp f⟩
  unresolved_eq : d.unresolved = c.unresolved ++ ((found.filter c.awaits).map (·.item)).toList

variable {c d : Context} {e : Effect}

theorem place?_eq (c : Context) (item : Item) :
    c.place? item = (c.spot? item).map fun spot => (spot.sectionIndex, spot.offset) := by
  cases item with
  | contribution group index =>
    cases known : c.groups.get? group with
    | none => simp [place?, spot?, known]
    | some g =>
      cases here : g.contributions[index]? <;>
        simp [place?, spot?, known, here, Contribution.spot]
  | symbol id => cases here : c.symbols[id]? <;> simp [place?, spot?, here, Symbol.spot]
  | scope id => cases here : c.arena[id]? <;> simp [place?, spot?, here, Scope.spot]

theorem itemAddress?_eq (c : Context) (item : Item) :
    c.itemAddress? item =
      (c.spot? item).bind fun spot => c.translate spot.sectionIndex spot.offset := by
  rw [itemAddress?, place?_eq, Option.bind_map]
  rfl

theorem spot?_congr (groups : d.groups = c.groups)
    (symbols : d.symbols.map Symbol.spot = c.symbols.map Symbol.spot)
    (arena : d.arena.map Scope.spot = c.arena.map Scope.spot) (item : Item) :
    d.spot? item = c.spot? item := by
  cases item with
  | contribution group index => simp only [spot?, groups]
  | symbol id => simp only [spot?, ← List.getElem?_map, symbols]
  | scope id => simp only [spot?, ← List.getElem?_map, arena]

theorem spot?_fresh (layout : Option LoadLayout) (options : Options) (item : Item) :
    spot? { layout, options } item = none := by
  cases item <;> rfl

theorem receives_none (layout : d.layout = c.layout) (sections : d.sections = c.sections)
    (addresses : d.addresses = c.addresses) (unresolved : d.unresolved = c.unresolved)
    (spots : ∀ item, d.spot? item = c.spot? item) : c.Receives none d where
  layout_eq := layout
  sections_eq := sections
  addresses_eq := addresses
  kept := fun item _ => spots item
  fresh := by simp
  new := by simp
  unresolved_eq := by simp [unresolved]

theorem await_eq_append (c : Context) (item : Item) (address : Option Int) :
    c.await item address =
      { c with unresolved := c.unresolved ++ if address.isNone then [item] else [] } := by
  cases address with
  | none => rfl
  | some address => simp [await]

theorem waiting_eq (c : Context) {f : Finding} (looked : f.located = true) :
    (((some f).filter c.awaits).map (·.item)).toList =
      if (c.translate f.sectionIndex f.offset).isNone then [f.item] else [] := by
  cases known : c.translate f.sectionIndex f.offset <;>
    simp [awaits, lookUp, looked, known, Option.filter]

theorem receives_some {f : Finding} (layout : d.layout = c.layout)
    (sections : d.sections = c.sections) (addresses : d.addresses = c.addresses)
    (fresh : c.spot? f.item = none)
    (spots : ∀ item, d.spot? item =
      if f.item = item then some ⟨f.sectionIndex, f.offset, c.lookUp f⟩ else c.spot? item)
    (unresolved : d.unresolved =
      c.unresolved ++ (((some f).filter c.awaits).map (·.item)).toList) :
    c.Receives (some f) d where
  layout_eq := layout
  sections_eq := sections
  addresses_eq := addresses
  kept := fun item other => by rw [spots, if_neg (other f rfl)]
  fresh := by
    rintro _ ⟨⟩
    exact fresh
  new := by
    rintro _ ⟨⟩
    rw [spots, if_pos rfl]
  unresolved_eq := unresolved

theorem receives_addContribution (c : Context) (name : String) (characteristics : Int)
    (part : Contribution) :
    c.Receives (c.finding? (.describes (.addContribution name characteristics part)))
      (c.addContribution name characteristics part) := by
  have size : ((c.groups.get? name).getD { name, characteristics }).contributions.length =
      c.groupSize name := by
    unfold groupSize
    cases c.groups.get? name <;> rfl
  have former : ∀ index, c.spot? (.contribution name index) =
      ((c.groups.get? name).getD { name, characteristics }).contributions[index]?.map
        Contribution.spot := by
    intro index
    simp only [spot?]
    cases c.groups.get? name <;> rfl
  unfold addContribution
  rw [await_eq_append]
  generalize (c.groups.get? name).getD { name, characteristics } = group at size former
  refine receives_some rfl rfl rfl ?_ ?_ ?_
  · simp [former, size]
  · intro item
    cases item with
    | contribution other index =>
      simp only [spot?, Table.get?_insert, Item.contribution.injEq]
      by_cases here : name = other
      · subst here
        have places := former index
        simp only [spot?] at places
        rw [if_pos rfl, Option.bind_some, getElem?_concat, size, places]
        split <;> simp [*, Contribution.spot, lookUp]
      · simp [here]
    | symbol id => simp [spot?]
    | scope id => simp [spot?]
  · rw [waiting_eq _ rfl, size]

theorem addSymbol_eq (c : Context) (s : Symbol) :
    ∃ arena, arena.map Scope.spot = c.arena.map Scope.spot ∧ c.addSymbol s =
      { c with
        arena
        symbols := c.symbols ++
          [{ s with scope := c.currentScope?, module := c.currentModule? }] } := by
  unfold addSymbol
  cases c.currentScope? with
  | none => exact ⟨_, rfl, rfl⟩
  | some scope =>
    refine ⟨_, ?_, rfl⟩
    apply map_modify_of_blind
    exact fun s => rfl

theorem receives_addSymbol (c : Context) (s : Symbol) :
    c.Receives (c.finding? (.describes (.addSymbol s))) (c.make (.addSymbol s)) := by
  simp only [make, locateSymbol, await_eq_append]
  obtain ⟨arena, same, adds⟩ := addSymbol_eq { c with
    unresolved := c.unresolved ++
      if (c.translate s.sectionIndex s.offset).isNone then [.symbol c.symbols.length] else [] }
    { s with address := c.translate s.sectionIndex s.offset }
  rw [adds]
  refine receives_some rfl rfl rfl ?_ ?_ (by rw [waiting_eq _ rfl])
  · simp [spot?]
  · intro item
    cases item with
    | contribution group index => simp [spot?]
    | symbol id =>
      simp only [spot?, getElem?_concat, Item.symbol.injEq]
      split <;> simp [Symbol.spot, lookUp]
    | scope id => simp [spot?, ← List.getElem?_map, same]

theorem receives_scope {f : Finding} (last : f.item = .scope c.arena.length)
    (layout : d.layout = c.layout) (sections : d.sections = c.sections)
    (addresses : d.addresses = c.addresses) (groups : d.groups = c.groups)
    (symbols : d.symbols = c.symbols)
    (arena : d.arena.map Scope.spot =
      c.arena.map Scope.spot ++ [⟨f.sectionIndex, f.offset, c.lookUp f⟩])
    (unresolved : d.unresolved =
      c.unresolved ++ (((some f).filter c.awaits).map (·.item)).toList) :
    c.Receives (some f) d := by
  refine receives_some layout sections addresses ?_ ?_ unresolved
  · simp [last, spot?]
  · intro item
    rw [last]
    cases item with
    | contribution group index => simp [spot?, groups]
    | symbol id => simp [spot?, symbols]
    | scope id =>
      simp only [spot?, ← List.getElem?_map, arena, getElem?_concat, List.length_map,
        Item.scope.injEq]

theorem receives_holds (c : Context) (form : ScopeForm) {s : Scope} (without : s.address = none)
    (cause : FaultCause) :
    c.Receives (c.finding? (.holds form s cause)) (c.perform (.holds form s cause)) := by
  refine receives_scope rfl rfl rfl rfl rfl rfl ?_ ?_
  · simp [perform, Scope.spot, lookUp, without]
  · simp [perform, pushScope, awaits, Option.filter]

theorem unresolved_enterScope (c : Context) (form : ScopeForm) (s : Scope)
    (endOffset : Option Int) :
    (c.enterScope form s endOffset).unresolved = c.unresolved ++
      (((some ⟨.scope c.arena.length, s.sectionIndex, s.offset, form.addressed⟩).filter
        c.awaits).map (·.item)).toList := by
  unfold enterScope
  cases addressed : form.addressed with
  | true =>
    rw [waiting_eq _ rfl]
    simp only [↓reduceIte, locateScope, await_eq_append, openScope, pushScope, attachScope]
    split <;> rfl
  | false =>
    simp only [Bool.false_eq_true, ↓reduceIte, openScope, pushScope, attachScope]
    split <;> simp [modifyScope, awaits, Option.filter]

theorem receives_opens (c : Context) (form : ScopeForm) {s : Scope} (without : s.address = none)
    (endOffset : Option Int) :
    c.Receives (c.finding? (.opens form s endOffset)) (c.perform (.opens form s endOffset)) := by
  obtain ⟨unresolved, enters⟩ := c.enterScope_eq form s endOffset
  have attached : ∃ top arena, c.attachScope = { c with top, arena } ∧
      arena.map Scope.spot = c.arena.map Scope.spot := by
    unfold attachScope
    split
    · refine ⟨_, _, rfl, ?_⟩
      apply map_modify_of_blind
      exact fun s => rfl
    · exact ⟨_, _, rfl, rfl⟩
  obtain ⟨top, arena, attaches, spots⟩ := attached
  have waits := c.unresolved_enterScope form s endOffset
  rw [attaches] at enters
  rw [perform]
  refine receives_scope rfl ?_ ?_ ?_ ?_ ?_ ?_ waits
  · rw [enters]
  · rw [enters]
  · rw [enters]
  · rw [enters]
  · rw [enters]
  · rw [enters]
    simp [spots, found, Scope.spot, lookUp, without]

theorem perform_of_section? {s : ImageSection} (registers : e.section? = some s) :
    c.perform e = c.addSection s := by
  unfold Effect.section? at registers
  split at registers
  · cases registers
    rfl
  · cases registers

theorem receives_perform (unlocated : e.Unlocated) (quiet : e.section? = none) :
    c.Receives (c.finding? e) (c.perform e) := by
  cases e with
  | ignored => exact receives_none rfl rfl rfl rfl fun _ => rfl
  | refused cause => exact receives_none rfl rfl rfl rfl fun _ => rfl
  | describes change =>
    cases change with
    | addSection s => cases quiet
    | addContribution group characteristics part =>
      exact receives_addContribution c group characteristics part
    | addSymbol s => exact receives_addSymbol c s
    | addUnit u => exact receives_none rfl rfl rfl rfl fun _ => rfl
    | describeUnit position language machine version =>
      simp only [perform, make, describeUnit]
      split <;> exact receives_none rfl rfl rfl rfl fun _ => rfl
  | holds form placeholder cause =>
    exact receives_holds c form (unlocated.scope_address _ rfl) cause
  | opens form s endOffset => exact receives_opens c form (unlocated.scope_address _ rfl) endOffset
  | closes kind =>
    rw [perform, closeScope_eq]
    refine receives_none rfl rfl rfl rfl (spot?_congr rfl rfl ?_)
    dsimp only
    split
    · apply map_modify_of_blind
      exact fun s => rfl
    · rfl

theorem Receives.translate_eq {found : Option Finding} (receives : c.Receives found d)
    (sectionIndex offset : Int) :
    d.translate sectionIndex offset = c.translate sectionIndex offset := by
  rw [translate, translate, receives.addresses_eq]

theorem Receives.spot?_of_isSome {found : Option Finding} (receives : c.Receives found d)
    {item : Item} (there : (c.spot? item).isSome) : d.spot? item = c.spot? item := by
  apply receives.kept
  rintro f new rfl
  rw [receives.fresh f new] at there
  cases there

theorem Receives.itemAddress?_of_spot? {found : Option Finding} (receives : c.Receives found d)
    {item : Item} (same : d.spot? item = c.spot? item) :
    d.itemAddress? item = c.itemAddress? item := by
  simp only [itemAddress?_eq, same, receives.translate_eq]

theorem Receives.recorded?_new {found : Option Finding} (receives : c.Receives found d)
    {f : Finding} (new : found = some f) : d.recorded? f.item = c.lookUp f := by
  rw [recorded?, receives.new f new]
  rfl

theorem Receives.itemAddress?_new {found : Option Finding} (receives : c.Receives found d)
    {f : Finding} (new : found = some f) :
    d.itemAddress? f.item = c.translate f.sectionIndex f.offset := by
  rw [itemAddress?_eq, receives.new f new, Option.bind_some, receives.translate_eq]

theorem Receives.recorded?_cases {found : Option Finding} (receives : c.Receives found d)
    {item : Item} {a : Int} (recorded : d.recorded? item = some a) :
    (∃ f, found = some f ∧ f.item = item ∧ f.located = true ∧ d.itemAddress? item = some a) ∨
      (c.recorded? item = some a ∧ d.itemAddress? item = c.itemAddress? item) := by
  by_cases new : ∃ f, found = some f ∧ f.item = item
  · obtain ⟨f, added, rfl⟩ := new
    rw [receives.recorded?_new added, lookUp] at recorded
    split at recorded
    · next located =>
      exact .inl ⟨f, added, rfl, located, (receives.itemAddress?_new added).trans recorded⟩
    · cases recorded
  · have same := receives.kept item fun f added here => new ⟨f, added, here⟩
    rw [recorded?, same] at recorded
    exact .inr ⟨recorded, receives.itemAddress?_of_spot? same⟩

theorem spot?_addSection (c : Context) (s : ImageSection) (item : Item) :
    (c.addSection s).spot? item = c.spot? item := by
  obtain ⟨sections, addresses, same⟩ := c.addSection_eq s
  rw [same]
  exact spot?_congr rfl rfl rfl item

theorem setItemAddress_eq (c : Context) (address : Option Int) (item : Item) :
    ∃ groups arena symbols, c.setItemAddress address item = { c with groups, arena, symbols } := by
  unfold setItemAddress
  split
  · split
    · exact ⟨_, _, _, rfl⟩
    · exact ⟨_, _, _, rfl⟩
  · exact ⟨_, _, _, rfl⟩
  · exact ⟨_, _, _, rfl⟩

theorem spot?_setItemAddress (c : Context) (address : Option Int) (target item : Item) :
    (c.setItemAddress address target).spot? item =
      if target = item then (c.spot? item).map (·.readdressed address) else c.spot? item := by
  cases target with
  | contribution group index =>
    simp only [setItemAddress]
    cases known : c.groups.get? group with
    | none =>
      by_cases here : Item.contribution group index = item
      · subst here
        simp [spot?, known]
      · rw [if_neg here]
    | some g =>
      cases item with
      | contribution other place =>
        simp only [spot?, Table.get?_insert, Item.contribution.injEq]
        by_cases here : group = other
        · subst here
          simp only [known, if_pos, Option.bind_some, List.getElem?_modify, true_and]
          cases g.contributions[place]? <;> by_cases there : index = place <;>
            simp [there, Contribution.spot, Spot.readdressed]
        · simp [here]
      | symbol id => simp [spot?]
      | scope id => simp [spot?]
  | symbol id =>
    cases item with
    | contribution group index => simp [setItemAddress, spot?]
    | symbol other =>
      simp only [setItemAddress, spot?, List.getElem?_modify, Item.symbol.injEq]
      cases c.symbols[other]? <;> by_cases here : id = other <;>
        simp [here, Symbol.spot, Spot.readdressed]
    | scope other => simp [setItemAddress, spot?]
  | scope id =>
    cases item with
    | contribution group index => simp [setItemAddress, modifyScope, spot?]
    | symbol other => simp [setItemAddress, modifyScope, spot?]
    | scope other =>
      simp only [setItemAddress, modifyScope, spot?, List.getElem?_modify, Item.scope.injEq]
      cases c.arena[other]? <;> by_cases here : id = other <;>
        simp [here, Scope.spot, Spot.readdressed]

theorem spot?_foldl_setItemAddress (address : Item → Option Int) (items : List Item)
    (c : Context) (item : Item) :
    (items.foldl (fun d item => d.setItemAddress (address item) item) c).spot? item =
      if item ∈ items then (c.spot? item).map (·.readdressed (address item))
      else c.spot? item := by
  induction items generalizing c with
  | nil => simp
  | cons target rest ih =>
    rw [List.foldl_cons, ih, spot?_setItemAddress]
    by_cases here : target = item
    · subst here
      by_cases later : target ∈ rest <;> simp [later, Function.comp_def, Spot.readdressed]
    · simp [here, Ne.symm here]

theorem retryUnresolved_eq (c : Context) :
    ∃ groups arena symbols, c.retryUnresolved.2 = { c with
      groups, arena, symbols
      unresolved := c.unresolved.filter fun item => (c.itemAddress? item).isNone } := by
  have keeps : ∀ (items : List Item) (address : Item → Option Int) (d : Context),
      ∃ groups arena symbols,
        items.foldl (fun d item => d.setItemAddress (address item) item) d =
          { d with groups, arena, symbols } := by
    intro items address d
    induction items generalizing d with
    | nil => exact ⟨_, _, _, rfl⟩
    | cons item rest ih =>
      obtain ⟨groups, arena, symbols, sets⟩ := d.setItemAddress_eq (address item) item
      rw [List.foldl_cons, sets]
      exact ih _
  obtain ⟨groups, arena, symbols, same⟩ := keeps c.unresolved c.itemAddress? c
  refine ⟨groups, arena, symbols, ?_⟩
  rw [retryUnresolved, same]

theorem spot?_retryUnresolved (c : Context) (item : Item) :
    c.retryUnresolved.2.spot? item =
      if item ∈ c.unresolved then (c.spot? item).map (·.readdressed (c.itemAddress? item))
      else c.spot? item := by
  rw [← spot?_foldl_setItemAddress]
  exact spot?_congr rfl rfl rfl item

theorem itemAddress?_retryUnresolved (c : Context) (item : Item) :
    c.retryUnresolved.2.itemAddress? item = c.itemAddress? item := by
  obtain ⟨groups, arena, symbols, same⟩ := c.retryUnresolved_eq
  have translates : ∀ sectionIndex offset, c.retryUnresolved.2.translate sectionIndex offset =
      c.translate sectionIndex offset := by
    intro sectionIndex offset
    rw [same]
    rfl
  rw [itemAddress?_eq, itemAddress?_eq, spot?_retryUnresolved]
  split <;> cases c.spot? item <;> simp [translates, Spot.readdressed]

theorem recorded?_retryUnresolved (c : Context) (item : Item) :
    c.retryUnresolved.2.recorded? item =
      if item ∈ c.unresolved then c.itemAddress? item else c.recorded? item := by
  rw [recorded?, spot?_retryUnresolved]
  split
  · rw [itemAddress?_eq]
    cases c.spot? item <;> rfl
  · rfl

end Context
end SymbolRecovery
