import Mathlib.Data.List.Forall2
import SymbolRecovery.Proofs.Forest
import SymbolRecovery.Proofs.Items
import SymbolRecovery.Proofs.Ledger

/-!
Symbols in the order of their records. A symbol names the scope that it lies in, and the scope lists
the symbol; both are written when the record is applied. Main statement: in every state of a run
there is one symbol for each record of a symbol that was counted as processed, in stream order and
in the scope that was on top of the stack; and every scope lists exactly the symbols that name it.
-/
namespace SymbolRecovery
open Lookup (standard)

def Kind.symbols : List Kind := Subject.kinds .symbol

namespace Effect

def symbol? : Effect → Option Symbol
  | describes (.addSymbol s) => some s
  | _ => none

theorem symbol?_eq_some {e : Effect} {s : Symbol} :
    e.symbol? = some s ↔ e = .describes (.addSymbol s) := by
  unfold symbol?
  split <;> simp_all

end Effect

namespace Record
variable {r : Record} {position : Nat}

theorem ofKind?_eq_describes_symbol (kind : Kind) :
    Role.ofKind? kind = some (.describes .symbol) ↔ kind ∈ Kind.symbols :=
  Role.ofKind?_eq_describes_iff

theorem read_eq_addSymbol {subject : Subject} {s : Symbol} :
    subject.read r position = .ok (.addSymbol s) ↔
      subject = .symbol ∧ Subject.readSymbol r position = .ok s := by
  cases subject <;> simp [Subject.read, Field.map_eq_ok]

theorem readSymbol_eq_ok {s : Symbol} :
    Subject.readSymbol r position = .ok s ↔
      (0 ≤ r.sectionIndex ∧ r.sectionIndex ≤ 0xFFFF) ∧
      (0 ≤ r.address ∧ r.address ≤ 0xFFFFFFFF) ∧
      s = { kind := r.kind, name := r.name, sectionIndex := r.sectionIndex, offset := r.address
            typeIndex := r.typeIndex, flags := r.flags, position } := by
  simp only [Subject.readSymbol, Field.bind_eq_ok, Field.checkSection_eq_ok,
    Field.checkRange_eq_ok, pure, Except.pure]
  simp [and_assoc, eq_comm (b := s)]

theorem symbol?_effect {s : Symbol} :
    (r.effect position).symbol? = some s ↔
      r.kind ∈ Kind.symbols ∧ r.truncated = false ∧ Subject.readSymbol r position = .ok s := by
  rw [Effect.symbol?_eq_some, effect_eq_describes]
  simp only [read_eq_addSymbol]
  constructor
  · rintro ⟨subject, given, whole, rfl, read⟩
    exact ⟨(ofKind?_eq_describes_symbol _).1 given, whole, read⟩
  · rintro ⟨kind, whole, read⟩
    exact ⟨_, (ofKind?_eq_describes_symbol _).2 kind, whole, rfl, read⟩

theorem exists_symbol?_iff (c : Context) :
    (∃ s, (r.effect position).symbol? = some s) ↔
      r.kind ∈ Kind.symbols ∧ c.verdict (r.effect position) = .processed := by
  constructor
  · rintro ⟨s, adds⟩
    refine ⟨(symbol?_effect.1 adds).1, ?_⟩
    rw [Effect.symbol?_eq_some.1 adds, Context.verdict]
  · rintro ⟨kind, processed⟩
    have given := (ofKind?_eq_describes_symbol r.kind).2 kind
    cases whole : r.truncated with
    | true => simp [effect, given, unlessTruncated, whole, Context.verdict] at processed
    | false =>
      cases read : Subject.readSymbol r position with
      | error e =>
        simp [effect, given, unlessTruncated, whole, Subject.read, read, Except.map,
          Context.verdict] at processed
      | ok s => exact ⟨s, symbol?_effect.2 ⟨kind, whole, read⟩⟩

theorem symbols_of_scope? {s : Scope} (found : (r.effect position).scope? = some s) :
    s.symbols = [] := by
  cases asks : r.effect position with
  | holds form placeholder cause =>
    rw [asks] at found
    cases found
    rw [effect_eq_holds asks]
    rfl
  | opens form scope endOffset =>
    rw [asks] at found
    cases found
    exact (fresh_of_read (effect_eq_opens asks)).2.2
  | _ => simp [asks, Effect.scope?] at found

end Record

namespace Context
variable {c d : Context} {e : Effect} {id : ScopeId}

def placed (c : Context) (s : Symbol) : Symbol :=
  { s with
    address := c.translate s.sectionIndex s.offset, scope := c.currentScope?
    module := c.currentModule? }

def symbolsIn (c : Context) (id : ScopeId) : List SymbolId :=
  (c.symbols.zipIdx.filter fun entry => entry.1.scope = some id).map (·.2)

def symbolList? (c : Context) (id : ScopeId) : Option (List SymbolId) :=
  (c.scope? id).map (·.symbols)

structure Filed (c : Context) : Prop where
  owned : ∀ s ∈ c.symbols, ∀ id, s.scope = some id → (c.symbolList? id).isSome
  listed : ∀ id symbols, c.symbolList? id = some symbols → symbols = c.symbolsIn id

theorem symbolsIn_concat {s : Symbol} (symbols : d.symbols = c.symbols ++ [s]) (id : ScopeId) :
    d.symbolsIn id =
      c.symbolsIn id ++ if s.scope = some id then [c.symbols.length] else [] := by
  unfold symbolsIn
  rw [symbols, List.zipIdx_append, List.filter_append, List.map_append]
  split <;> simp [*]

theorem make_of_other {change : Change} (other : (Effect.describes change).symbol? = none) :
    (c.make change).arena = c.arena ∧ (c.make change).symbols = c.symbols := by
  cases change with
  | addSection s =>
    obtain ⟨sections, addresses, same⟩ := c.addSection_eq s
    rw [make, same]
    exact ⟨rfl, rfl⟩
  | addContribution group characteristics part =>
    rw [make, addContribution, await_eq_append]
    exact ⟨rfl, rfl⟩
  | addSymbol s => cases other
  | addUnit u => exact ⟨rfl, rfl⟩
  | describeUnit position language machine version =>
    rw [make, describeUnit]
    split <;> exact ⟨rfl, rfl⟩

theorem make_addSymbol (c : Context) (s : Symbol) :
    ∃ unresolved, c.make (.addSymbol s) = { c with
      arena := match c.currentScope? with
        | some owner =>
          c.arena.modify owner fun p => { p with symbols := p.symbols ++ [c.symbols.length] }
        | none => c.arena
      symbols := c.symbols ++ [c.placed s]
      unresolved } := by
  obtain ⟨unresolved, waits⟩ :=
    c.await_eq (.symbol c.symbols.length) (c.translate s.sectionIndex s.offset)
  refine ⟨unresolved, ?_⟩
  simp only [make, locateSymbol, waits, addSymbol, currentScope?, placed]
  cases c.stack.head? <;> rfl

theorem symbols_addSymbol (c : Context) (s : Symbol) :
    (c.make (.addSymbol s)).symbols = c.symbols ++ [c.placed s] := by
  obtain ⟨unresolved, adds⟩ := c.make_addSymbol s
  rw [adds]

theorem symbolList?_addSymbol (c : Context) (s : Symbol) (id : ScopeId) :
    (c.make (.addSymbol s)).symbolList? id = (c.symbolList? id).map fun symbols =>
      if c.currentScope? = some id then symbols ++ [c.symbols.length] else symbols := by
  obtain ⟨unresolved, adds⟩ := c.make_addSymbol s
  rw [adds, symbolList?, symbolList?, scope?, scope?]
  cases c.currentScope? with
  | none => simp [Function.comp_def]
  | some owner =>
    dsimp only
    rw [List.getElem?_modify]
    by_cases here : owner = id <;> simp [here, Function.comp_def]

theorem perform_of_other (other : e.symbol? = none)
    (empty : ∀ s, e.scope? = some s → s.symbols = []) :
    (c.perform e).symbols = c.symbols ∧ (c.perform e).arena.map (·.symbols) =
      c.arena.map (·.symbols) ++ (e.scope?.map fun _ => []).toList := by
  cases e with
  | ignored => simp [perform, Effect.scope?]
  | refused cause => simp [perform, Effect.scope?]
  | describes change =>
    obtain ⟨arena, symbols⟩ := make_of_other (c := c) other
    simp [perform, arena, symbols, Effect.scope?]
  | holds form placeholder cause =>
    simp [perform, pushScope, Effect.scope?, empty placeholder rfl]
  | opens form s endOffset =>
    obtain ⟨unresolved, enters⟩ := c.enterScope_eq form s endOffset
    have symbols : c.attachScope.symbols = c.symbols := by
      unfold attachScope
      cases c.currentScope? <;> rfl
    have attached : c.attachScope.arena.map (·.symbols) = c.arena.map (·.symbols) :=
      c.map_arena_attachScope fun _ _ => rfl
    simp [perform, enters, symbols, attached, found, Effect.scope?, empty s rfl]
  | closes kind =>
    have closed : (c.closeScope kind).arena.map (·.symbols) = c.arena.map (·.symbols) :=
      c.map_arena_closeScope (fun _ => rfl) kind
    have symbols : (c.closeScope kind).symbols = c.symbols := by rw [closeScope_eq]
    simp [perform, closed, symbols, Effect.scope?]

theorem symbolList?_eq (c : Context) (id : ScopeId) :
    c.symbolList? id = (c.arena.map (·.symbols))[id]? := by
  rw [symbolList?, scope?, List.getElem?_map]

theorem Filed.addSymbol (filed : c.Filed)
    (known : ∀ id, c.currentScope? = some id → (c.symbolList? id).isSome) (s : Symbol) :
    (c.make (.addSymbol s)).Filed := by
  constructor
  · intro t member id named
    rw [symbols_addSymbol] at member
    rw [symbolList?_addSymbol, Option.isSome_map]
    rcases List.mem_append.1 member with old | new
    · exact filed.owned t old id named
    · rw [List.mem_singleton.1 new] at named
      exact known id named
  · intro id symbols lists
    rw [symbolList?_addSymbol] at lists
    obtain ⟨before, listed, rfl⟩ := Option.map_eq_some_iff.1 lists
    rw [symbolsIn_concat (c.symbols_addSymbol s), ← filed.listed id before listed]
    by_cases here : c.currentScope? = some id <;> simp [placed, here]

theorem symbolsIn_of_unknown (filed : c.Filed) (unknown : c.symbolList? id = none) :
    c.symbolsIn id = [] := by
  rw [symbolsIn, List.map_eq_nil_iff, List.filter_eq_nil_iff]
  intro entry member
  have listed : entry.1 ∈ c.symbols := (List.mem_zipIdx' member).2 ▸ List.getElem_mem _
  intro named
  have there := filed.owned entry.1 listed id (of_decide_eq_true named)
  rw [unknown] at there
  cases there

theorem Filed.of_other (filed : c.Filed) (other : e.symbol? = none)
    (empty : ∀ s, e.scope? = some s → s.symbols = []) : (c.perform e).Filed := by
  obtain ⟨symbols, arena⟩ := perform_of_other (c := c) other empty
  have same : ∀ id, (c.perform e).symbolsIn id = c.symbolsIn id := by
    intro id
    rw [symbolsIn, symbols, symbolsIn]
  have old : ∀ id before, c.symbolList? id = some before →
      (c.perform e).symbolList? id = some before := by
    intro id before listed
    rw [symbolList?_eq] at listed ⊢
    rw [arena, List.getElem?_append_left (List.getElem?_eq_some_iff.1 listed).1, listed]
  constructor
  · intro t member id named
    rw [symbols] at member
    obtain ⟨before, listed⟩ := Option.isSome_iff_exists.1 (filed.owned t member id named)
    rw [old id before listed]
    rfl
  · intro id symbols lists
    rw [same]
    cases listed : c.symbolList? id with
    | some before =>
      rw [old id before listed] at lists
      rw [← Option.some.inj lists]
      exact filed.listed id before listed
    | none =>
      rw [symbolsIn_of_unknown filed listed]
      rw [symbolList?_eq] at listed lists
      rw [arena, List.getElem?_append_right (List.getElem?_eq_none_iff.1 listed)] at lists
      obtain ⟨s, -, rfl⟩ := Option.map_eq_some_iff.1
        (Option.mem_toList.1 (List.mem_of_getElem? lists))
      rfl

end Context

def Progress.findsSymbol (p : Progress) : Bool :=
  (p.cursor.peek?.any fun r => r.kind ∈ Kind.symbols) &&
    (p.dispatch standard).progress.tally.processed = p.tally.processed + 1

/-- The symbol is the one that the record under the cursor tells of, in the scope on top of the
stack. -/
structure Symbol.StandsFor (s : Symbol) (p : Progress) : Prop where
  record : ∃ r, p.cursor.peek? = some r ∧ s.kind = r.kind ∧ s.name = r.name ∧
    s.sectionIndex = r.sectionIndex ∧ s.offset = r.address ∧ s.typeIndex = r.typeIndex ∧
    s.flags = r.flags
  position : s.position = p.cursor.position
  scope : s.scope = p.context.stack.head?.map (·.scope)

/-- The symbols of a context are those that the visited records tell of. -/
structure Context.SymbolsOf (visited : List Progress) (c : Context) : Prop where
  found : List.Forall₂ Symbol.StandsFor c.symbols (visited.filter Progress.findsSymbol)
  ascend : c.symbols.Pairwise fun s later => s.position < later.position
  filed : c.Filed

namespace Progress
variable {p q : Progress} {r : Record} {n : Nat} {visited : List Progress}

theorem findsSymbol_iff (found : p.cursor.peek? = some r) :
    p.findsSymbol = true ↔ ∃ s, (r.effect p.cursor.position).symbol? = some s := by
  obtain ⟨-, moves, -⟩ := dispatch_standard found
  have counted : (p.next r).tally.processed = p.tally.processed + 1 ↔
      p.context.verdict (r.effect p.cursor.position) = .processed := by
    simp only [next]
    cases p.context.verdict (r.effect p.cursor.position) <;>
      simp [Tally.count, Tally.addSkip, Tally.addProcessed, Tally.addFault]
  rw [Record.exists_symbol?_iff p.context, ← counted]
  simp [findsSymbol, found, moves]

theorem standsFor_placed (found : p.cursor.peek? = some r) {s : Symbol}
    (adds : (r.effect p.cursor.position).symbol? = some s) :
    (p.context.placed s).StandsFor p := by
  obtain ⟨-, -, read⟩ := Record.symbol?_effect.1 adds
  obtain ⟨-, -, rfl⟩ := Record.readSymbol_eq_ok.1 read
  exact ⟨⟨r, found, rfl, rfl, rfl, rfl, rfl, rfl⟩, rfl, rfl⟩

structure Recounts (visited : List Progress) (p : Progress) : Prop where
  symbolsOf : p.context.SymbolsOf visited
  passed : ∀ s ∈ p.context.symbols, s.position < p.cursor.position
  nested : p.Nested

theorem recounts_fresh (layout : Option LoadLayout) (options : Options) (cursor : Cursor) :
    Recounts [] { context := { layout, options }, cursor } where
  symbolsOf := ⟨.nil, .nil, by constructor <;> simp [Context.symbolList?, Context.scope?]⟩
  passed := by simp
  nested := nested_fresh layout options cursor

theorem Recounts.next (recounts : Recounts visited p) (found : p.cursor.peek? = some r) :
    Recounts (visited ++ [p]) (p.next r) := by
  obtain ⟨⟨stands, ascend, filed⟩, passed, nested⟩ := recounts
  have forwards : p.cursor.position < (p.next r).cursor.position := p.cursor.lt_following _ _
  have finds := findsSymbol_iff found
  cases adds : (r.effect p.cursor.position).symbol? with
  | none =>
    have silent : p.findsSymbol = false := by simpa [adds] using finds
    have empty : ∀ s, (r.effect p.cursor.position).scope? = some s → s.symbols = [] :=
      fun s => Record.symbols_of_scope?
    have symbols : (p.next r).context.symbols = p.context.symbols :=
      (Context.perform_of_other adds empty).1
    refine ⟨⟨?_, ?_, filed.of_other adds empty⟩, ?_, nested.next found⟩
    · simpa [symbols, silent] using stands
    · rwa [symbols]
    · intro s member
      rw [symbols] at member
      have before := passed s member
      omega
  | some s =>
    have speaks : p.findsSymbol = true := finds.2 ⟨s, adds⟩
    have context : (p.next r).context = p.context.make (.addSymbol s) := by
      simp only [Progress.next, Effect.symbol?_eq_some.1 adds, Context.perform]
    have symbols : (p.next r).context.symbols = p.context.symbols ++ [p.context.placed s] := by
      rw [context, Context.symbols_addSymbol]
    have new := standsFor_placed found adds
    refine ⟨⟨?_, ?_, ?_⟩, ?_, nested.next found⟩
    · rw [symbols, List.filter_append, List.filter_singleton, speaks]
      exact List.rel_append stands (.cons new .nil)
    · rw [symbols, List.pairwise_append]
      refine ⟨ascend, by simp, ?_⟩
      intro t old last member
      rw [List.mem_singleton.1 member, new.position]
      exact passed t old
    · rw [context]
      refine filed.addSymbol ?_ s
      intro id current
      rw [← Context.head?_frames] at current
      have known := nested.ordered.frame_known (List.mem_of_head? current)
      obtain ⟨owner, here⟩ := Context.exists_scope? known
      rw [Context.symbolList?, here]
      rfl
    · intro t member
      rw [symbols] at member
      rcases List.mem_append.1 member with old | last
      · have before := passed t old
        omega
      · rw [List.mem_singleton.1 last, new.position]
        omega

end Progress

/-- From a fresh context, the symbols of every state are those of the records so far that were
counted as processed, in the scopes that were open at the time. -/
theorem symbols_kept_in_innermost_scope (cursor : Cursor) (layout : Option LoadLayout)
    (options : Options) :
    let start : Progress := { context := { layout, options }, cursor }
    (∀ n p, start.after standard n = some p → p.context.SymbolsOf (start.history n)) ∧
      ∀ token, (run standard start.context cursor token).progress.context.SymbolsOf
        (start.dispatches standard token) := by
  intro start
  have fresh := Progress.recounts_fresh layout options cursor
  have states : ∀ n p, start.after standard n = some p →
      p.context.SymbolsOf (start.history n) := by
    intro n p reached
    refine (Progress.history_keeps (motive := Progress.Recounts) fresh ?_ reached).symbolsOf
    exact fun visited s r found recounts => recounts.next found
  refine ⟨states, ?_⟩
  intro token
  obtain ⟨n, q, reached, visits, same⟩ := start.exists_history_run token
  have kept := states n q reached
  rw [← same, ← visits] at kept
  exact kept

/-- The first variable lies in the block that is not accepted, the label is not accepted itself, and
the public symbol comes after an end record that matches nothing. -/
theorem symbols_kept_in_innermost_scope_under_placeholder :
    let records : List Record :=
      [{ kind := Kind.globalProcedure, sectionIndex := 1 },
        { kind := Kind.block, sectionIndex := 0x10000 },
        { kind := Kind.localData, sectionIndex := 1, name := "v" },
        { kind := Kind.label, sectionIndex := -1 }, { kind := Kind.inlineSiteEnd },
        { kind := Kind.publicSymbol, sectionIndex := 1, name := "w" }]
    let start : Progress := { context := {}, cursor := { records } }
    ∃ p, start.after standard 6 = some p ∧
      p.context.symbols.map (fun s => (s.name, s.position, s.scope)) =
        [("v", 2, some 1), ("w", 5, none)] ∧
      p.context.symbolList? 0 = some [] ∧ p.context.symbolList? 1 = some [0] ∧
      p.context.SymbolsOf (start.history 6) := by
  intro records start
  have listed : (start.after standard 6).map (fun p =>
      p.context.symbols.map fun s => (s.name, s.position, s.scope)) =
      some [("v", 2, some 1), ("w", 5, none)] := by decide +kernel
  obtain ⟨p, reached, symbols⟩ := Option.map_eq_some_iff.1 listed
  have lists : (start.after standard 6).map (fun p =>
      (p.context.symbolList? 0, p.context.symbolList? 1)) = some (some [], some [0]) := by
    decide +kernel
  rw [reached, Option.map_some, Option.some.injEq, Prod.mk.injEq] at lists
  exact ⟨p, reached, symbols, lists.1, lists.2,
    (symbols_kept_in_innermost_scope { records } none {}).1 6 p reached⟩

end SymbolRecovery
