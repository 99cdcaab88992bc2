import Mathlib.Data.List.Induction
import SymbolRecovery.Proofs.Items
import SymbolRecovery.Proofs.Trace

/-!
All that can be done to a context from outside, in any order. Records are dispatched to the
program's appliers, of whatever sequence they are and wherever they stand in it; sections are
registered without a record; the layout is replaced; and sections or items that have no address
are looked up again. Main statements: a record that is dispatched does what it asks for, and the
tables of sections and of addresses say the same after every history.
-/
namespace SymbolRecovery
open Lookup (standard)

inductive Operation where
  | dispatch (cursor : Cursor)
  | addSection (s : ImageSection)
  | setLayout (layout : Option LoadLayout)
  | resolve
  | retry

def Cursor.effect (cursor : Cursor) : Effect :=
  match cursor.peek? with
  | some r => r.effect cursor.position
  | none => .ignored

theorem Cursor.effect_of_peek? {cursor : Cursor} {r : Record} (found : cursor.peek? = some r) :
    cursor.effect = r.effect cursor.position := by
  rw [effect, found]

namespace Context

def operate (c : Context) : Operation → Context
  | .dispatch cursor => (({ context := c, cursor } : Progress).dispatch standard).progress.context
  | .addSection s => c.addSection s
  | .setLayout layout => { c with layout }
  | .resolve => c.resolveSections.2
  | .retry => c.retryUnresolved.2

def operateAll (c : Context) (history : List Operation) : Context := history.foldl operate c

variable {c : Context} {history : List Operation}

theorem operate_dispatch (c : Context) (cursor : Cursor) :
    c.operate (.dispatch cursor) = c.perform cursor.effect := by
  rw [operate, Cursor.effect]
  cases found : cursor.peek? with
  | none => rw [Progress.dispatch_exhausted found, perform]
  | some r =>
    obtain ⟨-, moves, -⟩ := Progress.dispatch_standard (p := ⟨c, cursor, {}⟩) found
    rw [moves]
    rfl

theorem operateAll_concat (c : Context) (history : List Operation) (o : Operation) :
    c.operateAll (history ++ [o]) = (c.operateAll history).operate o :=
  List.foldl_concat operate c o history

end Context

theorem Cursor.unlocated_effect (cursor : Cursor) : cursor.effect.Unlocated := by
  unfold effect
  split
  · exact Record.unlocated_effect _ _
  · constructor <;> simp [Effect.section?, Effect.scope?]

namespace Context
variable {c : Context} {history : List Operation}

theorem Consistent.operate (consistent : c.Consistent) {o : Operation}
    (unbased : ∀ s, o = .addSection s → s.base = none) : (c.operate o).Consistent := by
  cases o with
  | dispatch cursor =>
    have unlocated := cursor.unlocated_effect
    rw [operate_dispatch]
    cases registers : cursor.effect.section? with
    | none =>
      have receives := receives_perform (c := c) unlocated registers
      exact consistent.congr receives.sections_eq receives.addresses_eq
    | some s =>
      rw [perform_of_section? registers]
      exact consistent.addSection (unlocated.section_base s registers)
  | addSection s => exact consistent.addSection (unbased s rfl)
  | setLayout layout => exact consistent.congr rfl rfl
  | resolve => exact consistent.resolveSections.1
  | retry =>
    obtain ⟨groups, arena, symbols, same⟩ := c.retryUnresolved_eq
    rw [Context.operate, same]
    exact consistent.congr rfl rfl

theorem Consistent.operateAll (consistent : c.Consistent)
    (unbased : ∀ s, .addSection s ∈ history → s.base = none) :
    (c.operateAll history).Consistent := by
  induction history generalizing c with
  | nil => exact consistent
  | cons o rest ih =>
    have step := consistent.operate (o := o) fun s same =>
      unbased s (same ▸ List.mem_cons_self)
    exact ih step fun s member => unbased s (List.mem_cons_of_mem _ member)

end Context
end SymbolRecovery
