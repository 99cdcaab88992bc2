import SymbolRecovery.Context

/-!
The forest of scopes as a whole. A child is always found after its parent, so going through the
scopes from the last to the first meets the children of a scope before the scope itself; that
gives every fold over the forest without a bound on its depth.
-/
namespace SymbolRecovery

/-- A value for every scope of a list, the first of which has the given id, from the values of its
children. -/
def foldScopes {α : Type} (f : ScopeId → Scope → List α → α) : ScopeId → List Scope → List α
  | _, [] => []
  | id, s :: later =>
    let values := foldScopes f (id + 1) later
    let children := s.children.filterMap fun child =>
      if id < child then values[child - (id + 1)]? else none
    f id s children :: values

namespace Context

def subtrees (c : Context) : List (List (Nat × ScopeId)) :=
  foldScopes (fun id _ children =>
    (0, id) :: children.flatten.map fun entry => (entry.1 + 1, entry.2)) 0 c.arena

def subtree (c : Context) (id : ScopeId) : List (Nat × ScopeId) := (c.subtrees[id]?).getD []

def walk (c : Context) : List ScopeId :=
  let subtrees := c.subtrees
  c.top.flatMap fun id => ((subtrees[id]?).getD []).map (·.2)

end Context
end SymbolRecovery
