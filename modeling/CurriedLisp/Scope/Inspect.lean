import CurriedLisp.Scope.Basic
import CurriedLisp.Value.Inspect

set_option autoImplicit false

namespace CurriedLisp.Store

def inspectVars (depth : Nat) (vars : List (String × Value)) : Except Obstacle String := do
  let shown ← vars.mapM fun (name, v) => do
    let text ← v.renderInspected depth
    return name ++ ": " ++ text
  return "\x7b" ++ ", ".intercalate shown ++ "\x7d"

def inspectScope (depth : Nat) (store : Store) (scope : Nat) : Except Obstacle String := do
  let own ← inspectVars depth (store.vars scope)
  return if (store.outer? scope).isSome then own ++ " -> ..." else own

-- A scope and all those around it; of the root only the size is told.
def inspectChain (depth : Nat) (store : Store) (scope : Nat) : Except Obstacle String := do
  let links ← (store.chain scope).mapM fun link =>
    if (store.outer? link).isSome then inspectVars depth (store.vars link)
    else return "<root: " ++ toString (store.vars link).length ++ " bindings>"
  return "<Environment chain: " ++ " -> ".intercalate links ++ ">"

end CurriedLisp.Store
