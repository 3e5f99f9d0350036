import Datapack.Scope.Basic

/-!
# The objectives of a scope

`Scope.objectives` enumerates what must exist on the scoreboard: the variables in order of
declaration, a templated one once for each of its options, and then the memory cells. When the
scope detects collisions, two different names that are cut to the same one are refused.
-/
namespace Datapack

namespace Scope

/-- The full names of a variable, one for each of its options. -/
def fullNames (s : Scope) (name : String) (entry : VariableEntry) : Except Error (List String) :=
  entry.options.mapM fun args => (entry.fill name args).map s.qualify

/-- The full names of all objectives. -/
def fullObjectives (s : Scope) : Except Error (List String) := do
  let names ← s.vars.entries.mapM fun (name, entry) => s.fullNames name entry
  return names.flatten ++ s.cells.map s.cellName

/-- The first collision in a list of full names, given those `seen` before it, latest first. -/
def collision? (seen : List String) : List String → Option Cause
  | [] => none
  | name :: names =>
    match seen.find? (trim · = trim name) with
    | some first =>
      if first = name then collision? (name :: seen) names
      else some (.nameCollision (trim name) first name)
    | none => collision? (name :: seen) names

/-- The names of all objectives. -/
def objectives (s : Scope) : Except Error (List String) := do
  let names ← s.fullObjectives
  match if s.detectCollisions then collision? [] names else none with
  | some cause => .error cause.error
  | none => return names.map trim

end Scope

end Datapack
