import Datapack.Event
import Datapack.Table
import Datapack.Text.Json

/-!
# Advancements

An advancement is granted when one of its criteria is met, and may then call a function. The
conditions of a criterion are nested by their paths: a later condition replaces what stands in
its way, and one without a path has no effect.
-/
namespace Datapack

open Text (Json)

namespace Conditions

/-- Sets the text at a path below the given members, making the objects on the way. -/
def insertPath (value : String) : List String → List (String × Json) → List (String × Json)
  | [], members => members
  | [key], members => Assoc.put key (.str value) members
  | key :: path, members =>
    let below := match Assoc.get? key members with
      | some (.obj below) => below
      | _ => []
    Assoc.put key (.obj (insertPath value path below)) members

/-- The object that a list of conditions makes. -/
def nest (conditions : List Condition) : List (String × Json) :=
  conditions.foldl (fun members c => insertPath c.value c.path members) []

end Conditions

structure Criterion where
  trigger : String
  conditions : List Condition
  deriving DecidableEq

def Criterion.toJson (c : Criterion) : Json :=
  .obj (("trigger", .str c.trigger) ::
    match Conditions.nest c.conditions with
    | [] => []
    | members => [("conditions", .obj members)])

structure Advancement where
  name : String
  criteria : Table String Criterion := ∅
  /-- The function that is called when the advancement is granted. -/
  reward : Option String := none

namespace Advancement

/-- The name of the advancement that triggers a handler. -/
def nameFor (handler : String) : String := "adv_" ++ handler

/-- Sets the criterion under a key. -/
def addCriterion (a : Advancement) (key trigger : String) (conditions : List Condition) :
    Advancement :=
  { a with criteria := a.criteria.insert key ⟨trigger, conditions⟩ }

def toJson (a : Advancement) : Json :=
  .obj (("criteria", .obj (a.criteria.entries.map fun (key, c) => (key, c.toJson))) ::
    match a.reward with
    | none => []
    | some function => [("rewards", .obj [("function", .str function)])])

/-- The file that the advancement is written to. -/
def text (a : Advancement) : String := a.toJson.pretty

end Advancement

end Datapack
