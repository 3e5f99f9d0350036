import Datapack.Session.Basic

/-!
# Installing and uninstalling

Installation summons the entity of the namespace, adds the objectives, clears cells and
registers, and sets the command blocks; from then on the scope is sealed. Uninstallation removes
the same entity, objectives and blocks. Both fail when a block's coordinate leaves its range.
-/
namespace Datapack

/-- Why an installation fails. -/
inductive Failure where
  | refused (e : Error)
  /-- A coordinate left its range. -/
  | overflow
  deriving DecidableEq

/-- A step that may also fail by overflow. -/
abbrev Attempt (σ α : Type) := EStateM Failure σ α

namespace Attempt

variable {σ α : Type}

def ofStep (step : Step σ α) : Attempt σ α := fun s =>
  match step s with
  | .ok a s => .ok a s
  | .error e s => .error (.refused e) s

def ofOption (value : Option α) : Attempt σ α := fun s =>
  match value with
  | some a => .ok a s
  | none => .error .overflow s

end Attempt

namespace Session

/-- The registers that an installation clears. -/
def clearedRegisters : List String := ["working_reg", "success_tracker"]

/-- The data of the entity that holds the state of the namespace. -/
def entityData (tag : String) : String :=
  "\x7bTags:[\"" ++ tag ++ "\"],ArmorItems:[\x7bid:\"minecraft:stone\",Count:1b," ++
    "tag:\x7bstack:[],globals:[],working:\x7bint:0\x7d\x7d\x7d],NoAI:1b,Invisible:1b,Small:0b," ++
    "NoGravity:1b,Marker:1b,Invulnerable:1b,NoBasePlate:1b\x7d"

def killCommand (s : Scope) : String := "kill " ++ (Selector.namespaceEntities s).text s

def summonCommand (s : Scope) : String :=
  "summon armor_stand " ++ s.home.text ++ " " ++ entityData s.entityTag

def addObjectiveCommand (objective : String) : String :=
  "scoreboard objectives add " ++ objective ++ " dummy"

def removeObjectiveCommand (objective : String) : String :=
  "scoreboard objectives remove " ++ objective

/-- Everything that an installation sets to zero: the memory cells and some registers. -/
def clearedScores (s : Scope) : List ScoreRef :=
  s.cells.map .memory ++ clearedRegisters.map (.var · [])

/-- The commands that install the pack. -/
def install : Attempt Session (List String) := do
  let hook ← Attempt.ofStep (onScope (Command.resolveAll (← get).hook))
  let objectives ← Attempt.ofStep (onScope do Step.ofExcept (← get).objectives)
  modify fun s => { s with scope := s.scope.setSealed }
  let cleared ← Attempt.ofStep <| onScope do
    Command.resolveAll ((clearedScores (← get)).map (.setScore · 0))
  let s ← get
  let blocks ← Attempt.ofOption s.layout.setCommands?
  return [killCommand s.scope, summonCommand s.scope] ++ objectives.map addObjectiveCommand ++
    cleared ++ blocks ++ hook

/-- The commands that undo an installation. -/
def uninstall (s : Session) : Except Failure (List String) := do
  let objectives ← s.scope.objectives.mapError .refused
  match s.layout.clearCommands? with
  | none => .error .overflow
  | some blocks =>
    return killCommand s.scope :: objectives.map removeObjectiveCommand ++ blocks

/-- Writes the functions that install and uninstall the pack, and gives the commands that call them.
-/
def addLifecycle (setup cleanup : String) : Attempt Session (String × String) := do
  Attempt.ofStep (addFunctionNames [setup, cleanup])
  let up ← install
  let down ← fun s =>
    match s.uninstall with
    | .ok down => .ok down s
    | .error e => .error e s
  Attempt.ofStep do
    write (.function setup up)
    write (.function cleanup down)
    if (← get).setupOnLoad then
      addFunction loadTrampoline [.call setup]
      writeTags
    return (← onScope (Command.call setup).resolve, ← onScope (Command.call cleanup).resolve)

end Session

end Datapack
