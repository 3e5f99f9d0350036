import Datapack.BlockPos
import Datapack.Text.Json

/-!
# Laying out command blocks

Lines of command blocks are placed beside an origin: each line has a row of its own, the first
next to the origin, and its blocks follow each other along the row. A line without blocks still
takes its row. Placing fails when a coordinate leaves its range.
-/
namespace Datapack

inductive BlockMode where
  | impulse
  | chain
  | repeating
  deriving DecidableEq

def BlockMode.blockId : BlockMode → String
  | .impulse => "minecraft:command_block"
  | .chain => "minecraft:chain_command_block"
  | .repeating => "minecraft:repeating_command_block"

/-- A command block; its command may still have to be resolved. -/
structure Block (γ : Type) where
  command : γ
  conditional : Bool
  mode : BlockMode
  deriving DecidableEq

structure Layout where
  origin : BlockPos
  lines : List (List (Block String)) := []

namespace Layout

def place (l : Layout) (line : List (Block String)) : Layout :=
  { l with lines := l.lines ++ [line] }

/-- The blocks of a row with their positions, from column `x` on. -/
def row? (origin : BlockPos) (z : Nat) : Nat → List (Block String) →
    Option (List (BlockPos × Block String))
  | _, [] => some []
  | x, block :: blocks => do
    let pos ← origin.offset? x 0 (z + 1)
    let placed ← row? origin z (x + 1) blocks
    some ((pos, block) :: placed)

/-- The blocks of all rows with their positions, from row `z` on. -/
def rows? (origin : BlockPos) : Nat → List (List (Block String)) →
    Option (List (BlockPos × Block String))
  | _, [] => some []
  | z, line :: lines => do
    let placed ← row? origin z 0 line
    let others ← rows? origin (z + 1) lines
    some (placed ++ others)

/-- All blocks with their positions, line by line. -/
def positions? (l : Layout) : Option (List (BlockPos × Block String)) := rows? l.origin 0 l.lines

/-- The command that sets a block. -/
def setText (pos : BlockPos) (block : Block String) : String :=
  "setblock " ++ pos.text ++ " " ++ block.mode.blockId ++ "[facing=east,conditional=" ++
    (if block.conditional then "true" else "false") ++ "]\x7bCommand:" ++
    Text.Json.quote block.command ++ ",auto:1b\x7d"

/-- The command that removes a block. -/
def clearText (pos : BlockPos) : String := "setblock " ++ pos.text ++ " minecraft:air"

/-- The commands that set all blocks. -/
def setCommands? (l : Layout) : Option (List String) :=
  l.positions?.map fun placed => placed.map fun (pos, block) => setText pos block

/-- The commands that remove all blocks. -/
def clearCommands? (l : Layout) : Option (List String) :=
  l.positions?.map fun placed => placed.map fun (pos, _) => clearText pos

end Layout

end Datapack
