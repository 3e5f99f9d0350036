/-!
# Positions of blocks

Coordinates are signed numbers of 32 bits. `BlockPos.offset?` fails when a coordinate would
leave that range.
-/
namespace Datapack

/-- A block coordinate. -/
abbrev Coord := { n : Int // -0x80000000 ≤ n ∧ n < 0x80000000 }

def Coord.ofInt? (n : Int) : Option Coord :=
  if h : -0x80000000 ≤ n ∧ n < 0x80000000 then some ⟨n, h⟩ else none

structure BlockPos where
  x : Coord
  y : Coord
  z : Coord
  deriving DecidableEq

namespace BlockPos

def ofInts? (x y z : Int) : Option BlockPos := do
  some ⟨← Coord.ofInt? x, ← Coord.ofInt? y, ← Coord.ofInt? z⟩

/-- The position moved along the axes. -/
def offset? (p : BlockPos) (dx dy dz : Int) : Option BlockPos :=
  ofInts? (p.x.val + dx) (p.y.val + dy) (p.z.val + dz)

/-- The coordinates with blanks between them. -/
def text (p : BlockPos) : String :=
  toString p.x.val ++ " " ++ toString p.y.val ++ " " ++ toString p.z.val

end BlockPos

end Datapack
