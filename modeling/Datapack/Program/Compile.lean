import Datapack.Program.Basic

/-!
# Compilation

A program is compiled once. The preamble statements, those of the top level before those of the
functions, are all declared and then all applied; the registry is then closed, the registrations
are read off it in the same order, and every function that is used or pinned, and not inline,
becomes a list of commands. A refusal stops the compilation in the stage that it has reached.
-/
namespace Datapack

/-- A function of a compiled program. -/
structure CompiledFunction where
  name : String
  commands : List Command
  deriving DecidableEq

/-- What a program is compiled to. -/
structure Build where
  functions : List CompiledFunction := []
  registrations : List Registration := []
  deriving DecidableEq

namespace Build

def function? (b : Build) (name : String) : Option CompiledFunction :=
  b.functions.find? (·.name = name)

def functionNames (b : Build) : List String := b.functions.map (·.name)

end Build

namespace Program

/-- The preamble statements of the top level and then of all functions. -/
def preambleStatements (p : Program) : List Instruction := p.top ++ p.bodies.flatMap (·.preamble)

/-- A function with its commands, if it is written at all. -/
def compileFunction (r : Registry) (f : Function) (body : Body) :
    Except Error (List CompiledFunction) :=
  if f.isEmitted then do return [⟨f.name, ← body.commands.mapM (Instruction.command r)⟩]
  else .ok []

/-- What is read off the program once its registry is closed. -/
def output (p : Program) : Except Error Build := do
  let registrations ← p.preambleStatements.mapM (Instruction.postapply p.registry)
  let functions ← (p.registry.functions.zip p.bodies).mapM fun (f, body) =>
    compileFunction p.registry f body
  return ⟨functions.flatten, registrations.flatten⟩

/-- Compiles the program. -/
def compile : Step Program Build := do
  let p ← get
  if p.registry.stage ≠ .define then Step.refuse (.untimely .alreadyCompiled)
  else
    onRegistry (Registry.enter .declare)
    onRegistry (p.preambleStatements.forM Instruction.declare)
    onRegistry (Registry.enter .apply)
    onRegistry (p.preambleStatements.forM Instruction.preapply)
    onRegistry (Registry.enter .closed)
    Step.ofExcept (← get).output

end Program

end Datapack
