import Datapack.Instruction.Text
import Datapack.Program.Passes

/-!
# Programs

A program is put together while it is open: functions are added, values defined, and statements
pushed to the top level, to the preamble of a function or to its body. What a statement may be
depends on where it goes; a statement that is refused leaves the program as it was.
-/
namespace Datapack

/-- The statements of a function. -/
structure Body where
  preamble : List Instruction := []
  commands : List Instruction := []
  deriving DecidableEq

structure Program where
  registry : Registry := {}
  /-- Values by number, with their names. -/
  values : List (String × Operand) := []
  top : List Instruction := []
  bodies : List Body := []
  deriving DecidableEq

namespace Program

/-- A step on the registry of a program. -/
def onRegistry {α : Type} (step : Step Registry α) : Step Program α :=
  Step.onPart (·.registry) (fun registry p => { p with registry }) step

/-! ## Functions and values -/

/-- Adds a function with an empty body. -/
def addFunction (f : Function) : Step Program FunctionId := do
  let id ← onRegistry (Registry.addFunction f)
  modify fun p => { p with bodies := p.bodies ++ [{}] }
  return id

/-- Adds a value and gives its number. -/
def bind (name : String) (value : Operand) : Step Program Nat := fun p =>
  .ok p.values.length { p with values := p.values ++ [(name, value)] }

/-- Adds the value that a constructor yields. -/
def define (name : String) (insn : Instruction) : Step Program Nat :=
  if insn.kind = .constructor then do
    let value ← onRegistry insn.construct
    bind name value
  else Step.refuse (.typeMismatch "constructor instruction" insn.name)

/-- Adds the value that a constructor line yields. -/
def defineText (name text : String) (arguments : List Operand) : Step Program Nat := do
  let insn ← Step.ofExcept (Instruction.read text arguments)
  define name insn

def value (p : Program) (index : Nat) : Except Error Operand :=
  match p.values[index]? with
  | some (_, value) => .ok value
  | none => .error (Cause.unboundValue ("$" ++ toString index)).error

def valueName? (p : Program) (index : Nat) : Option String := p.values[index]?.map Prod.fst

/-- The event that a value is. -/
def event (p : Program) (index : Nat) : Except Error EventHandle := do
  match ← p.value index with
  | .event handle => .ok handle
  | other => .error (Cause.typeMismatch "event" other.describe).error

/-! ## Statements -/

/-- Refused once the program has been compiled, and for constructors. -/
def checkOpen (p : Program) (insn : Instruction) : Except Error Unit :=
  if p.registry.stage ≠ .define then
    .error ((Cause.untimely .alreadyCompiled).error.within insn.opcode)
  else if insn.kind = .constructor then
    .error ((Cause.untimely .constructorAsStatement).error.within insn.opcode)
  else .ok ()

/-- Changes the body of a function. -/
def changeBody (id : FunctionId) (change : Body → Body) : Step Program Unit := fun p =>
  match p.bodies[id]? with
  | some body => .ok () { p with bodies := p.bodies.set id (change body) }
  | none => .error (Cause.notFound .function (numbered id)).error p

/-- Adds a statement to the top level. -/
def pushTop (insn : Instruction) : Step Program Unit := do
  Step.ofExcept ((← get).checkOpen insn)
  if insn.kind ≠ .preamble then Step.refuse (.misplaced (.notAtTop insn.opcode))
  else modify fun p => { p with top := p.top ++ [insn] }

/-- Adds a statement to the preamble of a function. -/
def pushPreamble (id : FunctionId) (insn : Instruction) : Step Program Unit := do
  Step.ofExcept ((← get).checkOpen insn)
  if insn.kind ≠ .preamble then Step.refuse (.misplaced (.notPreamble insn.opcode))
  else if insn.opcode.signature.topOnly then Step.refuse (.misplaced (.topOnly insn.opcode))
  else changeBody id fun body => { body with preamble := body.preamble ++ [insn] }

/-- Adds a statement to the body of a function. -/
def pushBody (id : FunctionId) (insn : Instruction) : Step Program Unit := do
  Step.ofExcept ((← get).checkOpen insn)
  if insn.kind ≠ .emitter then Step.refuse (.misplaced (.notInBody insn.opcode))
  else changeBody id fun body => { body with commands := body.commands ++ [insn] }

end Program

end Datapack
