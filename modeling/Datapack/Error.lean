import Datapack.Event
import Datapack.Instruction.Opcode
import Datapack.Stage

/-!
# Why an operation is refused

A `Cause` says what was wrong; an `Error` is a cause, attributed to an instruction when one was
being carried out. All wording is in `Cause.message` and `Error.message`. A `Step` is an
operation on a state that may be refused: what it had changed before it was refused stays
changed.
-/
namespace Datapack

/-! ## Causes -/

/-- How many arguments were asked for. -/
inductive Arity where
  | exactly (n : Nat)
  | atLeastOne
  | atMostOne
  deriving DecidableEq

def Arity.phrase : Arity → String
  | .exactly n => toString n
  | .atLeastOne => "at least 1"
  | .atMostOne => "0 or 1"

/-- What a name or number was looked up as. -/
inductive Sought where
  | instruction
  | event
  | function
  | functionName
  | variableName
  deriving DecidableEq

def Sought.phrase : Sought → String
  | .instruction => "Instruction"
  | .event => "Event"
  | .function => "Function"
  | .functionName => "Function name"
  | .variableName => "Variable"

/-- What a sealed scope hands out no more. -/
inductive Allocation where
  | redefinition
  | newVariable
  | cell
  | tag
  deriving DecidableEq

def Allocation.phrase : Allocation → String
  | .redefinition => "a variable redefinition"
  | .newVariable => "a variable"
  | .cell => "a memory cell"
  | .tag => "a tag"

/-- Something was done at the wrong time. -/
inductive Untimely where
  | notNow (action : Action) (current : Stage)
  | alreadyCompiled
  | constructorAsStatement
  | noPass (op : Opcode) (pass : Pass)
  | afterSeal (what : Allocation)
  deriving DecidableEq

def Untimely.message : Untimely → String
  | .notNow action current =>
    action.phrase ++ " is only allowed in the " ++ action.stage.name ++ " phase (currently " ++
      current.name ++ ")"
  | .alreadyCompiled => "the program has already been compiled"
  | .constructorAsStatement => "constructors run when they are defined, not as statements"
  | .noPass op pass => "`" ++ op.name ++ "` has no " ++ pass.name ++ " phase"
  | .afterSeal what =>
    "cannot allocate " ++ what.phrase ++ " after the objective set was enumerated"

/-- Something was put where it does not belong. -/
inductive Misplaced where
  | secondFunction (name : String)
  | secondAdvancement (function : String)
  | notAtTop (op : Opcode)
  | notPreamble (op : Opcode)
  | topOnly (op : Opcode)
  | notInBody (op : Opcode)
  deriving DecidableEq

/-- What was put there, and why it may not be. -/
def Misplaced.parts : Misplaced → String × String
  | .secondFunction name => ("function", "function `" ++ name ++ "` is already defined")
  | .secondAdvancement function =>
    (Opcode.eventHandler.name, "`" ++ function ++ "` already handles another advancement event")
  | .notAtTop op => (op.name, "only preamble instructions can appear at the top level")
  | .notPreamble op => (op.name, "not a preamble instruction")
  | .topOnly op => (op.name, "only allowed in the top-level preamble")
  | .notInBody op => (op.name, "preamble instructions cannot appear in a function body")

inductive Cause where
  | typeMismatch (expected found : String)
  | arityMismatch (what : String) (expected : Arity) (received : Nat)
  | unboundValue (name : String)
  | unsupportedOperator (symbol type : String)
  | wrongEventKind (op : Opcode) (event : String) (expected found : EventKind)
  | inlineHandler (op : Opcode) (function : String)
  | misplaced (why : Misplaced)
  | untimely (why : Untimely)
  | notFound (what : Sought) (name : String)
  | missingArgument (name : String)
  | unknownArgumentKind (kind : String)
  | unreadable (input rest : String)
  | nameCollision (trimmed first second : String)
  deriving DecidableEq

namespace Cause

def message : Cause → String
  | .typeMismatch expected found => "Type mismatch: expected " ++ expected ++ ", found " ++ found
  | .arityMismatch what expected received =>
    "`" ++ what ++ "` expected " ++ expected.phrase ++ " arguments but received " ++
      toString received
  | .unboundValue name => "Value `" ++ name ++ "` was used before it was constructed"
  | .unsupportedOperator symbol type =>
    "Operator `" ++ symbol ++ "` is not supported on type `" ++ type ++ "`"
  | .wrongEventKind op event expected found =>
    "`" ++ op.name ++ "` expected " ++ expected.phrase ++ " event, got " ++ found.phrase ++
      " event `" ++ event ++ "`"
  | .inlineHandler op function =>
    "Function `" ++ function ++ "` is inline and cannot be registered as `" ++ op.name ++ "` target"
  | .misplaced why => "`" ++ why.parts.1 ++ "` cannot be used here: " ++ why.parts.2
  | .untimely why => "Phase violation: " ++ why.message
  | .notFound what name => what.phrase ++ " `" ++ name ++ "` not found"
  | .missingArgument name => "Missing argument `" ++ name ++ "`"
  | .unknownArgumentKind kind => "Unknown command argument kind `" ++ kind ++ "`"
  | .unreadable input rest =>
    "Cannot read instruction `" ++ input ++ "`: unexpected input at `" ++ rest ++ "`"
  | .nameCollision trimmed first second =>
    "Objective `" ++ trimmed ++ "` is produced by both `" ++ first ++ "` and `" ++ second ++ "`"

/-- A hint on how to mend it. -/
def hint? : Cause → Option String
  | .inlineHandler .. => some "handlers and setup functions must be addressable functions"
  | .missingArgument _ => some "pass it as a session argument"
  | .unknownArgumentKind _ => some "expected one of: tag, arg, entity_local, func"
  | .nameCollision .. =>
    some "objective names keep only their last 16 characters; rename one of them"
  | _ => none

end Cause

/-! ## Errors -/

/-- A cause, with the instruction that was being carried out. -/
structure Error where
  cause : Cause
  op : Option Opcode := none
  deriving DecidableEq

namespace Error

/-- Attributes an error to an instruction, unless it is attributed already. -/
def within (op : Opcode) (e : Error) : Error :=
  match e.op with
  | some _ => e
  | none => { e with op := some op }

def message (e : Error) : String :=
  match e.op with
  | some op => "In `" ++ op.name ++ "`: " ++ e.cause.message
  | none => e.cause.message

/-- The hint of a cause that is not attributed. -/
def hint? (e : Error) : Option String :=
  match e.op with
  | some _ => none
  | none => e.cause.hint?

/-- How to use the instruction that the error is attributed to. -/
def usage? (e : Error) : Option String := e.op.map Opcode.help

end Error

/-- An error with this cause, attributed to no instruction. -/
def Cause.error (c : Cause) : Error := { cause := c }

/-! ## Steps -/

/-- An operation on a state `σ` that yields an `α` or is refused. -/
abbrev Step (σ α : Type) := EStateM Error σ α

namespace Step

variable {σ τ α : Type}

def refuse (c : Cause) : Step σ α := fun s => .error c.error s

/-- A result that leaves the state alone. -/
def ofExcept (r : Except Error α) : Step σ α := fun s =>
  match r with
  | .ok a => .ok a s
  | .error e => .error e s

/-- A step on a part of the state. What it leaves behind, refused or not, is put back. -/
def onPart (part : σ → τ) (put : τ → σ → σ) (step : Step τ α) : Step σ α := fun s =>
  match step (part s) with
  | .ok a t => .ok a (put t s)
  | .error e t => .error e (put t s)

/-- Attributes the errors of a step to an instruction. -/
def within (op : Opcode) (step : Step σ α) : Step σ α := fun s =>
  match step s with
  | .ok a s => .ok a s
  | .error e s => .error (e.within op) s

end Step

end Datapack
