import Datapack.Error
import Datapack.Operand

/-!
# Instructions

An instruction is an opcode with its operands. `Instruction.ofOperands` builds one from a name
and a list of operands and refuses what the catalogue does not allow: an unknown name, then a
wrong number of operands, then the leftmost operand that does not fit its parameter.
-/
namespace Datapack

inductive Instruction where
  | advEvent (name : String)
  | tagEvent (name : String)
  | addEventCondition (event : EventHandle) (path value : String)
  | eventHandler (handler : FunctionId) (event : EventHandle)
  | fireEvent (event : EventHandle)
  | revokeEventAdv (handler : FunctionId)
  | setupFn (function : FunctionId)
  deriving DecidableEq

namespace Instruction

def opcode : Instruction → Opcode
  | .advEvent _ => .advEvent
  | .tagEvent _ => .tagEvent
  | .addEventCondition .. => .addEventCondition
  | .eventHandler .. => .eventHandler
  | .fireEvent _ => .fireEvent
  | .revokeEventAdv _ => .revokeEventAdv
  | .setupFn _ => .setupFn

def operands : Instruction → List Operand
  | .advEvent name => [.str name]
  | .tagEvent name => [.str name]
  | .addEventCondition event path value => [.event event, .str path, .str value]
  | .eventHandler handler event => [.func handler, .event event]
  | .fireEvent event => [.event event]
  | .revokeEventAdv handler => [.func handler]
  | .setupFn function => [.func function]

def name (insn : Instruction) : String := insn.opcode.name

def kind (insn : Instruction) : InstructionKind := insn.opcode.kind

end Instruction

/-! ## Checking operands -/

namespace ParamType

/-- Why an operand does not fit a parameter of `op`; `none` when it fits. -/
def misfit? (op : Opcode) : ParamType → Operand → Option Cause
  | .text, .str _ => none
  | .event, .event _ => none
  | .advancementEvent, .event handle => wrongKind? .advancement handle
  | .tagEvent, .event handle => wrongKind? .tag handle
  | .function, .func _ => none
  | .visibleFunction, .func _ => none
  | type, operand => some (.typeMismatch type.describe operand.describe)
where
  wrongKind? (wanted : EventKind) (handle : EventHandle) : Option Cause :=
    if handle.kind = wanted then none
    else some (.wrongEventKind op (numbered handle.id) wanted handle.kind)

end ParamType

namespace Opcode

/-- The instruction with these operands, if they are of the right number and sorts. -/
def assemble? : Opcode → List Operand → Option Instruction
  | .advEvent, [.str name] => some (.advEvent name)
  | .tagEvent, [.str name] => some (.tagEvent name)
  | .addEventCondition, [.event ⟨id, .advancement⟩, .str path, .str value] =>
    some (.addEventCondition ⟨id, .advancement⟩ path value)
  | .eventHandler, [.func handler, .event event] => some (.eventHandler handler event)
  | .fireEvent, [.event ⟨id, .tag⟩] => some (.fireEvent ⟨id, .tag⟩)
  | .revokeEventAdv, [.func handler] => some (.revokeEventAdv handler)
  | .setupFn, [.func function] => some (.setupFn function)
  | _, _ => none

/-- The first fault of a list of operands: their number, else the leftmost that does not fit. -/
def fault (op : Opcode) (operands : List Operand) : Cause :=
  let arity := .arityMismatch op.name (.exactly op.params.length) operands.length
  if operands.length ≠ op.params.length then arity
  else ((op.params.zip operands).findSome? fun (p, operand) => p.type.misfit? op operand).getD arity

end Opcode

namespace Instruction

/-- The instruction of a name with its operands. -/
def ofOperands (name : String) (operands : List Operand) : Except Error Instruction :=
  match Opcode.ofName? name with
  | none => .error (Cause.notFound .instruction name).error
  | some op =>
    match op.assemble? operands with
    | some insn => .ok insn
    | none => .error ((op.fault operands).error.within op)

/-- Attaches a condition to an event. -/
def addCondition (event : EventHandle) (path value : String) : Except Error Instruction :=
  ofOperands Opcode.addEventCondition.name [.event event, .str path, .str value]

/-- Registers a function as handler of an event. -/
def handle (handler : FunctionId) (event : EventHandle) : Except Error Instruction :=
  ofOperands Opcode.eventHandler.name [.func handler, .event event]

/-- Fires a tag event. -/
def fire (event : EventHandle) : Except Error Instruction :=
  ofOperands Opcode.fireEvent.name [.event event]

end Instruction

end Datapack
