import Datapack.Command
import Datapack.Advancement
import Datapack.Instruction.Basic
import Datapack.Registry

/-!
# What an instruction does in each pass

A constructor is carried out at once. A preamble instruction is declared, applied and then read
off the closed registry as a registration. An emitter becomes a command of its function.
Anything else is refused: the instruction has no such pass. Every refusal is attributed to the
instruction.
-/
namespace Datapack

/-- What a compiled program asks a session to hook up. -/
inductive Registration where
  /-- A function handles an event; `revoke` says that it re-arms the event's trigger. -/
  | handler (function : String) (event : Event) (revoke : Bool)
  /-- A function runs whenever the pack is loaded. -/
  | setup (function : String)
  deriving DecidableEq

namespace Instruction

def noPass {α : Type} (insn : Instruction) (pass : Pass) : Except Error α :=
  .error (Cause.untimely (.noPass insn.opcode pass)).error

/-- Carries out a constructor. -/
def construct (insn : Instruction) : Step Registry Operand :=
  Step.within insn.opcode <|
    match insn with
    | .advEvent name => do return .event (← Registry.createEvent (.advancement name []))
    | .tagEvent name => do return .event (← Registry.createEvent (.tag name))
    | _ => Step.ofExcept (insn.noPass .construct)

/-- First pass of the preamble: handlers are used. -/
def declare (insn : Instruction) : Step Registry Unit :=
  Step.within insn.opcode <|
    match insn with
    | .addEventCondition .. => pure ()
    | .eventHandler handler _ => Registry.markUsed handler
    | .setupFn function => Registry.markUsed function
    | _ => Step.ofExcept (insn.noPass .declare)

/-- Second pass of the preamble: conditions reach their events, handlers their advancements. -/
def preapply (insn : Instruction) : Step Registry Unit :=
  Step.within insn.opcode <|
    match insn with
    | .addEventCondition event path value =>
      Registry.addCondition event (Condition.ofText path value)
    | .eventHandler handler event =>
      match event.kind with
      | .tag => pure ()
      | .advancement => Registry.addRevoke handler event
    | .setupFn _ => pure ()
    | _ => Step.ofExcept (insn.noPass .preapply)

/-- Last pass of the preamble: what the instruction registers. -/
def postapply (r : Registry) (insn : Instruction) : Except Error (List Registration) :=
  Except.mapError (Error.within insn.opcode) <|
    match insn with
    | .addEventCondition .. => .ok []
    | .eventHandler handler event => do
      let f ← r.addressable .eventHandler handler
      let event ← r.event event
      return [.handler f.name event f.needsRevoke]
    | .setupFn function => do
      let f ← r.addressable .setupFn function
      return [.setup f.name]
    | _ => insn.noPass .postapply

/-- The command that an emitter stands for. -/
def command (r : Registry) (insn : Instruction) : Except Error Command :=
  Except.mapError (Error.within insn.opcode) <|
    match insn with
    | .fireEvent event => do
      let event ← r.event event
      return .callTag ⟨event.name⟩
    | .revokeEventAdv handler => do
      let f ← r.function handler
      return .revoke (.plain .sender) (Advancement.nameFor f.name)
    | _ => insn.noPass .emission

end Instruction

end Datapack
