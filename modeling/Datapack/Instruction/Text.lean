import Datapack.Instruction.Basic
import Datapack.Instruction.Line

/-!
# Instructions as text

`Instruction.read` takes an instruction line with the arguments that its references stand for.
`Instruction.render` writes an instruction so that it can be read: texts are quoted, functions
and events become references to a list of arguments.
-/
namespace Datapack

/-- The operand that a term stands for. -/
def Term.resolve (arguments : List Operand) : Term → Except Error Operand
  | .text content => .ok (.str content)
  | .ref index =>
    match arguments[index]? with
    | some operand => .ok operand
    | none => .error (Cause.missingArgument ("$" ++ toString index)).error

namespace Instruction

/-- Reads an instruction line. -/
def read (text : String) (arguments : List Operand) : Except Error Instruction := do
  let line ← Line.parse text
  let operands ← line.terms.mapM (Term.resolve arguments)
  ofOperands line.name operands

/-! ## Rendering -/

/-- A text in double quotes, with backslash and quote escaped by a backslash. -/
def quoteText (text : String) : List Char :=
  '"' :: (text.toList.flatMap (fun c => if c = '\\' ∨ c = '"' then ['\\', c] else [c]) ++ ['"'])

/-- Operands in order, each after a blank; `next` numbers the first that is not a text. -/
def renderOperands (next : Nat) : List Operand → List Char
  | [] => []
  | .str text :: rest => ' ' :: (quoteText text ++ renderOperands next rest)
  | _ :: rest => ' ' :: '$' :: (Nat.toDigits 10 next ++ renderOperands (next + 1) rest)

/-- The operands that a rendered instruction refers to. -/
def arguments (insn : Instruction) : List Operand :=
  insn.operands.filter fun
    | .str _ => false
    | _ => true

/-- The instruction as a line of text. -/
def render (insn : Instruction) : String :=
  String.ofList (insn.name.toList ++ renderOperands 0 insn.operands)

end Instruction

end Datapack
