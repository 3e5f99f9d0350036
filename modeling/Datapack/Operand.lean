import Datapack.Event

/-!
# Operands

What an instruction is applied to: a text, an event or a function. Functions, like events, are
referred to by number.
-/
namespace Datapack

/-- The number of a function, in order of creation. -/
abbrev FunctionId := Nat

/-- The text by which messages name an event or function of which only the number is known. -/
def numbered (id : Nat) : String := "#" ++ toString id

inductive Operand where
  | str (text : String)
  | event (handle : EventHandle)
  | func (id : FunctionId)
  deriving DecidableEq

/-- The sort of operand, as messages say it. -/
def Operand.describe : Operand → String
  | .str _ => "string"
  | .event ⟨_, .tag⟩ => "tag event"
  | .event ⟨_, .advancement⟩ => "advancement event"
  | .func _ => "function"

end Datapack
