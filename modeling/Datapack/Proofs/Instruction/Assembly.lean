import Datapack.Instruction.Text
import Datapack.Proofs.Step

/-!
# How instructions come about

Instructions are built from a name and operands, read from a line, or made by
a constructor of their own. Some of these go through the check of operands and
some do not need it, because what they are given cannot be of the wrong sort.

**Kinds.** An instruction says which kind of event it is for, and every way to
build one sees to it that its handle says the same (`Built.checked`).

**One path.** Whatever built it, an instruction is what the checked path makes
of its own name and operands (`ofOperands_operands`).
-/
namespace Datapack

namespace Instruction

/-- The instruction was made by one of the constructors that check their operands. -/
inductive Built : Instruction → Prop where
  | ofOperands {name operands insn} (h : ofOperands name operands = .ok insn) : Built insn
  | read {text arguments insn} (h : read text arguments = .ok insn) : Built insn
  | addCondition {event path value insn} (h : addCondition event path value = .ok insn) : Built insn
  | handle {handler event insn} (h : handle handler event = .ok insn) : Built insn
  | fire {event insn} (h : fire event = .ok insn) : Built insn
  | advEvent (name) : Built (.advEvent name)
  | tagEvent (name) : Built (.tagEvent name)
  | revokeEventAdv (handler) : Built (.revokeEventAdv handler)
  | setupFn (function) : Built (.setupFn function)

/-- Conditions are for advancements, and tags are fired. -/
def Checked : Instruction → Prop
  | .addEventCondition event _ _ => event.kind = .advancement
  | .fireEvent event => event.kind = .tag
  | _ => True

theorem checked_of_assemble {op : Opcode} {operands : List Operand} {insn : Instruction}
    (h : op.assemble? operands = some insn) : insn.Checked := by
  unfold Opcode.assemble? at h
  split at h <;> cases h <;> first | rfl | trivial

theorem checked_of_ofOperands {name : String} {operands : List Operand} {insn : Instruction}
    (h : ofOperands name operands = .ok insn) : insn.Checked := by
  unfold ofOperands at h
  split at h
  · cases h
  · split at h
    · rename_i ha
      cases h
      exact checked_of_assemble ha
    · cases h

theorem Built.checked {insn : Instruction} (h : insn.Built) : insn.Checked := by
  cases h with
  | ofOperands h => exact checked_of_ofOperands h
  | read h =>
    obtain ⟨line, -, h⟩ := Step.except_bind_ok.mp h
    obtain ⟨operands, -, h⟩ := Step.except_bind_ok.mp h
    exact checked_of_ofOperands h
  | addCondition h => exact checked_of_ofOperands h
  | handle h => exact checked_of_ofOperands h
  | fire h => exact checked_of_ofOperands h
  | _ => trivial

end Instruction

namespace Opcode

theorem ofName?_name (op : Opcode) : ofName? op.name = some op := by
  cases op <;> decide

end Opcode

namespace Instruction

theorem assemble_operands {insn : Instruction} (h : insn.Checked) :
    insn.opcode.assemble? insn.operands = some insn := by
  cases insn with
  | addEventCondition event path value =>
    obtain ⟨id, kind⟩ := event
    cases h
    rfl
  | fireEvent event =>
    obtain ⟨id, kind⟩ := event
    cases h
    rfl
  | _ => rfl

theorem ofOperands_operands {insn : Instruction} (h : insn.Checked) :
    ofOperands insn.name insn.operands = .ok insn := by
  unfold ofOperands name
  rw [Opcode.ofName?_name]
  simp only [assemble_operands h]

end Instruction

end Datapack
