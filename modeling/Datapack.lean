import Datapack.Advancement
import Datapack.BlockPos
import Datapack.Command
import Datapack.Error
import Datapack.Event
import Datapack.Instruction.Basic
import Datapack.Instruction.Line
import Datapack.Instruction.Opcode
import Datapack.Instruction.Text
import Datapack.Layout
import Datapack.Operand
import Datapack.Pack
import Datapack.Program.Basic
import Datapack.Program.Compile
import Datapack.Program.Passes
import Datapack.Registry
import Datapack.Scope.Basic
import Datapack.Scope.Objectives
import Datapack.Scope.Variable
import Datapack.Session.Basic
import Datapack.Session.Install
import Datapack.Settings
import Datapack.Stage
import Datapack.Table
import Datapack.Text.Json
import Datapack.Text.Quoted
import Datapack.Text.Split
import Datapack.Text.Unprintable
import Datapack.Toml.Blank
import Datapack.Toml.DateTime
import Datapack.Toml.Document
import Datapack.Toml.Entries
import Datapack.Toml.Number
import Datapack.Toml.Text
import Datapack.Toml.Value
import Datapack.Value
import Datapack.Proofs.Text
import Datapack.Proofs.Step
import Datapack.Proofs.Registry
import Datapack.Proofs.Event
import Datapack.Proofs.Instruction.Assembly
import Datapack.Proofs.Instruction.Checking
import Datapack.Proofs.Instruction.Grammar
import Datapack.Proofs.Instruction.Rendering
import Datapack.Proofs.Instruction.Stopping
import Datapack.Proofs.Program.History
import Datapack.Proofs.Program.Passes
import Datapack.Proofs.Program.Progress
import Datapack.Proofs.Program.Reference
import Datapack.Proofs.Program.Reordering
import Datapack.Proofs.Program.Soundness
import Datapack.Proofs.Program.Stages
import Datapack.Proofs.Program.Agenda
import Datapack.Proofs.Program.Attribution
import Datapack.Proofs.Session.Emission
import Datapack.Proofs.Pack
import Datapack.Proofs.Advancement
import Datapack.Proofs.Layout.Places
import Datapack.Proofs.Layout.Commands
import Datapack.Proofs.Session.Rearming
import Datapack.Proofs.Scope.Objectives
import Datapack.Proofs.Scope.Cells
import Datapack.Proofs.Scope.Collisions
import Datapack.Proofs.Scope.Filling
import Datapack.Proofs.Scope.Stability
import Datapack.Proofs.Session.Calls
import Datapack.Proofs.Session.Lifecycle
import Datapack.Proofs.Session.Tags
import Datapack.Proofs.Program.Bodies
import Datapack.Proofs.Session.Overwriting
import Datapack.Proofs.Session.References
import Datapack.Proofs.Session.Installable
import Datapack.Proofs.Value.Content
import Datapack.Proofs.Value.FrontEnd
import Datapack.Proofs.Value.Copying
import Datapack.Proofs.Refusals
import Datapack.Proofs.Session.Validation
