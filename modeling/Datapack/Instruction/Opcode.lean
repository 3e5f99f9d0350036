/-!
# The catalogue of instructions

Seven instructions, each with a signature: when it acts, what it takes and what it is for.
`Opcode.all` is the catalogue in its order, and `Opcode.ofName?` looks a name up in it.
-/
namespace Datapack

/-- What a parameter accepts. -/
inductive ParamType where
  | text
  | advancementEvent
  | tagEvent
  | event
  | function
  | visibleFunction
  deriving DecidableEq

def ParamType.describe : ParamType → String
  | .text => "string"
  | .advancementEvent => "advancement event"
  | .tagEvent => "tag event"
  | .event => "event"
  | .function => "function"
  | .visibleFunction => "visible function"

/-- When an instruction acts: a constructor as soon as it is defined, a preamble instruction during
compilation, an emitter as a command of a function body. -/
inductive InstructionKind where
  | constructor
  | preamble
  | emitter
  deriving DecidableEq

structure Param where
  name : String
  type : ParamType
  doc : String

structure Signature where
  name : String
  kind : InstructionKind
  doc : String
  params : List Param
  result : Option ParamType := none
  /-- Allowed in the preamble of the program only, not of a function. -/
  topOnly : Bool := false

/-- The name and, for each parameter, its name and type. -/
def Signature.usage (s : Signature) : String :=
  s.params.foldl (fun line p => line ++ " " ++ p.name ++ ": " ++ p.type.describe) s.name

inductive Opcode where
  | advEvent
  | tagEvent
  | addEventCondition
  | eventHandler
  | fireEvent
  | revokeEventAdv
  | setupFn
  deriving DecidableEq

namespace Opcode

def all : List Opcode :=
  [.advEvent, .tagEvent, .addEventCondition, .eventHandler, .fireEvent, .revokeEventAdv, .setupFn]

def signature : Opcode → Signature
  | .advEvent =>
    { name := "adv_event"
      kind := .constructor
      doc := "Creates an advancement-based event object."
      params := [⟨"event_name", .text, "The event name"⟩]
      result := some .advancementEvent }
  | .tagEvent =>
    { name := "tag_event"
      kind := .constructor
      doc := "Creates a tag-based event object."
      params := [⟨"tag_name", .text, "The function tag name"⟩]
      result := some .tagEvent }
  | .addEventCondition =>
    { name := "add_event_condition"
      kind := .preamble
      doc := "Add a condition to an event that must be true for the event handler to be invoked."
      params := [⟨"event", .advancementEvent, "Event to add the condition to"⟩,
        ⟨"path", .text, "JSON path in the advancement"⟩,
        ⟨"value", .text, "Value that must match"⟩] }
  | .eventHandler =>
    { name := "event_handler"
      kind := .preamble
      doc := "Add an event handler to the given event specification."
      params := [⟨"handler", .function, "Event handler"⟩, ⟨"event", .event, "Event"⟩]
      topOnly := true }
  | .fireEvent =>
    { name := "fire_event"
      kind := .emitter
      doc := "Fires a tag-based event to all listeners."
      params := [⟨"event", .tagEvent, "Tag event to fire"⟩] }
  | .revokeEventAdv =>
    { name := "revoke_event_adv"
      kind := .emitter
      doc := "(Internal) Revokes an advancement to allow an event to re-fire."
      params := [⟨"func", .function, "Handler"⟩] }
  | .setupFn =>
    { name := "setupfn"
      kind := .preamble
      doc := "Tags a function as being part of the setup phase. " ++
        "It is called whenever the datapack is reloaded."
      params := [⟨"func", .visibleFunction, "The setup function"⟩]
      topOnly := true }

def name (op : Opcode) : String := op.signature.name

def kind (op : Opcode) : InstructionKind := op.signature.kind

def params (op : Opcode) : List Param := op.signature.params

def ofName? (name : String) : Option Opcode := all.find? (·.name = name)

/-- How to use an instruction: its signature and a line for each parameter. -/
def help (op : Opcode) : String :=
  op.params.foldl (fun text p => text ++ "\n  " ++ p.name ++ ": " ++ p.doc)
    ("usage: " ++ op.signature.usage)

end Opcode

end Datapack
