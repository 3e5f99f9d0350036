/-!
# Stages of a compilation

A program is open while it is defined; its one compilation then passes through the other stages
in order and never goes back.
-/
namespace Datapack

inductive Stage where
  | define
  | declare
  | apply
  | closed
  deriving DecidableEq

def Stage.name : Stage → String
  | .define => "Define"
  | .declare => "Declare"
  | .apply => "Apply"
  | .closed => "Closed"

/-- What may be done to the events and functions of a program, each in one stage only. -/
inductive Action where
  | createEvent
  | createFunction
  | markUsed
  | addCondition
  | addRevoke
  deriving DecidableEq

namespace Action

def phrase : Action → String
  | .createEvent => "creating an event"
  | .createFunction => "creating a function"
  | .markUsed => "marking a function as used"
  | .addCondition => "adding an event condition"
  | .addRevoke => "registering an advancement revoke"

/-- The stage in which the action is allowed. -/
def stage : Action → Stage
  | .createEvent => .define
  | .createFunction => .define
  | .markUsed => .declare
  | .addCondition => .apply
  | .addRevoke => .apply

end Action

/-- The ways in which an instruction can take effect. -/
inductive Pass where
  | construct
  | declare
  | preapply
  | postapply
  | emission
  deriving DecidableEq

def Pass.name : Pass → String
  | .construct => "construct"
  | .declare => "declare"
  | .preapply => "preapply"
  | .postapply => "postapply"
  | .emission => "emission"

end Datapack
