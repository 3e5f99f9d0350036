import Datapack.Error
import Datapack.Operand

/-!
# The events and functions of a program

A registry holds the events and functions that a program has declared, and the stage of its
compilation. Each change is allowed in one stage only (`Action.stage`); a change that is refused
leaves the registry as it was.
-/
namespace Datapack

/-- A declared function. -/
structure Function where
  name : String
  /-- Expanded where it is called and never written as a function of its own. -/
  isInline : Bool := false
  /-- Written even if nothing uses it. -/
  isPinned : Bool := false
  isUsed : Bool := false
  /-- The advancement event that the function handles, which it has to re-arm. -/
  advancement : Option Nat := none
  deriving DecidableEq

namespace Function

def needsRevoke (f : Function) : Bool := f.advancement.isSome

/-- The function becomes a function of the pack. -/
def isEmitted (f : Function) : Bool := !f.isInline && (f.isUsed || f.isPinned)

end Function

structure Registry where
  stage : Stage := .define
  events : List Event := []
  functions : List Function := []
  deriving DecidableEq

namespace Registry

/-! ## Looking up -/

def eventAt (r : Registry) (id : Nat) : Except Error Event :=
  match r.events[id]? with
  | some event => .ok event
  | none => .error (Cause.notFound .event (numbered id)).error

def event (r : Registry) (handle : EventHandle) : Except Error Event := r.eventAt handle.id

def function (r : Registry) (id : FunctionId) : Except Error Function :=
  match r.functions[id]? with
  | some function => .ok function
  | none => .error (Cause.notFound .function (numbered id)).error

/-- A function that can be called by name, as `op` demands. -/
def addressable (r : Registry) (op : Opcode) (id : FunctionId) : Except Error Function := do
  let f ← r.function id
  if f.isInline then .error (Cause.inlineHandler op f.name).error else .ok f

/-! ## Changing -/

/-- Refused unless the action belongs to the present stage. -/
def require (action : Action) : Step Registry Unit := fun r =>
  if r.stage = action.stage then .ok () r
  else .error (Cause.untimely (.notNow action r.stage)).error r

/-- Goes on to a stage. -/
def enter (stage : Stage) : Step Registry Unit := modify fun r => { r with stage }

/-- Declares an event and gives its handle. -/
def createEvent (event : Event) : Step Registry EventHandle := do
  require .createEvent
  let r ← get
  set { r with events := r.events ++ [event] }
  return ⟨r.events.length, event.kind⟩

/-- Declares a function under a name of its own and gives its number. -/
def addFunction (f : Function) : Step Registry FunctionId := do
  require .createFunction
  let r ← get
  if r.functions.any (·.name = f.name) then
    Step.refuse (.misplaced (.secondFunction f.name))
  else
    set { r with functions := r.functions ++ [f] }
    return r.functions.length

/-- Replaces a function that is there. -/
def setFunction (id : FunctionId) (f : Function) : Step Registry Unit :=
  modify fun r => { r with functions := r.functions.set id f }

def markUsed (id : FunctionId) : Step Registry Unit := do
  require .markUsed
  let f ← Step.ofExcept ((← get).function id)
  setFunction id { f with isUsed := true }

/-- Attaches a condition to an advancement event. -/
def addCondition (handle : EventHandle) (condition : Condition) : Step Registry Unit := do
  require .addCondition
  match ← Step.ofExcept ((← get).event handle) with
  | .advancement name conditions =>
    modify fun r =>
      { r with events := r.events.set handle.id (.advancement name (conditions ++ [condition])) }
  | .tag name => Step.refuse (.wrongEventKind .addEventCondition name .advancement .tag)

/-- Notes that a function handles an advancement event. It cannot handle a second one, because the
advancement carries the name of its handler. -/
def addRevoke (id : FunctionId) (handle : EventHandle) : Step Registry Unit := do
  require .addRevoke
  match handle.kind with
  | .tag =>
    let event ← Step.ofExcept ((← get).event handle)
    Step.refuse (.wrongEventKind .eventHandler event.name .advancement .tag)
  | .advancement =>
    let f ← Step.ofExcept ((← get).function id)
    match f.advancement with
    | none => setFunction id { f with advancement := some handle.id }
    | some known =>
      if known = handle.id then return ()
      else Step.refuse (.misplaced (.secondAdvancement f.name))

end Registry

end Datapack
