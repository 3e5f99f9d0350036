import Datapack.Text.Split

/-!
# Events

An event fires either through an advancement, which may carry conditions, or through a function
tag. A program refers to its events by handles; a handle names a position in the program's list
of events and the kind the holder believes the event to have.
-/
namespace Datapack

inductive EventKind where
  | advancement
  | tag
  deriving DecidableEq

/-- The kind with its article, as messages say it. -/
def EventKind.phrase : EventKind → String
  | .advancement => "an advancement"
  | .tag => "a tag"

/-- A reference to an event by its number. -/
structure EventHandle where
  id : Nat
  kind : EventKind
  deriving DecidableEq

/-- What must match before an advancement fires: a path into its JSON and the value there. -/
structure Condition where
  path : List String
  value : String
  deriving DecidableEq

namespace Condition

/-- Reads a path whose components are divided by dots. -/
def ofText (path value : String) : Condition where
  path := (Text.splitOn '.' path.toList).map String.ofList
  value := value

/-- The path as one text. -/
def dottedPath (c : Condition) : String :=
  String.ofList (Text.joinWith '.' (c.path.map String.toList))

end Condition

inductive Event where
  | advancement (name : String) (conditions : List Condition)
  | tag (name : String)
  deriving DecidableEq

namespace Event

def name : Event → String
  | .advancement name _ => name
  | .tag name => name

def kind : Event → EventKind
  | .advancement .. => .advancement
  | .tag _ => .tag

def conditions : Event → List Condition
  | .advancement _ conditions => conditions
  | .tag _ => []

/-- An event of the given kind, without conditions. -/
def fresh (name : String) : EventKind → Event
  | .advancement => .advancement name []
  | .tag => .tag name

end Event

end Datapack
