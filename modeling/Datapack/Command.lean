import Datapack.Scope.Basic
import Datapack.Text.Json

/-!
# Commands

A command is resolved to its text in a scope, which may hand out names on the way. A templated
command is resolved part by part; when a part is refused, the names that the parts before it
were given stay.
-/
namespace Datapack

/-! ## Selectors -/

inductive SelectorKind where
  | sender
  | allPlayers
  | allEntities
  deriving DecidableEq

def SelectorKind.symbol : SelectorKind → String
  | .sender => "@s"
  | .allPlayers => "@a"
  | .allEntities => "@e"

inductive Selector where
  | plain (kind : SelectorKind)
  | tagged (kind : SelectorKind) (tag : String) (limit : Option Nat)
  /-- The one entity that holds the state of the namespace. -/
  | tracked
  deriving DecidableEq

namespace Selector

/-- All entities of the namespace. -/
def namespaceEntities (s : Scope) : Selector := .tagged .allEntities s.entityTag none

def taggedText (kind : SelectorKind) (tag : String) (limit : Option Nat) : String :=
  kind.symbol ++ "[tag=" ++ tag ++
    (match limit with
      | some n => ",limit=" ++ toString n
      | none => "") ++ "]"

def text (s : Scope) : Selector → String
  | .plain kind => kind.symbol
  | .tagged kind tag limit => taggedText kind tag limit
  | .tracked => taggedText .allEntities s.entityTag (some 1)

end Selector

/-! ## Names with a namespace -/

/-- A name that may carry a namespace of its own, before its first colon. -/
structure QualifiedName where
  text : String
  deriving DecidableEq

namespace QualifiedName

/-- The namespace, if the name carries one, and the name. -/
def parts (q : QualifiedName) : Option String × String :=
  match Text.splitFirst? ':' q.text with
  | some (ns, name) => (some ns, name)
  | none => (none, q.text)

/-- The namespace and name that are meant in a scope. -/
def target (q : QualifiedName) (s : Scope) : String × String := (q.parts.1.getD s.ns, q.parts.2)

def resolve (q : QualifiedName) (s : Scope) : String := (q.target s).1 ++ ":" ++ (q.target s).2

end QualifiedName

/-! ## Commands -/

/-- A score: a variable, or a memory cell. -/
inductive ScoreRef where
  | var (name : String) (args : List String)
  | memory (origin : UInt64)
  deriving DecidableEq

def ScoreRef.objective : ScoreRef → Step Scope String
  | .var name args => do Step.ofExcept ((← get).objective name args)
  | .memory origin => Scope.memory origin

/-- A part of a templated command. -/
inductive CommandPart where
  | text (content : String)
  | arg (kind value : String)
  deriving DecidableEq

def CommandPart.resolve : CommandPart → Step Scope String
  | .text content => pure content
  | .arg kind value => Scope.commandArg kind value

inductive Command where
  | raw (text : String)
  | call (function : String)
  | callTag (tag : QualifiedName)
  | revoke (target : Selector) (advancement : String)
  | setScore (target : ScoreRef) (value : Int)
  | dumpStack (path : Option String) (target : Selector)
  | templated (parts : List CommandPart)
  deriving DecidableEq

namespace Command

/-- The command that shows a part of the stack to `target`. -/
def dumpText (s : Scope) (path : Option String) (target : Selector) : String :=
  let stack := match path with
    | some path => "stack." ++ path
    | none => "stack"
  let component : Text.Json :=
    .obj [("nbt", .str (Scope.dataPath stack)), ("entity", .str (Selector.tracked.text s))]
  "tellraw " ++ target.text s ++ " " ++ component.compact

def resolve : Command → Step Scope String
  | .raw text => pure text
  | .call function => do return "function " ++ (← Step.ofExcept ((← get).functionName function))
  | .callTag tag => do return "function #" ++ tag.resolve (← get)
  | .revoke target advancement => do
    let s ← get
    return "advancement revoke " ++ target.text s ++ " only " ++ s.ns ++ ":" ++ advancement
  | .setScore target value => do
    let objective ← target.objective
    let s ← get
    return "scoreboard players set " ++ Selector.tracked.text s ++ " " ++ objective ++ " " ++
      toString value
  | .dumpStack path target => do return dumpText (← get) path target
  | .templated parts => do return String.join (← parts.mapM CommandPart.resolve)

/-- Resolves commands in order. -/
def resolveAll (commands : List Command) : Step Scope (List String) := commands.mapM resolve

end Command

end Datapack
