import Datapack.BlockPos
import Datapack.Scope.Variable
import Datapack.Table

/-!
# Scopes

A scope knows the names that commands may use: variables, memory cells and tags, all made unique
by the namespace, and functions and arguments. Variables and cells become objectives of the
scoreboard, whose names keep only their last characters. Once the objectives have been
enumerated the scope is sealed: what is known can still be used, but nothing new is handed out.
-/
namespace Datapack

/-- The number of characters that the name of an objective keeps. -/
def objectiveLimit : Nat := 16

/-- A name cut to its last characters. -/
def trim (name : String) : String := Text.lastChars objectiveLimit name

/-- What an argument of a templated command stands for. -/
inductive ArgKind where
  | tag
  | arg
  | entityLocal
  | func
  deriving DecidableEq

def ArgKind.ofName (kind : String) : Except Error ArgKind :=
  match kind with
  | "tag" => .ok .tag
  | "arg" => .ok .arg
  | "entity_local" => .ok .entityLocal
  | "func" => .ok .func
  | _ => .error (Cause.unknownArgumentKind kind).error

structure Scope where
  ns : String
  /-- The tag of the entities that belong to the namespace. -/
  entityTag : String
  /-- Where the utility block stands. -/
  home : BlockPos
  vars : Table String VariableEntry := ∅
  /-- Origins of the memory cells, in order of allocation. -/
  cells : List UInt64 := []
  /-- Symbols that have a tag. -/
  tags : List String := []
  args : Table String String := ∅
  functions : List String := []
  /-- Names of objectives that other packs own. -/
  foreign : List String := []
  detectCollisions : Bool := false
  isSealed : Bool := false

namespace Scope

/-! ## Names -/

/-- A name made unique by the namespace. -/
def qualify (s : Scope) (name : String) : String := s.ns ++ "_" ++ name

/-- The full name of a memory cell. -/
def cellName (s : Scope) (origin : UInt64) : String :=
  s.qualify ("x" ++ String.ofList (Nat.toDigits 16 origin.toNat))

/-- The tag of a symbol. -/
def tagName (s : Scope) (symbol : String) : String := s.qualify ("tag_" ++ symbol)

/-- The variable that a name local to an entity is kept in. -/
def localName (name : String) : String := "el_" ++ name

/-- The function of a subroutine. -/
def subroutineName (name : String) : String := "sub_" ++ name

/-- Path to the data of the tracked entity. -/
def dataPath (path : String) : String := "ArmorItems[0].tag." ++ path

/-! ## Looking names up -/

/-- The full name of a variable for some arguments. -/
def fullVariable (s : Scope) (name : String) (args : List String) : Except Error String :=
  match s.vars.get? name with
  | none => .error (Cause.notFound .variableName name).error
  | some entry => (entry.fill name args).map s.qualify

/-- The objective of a variable. -/
def objective (s : Scope) (name : String) (args : List String) : Except Error String :=
  (s.fullVariable name args).map trim

def hasFunction (s : Scope) (name : String) : Bool := s.functions.contains name

/-- The qualified name of a known function. -/
def functionName (s : Scope) (name : String) : Except Error String :=
  if s.hasFunction name then .ok (s.ns ++ ":" ++ name)
  else .error (Cause.notFound .functionName name).error

def argument (s : Scope) (name : String) : Except Error String :=
  match s.args.get? name with
  | some value => .ok value
  | none => .error (Cause.missingArgument name).error

/-! ## Handing names out -/

def setSealed (s : Scope) : Scope := { s with isSealed := true }

/-- Makes functions known. -/
def addFunctions (s : Scope) (names : List String) : Scope :=
  { s with functions := names.foldl (fun known name => known.insert name) s.functions }

/-- The refusal of a sealed scope. -/
def sealedError (what : Allocation) : Error := (Cause.untimely (.afterSeal what)).error

/-- Declares a variable. Declaring one again with the same entry changes nothing. -/
def addVariable (name : String) (entry : VariableEntry) : Step Scope Unit := fun s =>
  let known := s.vars.get? name
  if known = some entry then .ok () s
  else if s.isSealed then
    .error (sealedError (if known.isSome then .redefinition else .newVariable)) s
  else .ok () { s with vars := s.vars.insert name entry }

/-- The objective of a name local to an entity, which is declared when it is first used. -/
def entityLocal (name : String) : Step Scope String := do
  if (← get).foreign.contains name then return name
  if ((← get).vars.get? (localName name)).isNone then
    addVariable (localName name) (.fixed (localName name))
  Step.ofExcept ((← get).objective (localName name) [])

/-- The objective of a memory cell, which is allocated when it is first used. -/
def memory (origin : UInt64) : Step Scope String := fun s =>
  if s.cells.contains origin then .ok (trim (s.cellName origin)) s
  else if s.isSealed then .error (sealedError .cell) s
  else .ok (trim (s.cellName origin)) { s with cells := s.cells ++ [origin] }

/-- The tag of a symbol, which is allocated when it is first used. -/
def tag (symbol : String) : Step Scope String := fun s =>
  if s.tags.contains symbol then .ok (s.tagName symbol) s
  else if s.isSealed then .error (sealedError .tag) s
  else .ok (s.tagName symbol) { s with tags := s.tags ++ [symbol] }

/-- The text of an argument of a templated command. -/
def commandArg (kind value : String) : Step Scope String := do
  match ← Step.ofExcept (ArgKind.ofName kind) with
  | .tag => tag value
  | .arg => Step.ofExcept ((← get).argument value)
  | .entityLocal => entityLocal value
  | .func => Step.ofExcept ((← get).functionName (subroutineName value))

end Scope

end Datapack
