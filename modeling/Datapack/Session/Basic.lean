import Datapack.Layout
import Datapack.Pack
import Datapack.Program.Compile
import Datapack.Scope.Objectives
import Datapack.Settings

/-!
# Sessions

A session writes a pack. It resolves commands in its scope, lays out command blocks, hooks
compiled programs up, and collects the members of function tags, which it writes again whenever
they have grown. The files are kept in the order in which they are written; `Session.pack` is
what they come to.
-/
namespace Datapack

/-- The functions that one tag calls. -/
structure TagGroup where
  ns : String
  name : String
  members : List String := []
  deriving DecidableEq

structure Session where
  scope : Scope
  layout : Layout
  /-- All files written so far, in order. -/
  files : List PackFile := []
  setupOnLoad : Bool := false
  /-- Commands to run at the end of an installation. -/
  hook : List Command := []
  /-- Function tags by their qualified names. -/
  groups : Table String TagGroup := ∅

namespace Session

def pack (s : Session) : Pack := Pack.ofFiles s.files

/-! ## Names -/

/-- The tag of the entity that holds the state of the namespace. -/
def entityTag : String := "etag"

def loadTrampoline : String := "setup_on_load_trampoline"

def stackDump : String := "stack_dump"

def tickTag : QualifiedName := ⟨"minecraft:tick"⟩

def loadTag : QualifiedName := ⟨"minecraft:load"⟩

/-- The function that an advancement calls in place of its handler. -/
def trampolineFor (handler : String) : String := handler ++ "_trampoline"

/-- The variables that every session has. -/
def registers : List (String × VariableEntry) :=
  [("stack_register", .fixed "sr"), ("working_reg", .fixed "a"), ("working_reg_2", .fixed "b"),
    ("working_reg_3", .fixed "c"), ("success_tracker", .fixed "st")]

/-! ## Writing -/

/-- A step on the scope of a session. -/
def onScope {α : Type} (step : Step Scope α) : Step Session α :=
  Step.onPart (·.scope) (fun scope s => { s with scope }) step

def write (file : PackFile) : Step Session Unit :=
  modify fun s => { s with files := s.files ++ [file] }

def addFunctionNames (names : List String) : Step Session Unit :=
  modify fun s => { s with scope := s.scope.addFunctions names }

/-- Writes a function of resolved commands. -/
def addFunction (name : String) (commands : List Command) : Step Session Unit := do
  let lines ← onScope (Command.resolveAll commands)
  write (.function name lines)

/-- Resolves the command of a block. -/
def resolveBlock (block : Block Command) : Step Scope (Block String) := do
  return { block with command := ← block.command.resolve }

/-- Lays out a line of command blocks. -/
def addLine (line : List (Block Command)) : Step Session Unit := do
  let blocks ← onScope (line.mapM resolveBlock)
  modify fun s => { s with layout := s.layout.place blocks }

def addLines (lines : List (List (Block Command))) : Step Session Unit := lines.forM addLine

def setHook (commands : List Command) : Step Session Unit :=
  modify fun s => { s with hook := commands }

/-! ## Function tags -/

/-- The group of a tag, empty if there is none yet. -/
def group (s : Session) (tag : QualifiedName) : TagGroup :=
  let (ns, name) := tag.target s.scope
  (s.groups.get? (tag.resolve s.scope)).getD ⟨ns, name, []⟩

def setGroup (tag : QualifiedName) (g : TagGroup) : Step Session Unit :=
  modify fun s => { s with groups := s.groups.insert (tag.resolve s.scope) g }

/-- Makes room for a tag, so that it keeps its place. -/
def declareTag (tag : QualifiedName) : Step Session Unit := do setGroup tag ((← get).group tag)

/-- Adds a known function to a tag. -/
def addMember (tag : QualifiedName) (function : String) : Step Session Unit := do
  let member ← onScope do Step.ofExcept ((← get).functionName function)
  let g := (← get).group tag
  setGroup tag { g with members := g.members ++ [member] }

/-- The files of all tags that have members. -/
def tagFiles (s : Session) : List PackFile :=
  (s.groups.entries.filter fun (_, g) => !g.members.isEmpty).map fun (_, g) =>
    .tag ⟨"functions", g.ns, g.name⟩ g.members

def writeTags : Step Session Unit := modify fun s => { s with files := s.files ++ s.tagFiles }

/-! ## Compiled programs -/

/-- Writes the advancement that triggers a handler, and the trampoline that it calls: the trampoline
re-arms the advancement, when asked to, and then calls the handler. -/
def addAdvancementHandler (handler trigger : String) (conditions : List Condition) (revoke : Bool) :
    Step Session Unit := do
  let trampoline := trampolineFor handler
  addFunctionNames [trampoline]
  let reward ← onScope do Step.ofExcept ((← get).functionName trampoline)
  let advancement : Advancement := { name := Advancement.nameFor handler }
  write (.advancement
    { advancement.addCriterion handler trigger conditions with reward := some reward })
  let rearm := if revoke then [.revoke (.plain .sender) (Advancement.nameFor handler)] else []
  addFunction trampoline (rearm ++ [.call handler])

/-- Hooks one registration up. -/
def register : Registration → Step Session Unit
  | .handler function (.tag name) _ => addMember ⟨name⟩ function
  | .handler function (.advancement name conditions) revoke =>
    addAdvancementHandler function name conditions revoke
  | .setup function => addMember loadTag function

/-- Hooks registrations up in order and writes the tags. -/
def registerAll (registrations : List Registration) : Step Session Unit := do
  registrations.forM register
  writeTags

/-- Writes a compiled program. -/
def emit (build : Build) : Step Session Unit := do
  addFunctionNames build.functionNames
  build.functions.forM fun f => addFunction f.name f.commands
  registerAll build.registrations

/-! ## Beginning -/

/-- Declares the tags that the game calls, lays out the utility block and writes the function that
shows the stack. -/
def begin : Step Session Unit := do
  declareTag tickTag
  declareTag loadTag
  if (← get).setupOnLoad then
    addFunctionNames [loadTrampoline]
    addMember loadTag loadTrampoline
  addLines [[{ command := .raw "", conditional := false, mode := .repeating }]]
  addFunctionNames [stackDump]
  addFunction stackDump [.dumpStack none (.plain .allPlayers)]

/-- The scope that settings describe. -/
def scopeOf (settings : Settings) : Scope where
  ns := settings.ns
  entityTag := settings.ns ++ "_" ++ entityTag
  home := settings.position
  vars := (Table.ofList registers).insertAll settings.vars.entries
  args := settings.args
  foreign := settings.foreign
  detectCollisions := settings.detectCollisions

/-- A new session that lays its blocks out beside an origin. -/
def create (settings : Settings) (origin : BlockPos) : Except Error Session :=
  let blank : Session :=
    { scope := scopeOf settings, layout := ⟨origin, []⟩, setupOnLoad := settings.setupOnLoad }
  match begin blank with
  | .ok _ s => .ok s
  | .error e _ => .error e

end Session

end Datapack
