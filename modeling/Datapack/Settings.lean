import Datapack.BlockPos
import Datapack.Scope.Variable
import Datapack.Table
import Datapack.Text.Quoted
import Datapack.Toml.Document

/-!
# Settings of a session

Settings are read from a TOML document with a fixed set of keys and then validated: the
namespace is not empty and holds no foreign character, and the options of every template fill
its slots.
-/
namespace Datapack

structure Settings where
  ns : String
  position : BlockPos
  args : Table String String := ∅
  /-- Names of objectives that other packs own. -/
  foreign : List String := []
  setupOnLoad : Bool := false
  detectCollisions : Bool := false
  vars : Table String VariableEntry := ∅

/-! ## Validation -/

/-- What is wrong with settings that can be read. -/
inductive InvalidSettings where
  | emptyNamespace
  | foreignCharacter (ns : String) (c : Char)
  | wrongOption (name : String) (slots : Nat) (option : List String)
  deriving DecidableEq

def InvalidSettings.message : InvalidSettings → String
  | .emptyNamespace => "invalid configuration: namespace must not be empty"
  | .foreignCharacter ns c =>
    "invalid configuration: namespace " ++ Text.quoted ns ++ " contains " ++ Text.quotedChar c
  | .wrongOption name slots option =>
    "invalid configuration: variable `" ++ name ++ "` expects " ++ toString slots ++
      " template arguments, option " ++ Text.quotedList option ++ " has " ++ toString option.length

inductive SettingsError where
  /-- There is no file, or it is not text. -/
  | unreadable
  /-- The text is no TOML document, or not one of settings. -/
  | malformed
  | invalid (why : InvalidSettings)
  deriving DecidableEq

namespace Settings

/-- A character that a namespace may hold. -/
def isNamespaceChar (c : Char) : Bool :=
  ('a' ≤ c && c ≤ 'z') || c.isDigit || c = '_' || c = '.' || c = '-'

/-- The first option of a variable that does not fill its template. -/
def wrongOption? : String × VariableEntry → Option InvalidSettings
  | (_, .fixed _) => none
  | (name, .templated template options) =>
    (options.find? (·.length ≠ Template.slots template)).map
      (.wrongOption name (Template.slots template))

/-- The first thing wrong with the settings. -/
def fault? (s : Settings) : Option InvalidSettings :=
  if s.ns.isEmpty then some .emptyNamespace
  else match s.ns.toList.find? (!isNamespaceChar ·) with
    | some c => some (.foreignCharacter s.ns c)
    | none => s.vars.entries.findSome? wrongOption?

def validate (s : Settings) : Except InvalidSettings Unit :=
  match s.fault? with
  | some why => .error why
  | none => .ok ()

end Settings

/-! ## Reading -/

namespace Toml.Value

def string? : Value → Option String
  | .string text => some text
  | _ => none

def boolean? : Value → Option Bool
  | .boolean b => some b
  | _ => none

def array? : Value → Option (List Value)
  | .array items => some items
  | _ => none

def strings? (v : Value) : Option (List String) := do (← v.array?).mapM string?

/-- The entries of a table. A date reads as a table with one entry of its own. -/
def entries? : Value → Option Entries
  | .table _ entries => some entries
  | .dateTime text => some [("$__toml_private_datetime", .string text)]
  | _ => none

/-- A coordinate written as an integer. -/
def coord? : Value → Option Coord
  | .integer n => Coord.ofInt? n
  | _ => none

/-- The position in the first three items of an array. -/
def blockPos? (v : Value) : Option BlockPos := do
  match ← v.array? with
  | x :: y :: z :: _ => some ⟨← x.coord?, ← y.coord?, ← z.coord?⟩
  | _ => none

/-- The arguments of an option: one text, or an array of them. -/
def option? (v : Value) : Option (List String) :=
  match v with
  | .string arg => some [arg]
  | _ => v.strings?

/-- A variable: its fixed name, or a table with a template and its options. -/
def entry? (v : Value) : Option VariableEntry :=
  match v with
  | .string name => some (.fixed name)
  | _ => do
    let entries ← v.entries?
    let template ← (← entries.get? "template").string?
    let options ← (← (← entries.get? "options").array?).mapM option?
    some (.templated template options)

end Toml.Value

namespace Settings

open Toml

/-- The keys of a document of settings. -/
def keys : List String :=
  ["namespace", "position", "args", "extern", "setup_on_load", "detect_trim_collisions",
    "variables"]

/-- The value under a key, when there is one, read by `read?`. -/
def optional {α : Type} (entries : Entries) (key : String) (read? : Value → Option α)
    (absent : α) : Option α :=
  match entries.get? key with
  | none => some absent
  | some v => read? v

/-- A table all of whose values are read by `read?`. -/
def readTable? {α : Type} (read? : Value → Option α) (v : Value) :
    Option (Table String α) := do
  let entries ← (← v.entries?).mapM fun (key, v) => do some (key, ← read? v)
  some (Table.ofList entries)

/-- The settings that a document holds. -/
def ofEntries? (entries : Entries) : Option Settings := do
  if entries.any (·.1 ∉ keys) then none
  else
    some {
      ns := ← (← entries.get? "namespace").string?
      position := ← (← entries.get? "position").blockPos?
      args := ← optional entries "args" (readTable? Value.string?) ∅
      foreign := ← optional entries "extern" Value.strings? []
      setupOnLoad := ← optional entries "setup_on_load" Value.boolean? false
      detectCollisions := ← optional entries "detect_trim_collisions" Value.boolean? false
      vars := ← optional entries "variables" (readTable? Value.entry?) ∅ }

/-- Reads and validates settings. -/
def ofText (text : String) : Except SettingsError Settings :=
  match (Document.entries? text).bind ofEntries? with
  | none => .error .malformed
  | some settings =>
    match settings.validate with
    | .ok _ => .ok settings
    | .error why => .error (.invalid why)

/-- Reads and validates the settings in the bytes of a file, if there is a file. -/
def ofFile (content : Option ByteArray) : Except SettingsError Settings :=
  match content.bind String.fromUTF8? with
  | none => .error .unreadable
  | some text => ofText text

end Settings

end Datapack
