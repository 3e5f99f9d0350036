import Datapack.Table
import Datapack.Toml.Value

/-!
# What a document adds to its tables

A key is set once. A header opens a table that has none yet, though tables below it may stand
already; a dotted key makes the tables on its way, and adds only to tables that dotted keys have
made. The reader of a document calls these with the path that it has read; each fails where a
rule is broken.
-/
namespace Datapack.Toml

namespace Entries

def get? (key : String) (entries : Entries) : Option Value := Assoc.get? key entries

def put (key : String) (value : Value) (entries : Entries) : Entries := Assoc.put key value entries

def erase (key : String) (entries : Entries) : Entries := entries.filter (·.1 ≠ key)

/-- Changes the table that a path of headers leads to; the last of an array of tables is meant. -/
def under (change : Entries → Option Entries) : List String → Entries → Option Entries
  | [], entries => change entries
  | key :: path, entries =>
    match entries.get? key with
    | none => (under change path []).map fun sub => entries.put key (.table .implied sub)
    | some (.table origin sub) =>
      if origin = .inline then none
      else (under change path sub).map fun sub => entries.put key (.table origin sub)
    | some (.tables items) => do
      let last ← items.getLast?
      let last ← under change path last
      some (entries.put key (.tables (items.dropLast ++ [last])))
    | some _ => none

/-- Opens a table with a header. One that was implied so far moves to the end. -/
def openTable (key : String) (entries : Entries) : Option Entries :=
  match entries.get? key with
  | none => some (entries ++ [(key, .table .header [])])
  | some (.table .implied sub) => some (entries.erase key ++ [(key, .table .header sub)])
  | some _ => none

/-- Opens a further table of an array of tables. -/
def pushTable (key : String) (entries : Entries) : Option Entries :=
  match entries.get? key with
  | none => some (entries ++ [(key, .tables [[]])])
  | some (.tables items) => some (entries.put key (.tables (items ++ [[]])))
  | some _ => none

/-- Sets a value under a key that may be dotted. `extensible` says whether the entries themselves
may take a key. -/
def assign (value : Value) : Bool → List String → Entries → Option Entries
  | _, [], _ => none
  | extensible, [key], entries =>
    if extensible ∧ (entries.get? key).isNone then some (entries ++ [(key, value)]) else none
  | _, key :: path, entries =>
    match entries.get? key with
    | none => (assign value true path []).map fun sub => entries.put key (.table .dotted sub)
    | some (.table .dotted sub) =>
      (assign value true path sub).map fun sub => entries.put key (.table .dotted sub)
    | some (.table .implied sub) =>
      (assign value false path sub).map fun sub => entries.put key (.table .implied sub)
    | some (.tables items) => do
      let last ← items.getLast?
      let last ← assign value false path last
      some (entries.put key (.tables (items.dropLast ++ [last])))
    | some _ => none

end Entries

end Datapack.Toml
