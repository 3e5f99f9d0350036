/-!
# TOML values

Tables keep their entries in order and remember how they came to be, because that decides what a
document may still add to them.
-/
namespace Datapack.Toml

/-- How a table came to be. -/
inductive Origin where
  /-- Written in braces, and complete. -/
  | inline
  /-- Opened by a header of its own. -/
  | header
  /-- On the way to a table with a header. -/
  | implied
  /-- On the way to a value with a dotted key. -/
  | dotted
  deriving DecidableEq

inductive Value where
  | string (text : String)
  | integer (n : Int)
  /-- A float, as its digits are written. -/
  | float (digits : String)
  | boolean (b : Bool)
  /-- A date, a time or both, in normal form. -/
  | dateTime (text : String)
  | array (items : List Value)
  | table (origin : Origin) (entries : List (String × Value))
  /-- An array of tables that have headers. -/
  | tables (items : List (List (String × Value)))

/-- The entries of a table. -/
abbrev Entries := List (String × Value)

end Datapack.Toml
