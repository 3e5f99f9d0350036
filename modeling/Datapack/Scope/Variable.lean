import Datapack.Error
import Datapack.Text.Split

/-!
# Variables

A variable has a fixed name, or a template whose slots `{}` are filled with arguments; a
templated variable lists the arguments that it is meant to be used with.
-/
namespace Datapack

namespace Template

/-- The pieces of a template between its slots, found from the left: one more than there are slots.
-/
def pieces : List Char → List (List Char)
  | [] => [[]]
  | '\x7b' :: '\x7d' :: cs => [] :: pieces cs
  | c :: cs => Text.consFirst c (pieces cs)

def slots (template : String) : Nat := (pieces template.toList).length - 1

/-- The pieces with an argument between each two. -/
def interleave : List (List Char) → List String → List Char
  | [], _ => []
  | piece :: pieces, [] => piece ++ pieces.flatten
  | piece :: pieces, arg :: args => piece ++ arg.toList ++ interleave pieces args

/-- The template with its slots filled in order, when there are as many arguments as slots. -/
def fill? (template : String) (args : List String) : Option String :=
  if slots template = args.length then
    some (String.ofList (interleave (pieces template.toList) args))
  else none

end Template

inductive VariableEntry where
  | fixed (name : String)
  | templated (template : String) (options : List (List String))
  deriving DecidableEq

namespace VariableEntry

/-- How many arguments the variable takes. -/
def arity : VariableEntry → Nat
  | .fixed _ => 0
  | .templated template _ => Template.slots template

/-- The arguments that the variable is enumerated with. -/
def options : VariableEntry → List (List String)
  | .fixed _ => [[]]
  | .templated _ options => options

/-- The name of the variable `name` for some arguments. -/
def fill (name : String) (entry : VariableEntry) (args : List String) : Except Error String :=
  let filled := match entry with
    | .fixed text => if args.isEmpty then some text else none
    | .templated template _ => Template.fill? template args
  match filled with
  | some text => .ok text
  | none => .error (Cause.arityMismatch name (.exactly entry.arity) args.length).error

end VariableEntry

end Datapack
