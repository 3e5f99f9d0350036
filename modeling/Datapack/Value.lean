import Datapack.Program.Basic
import Datapack.Text.Quoted

/-!
# Values of a front end

A value has a type and holds something: the number of a program's value, a text, or nothing yet.
Values are constructed and assigned; both copy what the argument holds, and a binding is also
constructed from the line of a constructor instruction. A value whose holder does not belong to
its type is foreign, and refused.
-/
namespace Datapack

/-! ## Operators -/

inductive Operator where
  | assign
  | add
  | sub
  | mul
  | div
  | mod
  | eq
  | ne
  | lt
  | le
  | gt
  | ge
  deriving DecidableEq

namespace Operator

def all : List Operator := [.assign, .add, .sub, .mul, .div, .mod, .eq, .ne, .lt, .le, .gt, .ge]

def symbol : Operator → String
  | .assign => "="
  | .add => "+"
  | .sub => "-"
  | .mul => "*"
  | .div => "/"
  | .mod => "%"
  | .eq => "=="
  | .ne => "!="
  | .lt => "<"
  | .le => "<="
  | .gt => ">"
  | .ge => ">="

def ofSymbol (symbol : String) : Except Error Operator :=
  match all.find? (·.symbol = symbol) with
  | some op => .ok op
  | none => .error (Cause.unsupportedOperator symbol "any").error

end Operator

/-! ## Types and values -/

inductive ValueType where
  /-- A value of the program; it takes no storage. -/
  | binding
  | string
  /-- A type that occupies some slots of the scoreboard. -/
  | native (name : String) (slots : Nat)
  deriving DecidableEq

/-- The content of a string: a text, or the number of a program's value. -/
inductive StringContent where
  | text (content : String)
  | dynamic (index : Nat)
  deriving DecidableEq

inductive Holder where
  | binding (name : String) (index : Option Nat)
  | string (content : Option StringContent)
  /-- A text that was written as an operand. -/
  | literal (text : String)
  | native (name : String) (index : Option Nat)
  deriving DecidableEq

structure Value where
  type : ValueType
  holder : Holder
  deriving DecidableEq

namespace ValueType

def name : ValueType → String
  | .binding => "IRType"
  | .string => "string"
  | .native name _ => name

def slots : ValueType → Nat
  | .native _ slots => slots
  | _ => 0

def needsStorage (t : ValueType) : Bool := t.slots > 0

/-- What a new value of the type holds. -/
def allocate (t : ValueType) (hint : String) : Holder :=
  match t with
  | .binding => .binding hint none
  | .string => .string none
  | .native .. => .native hint none

/-- Sizes stay below this. -/
def sizeLimit : Nat := 0x10000000000000000

/-- The slots that values of some types take together; `none` when the sum is out of range. -/
def totalSlots? (types : List ValueType) : Option Nat :=
  types.foldlM (fun sum t => if sum + t.slots < sizeLimit then some (sum + t.slots) else none) 0

end ValueType

namespace Value

def new (type : ValueType) (hint : String) : Value := ⟨type, type.allocate hint⟩

/-- A text as an operand. -/
def literal (text : String) : Value := ⟨.string, .literal text⟩

/-- A string whose text is a value of the program. -/
def dynamicString (p : Program) (index : Nat) : Except Error Value := do
  match ← p.value index with
  | .str _ => .ok ⟨.string, .string (some (.dynamic index))⟩
  | other => .error (Cause.typeMismatch "string" other.describe).error

/-- The name of a value in messages. -/
def displayName (v : Value) : String :=
  match v.holder with
  | .binding name _ => name
  | .native name _ => name
  | .string _ => "string"
  | .literal text => Text.quoted text

def unbound {α : Type} (v : Value) : Except Error α :=
  .error (Cause.unboundValue v.displayName).error

/-- What the value stands for in a program. -/
def operand (p : Program) (v : Value) : Except Error Operand :=
  match v.holder with
  | .binding _ (some index) => p.value index
  | .native _ (some index) => p.value index
  | .string (some (.text content)) => .ok (.str content)
  | .string (some (.dynamic index)) => p.value index
  | .literal text => .ok (.str text)
  | .binding _ none | .native _ none | .string none => v.unbound

/-! ## Assignment -/

/-- Refused unless `v` is of type `t`. -/
def expectType (t : ValueType) (v : Value) : Except Error Unit :=
  if v.type = t then .ok () else .error (Cause.typeMismatch t.name v.type.name).error

/-- The number of a program's value that a binding holds. -/
def boundIndex (v : Value) : Except Error Nat :=
  match v.holder with
  | .binding _ (some index) => .ok index
  | _ => v.unbound

def foreign {α : Type} (t : ValueType) : Except Error α :=
  .error (Cause.typeMismatch t.name "foreign instance").error

/-- Replaces what a value holds. -/
def hold (holder : Holder) : Step Value Unit := modify fun v => { v with holder }

/-- Assigns `right` to a value. -/
def assign (right : Value) : Step Value Unit := do
  let target ← get
  match target.type, target.holder with
  | .binding, .binding name _ =>
    Step.ofExcept (expectType .binding right)
    let index ← Step.ofExcept right.boundIndex
    hold (.binding name (some index))
  | .string, .string _ =>
    match right.holder with
    | .literal text => hold (.string (some (.text text)))
    | holder =>
      Step.ofExcept (expectType .string right)
      match holder with
      | .string (some content) => hold (.string (some content))
      | _ => Step.ofExcept right.unbound
  | .native .., .native name _ =>
    Step.ofExcept (expectType target.type right)
    match right.holder with
    | .native _ (some index) => hold (.native name (some index))
    | _ => Step.ofExcept right.unbound
  | _, _ => Step.ofExcept (foreign target.type)

/-- Applies an operator to a value. Values know assignment only. -/
def operate (op : Operator) (right : Option Value) : Step Value Unit := do
  let target ← get
  if op ≠ .assign then Step.refuse (.unsupportedOperator op.symbol target.type.name)
  else
    match right with
    | some right => assign right
    | none =>
      let what := "`" ++ op.symbol ++ "` on " ++ target.type.name
      Step.refuse (.arityMismatch what (.exactly 2) 1)

end Value

/-! ## Construction -/

/-- A value that is being constructed, and the program in which it is. -/
structure Construction where
  program : Program
  target : Value

namespace Construction

variable {α : Type}

def onProgram (step : Step Program α) : Step Construction α :=
  Step.onPart (·.program) (fun program c => { c with program }) step

def onTarget (step : Step Value α) : Step Construction α :=
  Step.onPart (·.target) (fun target c => { c with target }) step

end Construction

namespace Value

open Construction (onProgram onTarget)

def constructorArity {α : Type} (t : ValueType) (expected : Arity) (received : Nat) :
    Except Error α :=
  .error (Cause.arityMismatch (t.name ++ " constructor") expected received).error

/-- Constructs a binding: from a constructor line with its arguments, or as a copy of another
binding. -/
def constructBinding (first : Value) (rest : List Value) : Step Construction Unit := do
  let ⟨p, target⟩ ← get
  match target.holder with
  | .binding name _ =>
    if first.type = .string then
      match first.holder with
      | .literal text =>
        let arguments ← Step.ofExcept (rest.mapM (operand p))
        let index ← onProgram (Program.defineText name text arguments)
        onTarget (hold (.binding name (some index)))
      | _ => Step.refuse (.typeMismatch "string literal" "dynamic string")
    else if rest.isEmpty then
      Step.ofExcept (expectType .binding first)
      let index ← Step.ofExcept first.boundIndex
      onTarget (hold (.binding name (some index)))
    else Step.ofExcept (constructorArity target.type (.exactly 1) (rest.length + 1))
  | _ => Step.ofExcept (foreign target.type)

/-- Constructs a value from some arguments. -/
def construct (args : List Value) : Step Construction Unit := do
  let type := (← get).target.type
  match type with
  | .binding =>
    match args with
    | [] => Step.ofExcept (constructorArity type .atLeastOne 0)
    | first :: rest => constructBinding first rest
  | _ =>
    match args with
    | [] => return ()
    | [value] => onTarget (assign value)
    | _ => Step.ofExcept (constructorArity type .atMostOne args.length)

end Value

end Datapack
