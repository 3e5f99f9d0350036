import Datapack.Toml.DateTime
import Datapack.Toml.Entries
import Datapack.Toml.Number

/-!
# TOML documents

A document is a list of statements: headers of tables, headers of arrays of tables, and values
under keys. `statements?` reads them from the text and `Document.entries?` carries them out in
order. Arrays and inline tables nest, and keys are dotted, to a depth below `depthLimit`.
-/
namespace Datapack.Toml

def depthLimit : Nat := 80

/-! ## Keys -/

def isKeyChar (c : Char) : Bool := c.isAlphanum || c = '_' || c = '-'

/-- A key without dots, bare or as a text on one line, and the rest. -/
def simpleKey? (cs : List Char) : Option (String × List Char) :=
  match cs with
  | [] => none
  | c :: _ =>
    if c = '"' ∨ c = '\'' then (lineText? cs).map fun (key, rest) => (String.ofList key, rest)
    else
      let key := cs.takeWhile isKeyChar
      if key.isEmpty then none else some (String.ofList key, cs.dropWhile isKeyChar)

/-- A key of at most `limit` parts with dots between them, blanks around each, and the rest. -/
def keyPath? (limit : Nat) (cs : List Char) : Option (List String × List Char) :=
  match limit with
  | 0 => none
  | limit + 1 => do
    let (key, rest) ← simpleKey? (skipBlanks cs)
    match skipBlanks rest with
    | '.' :: rest =>
      let (keys, rest) ← keyPath? limit rest
      some (key :: keys, rest)
    | rest => some ([key], rest)

def key? (cs : List Char) : Option (List String × List Char) := keyPath? (depthLimit - 1) cs

/-! ## Values -/

/-- A reader of values, as the readers of arrays and inline tables use it for what they hold. -/
abbrev ValueReader := List Char → Option (Value × List Char)

/-- The values of an array up to its bracket, and the rest; `fuel` bounds their number. -/
def items? (read : ValueReader) (fuel : Nat) (cs : List Char) :
    Option (List Value × List Char) :=
  match fuel with
  | 0 => none
  | fuel + 1 => do
    match ← skipLines? false cs with
    | ']' :: rest => some ([], rest)
    | start =>
      let (value, rest) ← read start
      match ← skipLines? false rest with
      | ',' :: rest =>
        let (values, rest) ← items? read fuel rest
        some (value :: values, rest)
      | ']' :: rest => some ([value], rest)
      | _ => none

/-- A key, an equals sign and a value, and the rest. -/
def pair? (read : ValueReader) (cs : List Char) :
    Option ((List String × Value) × List Char) := do
  let (key, rest) ← key? cs
  let rest ← expect? '=' rest
  let (value, rest) ← read (skipBlanks rest)
  some ((key, value), rest)

/-- The pairs of an inline table up to its brace, and the rest; `fuel` bounds their number. -/
def pairs? (read : ValueReader) (fuel : Nat) (cs : List Char) :
    Option (List (List String × Value) × List Char) :=
  match fuel with
  | 0 => none
  | fuel + 1 => do
    let (pair, rest) ← pair? read cs
    match skipBlanks rest with
    | ',' :: rest =>
      let (pairs, rest) ← pairs? read fuel rest
      some (pair :: pairs, rest)
    | '\x7d' :: rest => some ([pair], rest)
    | _ => none

/-- The inline table with the given pairs. -/
def inlineTable? (pairs : List (List String × Value)) : Option Value :=
  (pairs.foldlM (fun entries (key, value) => Entries.assign value true key entries) []).map
    (.table .inline)

/-- A date, a float or an integer, and the rest. -/
def number? (cs : List Char) : Option (Value × List Char) :=
  ((dateTime? cs).map fun (text, rest) => (.dateTime text, rest)).or <|
    ((float? cs).map fun (digits, rest) => (.float digits, rest)).or <|
      (integer? cs).map fun (n, rest) => (.integer n, rest)

/-- A value that holds no others, and the rest. -/
def scalar? : List Char → Option (Value × List Char)
  | 't' :: 'r' :: 'u' :: 'e' :: rest => some (.boolean true, rest)
  | 'f' :: 'a' :: 'l' :: 's' :: 'e' :: rest => some (.boolean false, rest)
  | cs =>
    match cs with
    | '"' :: _ | '\'' :: _ =>
      (text? cs).map fun (text, rest) => (.string (String.ofList text), rest)
    | _ => number? cs

/-- A value in which arrays and inline tables are nested at most `depth` deep, and the rest. -/
def value? (depth : Nat) (cs : List Char) : Option (Value × List Char) :=
  match cs with
  | '[' :: rest =>
    match depth with
    | 0 => none
    | depth + 1 => do
      let (values, rest) ← items? (value? depth) (rest.length + 1) rest
      some (.array values, rest)
  | '\x7b' :: rest =>
    match depth with
    | 0 => none
    | depth + 1 =>
      match skipBlanks rest with
      | '\x7d' :: rest => some (.table .inline [], rest)
      | start => do
        let (pairs, rest) ← pairs? (value? depth) (start.length + 1) start
        let table ← inlineTable? pairs
        some (table, rest)
  | _ => scalar? cs

/-! ## Statements -/

inductive Statement where
  | table (path : List String)
  | tables (path : List String)
  | pair (key : List String) (value : Value)

/-- The statement that a line begins with, and what follows the line. -/
def statement? : List Char → Option (Statement × List Char)
  | '[' :: '[' :: cs => do
    let (path, rest) ← key? cs
    let rest ← lineEnd? (← expect? ']' (← expect? ']' rest))
    some (.tables path, rest)
  | '[' :: cs => do
    let (path, rest) ← key? cs
    let rest ← lineEnd? (← expect? ']' rest)
    some (.table path, rest)
  | cs => do
    let ((key, value), rest) ← pair? (value? (depthLimit - 1)) cs
    let rest ← lineEnd? rest
    some (.pair key value, rest)

/-- The statements of a text; `fuel` bounds the number of its lines. -/
def statementLines? (fuel : Nat) (cs : List Char) : Option (List Statement) :=
  match fuel with
  | 0 => none
  | fuel + 1 =>
    match skipBlanks cs with
    | [] => some []
    | start@(c :: _) =>
      if c = '#' ∨ c = '\n' ∨ c = '\r' then do statementLines? fuel (← lineEnd? start)
      else do
        let (statement, rest) ← statement? start
        let statements ← statementLines? fuel rest
        some (statement :: statements)

/-- The statements of a text, which may begin with a byte order mark. -/
def statements? (text : String) : Option (List Statement) :=
  let cs := match text.toList with
    | '\ufeff' :: rest => rest
    | cs => cs
  statementLines? (cs.length + 1) cs

/-! ## Carrying the statements out -/

/-- The tables so far, and the path of the header that values now go under. -/
structure Document where
  entries : Entries := []
  path : List String := []

namespace Document

/-- Opens the table at the end of a path. -/
def openAt (d : Document) (open? : String → Entries → Option Entries) (path : List String) :
    Option Document := do
  let key ← path.getLast?
  let entries ← Entries.under (open? key) path.dropLast d.entries
  some { entries, path }

def step (d : Document) : Statement → Option Document
  | .table path => d.openAt Entries.openTable path
  | .tables path => d.openAt Entries.pushTable path
  | .pair key value =>
    (Entries.under (Entries.assign value true key) d.path d.entries).map fun entries =>
      { d with entries }

/-- The entries of the document that a text holds. -/
def entries? (text : String) : Option Entries := do
  let statements ← statements? text
  let d ← statements.foldlM step {}
  some d.entries

end Document

end Datapack.Toml
