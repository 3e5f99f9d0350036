/-!
# JSON text

Objects whose members keep their order, with texts as leaves: `compact` writes them on one line,
`pretty` with an indent of two blanks. In a string only the quote, the backslash and the code
points below the blank are escaped.
-/
namespace Datapack.Text

/-- A JSON value built from strings and objects. -/
inductive Json where
  | str (text : String)
  | obj (members : List (String × Json))

namespace Json

/-- Four lower-case hexadecimal digits. -/
def hex4 (n : Nat) : List Char :=
  let digits := Nat.toDigits 16 n
  List.replicate (4 - digits.length) '0' ++ digits

def escapeChar (c : Char) : List Char :=
  if c = '"' then ['\\', '"']
  else if c = '\\' then ['\\', '\\']
  else if c = '\n' then ['\\', 'n']
  else if c = '\r' then ['\\', 'r']
  else if c = '\t' then ['\\', 't']
  else if c = '\x08' then ['\\', 'b']
  else if c = '\x0c' then ['\\', 'f']
  else if c.toNat < 0x20 then ['\\', 'u'] ++ hex4 c.toNat
  else [c]

/-- A text as a JSON string. -/
def quote (text : String) : String :=
  String.ofList ('"' :: (text.toList.flatMap escapeChar ++ ['"']))

mutual

/-- One line, without blanks. -/
def compact : Json → String
  | .str text => quote text
  | .obj members => "\x7b" ++ ",".intercalate (compactMembers members) ++ "\x7d"

def compactMembers : List (String × Json) → List String
  | [] => []
  | (key, value) :: rest => (quote key ++ ":" ++ compact value) :: compactMembers rest

end

/-- A line break and the blanks in front of what stands `depth` levels deep. -/
def newline (depth : Nat) : String := "\n" ++ String.ofList (List.replicate (2 * depth) ' ')

mutual

/-- One member a line, indented by its depth. -/
def prettyAt (depth : Nat) : Json → String
  | .str text => quote text
  | .obj [] => "\x7b\x7d"
  | .obj (member :: members) =>
    "\x7b" ++ newline (depth + 1) ++
      ("," ++ newline (depth + 1)).intercalate (prettyMembers (depth + 1) (member :: members)) ++
      newline depth ++ "\x7d"

def prettyMembers (depth : Nat) : List (String × Json) → List String
  | [] => []
  | (key, value) :: rest => (quote key ++ ": " ++ prettyAt depth value) :: prettyMembers depth rest

end

/-- The value over several lines. -/
def pretty (value : Json) : String := value.prettyAt 0

end Json

end Datapack.Text
