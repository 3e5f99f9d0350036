import Datapack.Text.Unprintable

/-!
# Text quoted for a reader

Messages show a text between quotes so that every character can be told from its neighbours:
backslash and the enclosing quote are escaped by a backslash, tab, return, newline and NUL by
their letters, and what does not print by its code point in hexadecimal. Everything else stands
for itself.
-/
namespace Datapack.Text

/-- Lower-case hexadecimal digits without leading zeros. -/
def hexDigits (n : Nat) : List Char := Nat.toDigits 16 n

/-- One character as it stands between two `quote`s. -/
def escapeChar (quote c : Char) : List Char :=
  if c = '\t' then ['\\', 't']
  else if c = '\r' then ['\\', 'r']
  else if c = '\n' then ['\\', 'n']
  else if c = '\x00' then ['\\', '0']
  else if c = '\\' ∨ c = quote then ['\\', c]
  else if isUnprintable c then ['\\', 'u', '\x7b'] ++ hexDigits c.toNat ++ ['\x7d']
  else [c]

/-- A text in double quotes. -/
def quoted (text : String) : String :=
  String.ofList ('"' :: (text.toList.flatMap (escapeChar '"') ++ ['"']))

/-- A character in single quotes. -/
def quotedChar (c : Char) : String :=
  String.ofList ('\'' :: (escapeChar '\'' c ++ ['\'']))

/-- A list of texts in brackets. -/
def quotedList (texts : List String) : String :=
  "[" ++ ", ".intercalate (texts.map quoted) ++ "]"

end Datapack.Text
