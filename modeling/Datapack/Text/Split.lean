/-!
# Cutting and joining text

Everything works on lists of characters. `splitOn` and `joinWith` undo each other; `lastChars`
keeps the end of a text.
-/
namespace Datapack.Text

/-- Puts a character in front of the first of some pieces. -/
def consFirst (c : Char) : List (List Char) → List (List Char)
  | [] => [[c]]
  | piece :: pieces => (c :: piece) :: pieces

/-- The pieces between the separators, empty ones included: one more than there are separators. -/
def splitOn (sep : Char) : List Char → List (List Char)
  | [] => [[]]
  | c :: cs => if c = sep then [] :: splitOn sep cs else consFirst c (splitOn sep cs)

/-- The pieces with the separator between each two. -/
def joinWith (sep : Char) (pieces : List (List Char)) : List Char :=
  List.intercalate [sep] pieces

/-- The last `n` characters, or all of a shorter text. -/
def lastChars (n : Nat) (text : String) : String :=
  String.ofList (text.toList.drop (text.toList.length - n))

/-- The parts before and after the first `sep`, when there is one. -/
def splitFirst? (sep : Char) (text : String) : Option (String × String) :=
  match text.toList.dropWhile (· ≠ sep) with
  | [] => none
  | _ :: rest => some (String.ofList (text.toList.takeWhile (· ≠ sep)), String.ofList rest)

end Datapack.Text
