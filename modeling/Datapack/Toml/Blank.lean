/-!
# Blanks, comments and line ends of TOML

A line ends with a newline, which a carriage return may precede, or with the document. Comments
and texts hold no control characters but the tab.
-/
namespace Datapack.Toml

def isBlank (c : Char) : Bool := c = ' ' || c = '\t'

/-- A tab, or a character that is not a control character of ASCII. -/
def isPlain (c : Char) : Bool :=
  c = '\t' || (0x20 ≤ c.toNat && c.toNat ≤ 0x7E) || 0x80 ≤ c.toNat

def skipBlanks (cs : List Char) : List Char := cs.dropWhile isBlank

/-- What follows a newline. -/
def newline? : List Char → Option (List Char)
  | '\n' :: rest => some rest
  | '\r' :: '\n' :: rest => some rest
  | _ => none

/-- What follows the rest of a line that holds only blanks and a comment. -/
def lineEnd? (cs : List Char) : Option (List Char) :=
  let rest := match skipBlanks cs with
    | '#' :: tail => tail.dropWhile isPlain
    | tail => tail
  if rest.isEmpty then some [] else newline? rest

/-- What follows blanks, newlines and comments that end in a newline. -/
def skipLines? (inComment : Bool) : List Char → Option (List Char)
  | [] => if inComment then none else some []
  | '\n' :: rest => skipLines? false rest
  | '\r' :: '\n' :: rest => skipLines? false rest
  | c :: rest =>
    if inComment then if isPlain c then skipLines? true rest else none
    else if isBlank c then skipLines? false rest
    else if c = '#' then skipLines? true rest
    else some (c :: rest)

/-- What follows blanks and newlines. -/
def skipBlankLines : List Char → List Char
  | '\n' :: rest => skipBlankLines rest
  | '\r' :: '\n' :: rest => skipBlankLines rest
  | c :: rest => if isBlank c then skipBlankLines rest else c :: rest
  | [] => []

theorem length_skipBlankLines (cs : List Char) : (skipBlankLines cs).length ≤ cs.length := by
  fun_induction skipBlankLines cs <;> simp only [List.length_cons, Nat.le_refl] <;> omega

theorem length_newline? {cs rest : List Char} (h : newline? cs = some rest) :
    rest.length < cs.length := by
  unfold newline? at h
  split at h
  · simp_all
  · simp only [Option.some.injEq] at h
    subst h
    simp only [List.length_cons]; omega
  · simp at h

end Datapack.Toml
