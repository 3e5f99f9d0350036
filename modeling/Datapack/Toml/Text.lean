import Datapack.Toml.Blank

/-!
# TOML texts

Four forms: basic (double quotes, with escapes) and literal (single quotes, without), each on
one line or, with the quote written three times, over several. A reader here starts after the
opening quotes and gives the content and what follows the closing ones.
-/
namespace Datapack.Toml

/-- The content of a text and the rest of the document. -/
abbrev TextEnd := Option (List Char × List Char)

/-- Puts a character in front of the content. -/
def TextEnd.cons (c : Char) (r : TextEnd) : TextEnd := r.map fun (body, rest) => (c :: body, rest)

/-! ## Escapes -/

def hexDigit? (c : Char) : Option Nat :=
  if c.isDigit then some (c.toNat - '0'.toNat)
  else if 'a' ≤ c ∧ c ≤ 'f' then some (c.toNat - 'a'.toNat + 10)
  else if 'A' ≤ c ∧ c ≤ 'F' then some (c.toNat - 'A'.toNat + 10)
  else none

/-- The character whose code point stands in the next `n` hexadecimal digits. -/
def codePoint? (n : Nat) (cs : List Char) : Option (Char × List Char) := do
  let digits ← (cs.take n).mapM hexDigit?
  let code := digits.foldl (fun acc d => 16 * acc + d) 0
  if digits.length = n ∧ code.isValidChar then some (Char.ofNat code, cs.drop n) else none

/-- The character that an escape stands for; the backslash has been read. -/
def escape? : List Char → Option (Char × List Char)
  | 'b' :: rest => some ('\x08', rest)
  | 't' :: rest => some ('\t', rest)
  | 'n' :: rest => some ('\n', rest)
  | 'f' :: rest => some ('\x0c', rest)
  | 'r' :: rest => some ('\r', rest)
  | '"' :: rest => some ('"', rest)
  | '\\' :: rest => some ('\\', rest)
  | 'u' :: rest => codePoint? 4 rest
  | 'U' :: rest => codePoint? 8 rest
  | _ => none

theorem length_codePoint? {n : Nat} {cs rest : List Char} {c : Char}
    (h : codePoint? n cs = some (c, rest)) : rest.length ≤ cs.length := by
  simp only [codePoint?, Option.bind_eq_bind, Option.bind_eq_some_iff] at h
  obtain ⟨digits, -, h⟩ := h
  split at h
  · simp only [Option.some.injEq, Prod.mk.injEq] at h
    rw [← h.2]
    simp
  · simp at h

theorem length_escape? {cs rest : List Char} {c : Char} (h : escape? cs = some (c, rest)) :
    rest.length < cs.length := by
  unfold escape? at h
  split at h
  case h_8 => have := length_codePoint? h; simp only [List.length_cons]; omega
  case h_9 => have := length_codePoint? h; simp only [List.length_cons]; omega
  case h_10 => simp at h
  all_goals
    simp only [Option.some.injEq, Prod.mk.injEq] at h
    rw [← h.2]
    simp

/-- What follows a backslash at the end of a line: the line break and all blanks after it. -/
def lineBreak? (cs : List Char) : Option (List Char) :=
  (newline? (skipBlanks cs)).map skipBlankLines

theorem length_lineBreak? {cs rest : List Char} (h : lineBreak? cs = some rest) :
    rest.length < cs.length := by
  simp only [lineBreak?, Option.map_eq_some_iff] at h
  obtain ⟨tail, ht, rfl⟩ := h
  have h1 := length_newline? ht
  have h2 := length_skipBlankLines tail
  have h3 : (skipBlanks cs).length ≤ cs.length := (List.dropWhile_sublist _).length_le
  omega

/-! ## Bodies -/

/-- A basic text on one line. -/
def basicBody? (cs : List Char) : TextEnd :=
  match cs with
  | [] => none
  | '"' :: rest => some ([], rest)
  | '\\' :: rest =>
    match h : escape? rest with
    | none => none
    | some (c, tail) =>
      have := length_escape? h
      (basicBody? tail).cons c
  | c :: rest => if isPlain c then (basicBody? rest).cons c else none
termination_by cs.length
decreasing_by all_goals simp only [List.length_cons]; omega

/-- A literal text on one line. -/
def literalBody? : List Char → TextEnd
  | [] => none
  | '\'' :: rest => some ([], rest)
  | c :: rest => if isPlain c then (literalBody? rest).cons c else none

/-- A basic text over several lines. Up to two quotes may stand before the closing three. -/
def basicLines? (cs : List Char) : TextEnd :=
  match cs with
  | [] => none
  | '"' :: '"' :: '"' :: '"' :: '"' :: rest => some (['"', '"'], rest)
  | '"' :: '"' :: '"' :: '"' :: rest => some (['"'], rest)
  | '"' :: '"' :: '"' :: rest => some ([], rest)
  | '"' :: rest => (basicLines? rest).cons '"'
  | '\n' :: rest => (basicLines? rest).cons '\n'
  | '\r' :: '\n' :: rest => (basicLines? rest).cons '\n'
  | '\\' :: rest =>
    match hb : lineBreak? rest with
    | some tail =>
      have := length_lineBreak? hb
      basicLines? tail
    | none =>
      match he : escape? rest with
      | none => none
      | some (c, tail) =>
        have := length_escape? he
        (basicLines? tail).cons c
  | c :: rest => if isPlain c then (basicLines? rest).cons c else none
termination_by cs.length
decreasing_by all_goals simp only [List.length_cons]; omega

/-- A literal text over several lines. Up to two quotes may stand before the closing three. -/
def literalLines? : List Char → TextEnd
  | [] => none
  | '\'' :: '\'' :: '\'' :: '\'' :: '\'' :: rest => some (['\'', '\''], rest)
  | '\'' :: '\'' :: '\'' :: '\'' :: rest => some (['\''], rest)
  | '\'' :: '\'' :: '\'' :: rest => some ([], rest)
  | '\n' :: rest => (literalLines? rest).cons '\n'
  | '\r' :: '\n' :: rest => (literalLines? rest).cons '\n'
  | c :: rest => if isPlain c then (literalLines? rest).cons c else none

/-- A newline right after the opening quotes is not part of the text. -/
def dropNewline (cs : List Char) : List Char := (newline? cs).getD cs

/-- A text on one line, with its quotes. -/
def lineText? : List Char → TextEnd
  | '"' :: rest => basicBody? rest
  | '\'' :: rest => literalBody? rest
  | _ => none

/-- A text of any form, with its quotes. -/
def text? : List Char → TextEnd
  | '"' :: '"' :: '"' :: rest => basicLines? (dropNewline rest)
  | '\'' :: '\'' :: '\'' :: rest => literalLines? (dropNewline rest)
  | cs => lineText? cs

end Datapack.Toml
