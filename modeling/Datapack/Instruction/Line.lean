import Datapack.Error

/-!
# Instruction lines

An instruction is written as a name and its operands, divided by blanks:

    line  = blank* name (blank+ term)* blank*
    name  = letter (letter | digit)*          letters are ASCII, with `_`
    term  = `$` digit+                        a reference, below 2^64
          | `"` (char | escape)* `"`          a quoted text
          | bare+                             a word without blanks, quotes and `$`

In a quoted text the escapes are `\\`, `\"` and `\n`; every other character stands for itself.
`Line.parse` reads the longest line that a text begins with and refuses a text that goes on
after it, quoting the place where reading stopped.
-/
namespace Datapack

/-- An operand as it is written. -/
inductive Term where
  | text (content : String)
  | ref (index : Nat)
  deriving DecidableEq

/-- An instruction as it is written. -/
structure Line where
  name : String
  terms : List Term
  deriving DecidableEq

namespace Line

def isBlank (c : Char) : Bool := c = ' ' || c = '\t' || c = '\r' || c = '\n'

def isNameStart (c : Char) : Bool := c.isAlpha || c = '_'

def isNameChar (c : Char) : Bool := c.isAlphanum || c = '_'

/-- A character of a word that is not quoted. -/
def isBare (c : Char) : Bool := !(isBlank c || c = '"' || c = '$')

/-- References stay below this. -/
def refLimit : Nat := 0x10000000000000000

/-- The name that a text begins with, and the rest. -/
def name? : List Char → Option (List Char × List Char)
  | [] => none
  | c :: cs =>
    if isNameStart c then some (c :: cs.takeWhile isNameChar, cs.dropWhile isNameChar) else none

/-- The content of a quoted text up to its closing quote, and the rest. -/
def quotedBody? : List Char → Option (List Char × List Char)
  | [] => none
  | '"' :: cs => some ([], cs)
  | '\\' :: '\\' :: cs => (quotedBody? cs).map fun (body, rest) => ('\\' :: body, rest)
  | '\\' :: '"' :: cs => (quotedBody? cs).map fun (body, rest) => ('"' :: body, rest)
  | '\\' :: 'n' :: cs => (quotedBody? cs).map fun (body, rest) => ('\n' :: body, rest)
  | c :: cs =>
    if c = '\\' then none else (quotedBody? cs).map fun (body, rest) => (c :: body, rest)

/-- The number of a reference, and the rest. -/
def refBody? (cs : List Char) : Option (Nat × List Char) :=
  let digits := cs.takeWhile Char.isDigit
  let index := Nat.ofDigitChars 10 digits 0
  if digits.isEmpty || index ≥ refLimit then none else some (index, cs.dropWhile Char.isDigit)

/-- The term that a text begins with, and the rest. -/
def term? : List Char → Option (Term × List Char)
  | '$' :: cs => (refBody? cs).map fun (index, rest) => (.ref index, rest)
  | '"' :: cs => (quotedBody? cs).map fun (body, rest) => (.text (String.ofList body), rest)
  | cs =>
    let word := cs.takeWhile isBare
    if word.isEmpty then none else some (.text (String.ofList word), cs.dropWhile isBare)

/-! ## Reading consumes text -/

theorem length_quotedBody? {cs body rest : List Char} (h : quotedBody? cs = some (body, rest)) :
    rest.length < cs.length := by
  fun_induction quotedBody? cs generalizing body rest with
  | case1 => simp at h
  | case2 cs => simp at h; simp [h.2]
  | case3 cs ih | case4 cs ih | case5 cs ih =>
    simp only [Option.map_eq_some_iff, Prod.exists] at h
    obtain ⟨b, r, hb, he⟩ := h
    have := ih hb
    simp only [Prod.mk.injEq] at he
    obtain ⟨-, rfl⟩ := he
    simp only [List.length_cons]; omega
  | case6 => simp at h
  | case7 c cs _ _ _ _ _ ih =>
    simp only [Option.map_eq_some_iff, Prod.exists] at h
    obtain ⟨b, r, hb, he⟩ := h
    have := ih hb
    simp only [Prod.mk.injEq] at he
    obtain ⟨-, rfl⟩ := he
    simp only [List.length_cons]; omega

theorem length_dropWhile_le (p : Char → Bool) (cs : List Char) :
    (cs.dropWhile p).length ≤ cs.length :=
  (List.dropWhile_sublist p).length_le

theorem length_term? {cs rest : List Char} {t : Term} (h : term? cs = some (t, rest)) :
    rest.length < cs.length := by
  unfold term? at h
  split at h
  · rename_i cs
    simp only [refBody?, Option.map_eq_some_iff, Prod.exists] at h
    obtain ⟨index, r, hr, he⟩ := h
    split at hr
    · simp at hr
    · simp only [Option.some.injEq, Prod.mk.injEq] at hr he
      have := length_dropWhile_le Char.isDigit cs
      rw [← he.2, ← hr.2]
      simp only [List.length_cons]; omega
  · rename_i cs
    simp only [Option.map_eq_some_iff, Prod.exists] at h
    obtain ⟨body, r, hb, he⟩ := h
    have := length_quotedBody? hb
    simp only [Prod.mk.injEq] at he
    rw [← he.2]
    simp only [List.length_cons]; omega
  · dsimp only at h
    split at h
    · simp at h
    · rename_i hw
      simp only [Option.some.injEq, Prod.mk.injEq] at h
      rw [← h.2]
      cases cs with
      | nil => simp at hw
      | cons c cs =>
        by_cases hc : isBare c
        · have := length_dropWhile_le isBare cs
          rw [List.dropWhile_cons_of_pos hc]; simp only [List.length_cons]; omega
        · simp [hc] at hw

/-! ## Lines -/

/-- As many terms as can be read, each after a blank, and the rest. -/
def readTerms (cs : List Char) : List Term × List Char :=
  match cs with
  | [] => ([], [])
  | c :: tail =>
    if isBlank c then
      match h : term? (tail.dropWhile isBlank) with
      | none => ([], c :: tail)
      | some (t, rest) =>
        have hlt : rest.length < (c :: tail).length := by
          have := length_term? h
          have := length_dropWhile_le isBlank tail
          simp only [List.length_cons]
          omega
        let (ts, rest) := readTerms rest
        (t :: ts, rest)
    else ([], c :: tail)
termination_by cs.length
decreasing_by exact hlt

/-- The line that makes up a text, or what is left of the text where reading stopped. -/
def parseChars (cs : List Char) : Except (List Char) Line :=
  let start := cs.dropWhile isBlank
  match name? start with
  | none => .error start
  | some (name, rest) =>
    let (ts, rest) := readTerms rest
    match rest.dropWhile isBlank with
    | [] => .ok ⟨String.ofList name, ts⟩
    | rest => .error rest

def parse (text : String) : Except Error Line :=
  match parseChars text.toList with
  | .ok line => .ok line
  | .error rest => .error (Cause.unreadable text (String.ofList rest)).error

end Line

end Datapack
