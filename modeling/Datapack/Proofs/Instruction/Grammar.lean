import Mathlib.Data.List.TakeWhile
import Datapack.Instruction.Line
import Datapack.Proofs.Step

/-!
# The grammar of instruction lines

`Line.parse` reads from the left and takes as much as it can at every point.
Here the same lines are described without a reader: a `Derivation` says which
characters of a text are blanks, which are the name and which are operands,
and how each operand is spelled. It cannot be ill-formed, because its parts
carry what the grammar demands of them. `Derivation.chars` is the text that it
derives, and `Derivation.line` is what the text means.

**Sound.** What the reader accepts has a derivation (`parseChars_sound`). The
rest of the text after each part is kept in view, so that a part that was read
and the text that is left make up the text again.

**Complete.** A text with a derivation is accepted, and read as the derivation
says (`parseChars_chars`). Here it matters what follows a part: an operand is
read back when a blank or the end comes after it, which no greedy reader can
run over (`Ended`).

**Unambiguous.** No text has two derivations (`Derivation.chars_inj`).
-/
namespace Datapack.Line

/-! ## Characters -/

def Blank (c : Char) : Prop := c = ' ' ∨ c = '\t' ∨ c = '\r' ∨ c = '\n'

def Letter (c : Char) : Prop := ('A' ≤ c ∧ c ≤ 'Z') ∨ ('a' ≤ c ∧ c ≤ 'z') ∨ c = '_'

def Digit (c : Char) : Prop := '0' ≤ c ∧ c ≤ '9'

/-- A character of a word without quotes. -/
def Bare (c : Char) : Prop := ¬ Blank c ∧ c ≠ '"' ∧ c ≠ '$'

theorem isBlank_iff {c : Char} : isBlank c = true ↔ Blank c := by
  simp [isBlank, Blank, or_assoc]

theorem all_isBlank {cs : List Char} (h : ∀ c ∈ cs, Blank c) : ∀ c ∈ cs, isBlank c = true :=
  fun c hc => isBlank_iff.mpr (h c hc)

theorem isDigit_iff {c : Char} : c.isDigit = true ↔ Digit c := by
  simp [Char.isDigit, Digit, Char.le_def]

theorem isNameStart_iff {c : Char} : isNameStart c = true ↔ Letter c := by
  have halpha : c.isAlpha = (c.isUpper || c.isLower) := rfl
  have hupper : c.isUpper = decide (c.val ≥ 'A'.val ∧ c.val ≤ 'Z'.val) := rfl
  have hlower : c.isLower = (decide (c.val ≥ 'a'.val) && decide (c.val ≤ 'z'.val)) := rfl
  simp [isNameStart, halpha, hupper, hlower, Letter, Char.le_def, or_assoc]

theorem isNameChar_iff {c : Char} : isNameChar c = true ↔ Letter c ∨ Digit c := by
  have h : isNameChar c = (isNameStart c || c.isDigit) := by
    simp only [isNameChar, isNameStart, Char.isAlphanum]
    cases c.isAlpha <;> cases c.isDigit <;> simp
  rw [h, Bool.or_eq_true, isNameStart_iff, isDigit_iff]

theorem isBare_iff {c : Char} : isBare c = true ↔ Bare c := by
  simp [isBare, Bare, ← isBlank_iff, and_assoc]

/-! ## Derivations -/

/-- What a backslash may stand before in a quoted text. -/
inductive Escape where
  | backslash
  | quote
  | newline

def Escape.letter : Escape → Char
  | .backslash => '\\'
  | .quote => '"'
  | .newline => 'n'

def Escape.meaning : Escape → Char
  | .backslash => '\\'
  | .quote => '"'
  | .newline => '\n'

/-- A piece of a quoted text that stands for one character. -/
inductive Piece where
  | plain (c : Char) (free : c ≠ '\\' ∧ c ≠ '"')
  | escaped (e : Escape)

def Piece.chars : Piece → List Char
  | .plain c _ => [c]
  | .escaped e => ['\\', e.letter]

def Piece.meaning : Piece → Char
  | .plain c _ => c
  | .escaped e => e.meaning

/-- An operand as it is spelled. The number of a reference has at most 64 bits. -/
inductive Token where
  | ref (digits : List Char) (nonempty : digits ≠ []) (all : ∀ c ∈ digits, Digit c)
    (bound : Nat.ofDigitChars 10 digits 0 < 0x10000000000000000)
  | quoted (pieces : List Piece)
  | bare (word : List Char) (nonempty : word ≠ []) (all : ∀ c ∈ word, Bare c)

namespace Token

def chars : Token → List Char
  | .ref digits .. => '$' :: digits
  | .quoted pieces => '"' :: (pieces.flatMap Piece.chars ++ ['"'])
  | .bare word .. => word

def term : Token → Term
  | .ref digits .. => .ref (Nat.ofDigitChars 10 digits 0)
  | .quoted pieces => .text (String.ofList (pieces.map Piece.meaning))
  | .bare word .. => .text (String.ofList word)

end Token

/-- An operand with the blanks before it. -/
structure Spaced where
  gap : List Char
  gap_ne : gap ≠ []
  gap_blank : ∀ c ∈ gap, Blank c
  token : Token

def Spaced.chars (o : Spaced) : List Char := o.gap ++ o.token.chars

/-- How a text is made up of blanks, a name and operands. -/
structure Derivation where
  lead : List Char
  lead_blank : ∀ c ∈ lead, Blank c
  /-- The name begins with a letter. -/
  initial : Char
  initial_letter : Letter initial
  others : List Char
  others_ok : ∀ c ∈ others, Letter c ∨ Digit c
  operands : List Spaced
  trail : List Char
  trail_blank : ∀ c ∈ trail, Blank c

namespace Derivation

/-- The text that is derived. -/
def chars (d : Derivation) : List Char :=
  d.lead ++ d.initial :: (d.others ++ (d.operands.flatMap Spaced.chars ++ d.trail))

/-- What the text means. -/
def line (d : Derivation) : Line where
  name := String.ofList (d.initial :: d.others)
  terms := d.operands.map (·.token.term)

/-- The line with other blanks at its end. -/
def withTrail (d : Derivation) (blanks : List Char) (h : ∀ c ∈ blanks, Blank c) : Derivation :=
  { d with trail := blanks, trail_blank := h }

theorem chars_withTrail {d : Derivation} (hd : d.trail = []) {blanks : List Char}
    (h : ∀ c ∈ blanks, Blank c) : (d.withTrail blanks h).chars = d.chars ++ blanks := by
  simp [withTrail, chars, hd]

end Derivation

/-! ## What is read has a derivation -/

theorem forall_takeWhile {p : Char → Bool} {P : Char → Prop} (hp : ∀ {c}, p c = true ↔ P c)
    (cs : List Char) : ∀ c ∈ cs.takeWhile p, P c := by
  intro c hc
  exact hp.mp (List.all_eq_true.mp List.all_takeWhile c hc)

/-- One more piece in front of a quoted text. -/
theorem sound_cons (p : Piece) {cs body rest : List Char} {x : Option (List Char × List Char)}
    (h : x.map (fun (body, rest) => (p.meaning :: body, rest)) = some (body, rest))
    (ih : ∀ {body rest}, x = some (body, rest) → ∃ pieces : List Piece,
      cs = pieces.flatMap Piece.chars ++ '"' :: rest ∧ pieces.map Piece.meaning = body) :
    ∃ pieces : List Piece, p.chars ++ cs = pieces.flatMap Piece.chars ++ '"' :: rest ∧
      pieces.map Piece.meaning = body := by
  simp only [Option.map_eq_some_iff, Prod.exists, Prod.mk.injEq] at h
  obtain ⟨b, r, hx, rfl, rfl⟩ := h
  obtain ⟨pieces, rfl, rfl⟩ := ih hx
  exact ⟨p :: pieces, by simp, by simp⟩

theorem quotedBody?_sound {cs body rest : List Char} (h : quotedBody? cs = some (body, rest)) :
    ∃ pieces : List Piece,
      cs = pieces.flatMap Piece.chars ++ '"' :: rest ∧ pieces.map Piece.meaning = body := by
  fun_induction quotedBody? cs generalizing body rest with
  | case1 => simp at h
  | case2 cs =>
    simp only [Option.some.injEq, Prod.mk.injEq] at h
    exact ⟨[], by simp [h.2], by simp [h.1]⟩
  | case3 cs ih => exact sound_cons (.escaped .backslash) h ih
  | case4 cs ih => exact sound_cons (.escaped .quote) h ih
  | case5 cs ih => exact sound_cons (.escaped .newline) h ih
  | case6 => simp at h
  | case7 c cs hquote _ _ _ hslash ih => exact sound_cons (.plain c ⟨hslash, hquote⟩) h ih

theorem refBody?_sound {cs rest : List Char} {index : Nat}
    (h : refBody? cs = some (index, rest)) :
    ∃ t : Token, '$' :: cs = t.chars ++ rest ∧ t.term = .ref index := by
  simp only [refBody?] at h
  split at h
  · simp at h
  · rename_i hcheck
    simp only [Bool.or_eq_true, List.isEmpty_iff, decide_eq_true_eq, not_or, Nat.not_le] at hcheck
    simp only [Option.some.injEq, Prod.mk.injEq] at h
    obtain ⟨rfl, rfl⟩ := h
    refine ⟨.ref (cs.takeWhile Char.isDigit) hcheck.1 (forall_takeWhile isDigit_iff cs) hcheck.2,
      ?_, rfl⟩
    simp [Token.chars]

theorem term?_sound {cs rest : List Char} {t : Term} (h : term? cs = some (t, rest)) :
    ∃ tok : Token, cs = tok.chars ++ rest ∧ tok.term = t := by
  unfold term? at h
  split at h
  · simp only [Option.map_eq_some_iff, Prod.exists, Prod.mk.injEq] at h
    obtain ⟨index, r, hr, rfl, rfl⟩ := h
    exact refBody?_sound hr
  · simp only [Option.map_eq_some_iff, Prod.exists, Prod.mk.injEq] at h
    obtain ⟨body, r, hb, rfl, rfl⟩ := h
    obtain ⟨pieces, rfl, rfl⟩ := quotedBody?_sound hb
    exact ⟨.quoted pieces, by simp [Token.chars], rfl⟩
  · dsimp only at h
    split at h
    · simp at h
    · rename_i hword
      simp only [Option.some.injEq, Prod.mk.injEq] at h
      obtain ⟨rfl, rfl⟩ := h
      refine ⟨.bare (cs.takeWhile isBare) (by simpa using hword) (forall_takeWhile isBare_iff cs),
        ?_, rfl⟩
      simp [Token.chars]

theorem readTerms_sound (cs : List Char) :
    ∃ operands : List Spaced, cs = operands.flatMap Spaced.chars ++ (readTerms cs).2 ∧
      operands.map (·.token.term) = (readTerms cs).1 := by
  fun_induction readTerms cs with
  | case1 => exact ⟨[], rfl, rfl⟩
  | case2 c tail _ _ => exact ⟨[], rfl, rfl⟩
  | case3 c tail hblank t rest hterm _ ts rest' hread ih =>
    obtain ⟨operands, hrest, hts⟩ := ih
    rw [hread] at hrest hts
    obtain ⟨tok, htok, rfl⟩ := term?_sound hterm
    let first : Spaced := {
      gap := c :: tail.takeWhile isBlank
      gap_ne := by simp
      gap_blank := by
        simpa using ⟨isBlank_iff.mp hblank, forall_takeWhile isBlank_iff tail⟩
      token := tok }
    refine ⟨first :: operands, ?_, by simp [first, hts]⟩
    have htail : tail = tail.takeWhile isBlank ++ (tok.chars ++ rest) := by
      rw [← htok, List.takeWhile_append_dropWhile]
    rw [List.flatMap_cons, List.append_assoc, ← hrest]
    simp only [first, Spaced.chars, List.cons_append, List.append_assoc, ← htail]
  | case4 c tail _ => exact ⟨[], rfl, rfl⟩

/-- Where a name begins, there is a line as far as operands can be read. -/
theorem exists_derivation {cs tail : List Char} {c : Char}
    (hstart : cs.dropWhile isBlank = c :: tail) (hc : isNameStart c = true) :
    ∃ d : Derivation, d.trail = [] ∧ cs = d.chars ++ (readTerms (tail.dropWhile isNameChar)).2 ∧
      d.line = ⟨String.ofList (c :: tail.takeWhile isNameChar),
        (readTerms (tail.dropWhile isNameChar)).1⟩ := by
  obtain ⟨operands, hoperands, hterms⟩ := readTerms_sound (tail.dropWhile isNameChar)
  let d : Derivation := {
    lead := cs.takeWhile isBlank
    lead_blank := forall_takeWhile isBlank_iff cs
    initial := c
    initial_letter := isNameStart_iff.mp hc
    others := tail.takeWhile isNameChar
    others_ok := forall_takeWhile isNameChar_iff tail
    operands := operands
    trail := []
    trail_blank := by simp }
  refine ⟨d, rfl, ?_, ?_⟩
  · have hsplit : cs = cs.takeWhile isBlank ++ c :: tail := by
      rw [← hstart, List.takeWhile_append_dropWhile]
    rw [← List.takeWhile_append_dropWhile (p := isNameChar) (l := tail), hoperands] at hsplit
    simpa [d, Derivation.chars] using hsplit
  · rw [Derivation.line, hterms]

theorem parseChars_sound {cs : List Char} {line : Line} (h : parseChars cs = .ok line) :
    ∃ d : Derivation, d.chars = cs ∧ d.line = line := by
  unfold parseChars at h
  cases hstart : cs.dropWhile isBlank with
  | nil => simp [hstart, name?] at h
  | cons c tail =>
    rw [hstart] at h
    by_cases hc : isNameStart c = true
    · simp only [name?, hc, if_true] at h
      obtain ⟨d, hd, hcs, hline⟩ := exists_derivation hstart hc
      split at h
      · rename_i htrail
        cases h
        -- Nothing is left but blanks, which end the line.
        have hblank : ∀ c ∈ (readTerms (tail.dropWhile isNameChar)).2, Blank c :=
          fun c hmem => isBlank_iff.mp (List.dropWhile_eq_nil_iff.mp htrail c hmem)
        exact ⟨d.withTrail _ hblank, (Derivation.chars_withTrail hd hblank).trans hcs.symm, hline⟩
      · cases h
    · simp [name?, hc] at h

/-! ## What has a derivation is read -/

/-- Nothing follows, or a blank. -/
def Ended (rest : List Char) : Prop := ∀ c ∈ rest.head?, Blank c

theorem Blank.excluded {c : Char} (h : Blank c) :
    c.isDigit = false ∧ isNameChar c = false ∧ isBare c = false := by
  rcases h with rfl | rfl | rfl | rfl <;> decide

theorem Letter.not_blank {c : Char} (h : Letter c) : isBlank c = false := by
  rw [← Bool.not_eq_true, isBlank_iff]
  intro hblank
  have hname : isNameChar c = true := isNameChar_iff.mpr (.inl h)
  simp [hblank.excluded.2.1] at hname

/-- A run of characters of one class ends where a character of another follows. -/
theorem span_append {p : Char → Bool} {l r : List Char} (hl : ∀ c ∈ l, p c = true)
    (hr : ∀ c ∈ r.head?, p c = false) :
    (l ++ r).takeWhile p = l ∧ (l ++ r).dropWhile p = r := by
  rw [List.takeWhile_append_of_pos hl, List.dropWhile_append_of_pos hl]
  cases r with
  | nil => simp
  | cons c r => simp [hr c rfl]

theorem dropWhile_blank {cs : List Char} (h : ∀ c ∈ cs, Blank c) : cs.dropWhile isBlank = [] := by
  simpa using (span_append (r := []) (all_isBlank h) (by simp)).2

theorem quotedBody?_pieces (pieces : List Piece) (rest : List Char) :
    quotedBody? (pieces.flatMap Piece.chars ++ '"' :: rest) =
      some (pieces.map Piece.meaning, rest) := by
  induction pieces with
  | nil => simp [quotedBody?]
  | cons piece pieces ih =>
    cases piece with
    | plain c free => simp [Piece.chars, Piece.meaning, quotedBody?, free, ih]
    | escaped e =>
      cases e <;>
        simp [Piece.chars, Piece.meaning, Escape.letter, Escape.meaning, quotedBody?, ih]

theorem term?_token (t : Token) {rest : List Char} (hrest : Ended rest) :
    term? (t.chars ++ rest) = some (t.term, rest) := by
  cases t with
  | ref digits nonempty all bound =>
    obtain ⟨htake, hdrop⟩ := span_append (p := Char.isDigit)
      (fun c hc => isDigit_iff.mpr (all c hc)) fun c hc => (hrest c hc).excluded.1
    simp [Token.chars, Token.term, term?, refBody?, htake, hdrop, nonempty, refLimit, bound]
  | quoted pieces => simp [Token.chars, Token.term, term?, quotedBody?_pieces]
  | bare word nonempty all =>
    obtain ⟨htake, hdrop⟩ := span_append (p := isBare)
      (fun c hc => isBare_iff.mpr (all c hc)) fun c hc => (hrest c hc).excluded.2.2
    cases word with
    | nil => exact absurd rfl nonempty
    | cons c word =>
      have hc := all c List.mem_cons_self
      -- A bare word begins neither like a reference nor like a quoted text.
      unfold term?
      split
      · rename_i heq
        cases heq
        exact absurd rfl hc.2.2
      · rename_i heq
        cases heq
        exact absurd rfl hc.2.1
      · simp only [Token.chars, Token.term, htake, hdrop, List.isEmpty_cons, Bool.false_eq_true,
          if_false]

/-- An operand does not begin with a blank. -/
theorem Token.chars_cons (t : Token) : ∃ c cs, t.chars = c :: cs ∧ isBlank c = false := by
  cases t with
  | ref digits nonempty all bound => exact ⟨_, _, rfl, by decide⟩
  | quoted pieces => exact ⟨_, _, rfl, by decide⟩
  | bare word nonempty all =>
    cases word with
    | nil => exact absurd rfl nonempty
    | cons c word =>
      have hc : ¬ isBlank c = true := fun h => (all c List.mem_cons_self).1 (isBlank_iff.mp h)
      exact ⟨c, word, rfl, by simpa using hc⟩

theorem Token.head_append (t : Token) (rest : List Char) :
    ∀ c ∈ (t.chars ++ rest).head?, isBlank c = false := by
  obtain ⟨c, cs, hcs, hc⟩ := t.chars_cons
  simpa [hcs] using hc

theorem ended_operands (operands : List Spaced) {trail : List Char}
    (htrail : ∀ c ∈ trail, Blank c) : Ended (operands.flatMap Spaced.chars ++ trail) := by
  intro c hc
  cases operands with
  | nil => exact htrail c (List.mem_of_mem_head? hc)
  | cons o operands =>
    cases hgap : o.gap with
    | nil => exact absurd hgap o.gap_ne
    | cons b gap =>
      have hb := o.gap_blank b (by simp [hgap])
      simp only [List.flatMap_cons, Spaced.chars, hgap, List.cons_append, List.head?_cons,
        Option.mem_some_iff] at hc
      exact hc ▸ hb

theorem readTerms_trail {trail : List Char} (htrail : ∀ c ∈ trail, Blank c) :
    readTerms trail = ([], trail) := by
  cases trail with
  | nil => rw [readTerms]
  | cons c tail =>
    have hnone : term? (tail.dropWhile isBlank) = none := by
      rw [dropWhile_blank fun b hb => htrail b (List.mem_cons_of_mem c hb)]
      rfl
    rw [readTerms]
    split
    · split
      · rfl
      · rename_i hsome
        rw [hnone] at hsome
        cases hsome
    · rfl

theorem readTerms_operands (operands : List Spaced) {trail : List Char}
    (htrail : ∀ c ∈ trail, Blank c) :
    readTerms (operands.flatMap Spaced.chars ++ trail) =
      (operands.map (·.token.term), trail) := by
  induction operands with
  | nil => exact readTerms_trail htrail
  | cons o operands ih =>
    cases hgap : o.gap with
    | nil => exact absurd hgap o.gap_ne
    | cons b gap =>
      have hblank : ∀ c ∈ b :: gap, isBlank c = true := hgap ▸ all_isBlank o.gap_blank
      have hdrop := (span_append (p := isBlank) (l := gap)
        (r := o.token.chars ++ (operands.flatMap Spaced.chars ++ trail))
        (fun c hc => hblank c (List.mem_cons_of_mem b hc)) (o.token.head_append _)).2
      have hterm := term?_token o.token (ended_operands operands htrail)
      have hcs : (o :: operands).flatMap Spaced.chars ++ trail =
          b :: (gap ++ (o.token.chars ++ (operands.flatMap Spaced.chars ++ trail))) := by
        simp [Spaced.chars, hgap]
      rw [hcs, readTerms, if_pos (hblank b List.mem_cons_self)]
      split
      · rename_i hnone
        rw [hdrop, hterm] at hnone
        cases hnone
      · rename_i t rest hsome
        rw [hdrop, hterm] at hsome
        cases hsome
        simp [ih]

theorem parseChars_chars (d : Derivation) : parseChars d.chars = .ok d.line := by
  have hlead := (span_append (p := isBlank) (l := d.lead)
    (r := d.initial :: (d.others ++ (d.operands.flatMap Spaced.chars ++ d.trail)))
    (all_isBlank d.lead_blank) (by simpa using d.initial_letter.not_blank)).2
  obtain ⟨htake, hdrop⟩ := span_append (p := isNameChar) (l := d.others)
    (r := d.operands.flatMap Spaced.chars ++ d.trail)
    (fun c hc => isNameChar_iff.mpr (d.others_ok c hc))
    fun c hc => (ended_operands d.operands d.trail_blank c hc).excluded.2.1
  simp only [parseChars, Derivation.chars, hlead, name?, isNameStart_iff.mpr d.initial_letter,
    if_true, htake, hdrop, readTerms_operands d.operands d.trail_blank,
    dropWhile_blank d.trail_blank]
  rfl

/-! ## No text has two derivations -/

/-- A text is split into a run of one class and a rest in one way. -/
theorem split_unique {p : Char → Bool} {l r l' r' : List Char} (h : l ++ r = l' ++ r')
    (hl : ∀ c ∈ l, p c = true) (hr : ∀ c ∈ r.head?, p c = false) (hl' : ∀ c ∈ l', p c = true)
    (hr' : ∀ c ∈ r'.head?, p c = false) : l = l' ∧ r = r' := by
  obtain ⟨htake, hdrop⟩ := span_append hl hr
  obtain ⟨htake', hdrop'⟩ := span_append hl' hr'
  rw [h] at htake hdrop
  exact ⟨htake.symm.trans htake', hdrop.symm.trans hdrop'⟩

theorem Escape.letter_inj {e e' : Escape} (h : e.letter = e'.letter) : e = e' := by
  cases e <;> cases e' <;> first | rfl | exact absurd h (by decide)

theorem Piece.chars_append_inj {piece piece' : Piece} {rest rest' : List Char}
    (h : piece.chars ++ rest = piece'.chars ++ rest') : piece = piece' ∧ rest = rest' := by
  cases piece with
  | plain c free =>
    cases piece' with
    | plain c' free' => simpa [chars] using h
    | escaped e => simp [chars, free.1] at h
  | escaped e =>
    cases piece' with
    | plain c free => exact absurd (List.cons.inj h).1.symm free.1
    | escaped e' =>
      simp only [chars, List.cons_append, List.nil_append, List.cons.injEq, true_and] at h
      exact ⟨congrArg Piece.escaped (Escape.letter_inj h.1), h.2⟩

theorem Piece.chars_ne_nil (piece : Piece) : piece.chars ≠ [] := by
  cases piece <;> simp [chars]

theorem pieces_inj {pieces pieces' : List Piece}
    (h : pieces.flatMap Piece.chars = pieces'.flatMap Piece.chars) : pieces = pieces' := by
  induction pieces generalizing pieces' with
  | nil =>
    cases pieces' with
    | nil => rfl
    | cons piece' pieces' => simp [piece'.chars_ne_nil] at h
  | cons piece pieces ih =>
    cases pieces' with
    | nil => simp [piece.chars_ne_nil] at h
    | cons piece' pieces' =>
      obtain ⟨rfl, hrest⟩ := Piece.chars_append_inj h
      rw [ih hrest]

theorem Token.chars_inj {t t' : Token} (h : t.chars = t'.chars) : t = t' := by
  -- The first character tells the three spellings apart.
  have bare_head {c : Char} {cs word : List Char} (all : ∀ c ∈ word, Bare c)
      (hw : word = c :: cs) : c ≠ '"' ∧ c ≠ '$' := (all c (by simp [hw])).2
  cases t with
  | ref digits nonempty all bound =>
    cases t' with
    | ref digits' nonempty' all' bound' =>
      have hd : digits = digits' := (List.cons.inj h).2
      subst hd
      rfl
    | quoted pieces => exact absurd (List.cons.inj h).1 (by decide)
    | bare word nonempty' all' => exact absurd rfl (bare_head all' h.symm).2
  | quoted pieces =>
    cases t' with
    | ref digits' nonempty' all' bound' => exact absurd (List.cons.inj h).1 (by decide)
    | quoted pieces' => rw [pieces_inj (List.append_cancel_right (List.cons.inj h).2)]
    | bare word nonempty' all' => exact absurd rfl (bare_head all' h.symm).1
  | bare word nonempty all =>
    cases t' with
    | ref digits' nonempty' all' bound' => exact absurd rfl (bare_head all h).2
    | quoted pieces => exact absurd rfl (bare_head all h).1
    | bare word' nonempty' all' =>
      have hw : word = word' := h
      subst hw
      rfl

theorem Token.chars_append_inj {t t' : Token} {rest rest' : List Char}
    (h : t.chars ++ rest = t'.chars ++ rest') (hrest : Ended rest) (hrest' : Ended rest') :
    t = t' ∧ rest = rest' := by
  -- The reader stops at the same place in both, and the operands are what it has read.
  have hread := term?_token t hrest
  rw [h, term?_token t' hrest'] at hread
  simp only [Option.some.injEq, Prod.mk.injEq] at hread
  obtain ⟨-, rfl⟩ := hread
  exact ⟨Token.chars_inj (List.append_cancel_right h), rfl⟩

theorem operands_inj {operands operands' : List Spaced} {trail trail' : List Char}
    (h : operands.flatMap Spaced.chars ++ trail = operands'.flatMap Spaced.chars ++ trail')
    (htrail : ∀ c ∈ trail, Blank c) (htrail' : ∀ c ∈ trail', Blank c) :
    operands = operands' ∧ trail = trail' := by
  -- Blanks alone are not blanks with an operand after them.
  have alone (o : Spaced) {rest blanks : List Char} (hblanks : ∀ c ∈ blanks, Blank c) :
      blanks ≠ o.gap ++ (o.token.chars ++ rest) := by
    intro he
    obtain ⟨c, cs, hcs, hc⟩ := o.token.chars_cons
    have hmem : c ∈ blanks := by simp [he, hcs]
    simp [isBlank_iff.mpr (hblanks c hmem)] at hc
  induction operands generalizing operands' with
  | nil =>
    cases operands' with
    | nil => exact ⟨rfl, h⟩
    | cons o' operands' => exact absurd (by simpa [Spaced.chars] using h) (alone o' htrail)
  | cons o operands ih =>
    cases operands' with
    | nil => exact absurd (by simpa [Spaced.chars] using h.symm) (alone o htrail')
    | cons o' operands' =>
      simp only [List.flatMap_cons, Spaced.chars, List.append_assoc] at h
      obtain ⟨hgap, hrest⟩ := split_unique h (all_isBlank o.gap_blank) (o.token.head_append _)
        (all_isBlank o'.gap_blank) (o'.token.head_append _)
      obtain ⟨htoken, hrest⟩ := Token.chars_append_inj hrest
        (ended_operands operands htrail) (ended_operands operands' htrail')
      obtain ⟨rfl, rfl⟩ := ih hrest
      have ho : o = o' := by
        cases o
        cases o'
        simp only [Spaced.mk.injEq]
        exact ⟨hgap, htoken⟩
      exact ⟨by rw [ho], rfl⟩

theorem Derivation.chars_inj {d d' : Derivation} (h : d.chars = d'.chars) : d = d' := by
  obtain ⟨hlead, hrest⟩ := split_unique h (all_isBlank d.lead_blank)
    (by simpa using d.initial_letter.not_blank) (all_isBlank d'.lead_blank)
    (by simpa using d'.initial_letter.not_blank)
  obtain ⟨hinitial, hrest⟩ := List.cons.inj hrest
  obtain ⟨hothers, hrest⟩ := split_unique (p := isNameChar) hrest
    (fun c hc => isNameChar_iff.mpr (d.others_ok c hc))
    (fun c hc => (ended_operands d.operands d.trail_blank c hc).excluded.2.1)
    (fun c hc => isNameChar_iff.mpr (d'.others_ok c hc))
    (fun c hc => (ended_operands d'.operands d'.trail_blank c hc).excluded.2.1)
  obtain ⟨hoperands, htrail⟩ := operands_inj hrest d.trail_blank d'.trail_blank
  cases d
  cases d'
  simp only [Derivation.mk.injEq]
  exact ⟨hlead, hinitial, hothers, hoperands, htrail⟩

/-! ## The reader and the grammar -/

theorem parse_ok_iff {text : String} {line : Line} :
    parse text = .ok line ↔ parseChars text.toList = .ok line := by
  unfold parse
  cases parseChars text.toList <;> simp

/-- **Exactness.** The reader accepts a text exactly when the grammar derives it, and reads it as
its derivation says; and it has one derivation only. -/
theorem parse_iff_derived (text : String) :
    (∀ line, parse text = .ok line ↔
      ∃ d : Derivation, d.chars = text.toList ∧ d.line = line) ∧
    ∀ d d' : Derivation, d.chars = text.toList → d'.chars = text.toList → d = d' := by
  refine ⟨fun line => ?_, fun d d' h h' => Derivation.chars_inj (h.trans h'.symm)⟩
  rw [parse_ok_iff]
  constructor
  · exact parseChars_sound
  · rintro ⟨d, hd, rfl⟩
    rw [← hd]
    exact parseChars_chars d

/-- A reference with leading zeros, escapes next to a blank in quotes, and a word with a colon. -/
theorem parse_iff_derived_mixed :
    ∃ d : Derivation, d.chars = "\tadd $007 \"\\\" \\n\"  x:y\r\n".toList ∧
      d.line = ⟨"add", [.ref 7, .text "\" \n", .text "x:y"]⟩ ∧
      ∀ d' : Derivation, d'.chars = d.chars → d' = d := by
  obtain ⟨hread, hone⟩ := parse_iff_derived "\tadd $007 \"\\\" \\n\"  x:y\r\n"
  obtain ⟨d, hd, hline⟩ := (hread ⟨"add", [.ref 7, .text "\" \n", .text "x:y"]⟩).mp
    (Step.except_ok_of_toOption (by decide +kernel))
  exact ⟨d, hd, hline, fun d' hd' => hone d' d (hd'.trans hd) hd⟩

end Datapack.Line
