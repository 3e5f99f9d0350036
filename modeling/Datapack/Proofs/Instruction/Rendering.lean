import Datapack.Proofs.Instruction.Assembly
import Datapack.Proofs.Instruction.Grammar

/-!
# Reading undoes rendering

A rendered instruction is its name and, for each operand, a quoted text or a
reference that numbers the operands which are not texts.

**Spelling.** Every text can be spelled (`Token.quote`), and so can every
number below the limit of references (`Token.number`). The rendered text is
therefore derived by the grammar, and the reader finds the derivation again
whatever the texts hold (`parse_render`).

**References.** The operands that were numbered are the arguments, in the
order of their numbers, so that every reference leads back to its operand
(`resolve_references`).
-/
namespace Datapack

namespace Line

/-! ## Spelling -/

/-- A character as a piece of a quoted text. -/
def Piece.ofChar (c : Char) : Piece :=
  if h : c = '\\' then .escaped .backslash
  else if h' : c = '"' then .escaped .quote
  else .plain c ⟨h, h'⟩

theorem Piece.chars_ofChar (c : Char) :
    (ofChar c).chars = if c = '\\' ∨ c = '"' then ['\\', c] else [c] := by
  unfold ofChar
  split
  · rename_i h
    subst h
    rfl
  · split
    · rename_i h
      subst h
      rfl
    · rename_i h h'
      simp [chars, h, h']

theorem Piece.meaning_ofChar (c : Char) : (ofChar c).meaning = c := by
  unfold ofChar
  split
  · rename_i h
    exact h.symm
  · split
    · rename_i h
      exact h.symm
    · rfl

namespace Token

/-- A text in quotes. -/
def quote (text : String) : Token := .quoted (text.toList.map Piece.ofChar)

theorem chars_quote (text : String) : (quote text).chars = Instruction.quoteText text := by
  simp only [quote, chars, Instruction.quoteText, List.flatMap_map, Piece.chars_ofChar]

theorem term_quote (text : String) : (quote text).term = .text text := by
  have h : Piece.meaning ∘ Piece.ofChar = id := funext Piece.meaning_ofChar
  simp [quote, term, h]

/-- A reference by its number. -/
def number (n : Nat) (h : n < 0x10000000000000000) : Token :=
  .ref (Nat.toDigits 10 n) Nat.toDigits_ne_nil
    (fun _ hc => isDigit_iff.mp (Nat.isDigit_of_mem_toDigits (by decide) (by decide) hc))
    (by rwa [Nat.ofDigitChars_toDigits (by decide) (by decide)])

theorem term_number (n : Nat) (h : n < 0x10000000000000000) : (number n h).term = .ref n := by
  simp only [number, term, Nat.ofDigitChars_toDigits (show 1 < 10 by decide) (Nat.le_refl 10)]

end Token

/-- An operand after one space. -/
def Spaced.after (t : Token) : Spaced := ⟨[' '], by simp, by simp [Blank], t⟩

end Line

namespace Instruction

open Line (Token Spaced)

/-! ## References -/

/-- Terms that stand for operands; `next` numbers the first that is not a text. -/
def references (next : Nat) : List Operand → List Term
  | [] => []
  | .str text :: rest => .text text :: references next rest
  | _ :: rest => .ref next :: references (next + 1) rest

/-- Rendered operands are derived by the grammar. -/
theorem spaced_of_operands : ∀ (operands : List Operand) (next : Nat),
    next + operands.length ≤ 0x10000000000000000 → ∃ spaced : List Spaced,
      spaced.flatMap Spaced.chars = renderOperands next operands ∧
        spaced.map (·.token.term) = references next operands := by
  intro operands
  induction operands with
  | nil => exact fun next _ => ⟨[], rfl, rfl⟩
  | cons operand operands ih =>
    intro next h
    rw [List.length_cons] at h
    have number : ∃ spaced : List Spaced,
        spaced.flatMap Spaced.chars =
          ' ' :: '$' :: (Nat.toDigits 10 next ++ renderOperands (next + 1) operands) ∧
        spaced.map (·.token.term) = .ref next :: references (next + 1) operands := by
      obtain ⟨spaced, hchars, hterms⟩ := ih (next + 1) (by omega)
      refine ⟨.after (.number next (by omega)) :: spaced, ?_, ?_⟩
      · simp [Spaced.chars, Spaced.after, Token.number, Token.chars, hchars]
      · simp [Spaced.after, Token.term_number, hterms]
    cases operand with
    | str text =>
      obtain ⟨spaced, hchars, hterms⟩ := ih next (by omega)
      refine ⟨.after (.quote text) :: spaced, ?_, ?_⟩
      · simp [Spaced.chars, Spaced.after, Token.chars_quote, renderOperands, hchars]
      · simp [Spaced.after, Token.term_quote, references, hterms]
    | event handle => exact number
    | func id => exact number

/-- The operand is referred to, not written out. -/
def isReferred : Operand → Bool
  | .str _ => false
  | _ => true

/-- The numbers lead back to the operands, also behind arguments that are numbered `before`. -/
theorem resolve_references : ∀ (operands before : List Operand),
    (references before.length operands).mapM
      (Term.resolve (before ++ operands.filter isReferred)) = .ok operands := by
  intro operands
  induction operands with
  | nil => exact fun before => rfl
  | cons operand operands ih =>
    intro before
    have referred (o : Operand) : (Term.ref before.length :: references (before.length + 1)
        operands).mapM (Term.resolve (before ++ o :: operands.filter isReferred)) =
          .ok (o :: operands) := by
      have hfirst : (Term.ref before.length).resolve (before ++ o :: operands.filter isReferred) =
          .ok o := by
        simp [Term.resolve]
      have hrest := ih (before ++ [o])
      rw [List.append_assoc, List.length_append, List.singleton_append] at hrest
      exact Step.mapM_cons_ok hfirst hrest
    cases operand with
    | str text => exact Step.mapM_cons_ok rfl (ih before)
    | event handle => exact referred _
    | func id => exact referred _

/-! ## Reading back -/

theorem length_operands_le (insn : Instruction) : insn.operands.length ≤ 3 := by
  cases insn <;> simp [operands]

/-- The name of an instruction is a name of the grammar. -/
theorem name_chars (insn : Instruction) : ∃ initial others, insn.name.toList = initial :: others ∧
    Line.Letter initial ∧ ∀ c ∈ others, Line.Letter c ∨ Line.Digit c := by
  have hname : insn.name.toList.head?.any Line.isNameStart = true ∧
      insn.name.toList.tail.all Line.isNameChar = true := by
    unfold name
    cases insn.opcode <;> decide
  cases hcs : insn.name.toList with
  | nil => simp [hcs] at hname
  | cons initial others =>
    simp only [hcs, List.head?_cons, Option.any_some, List.tail_cons, List.all_eq_true] at hname
    exact ⟨initial, others, rfl, Line.isNameStart_iff.mp hname.1,
      fun c hc => Line.isNameChar_iff.mp (hname.2 c hc)⟩

theorem parse_render (insn : Instruction) :
    Line.parse insn.render = .ok ⟨insn.name, references 0 insn.operands⟩ := by
  obtain ⟨initial, others, hname, hinitial, hothers⟩ := insn.name_chars
  obtain ⟨spaced, hchars, hterms⟩ := spaced_of_operands insn.operands 0 (by
    have := insn.length_operands_le
    omega)
  let d : Line.Derivation := {
    lead := []
    lead_blank := by simp
    initial := initial
    initial_letter := hinitial
    others := others
    others_ok := hothers
    operands := spaced
    trail := []
    trail_blank := by simp }
  have hd : d.chars = insn.render.toList := by
    simp [d, Line.Derivation.chars, render, hname, hchars]
  have hline : d.line = ⟨insn.name, references 0 insn.operands⟩ := by
    simp [d, Line.Derivation.line, hterms, ← hname]
  rw [Line.parse_ok_iff, ← hd, ← hline]
  exact Line.parseChars_chars d

/-- **Round trip.** However an instruction came about, reading its rendered text with its arguments
gives it back, whatever its texts hold; and so does the checked path from its name and operands. -/
theorem read_render {insn : Instruction} (h : insn.Built) :
    read insn.render insn.arguments = .ok insn ∧
      ofOperands insn.name insn.operands = .ok insn := by
  have hchecked := ofOperands_operands h.checked
  refine ⟨?_, hchecked⟩
  have hresolve : (references 0 insn.operands).mapM (Term.resolve insn.arguments) =
      .ok insn.operands := resolve_references insn.operands []
  unfold read
  rw [parse_render]
  change (references 0 insn.operands).mapM (Term.resolve insn.arguments) >>= _ = _
  rw [hresolve]
  exact hchecked

/-- A condition whose texts hold quotes, backslashes, a line break and a reference. -/
theorem read_render_hostile :
    ∃ insn : Instruction, insn.Built ∧
      insn = .addEventCondition ⟨7, .advancement⟩ "a\"b\\" "$0\n" ∧
      insn.render = "add_event_condition $0 \"a\\\"b\\\\\" \"$0\n\"" ∧
      read insn.render insn.arguments = .ok insn := by
  have hadd : addCondition ⟨7, .advancement⟩ "a\"b\\" "$0\n" = .ok _ := rfl
  have hb := Built.addCondition hadd
  exact ⟨_, hb, rfl, by decide +kernel, (read_render hb).1⟩

end Instruction

end Datapack
