import Datapack.Proofs.Instruction.Grammar

/-!
# Where reading stops

A text that is no instruction line is refused with the rest at which reading
stopped. The reader has no position of its own: it takes what it can and hands
the rest on, and what is left at the end is quoted.

**Places.** Reading stops in one of three ways. No name begins behind the first
blanks (`Nameless`). A line was read, and something follows its last token that
is neither part of it nor a blank (`Glued`). A line and blanks were read, and
what follows begins like an operand and is none (`Broken`).

**What was read.** In the last two cases the text before the rest is a line by
itself, since the reader has a derivation for it (`readTerms_sound`) and the
grammar is complete (`parseChars_chars`). Its last character tells the two
apart: only trailing blanks end a line in a blank (`Derivation.last_blank_iff`).
-/
namespace Datapack.Line

/-! ## Broken operands -/

/-- The text begins with a quote, and no quoted text. -/
def BrokenQuote (rest : List Char) : Prop :=
  rest.head? = some '"' ∧ ∀ pieces after, rest ≠ (Token.quoted pieces).chars ++ after

/-- The text begins with a `$` that has no digit behind it, or digits to a number of more than 64
bits. -/
def BrokenRef (rest : List Char) : Prop :=
  ∃ cs, rest = '$' :: cs ∧
    ((∀ c ∈ cs.head?, ¬ Digit c) ∨
      ∃ digits after, cs = digits ++ after ∧ (∀ c ∈ digits, Digit c) ∧
        (∀ c ∈ after.head?, ¬ Digit c) ∧
        0x10000000000000000 ≤ Nat.ofDigitChars 10 digits 0)

theorem brokenQuote_of_none {cs : List Char} (h : quotedBody? cs = none) :
    BrokenQuote ('"' :: cs) := by
  refine ⟨rfl, fun pieces after heq => ?_⟩
  have hcs : cs = pieces.flatMap Piece.chars ++ '"' :: after := by
    simpa [Token.chars] using heq
  rw [hcs, quotedBody?_pieces] at h
  cases h

theorem brokenRef_of_none {cs : List Char} (h : refBody? cs = none) : BrokenRef ('$' :: cs) := by
  refine ⟨cs, rfl, ?_⟩
  -- Behind the digits comes the end or something that is none.
  have hafter : ∀ c ∈ (cs.dropWhile Char.isDigit).head?, ¬ Digit c := by
    intro c hc hdigit
    have hstop := List.head?_dropWhile_not Char.isDigit cs
    rw [Option.mem_def.mp hc] at hstop
    simp [isDigit_iff.mpr hdigit] at hstop
  by_cases hdigits : cs.takeWhile Char.isDigit = []
  · left
    have hdrop : cs.dropWhile Char.isDigit = cs := by
      have hall := List.takeWhile_append_dropWhile (p := Char.isDigit) (l := cs)
      rwa [hdigits, List.nil_append] at hall
    rwa [hdrop] at hafter
  · right
    refine ⟨cs.takeWhile Char.isDigit, cs.dropWhile Char.isDigit,
      List.takeWhile_append_dropWhile.symm, forall_takeWhile isDigit_iff cs, hafter, ?_⟩
    simpa [refBody?, hdigits, refLimit] using h

/-- A text that begins with no blank and no operand begins like an operand. -/
theorem broken_of_term?_none {c : Char} {cs : List Char} (hc : isBlank c = false)
    (h : term? (c :: cs) = none) : BrokenQuote (c :: cs) ∨ BrokenRef (c :: cs) := by
  unfold term? at h
  split at h
  · rename_i heq
    cases heq
    exact .inr (brokenRef_of_none (Option.map_eq_none_iff.mp h))
  · rename_i heq
    cases heq
    exact .inl (brokenQuote_of_none (Option.map_eq_none_iff.mp h))
  · rename_i hdollar hquote
    have hbare : isBare c = true := by
      have hq : c ≠ '"' := fun he => hquote cs (by rw [he])
      have hd : c ≠ '$' := fun he => hdollar cs (by rw [he])
      simp [isBare, hc, hq, hd]
    simp [hbare] at h

/-! ## The last character -/

/-- The text does not end in a blank. -/
def Tight (cs : List Char) : Prop := ∀ c ∈ cs.getLast?, ¬ Blank c

theorem getLast?_append_right (cs : List Char) {ds : List Char} (h : ds ≠ []) :
    (cs ++ ds).getLast? = ds.getLast? := by
  rw [List.getLast?_append, List.getLast?_eq_some_getLast h, Option.some_or]

theorem Tight.append (cs : List Char) {ds : List Char} (h : ds ≠ []) (hds : Tight ds) :
    Tight (cs ++ ds) := by
  intro c hc
  rw [getLast?_append_right cs h] at hc
  exact hds c hc

theorem tight_of_forall {cs : List Char} (h : ∀ c ∈ cs, ¬ Blank c) : Tight cs :=
  fun c hc => h c (List.mem_of_mem_getLast? hc)

theorem Digit.not_blank {c : Char} (h : Digit c) : ¬ Blank c := by
  intro hblank
  have hdigit := isDigit_iff.mpr h
  simp [hblank.excluded.1] at hdigit

theorem Token.chars_ne_nil (t : Token) : t.chars ≠ [] := by
  obtain ⟨c, cs, hcs, -⟩ := t.chars_cons
  simp [hcs]

theorem Token.tight (t : Token) : Tight t.chars := by
  cases t with
  | ref digits nonempty all bound =>
    exact Tight.append ['$'] nonempty (tight_of_forall fun c hc => (all c hc).not_blank)
  | quoted pieces =>
    have hquote : Tight ['"'] := tight_of_forall (by simp [Blank])
    exact Tight.append ('"' :: pieces.flatMap Piece.chars) (by simp) hquote
  | bare word nonempty all => exact tight_of_forall fun c hc => (all c hc).1

namespace Derivation

/-- The text of a line up to the end of its last token. -/
def core (d : Derivation) : List Char :=
  d.lead ++ d.initial :: (d.others ++ d.operands.flatMap Spaced.chars)

theorem chars_eq_core (d : Derivation) : d.chars = d.core ++ d.trail := by
  simp [chars, core]

theorem core_tight (d : Derivation) : Tight d.core := by
  have hname : ∀ c ∈ d.initial :: d.others, ¬ Blank c := by
    intro c hc
    rcases List.mem_cons.mp hc with rfl | hc
    · rw [← isBlank_iff, d.initial_letter.not_blank]
      exact Bool.false_ne_true
    · rcases d.others_ok c hc with hletter | hdigit
      · rw [← isBlank_iff, hletter.not_blank]
        exact Bool.false_ne_true
      · exact hdigit.not_blank
  -- The last token is the last operand, or the name when there is none.
  rcases List.eq_nil_or_concat d.operands with hnil | ⟨operands, o, ho⟩
  · have hcore : d.core = d.lead ++ d.initial :: d.others := by simp [core, hnil]
    rw [hcore]
    exact Tight.append _ (by simp) (tight_of_forall hname)
  · have hcore : d.core = (d.lead ++ d.initial :: (d.others ++
        operands.flatMap Spaced.chars) ++ o.gap) ++ o.token.chars := by
      simp [core, ho, Spaced.chars]
    rw [hcore]
    exact Tight.append _ o.token.chars_ne_nil o.token.tight

/-- A line ends in a blank exactly when it has trailing blanks. -/
theorem last_blank_iff (d : Derivation) : (∃ c ∈ d.chars.getLast?, Blank c) ↔ d.trail ≠ [] := by
  rw [chars_eq_core]
  constructor
  · rintro ⟨c, hc, hblank⟩ htrail
    rw [htrail, List.append_nil] at hc
    exact d.core_tight c hc hblank
  · intro htrail
    refine ⟨d.trail.getLast htrail, ?_, d.trail_blank _ (List.getLast_mem htrail)⟩
    rw [getLast?_append_right d.core htrail]
    exact List.getLast?_eq_some_getLast htrail

end Derivation

/-! ## Places -/

/-- Only blanks were read, and no name begins at the rest. -/
structure Nameless (before rest : String) : Prop where
  blank : ∀ c ∈ before.toList, Blank c
  head : ∀ c ∈ rest.toList.head?, ¬ Letter c

/-- A line was read, and something follows that touches its last token. -/
structure Glued (before rest : String) : Prop where
  more : rest ≠ ""
  read : ∃ line, parse before = .ok line
  last : ∀ c ∈ before.toList.getLast?, ¬ Blank c

/-- A line and blanks were read, and what follows is a broken operand. -/
structure Broken (before rest : String) : Prop where
  more : rest ≠ ""
  read : ∃ line, parse before = .ok line
  last : ∃ c ∈ before.toList.getLast?, Blank c
  operand : BrokenQuote rest.toList ∨ BrokenRef rest.toList

section
variable {before rest : String}

/-- Blanks are no line. -/
theorem Nameless.unread (h : Nameless before rest) (line : Line) : parse before ≠ .ok line := by
  intro hread
  rw [parse_ok_iff, parseChars, dropWhile_blank h.blank] at hread
  cases hread

theorem Nameless.not_glued (h : Nameless before rest) : ¬ Glued before rest := by
  intro hg
  obtain ⟨line, hline⟩ := hg.read
  exact h.unread line hline

theorem Nameless.not_broken (h : Nameless before rest) : ¬ Broken before rest := by
  intro hb
  obtain ⟨line, hline⟩ := hb.read
  exact h.unread line hline

theorem Glued.not_broken (h : Glued before rest) : ¬ Broken before rest := by
  intro hb
  obtain ⟨c, hc, hblank⟩ := hb.last
  exact h.last c hc hblank

end

/-! ## The reader -/

/-- Reading terms stops before a blank only if no operand follows the blanks. -/
theorem readTerms_stops (cs : List Char) : ∀ c tail, (readTerms cs).2 = c :: tail →
    isBlank c = true → term? (tail.dropWhile isBlank) = none := by
  fun_induction readTerms cs with
  | case1 => intro c tail h; cases h
  | case2 c tail _ hnone => intro c' tail' h _; cases h; exact hnone
  | case3 c tail _ t rest _ _ ts rest' hread ih =>
    intro c' tail' h
    rw [hread] at ih
    exact ih c' tail' h
  | case4 c tail hblank => intro c' tail' h hc'; cases h; exact absurd hc' hblank

theorem head_dropWhile_blank (cs : List Char) :
    ∀ c ∈ (cs.dropWhile isBlank).head?, isBlank c = false := by
  intro c hc
  have hstop := List.head?_dropWhile_not isBlank cs
  rw [Option.mem_def.mp hc] at hstop
  simpa using hstop

/-- The text of a derivation is read as a line. -/
theorem read_of_derivation (d : Derivation) : ∃ line, parse (String.ofList d.chars) = .ok line :=
  ⟨d.line, parse_ok_iff.mpr (by rw [String.toList_ofList]; exact parseChars_chars d)⟩

/-- Behind a line whose operands have been read as far as possible, reading stops at what touches
the last token or at a broken operand. -/
theorem stops_behind (d : Derivation) (hd : d.trail = []) {left : List Char}
    (hleft : ∀ c tail, left = c :: tail → isBlank c = true →
      term? (tail.dropWhile isBlank) = none)
    (hne : left.dropWhile isBlank ≠ []) :
    let rest := String.ofList (left.dropWhile isBlank)
    let before := String.ofList (d.chars ++ left.takeWhile isBlank)
    Glued before rest ∨ Broken before rest := by
  intro rest before
  have hrest : rest.toList = left.dropWhile isBlank := String.toList_ofList
  have hmore : rest ≠ "" := by
    intro h
    rw [h] at hrest
    exact hne hrest.symm
  -- The blanks that are skipped become trailing blanks of the line.
  let d' := d.withTrail (left.takeWhile isBlank) (forall_takeWhile isBlank_iff left)
  have hd' : d'.chars = d.chars ++ left.takeWhile isBlank := Derivation.chars_withTrail hd _
  have hbefore : before.toList = d'.chars := by rw [hd']; exact String.toList_ofList
  have hread : ∃ line, parse before = .ok line := by
    simp only [before, ← hd']
    exact read_of_derivation d'
  have hlast := d'.last_blank_iff
  rw [← hbefore] at hlast
  by_cases hblank : left.takeWhile isBlank = []
  · refine .inl ⟨hmore, hread, fun c hc hb => ?_⟩
    exact hlast.mp ⟨c, hc, hb⟩ hblank
  · refine .inr ⟨hmore, hread, hlast.mpr hblank, ?_⟩
    rw [hrest]
    cases left with
    | nil => exact absurd rfl hblank
    | cons c tail =>
      have hc : isBlank c = true := by
        cases hc : isBlank c with
        | true => rfl
        | false => simp [hc] at hblank
      have hterm := hleft c tail rfl hc
      rw [List.dropWhile_cons_of_pos hc] at hne ⊢
      cases hstop : tail.dropWhile isBlank with
      | nil => exact absurd hstop hne
      | cons c' tail' =>
        rw [hstop] at hterm
        have hc' := head_dropWhile_blank tail c' (by rw [hstop]; rfl)
        exact broken_of_term?_none hc' hterm

theorem parseChars_error {cs rest : List Char} (h : parseChars cs = .error rest) :
    ∃ before, cs = before ++ rest ∧ (∀ c ∈ rest.head?, isBlank c = false) ∧
      (Nameless (String.ofList before) (String.ofList rest) ∨
        Glued (String.ofList before) (String.ofList rest) ∨
        Broken (String.ofList before) (String.ofList rest)) := by
  unfold parseChars at h
  by_cases hname : ∃ c tail, cs.dropWhile isBlank = c :: tail ∧ isNameStart c = true
  · obtain ⟨c, tail, hstart, hc⟩ := hname
    simp only [hstart, name?, hc, if_true] at h
    obtain ⟨d, hd, hcs, -⟩ := exists_derivation hstart hc
    have hstops := readTerms_stops (tail.dropWhile isNameChar)
    generalize (readTerms (tail.dropWhile isNameChar)).2 = left at h hcs hstops
    split at h
    · cases h
    · rename_i hne
      cases h
      refine ⟨d.chars ++ left.takeWhile isBlank, ?_, head_dropWhile_blank left,
        .inr (stops_behind d hd hstops hne)⟩
      rw [List.append_assoc, List.takeWhile_append_dropWhile]
      exact hcs
  · have hnone : name? (cs.dropWhile isBlank) = none := by
      cases hstart : cs.dropWhile isBlank with
      | nil => rfl
      | cons c tail => simpa [name?] using fun hc => hname ⟨c, tail, hstart, hc⟩
    simp only [hnone, Except.error.injEq] at h
    subst h
    refine ⟨cs.takeWhile isBlank, List.takeWhile_append_dropWhile.symm, head_dropWhile_blank cs,
      .inl ⟨?_, ?_⟩⟩
    · rw [String.toList_ofList]
      exact forall_takeWhile isBlank_iff cs
    · rw [String.toList_ofList]
      intro c hc hletter
      cases hstart : cs.dropWhile isBlank with
      | nil => rw [hstart] at hc; cases hc
      | cons c' tail =>
        rw [hstart] at hc
        cases hc
        exact hname ⟨c, tail, hstart, isNameStart_iff.mpr hletter⟩

/-- **Places.** A text that cannot be read is refused with a rest that it ends with and that begins
with no blank. The rest stands in exactly one of three places: behind the first blanks, where no
name begins; right behind a token of a line; or behind a line and blanks, where it begins like an
operand and is none. -/
theorem parse_error_place {text : String} {e : Error} (h : parse text = .error e) :
    ∃ before rest : String, e = (Cause.unreadable text rest).error ∧ text = before ++ rest ∧
      (∀ c ∈ rest.toList.head?, ¬ Blank c) ∧
      ((Nameless before rest ∧ ¬ Glued before rest ∧ ¬ Broken before rest) ∨
        (¬ Nameless before rest ∧ Glued before rest ∧ ¬ Broken before rest) ∨
        (¬ Nameless before rest ∧ ¬ Glued before rest ∧ Broken before rest)) := by
  unfold parse at h
  cases hp : parseChars text.toList with
  | ok line => rw [hp] at h; cases h
  | error rest =>
    rw [hp] at h
    obtain ⟨before, htext, hhead, hplace⟩ := parseChars_error hp
    refine ⟨String.ofList before, String.ofList rest, (Except.error.inj h).symm, ?_, ?_, ?_⟩
    · rw [← String.ofList_append, ← htext, String.ofList_toList]
    · rw [String.toList_ofList]
      intro c hc
      rw [← isBlank_iff, hhead c hc]
      exact Bool.false_ne_true
    · rcases hplace with hn | hg | hb
      · exact .inl ⟨hn, hn.not_glued, hn.not_broken⟩
      · exact .inr (.inl ⟨fun hn => hn.not_glued hg, hg, hg.not_broken⟩)
      · exact .inr (.inr ⟨fun hn => hn.not_broken hb, fun hg => hg.not_broken hb, hb⟩)

/-- A quoted text with an escape that is none, behind a word and two blanks. -/
theorem parse_error_place_badEscape :
    parse "fire_event a  \"b\\q\" c" =
        .error (Cause.unreadable "fire_event a  \"b\\q\" c" "\"b\\q\" c").error ∧
      Broken "fire_event a  " "\"b\\q\" c" := by
  have h : parse "fire_event a  \"b\\q\" c" =
      .error (Cause.unreadable "fire_event a  \"b\\q\" c" "\"b\\q\" c").error :=
    Step.except_error_of_error? (by decide +kernel)
  obtain ⟨before, rest, he, htext, -, hplace⟩ := parse_error_place h
  obtain rfl : rest = "\"b\\q\" c" := by cases he; rfl
  obtain rfl : before = "fire_event a  " := by
    have hlist : "fire_event a  \"b\\q\" c".toList = before.toList ++ "\"b\\q\" c".toList := by
      rw [htext, String.toList_append]
    exact String.toList_inj.mp (List.append_cancel_right (hlist.symm.trans rfl))
  refine ⟨h, ?_⟩
  rcases hplace with ⟨hn, -⟩ | ⟨-, hg, -⟩ | ⟨-, -, hb⟩
  · exact absurd (hn.blank 'f' (by decide)) (by simp [Blank])
  · exact absurd (.inl rfl) (hg.last ' ' (by decide))
  · exact hb

end Datapack.Line
