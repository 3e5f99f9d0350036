import Datapack.Scope.Basic
import Datapack.Proofs.Layout.Places
import Datapack.Proofs.Text

/-!
# Filling templates

A template is a text with slots, and its arguments are texts as well: any of
them may hold braces, alone or as what looks like a slot. Filling puts the
arguments into the slots of the template, and nothing else is ever taken for a
slot.

**Cuts.** `Cut template` writes the template as pieces with a slot between each
two, where no piece holds a slot. There is exactly one cut, and `pieces` finds
it: `pieces_intercalate` reads it back from the template. A slot cannot overlap
another, so a slot that is found anywhere in the template divides its pieces
into those before and those behind it (`pieces_append_slot`); none is left over.

**Two scans.** `scanned` counts the slots first, and then looks for the next slot
argument by argument, where it might find none and drop the argument. After the
count it never does (`foldl_fillNext`), since every slot that is found ends one
piece (`pieces_eq_firstSlot?`).

**Result.** `fill_substitutes`: filling succeeds for as many arguments as there
are slots and for no other number, and the text is the cut with the arguments in
the place of the slots. The objective keeps the last sixteen characters of this
text behind the namespace.
-/
namespace Datapack

namespace Template

/-! ## Cutting at the slots -/

def slot : String := "\x7b\x7d"

/-- No slot stands anywhere in the text. -/
def Bare (cs : List Char) : Prop := ¬ slot.toList <:+: cs

instance (cs : List Char) : Decidable (Bare cs) := inferInstanceAs (Decidable (¬ _))

theorem bare_cons {c : Char} {cs : List Char} :
    Bare (c :: cs) ↔ ¬ slot.toList <+: c :: cs ∧ Bare cs := by
  unfold Bare
  rw [List.infix_cons_iff, not_or]

/-- A text is read from the left, a slot at a time where one begins and else a character. -/
@[elab_as_elim]
theorem slot_induction {motive : List Char → Prop} (nil : motive [])
    (slot : ∀ cs, motive cs → motive (slot.toList ++ cs))
    (cons : ∀ c cs, ¬ Template.slot.toList <+: c :: cs → motive cs → motive (c :: cs))
    (cs : List Char) : motive cs := by
  fun_induction pieces cs with
  | case1 => exact nil
  | case2 cs ih => exact slot cs ih
  | case3 c cs hstart ih =>
    refine cons c cs ?_ ih
    rintro ⟨rest, hrest⟩
    cases hrest
    exact hstart rest rfl rfl

theorem pieces_slot (cs : List Char) : pieces (slot.toList ++ cs) = [] :: pieces cs := rfl

theorem pieces_cons {c : Char} {cs : List Char} (h : ¬ slot.toList <+: c :: cs) :
    pieces (c :: cs) = Text.consFirst c (pieces cs) := by
  rw [pieces]
  rintro rest rfl rfl
  exact h ⟨rest, rfl⟩

theorem exists_pieces (cs : List Char) : ∃ first others, pieces cs = first :: others := by
  induction cs using slot_induction with
  | nil => exact ⟨_, _, rfl⟩
  | slot cs ih => exact ⟨_, _, pieces_slot cs⟩
  | cons c cs hstart ih =>
    obtain ⟨first, others, h⟩ := ih
    exact ⟨c :: first, others, by rw [pieces_cons hstart, h, Text.consFirst]⟩

theorem intercalate_pieces (cs : List Char) : slot.toList.intercalate (pieces cs) = cs := by
  induction cs using slot_induction with
  | nil => rfl
  | slot cs ih =>
    obtain ⟨first, others, h⟩ := exists_pieces cs
    rw [pieces_slot, h, List.intercalate_cons_cons, ← h, ih]
    rfl
  | cons c cs hstart ih =>
    obtain ⟨first, others, h⟩ := exists_pieces cs
    rw [h] at ih
    rw [pieces_cons hstart, h, Text.consFirst]
    cases others <;> simpa using ih

/-- The first piece is where the text begins. -/
theorem first_isPrefix {cs first : List Char} {others : List (List Char)}
    (h : pieces cs = first :: others) : first <+: cs := by
  have hjoin := intercalate_pieces cs
  rw [h] at hjoin
  cases others with
  | nil => exact ⟨[], by simpa using hjoin⟩
  | cons other others =>
    rw [List.intercalate_cons_cons, List.append_assoc] at hjoin
    exact ⟨_, hjoin⟩

theorem bare_of_mem_pieces {cs : List Char} : ∀ piece ∈ pieces cs, Bare piece := by
  induction cs using slot_induction with
  | nil => simp [pieces, Bare, slot]
  | slot cs ih =>
    rw [pieces_slot, List.forall_mem_cons]
    exact ⟨by simp [Bare, slot], ih⟩
  | cons c cs hstart ih =>
    obtain ⟨first, others, h⟩ := exists_pieces cs
    rw [h, List.forall_mem_cons] at ih
    rw [pieces_cons hstart, h, Text.consFirst, List.forall_mem_cons]
    -- A slot at the front of the first piece would be one at the front of the text.
    refine ⟨bare_cons.mpr ⟨fun hslot => hstart ?_, ih.1⟩, ih.2⟩
    exact hslot.trans (List.cons_prefix_cons.mpr ⟨rfl, first_isPrefix h⟩)

/-- A slot divides the pieces of a text, wherever it stands: no slot begins inside another. -/
theorem pieces_append_slot (front back : List Char) :
    pieces (front ++ slot.toList ++ back) = pieces front ++ pieces back := by
  induction front using slot_induction with
  | nil => rfl
  | slot cs ih =>
    rw [List.append_assoc, List.append_assoc, pieces_slot, ← List.append_assoc, ih, pieces_slot,
      List.cons_append]
  | cons c cs hstart ih =>
    -- Behind `c` comes what came there before, or else an opening brace.
    have hstart' : ¬ slot.toList <+: c :: (cs ++ slot.toList ++ back) := by
      cases cs with
      | nil => simp [slot]
      | cons d cs => simpa [slot] using hstart
    obtain ⟨first, others, h⟩ := exists_pieces cs
    rw [List.cons_append, List.cons_append, pieces_cons hstart', ih, pieces_cons hstart, h]
    rfl

theorem pieces_of_bare {cs : List Char} (h : Bare cs) : pieces cs = [cs] := by
  induction cs with
  | nil => rfl
  | cons c cs ih =>
    obtain ⟨hstart, hcs⟩ := bare_cons.mp h
    rw [pieces_cons hstart, ih hcs, Text.consFirst]

theorem pieces_intercalate {first : List Char} {others : List (List Char)}
    (h : ∀ piece ∈ first :: others, Bare piece) :
    pieces (slot.toList.intercalate (first :: others)) = first :: others := by
  induction others generalizing first with
  | nil => rw [List.intercalate_singleton, pieces_of_bare (h first List.mem_cons_self)]
  | cons other others ih =>
    obtain ⟨hfirst, hothers⟩ := List.forall_mem_cons.mp h
    rw [List.intercalate_cons_cons, pieces_append_slot, pieces_of_bare hfirst, ih hothers]
    rfl

/-! ## The cut of a template -/

/-- A template as pieces with a slot between each two. -/
structure Cut (template : String) where
  first : String
  others : List String
  joined : slot.intercalate (first :: others) = template
  bare : ∀ piece ∈ first :: others, Bare piece.toList

namespace Cut

variable {template : String}

/-- What stands before the slot with `i` slots before it. -/
def upTo (cut : Cut template) (i : Nat) : String :=
  slot.intercalate ((cut.first :: cut.others).take (i + 1))

/-- The pieces with an argument in the place of each slot. -/
def filled (cut : Cut template) (args : List String) : String :=
  cut.first ++ String.join (List.zipWith (· ++ ·) args cut.others)

theorem pieces_eq (cut : Cut template) :
    pieces template.toList = (cut.first :: cut.others).map String.toList := by
  have hbare : ∀ piece ∈ (cut.first :: cut.others).map String.toList, Bare piece :=
    List.forall_mem_map.mpr cut.bare
  have hread := pieces_intercalate hbare
  rw [← List.map_cons, ← String.toList_intercalate, cut.joined] at hread
  exact hread

theorem exists_cut (template : String) : Nonempty (Cut template) := by
  obtain ⟨first, others, h⟩ := exists_pieces template.toList
  have hback : (String.ofList first :: others.map String.ofList).map String.toList =
      pieces template.toList := by
    simp [h]
  refine ⟨⟨String.ofList first, others.map String.ofList, ?_, ?_⟩⟩
  · rw [← String.toList_inj, String.toList_intercalate, hback, intercalate_pieces]
  · rw [← List.forall_mem_map, hback]
    exact bare_of_mem_pieces

theorem eq_of_template (cut other : Cut template) : other = cut := by
  have hpieces : other.first :: other.others = cut.first :: cut.others :=
    (List.map_inj_right fun _ _ => String.toList_inj.mp).mp
      (other.pieces_eq.symm.trans cut.pieces_eq)
  cases cut
  cases other
  cases hpieces
  rfl

/-- Cuts of what stands before and behind a slot are together a cut of the whole. -/
def append {front back : String} (before : Cut front) (behind : Cut back) :
    Cut (front ++ slot ++ back) where
  first := before.first
  others := before.others ++ behind.first :: behind.others
  joined := by
    rw [← List.cons_append, String.intercalate_append_of_ne_nil (by simp) (by simp),
      before.joined, behind.joined]
  bare := by
    rw [← List.cons_append]
    exact List.forall_mem_append.mpr ⟨before.bare, behind.bare⟩

/-- Every slot that stands in a template is a slot of its cut. -/
theorem slot_of_occurrence (cut : Cut template) {front back : String}
    (h : template = front ++ slot ++ back) : ∃ i < cut.others.length, front = cut.upTo i := by
  subst h
  obtain ⟨before⟩ := exists_cut front
  obtain ⟨behind⟩ := exists_cut back
  obtain rfl : before.append behind = cut := eq_of_template cut _
  refine ⟨before.others.length, by simp [append], ?_⟩
  have htake : (before.first :: (before.others ++ behind.first :: behind.others)).take
      (before.others.length + 1) = before.first :: before.others := by
    simp
  rw [upTo, append, htake, before.joined]

/-! ## Filling -/

theorem slots_eq (cut : Cut template) : slots template = cut.others.length := by
  rw [slots, cut.pieces_eq, List.length_map, List.length_cons, Nat.add_sub_cancel]

theorem interleave_map (first : String) {others args : List String}
    (h : args.length = others.length) :
    interleave ((first :: others).map String.toList) args =
      (first ++ String.join (List.zipWith (· ++ ·) args others)).toList := by
  induction args generalizing first others with
  | nil =>
    obtain rfl : others = [] := List.length_eq_zero_iff.mp h.symm
    simp [interleave]
  | cons arg args ih =>
    cases others with
    | nil => cases h
    | cons other others =>
      rw [List.map_cons, interleave, ih other (Nat.succ.inj h)]
      simp

theorem fill_eq (cut : Cut template) (name : String) (options : List (List String))
    (args : List String) :
    VariableEntry.fill name (.templated template options) args =
      if args.length = cut.others.length then .ok (cut.filled args)
      else .error (Cause.arityMismatch name (.exactly cut.others.length) args.length).error := by
  by_cases h : args.length = cut.others.length
  · have hfill : fill? template args = some (cut.filled args) := by
      rw [fill?, if_pos (cut.slots_eq.trans h.symm), cut.pieces_eq, interleave_map _ h,
        String.ofList_toList]
      rfl
    rw [if_pos h, VariableEntry.fill]
    simp only [hfill]
  · have hfill : fill? template args = none := by
      rw [fill?, if_neg fun e => h (e.symm.trans cut.slots_eq)]
    rw [if_neg h, VariableEntry.fill]
    simp only [hfill, VariableEntry.arity, cut.slots_eq]

end Cut

/-! ## Two scans -/

/-- What stands before and behind the first slot. -/
def firstSlot? : List Char → Option (List Char × List Char)
  | [] => none
  | c :: cs =>
    if slot.toList <+: c :: cs then some ([], (c :: cs).drop slot.length)
    else (firstSlot? cs).map fun (front, back) => (c :: front, back)

/-- The first slot ends the first piece. -/
theorem pieces_eq_firstSlot? (cs : List Char) :
    pieces cs = match firstSlot? cs with
      | none => [cs]
      | some (front, back) => front :: pieces back := by
  induction cs using slot_induction with
  | nil => rfl
  | slot cs ih => rfl
  | cons c cs hstart ih =>
    rw [pieces_cons hstart, ih, firstSlot?, if_neg hstart]
    cases firstSlot? cs <;> rfl

/-- How many slots are found when each is looked for behind the one before it. -/
def countSlots (cs : List Char) : Nat :=
  match h : firstSlot? cs with
  | none => 0
  | some (_, back) => countSlots back + 1
termination_by (pieces cs).length
decreasing_by simp [pieces_eq_firstSlot? cs, h]

theorem countSlots_eq (cs : List Char) : (pieces cs).length = countSlots cs + 1 := by
  fun_induction countSlots cs with
  | case1 cs h => rw [pieces_eq_firstSlot?, h, List.length_singleton]
  | case2 cs front back h ih => simp only [pieces_eq_firstSlot? cs, h, List.length_cons, ih]

/-- Puts an argument into the first slot of what is left of the template, and goes on behind it. An
argument for which there is no slot is dropped. -/
def fillNext : List Char × List Char → String → List Char × List Char
  | (filled, rest), arg =>
    match firstSlot? rest with
    | none => (filled, rest)
    | some (front, back) => (filled ++ front ++ arg.toList, back)

/-- Filling in two scans, the first of which only counts the slots. -/
def scanned (name template : String) (args : List String) : Except Error String :=
  let slots := countSlots template.toList
  if slots ≠ args.length then
    .error (Cause.arityMismatch name (.exactly slots) args.length).error
  else
    let (filled, rest) := args.foldl fillNext ([], template.toList)
    .ok (String.ofList (filled ++ rest))

/-- When there are as many arguments as slots, none is dropped, and no slot is left over. -/
theorem foldl_fillNext {args : List String} {filled rest : List Char}
    (h : (pieces rest).length = args.length + 1) :
    (args.foldl fillNext (filled, rest)).1 ++ (args.foldl fillNext (filled, rest)).2 =
      filled ++ interleave (pieces rest) args := by
  induction args generalizing filled rest with
  | nil =>
    cases hslot : firstSlot? rest with
    | none => simp [pieces_eq_firstSlot? rest, hslot, interleave]
    | some found =>
      rw [pieces_eq_firstSlot?, hslot, List.length_cons, countSlots_eq] at h
      cases h
  | cons arg args ih =>
    cases hslot : firstSlot? rest with
    | none =>
      rw [pieces_eq_firstSlot?, hslot] at h
      cases h
    | some found =>
      obtain ⟨front, back⟩ := found
      have hpieces : pieces rest = front :: pieces back := by rw [pieces_eq_firstSlot?, hslot]
      have hstep : fillNext (filled, rest) arg = (filled ++ front ++ arg.toList, back) := by
        rw [fillNext, hslot]
      rw [hpieces] at h
      rw [List.foldl_cons, hstep, ih (Nat.succ.inj h), hpieces, interleave]
      simp only [List.append_assoc]

theorem slots_eq_countSlots (template : String) : slots template = countSlots template.toList := by
  rw [slots, countSlots_eq, Nat.add_sub_cancel]

theorem scanned_eq (name template : String) (options : List (List String)) (args : List String) :
    scanned name template args = VariableEntry.fill name (.templated template options) args := by
  unfold scanned VariableEntry.fill
  simp only [fill?, VariableEntry.arity, slots_eq_countSlots]
  by_cases h : countSlots template.toList = args.length
  · have hlength : (pieces template.toList).length = args.length + 1 := by rw [countSlots_eq, h]
    simp only [h, ne_eq, not_true_eq_false, if_false, if_true, foldl_fillNext hlength,
      List.nil_append]
  · simp only [h, ne_eq, not_false_eq_true, if_true, if_false]

/-- **Filling is substitution.** A template is cut at its slots in exactly one way, and wherever a
slot stands in it, there is a slot of the cut. Filling succeeds exactly for as many arguments as
there are slots; the text is then the cut with each argument in the place of its slot, whatever the
arguments hold. Counting the slots in one scan and filling them in another comes to the same, with
the same refusal. The objective of the variable is the end of the namespace, a `_` and this text:
the last sixteen characters, or all if there are fewer. -/
theorem fill_substitutes (template : String) :
    ∃ cut : Cut template, (∀ other : Cut template, other = cut) ∧
      (∀ front back : String, template = front ++ slot ++ back →
        ∃ i < cut.others.length, front = cut.upTo i) ∧
      ∀ (name : String) (options : List (List String)) (args : List String),
        VariableEntry.fill name (.templated template options) args =
          (if args.length = cut.others.length then .ok (cut.filled args)
          else .error (Cause.arityMismatch name (.exactly cut.others.length) args.length).error) ∧
        scanned name template args =
          VariableEntry.fill name (.templated template options) args ∧
        ∀ s : Scope, s.vars.get? name = some (.templated template options) →
          args.length = cut.others.length →
          ∃ n : String, s.objective name args = .ok n ∧
            n.toList <:+ (s.ns ++ "_" ++ cut.filled args).toList ∧
            n.length = min 16 (s.ns ++ "_" ++ cut.filled args).length := by
  obtain ⟨cut⟩ := Cut.exists_cut template
  refine ⟨cut, cut.eq_of_template, fun _ _ => cut.slot_of_occurrence, ?_⟩
  intro name options args
  refine ⟨cut.fill_eq name options args, scanned_eq name template options args, ?_⟩
  intro s hvar hargs
  have hfill := cut.fill_eq name options args
  rw [if_pos hargs] at hfill
  refine ⟨trim (s.qualify (cut.filled args)), ?_, ?_, ?_⟩
  · rw [Scope.objective, Scope.fullVariable, hvar]
    simp only [hfill, Except.map]
  · exact Text.lastChars_isSuffix _ _
  · exact Text.length_lastChars_eq _ _

/-- Braces on all sides: a slot between braces of the template, an argument that looks like a slot,
and one that makes a slot with the brace behind it. -/
theorem fill_substitutes_braces :
    ∃ (cut : Cut "a\x7b\x7b\x7d\x7d\x7b\x7d\x7d") (s : Scope),
      (∃ i < 2, "a\x7b\x7b\x7d\x7d" = cut.upTo i) ∧
      cut.filled ["\x7b\x7d", "\x7b"] = "a\x7b\x7b\x7d\x7d\x7b\x7d" ∧
      s.ns = "namespace" ∧
      s.vars.get? "pair" = some (.templated "a\x7b\x7b\x7d\x7d\x7b\x7d\x7d" []) ∧
      s.objective "pair" ["\x7b\x7d", "\x7b"] = .ok "amespace_a\x7b\x7b\x7d\x7d\x7b\x7d" := by
  let template := "a\x7b\x7b\x7d\x7d\x7b\x7d\x7d"
  let s : Scope := {
    ns := "namespace"
    entityTag := "namespace_etag"
    home := .site
    vars := (∅ : Table String VariableEntry).insert "pair" (.templated template []) }
  let braces : Cut template := {
    first := "a\x7b"
    others := ["\x7d", "\x7d"]
    joined := by decide +kernel
    bare := by decide +kernel }
  obtain ⟨cut, hunique, hslots, hfill⟩ := fill_substitutes template
  obtain rfl : braces = cut := hunique braces
  have hvar : s.vars.get? "pair" = some (.templated template []) := by decide +kernel
  obtain ⟨n, hn, hend, hlength⟩ := (hfill "pair" [] ["\x7b\x7d", "\x7b"]).2.2 s hvar rfl
  have hfilled : braces.filled ["\x7b\x7d", "\x7b"] = "a\x7b\x7b\x7d\x7d\x7b\x7d" := by
    decide +kernel
  have hname : n = "amespace_a\x7b\x7b\x7d\x7d\x7b\x7d" := by
    rw [hfilled] at hend hlength
    rw [List.suffix_iff_eq_drop, String.length_toList, String.length_toList, hlength] at hend
    exact String.toList_inj.mp (hend.trans (by decide +kernel))
  have hslot := hslots "a\x7b\x7b\x7d\x7d" "\x7d" (by decide +kernel)
  exact ⟨braces, s, hslot, hfilled, rfl, hvar, hname ▸ hn⟩

end Template

end Datapack
