import Datapack.Proofs.Program.History
import Datapack.Value

/-!
# What values hold

A value reaches into its program by number. The program only gains values, so
that a number keeps its meaning (`Retains.value`), and what a value stands for
depends on its content alone (`operand_eq`).

**Soundness.** `Sound p v`: the holder of `v` belongs to its type, a string that
holds something stands for a text, a binding that holds something stands for an
event of the program, and a value of a native type holds nothing (`Suits`).
Content is only ever copied between values of one type, and nothing else puts
any into a native value.

**Results.**
* `assign_ok`: an assignment copies content between values of one type.
* `atomic_assign`: a refused assignment leaves its target alone.
* `construct_cases`: a construction assigns, too, or defines a binding.
* `Sound.assign`, `Sound.construct`: both ways to change a value keep it sound.
-/
namespace Datapack

open Step (after)

/-! ## Programs keep their values -/

namespace Program

/-- Every value, event and function of `p` is in `p'`. -/
structure Retains (p p' : Program) : Prop where
  values : p.values <+: p'.values
  registry : p.registry.Grows p'.registry

namespace Retains

variable {p p' p'' : Program}

theorem refl (p : Program) : Retains p p := ⟨List.prefix_rfl, .refl _⟩

theorem trans (h : Retains p p') (h' : Retains p' p'') : Retains p p'' :=
  ⟨h.values.trans h'.values, h.registry.trans h'.registry⟩

theorem value (h : Retains p p') {index : Nat} {o : Operand} (hv : p.value index = .ok o) :
    p'.value index = .ok o := by
  unfold Program.value at hv ⊢
  cases hi : p.values[index]? with
  | none => rw [hi] at hv; cases hv
  | some entry =>
    have hlt := (List.getElem?_eq_some_iff.mp hi).1
    obtain ⟨rest, hrest⟩ := h.values
    rw [← hrest, List.getElem?_append_left hlt, hi]
    rw [hi] at hv
    exact hv

end Retains

theorem Change.retains {p p' : Program} (h : Change p p') : Retains p p' := by
  refine ⟨?_, h.grows⟩
  cases h with
  | value entry => exact List.prefix_append _ _
  | event e entry _ _ => exact List.prefix_append _ _
  | _ => exact List.prefix_rfl

/-- Every call on a program keeps its values, a compilation and a refusal included. -/
theorem Call.retains (c : Call) (p : Program) : Retains p (after c.perform p) := by
  cases c with
  | edit e => exact (e.change p).retains
  | compile =>
    have hvalues : (after Program.compile p).values = p.values := by rw [after_compile]
    exact Step.after_returning (P := Retains p)
      ⟨hvalues ▸ List.prefix_rfl, grows_compile p⟩ fun _ _ => none
  | direct d =>
    have hvalues : (after (onRegistry d.perform) p).values = p.values := by rw [after_onRegistry]
    exact ⟨hvalues ▸ List.prefix_rfl, Call.grows (.direct d) p⟩

theorem defineText_ok {name text : String} {arguments : List Operand} {p p' : Program} {index : Nat}
    (h : defineText name text arguments p = .ok index p') :
    ∃ handle, p'.value index = .ok (.event handle) ∧ p'.registry.Holds (.event handle) := by
  obtain ⟨insn, p₁, hread, hdefine⟩ := Step.bind_ok h
  exact define_ok hdefine

end Program

/-! ## Content -/

/-- What a value with this content stands for. -/
def StringContent.operand (p : Program) : StringContent → Except Error Operand
  | .text content => .ok (.str content)
  | .dynamic index => p.value index

theorem StringContent.operand_retained {p p' : Program} (h : p.Retains p') {content : StringContent}
    {o : Operand} (ho : content.operand p = .ok o) : content.operand p' = .ok o := by
  cases content with
  | text content => exact ho
  | dynamic index => exact h.value ho

namespace Value

/-- What the value holds: a text, or the number of a value of the program. -/
def content? (v : Value) : Option StringContent :=
  match v.holder with
  | .binding _ index => index.map .dynamic
  | .native _ index => index.map .dynamic
  | .string content => content
  | .literal text => some (.text text)

/-- The value holds something. -/
def isBound (v : Value) : Bool := v.content?.isSome

theorem operand_eq (p : Program) (v : Value) :
    v.operand p = match v.content? with
      | some content => content.operand p
      | none => v.unbound := by
  obtain ⟨type, holder⟩ := v
  cases holder with
  | binding name index => cases index <;> rfl
  | native name index => cases index <;> rfl
  | literal text => rfl
  | string content =>
    cases content with
    | none => rfl
    | some content => cases content <;> rfl

theorem operand_of_content {v : Value} {content : StringContent} (h : v.content? = some content)
    (p : Program) : v.operand p = content.operand p := by
  rw [operand_eq, h]

theorem operand_unbound {v : Value} (h : v.isBound = false) (p : Program) :
    v.operand p = v.unbound := by
  rw [operand_eq, Option.isSome_eq_false_iff.mp h |> Option.isNone_iff_eq_none.mp]

/-- The holder is of the sort that the type asks for. -/
def Matches (v : Value) : Prop :=
  match v.type, v.holder with
  | .binding, .binding .. => True
  | .string, .string _ => True
  | .string, .literal _ => True
  | .native .., .native .. => True
  | _, _ => False

theorem matches_new (type : ValueType) (hint : String) : (new type hint).Matches := by
  cases type <;> trivial

theorem content?_new (type : ValueType) (hint : String) : (new type hint).content? = none := by
  cases type <;> rfl

/-! ## Assignment -/

theorem expectType_ok {t : ValueType} {v : Value} {u : Unit} (h : expectType t v = .ok u) :
    v.type = t := by
  unfold expectType at h
  split at h
  · assumption
  · cases h

/-- An assignment copies what the right side holds, which is of the same type. -/
theorem assign_ok {target right v : Value} (hr : right.Matches)
    (h : assign right target = .ok () v) :
    v.Matches ∧ v.type = target.type ∧ right.type = target.type ∧ v.content? = right.content? ∧
      right.isBound = true := by
  obtain ⟨type, holder⟩ := target
  obtain ⟨rtype, rholder⟩ := right
  unfold assign at h
  rw [Step.get_bind] at h
  cases type with
  | binding =>
    cases holder with
    | binding name index =>
      obtain ⟨_, ht, h⟩ := Step.ofExcept_bind_ok h
      obtain rfl := expectType_ok ht
      cases rholder with
      | binding rname rindex =>
        cases rindex with
        | none => cases h
        | some i => cases h; exact ⟨trivial, rfl, rfl, rfl, rfl⟩
      | _ => cases hr
    | _ => cases h
  | string =>
    cases holder with
    | string content =>
      cases rholder with
      | literal text =>
        cases h
        cases rtype with
        | string => exact ⟨trivial, rfl, rfl, rfl, rfl⟩
        | _ => cases hr
      | string rcontent =>
        obtain ⟨_, ht, h⟩ := Step.ofExcept_bind_ok h
        obtain rfl := expectType_ok ht
        cases rcontent with
        | none => cases h
        | some c => cases h; exact ⟨trivial, rfl, rfl, rfl, rfl⟩
      | _ =>
        obtain ⟨_, -, h⟩ := Step.ofExcept_bind_ok h
        cases h
    | _ => cases h
  | native name slots =>
    cases holder with
    | native hint index =>
      obtain ⟨_, ht, h⟩ := Step.ofExcept_bind_ok h
      obtain rfl := expectType_ok ht
      cases rholder with
      | native rname rindex =>
        cases rindex with
        | none => cases h
        | some i => cases h; exact ⟨trivial, rfl, rfl, rfl, rfl⟩
      | _ => cases h
    | _ => cases h

/-- Every check of an assignment comes before the target is written to. -/
theorem atomic_assign (right : Value) : Step.Atomic (assign right) := by
  refine .after_get fun target => ?_
  have hholds (holder : Holder) : Step.Atomic (hold holder) := Step.Total.atomic fun _ => rfl
  split
  · exact .after_ofExcept fun _ => .after_ofExcept fun _ => hholds _
  · split
    · exact hholds _
    · refine .after_ofExcept fun _ => ?_
      split
      · exact hholds _
      · exact .ofExcept _
  · refine .after_ofExcept fun _ => ?_
    split
    · exact hholds _
    · exact .ofExcept _
  · exact .ofExcept _

/-! ## Soundness -/

/-- The operands that a value of a type may stand for in `p`: none for a native type. -/
def Suits (p : Program) : ValueType → Operand → Prop
  | .binding, .event handle => p.registry.Holds (.event handle)
  | .string, .str _ => True
  | _, _ => False

theorem Suits.retained {p p' : Program} (h : p.Retains p') {type : ValueType} {o : Operand}
    (ho : Suits p type o) : Suits p' type o := by
  cases type with
  | binding =>
    cases o with
    | event handle => exact Registry.Holds.mono (o := .event handle) h.registry ho
    | _ => cases ho
  | string =>
    cases o with
    | str text => trivial
    | _ => cases ho
  | native name slots => cases ho

/-- What a value holds suits its type. -/
structure Sound (p : Program) (v : Value) : Prop where
  holder : v.Matches
  content : ∀ content, v.content? = some content → ∃ o, content.operand p = .ok o ∧ Suits p v.type o

namespace Sound

variable {p p' : Program} {v target right : Value}

theorem new (type : ValueType) (hint : String) : Sound p (Value.new type hint) := by
  refine ⟨matches_new type hint, fun content h => ?_⟩
  rw [content?_new] at h
  cases h

theorem literal (text : String) : Sound p (Value.literal text) := by
  refine ⟨trivial, fun content h => ?_⟩
  cases h
  exact ⟨.str text, rfl, trivial⟩

theorem dynamicString {index : Nat} (h : Value.dynamicString p index = .ok v) : Sound p v := by
  obtain ⟨o, hvalue, h⟩ := Step.except_bind_ok.mp h
  cases o with
  | str text =>
    cases h
    refine ⟨trivial, fun content hc => ?_⟩
    cases hc
    exact ⟨.str text, hvalue, trivial⟩
  | _ => cases h

theorem retained (hv : Sound p v) (h : p.Retains p') : Sound p' v := by
  refine ⟨hv.holder, fun content hc => ?_⟩
  obtain ⟨o, ho, hs⟩ := hv.content content hc
  exact ⟨o, StringContent.operand_retained h ho, hs.retained h⟩

/-- A value of a native type never holds anything: there is nothing that it could stand for. -/
theorem native (hv : Sound p v) {name : String} {slots : Nat} (ht : v.type = .native name slots) :
    v.isBound = false := by
  unfold isBound
  cases hc : v.content? with
  | none => rfl
  | some content =>
    obtain ⟨o, -, hs⟩ := hv.content content hc
    rw [ht] at hs
    cases hs

theorem assign_ok (hr : Sound p right) (h : Value.assign right target = .ok () v) :
    Sound p v := by
  obtain ⟨hm, ht, hrt, hc, -⟩ := Value.assign_ok hr.holder h
  refine ⟨hm, fun content hv => ?_⟩
  obtain ⟨o, ho, hs⟩ := hr.content content (hc ▸ hv)
  exact ⟨o, ho, ht ▸ hrt ▸ hs⟩

theorem assign (ht : Sound p target) (hr : Sound p right) :
    Sound p (after (Value.assign right) target) := by
  cases h : Value.assign right target with
  | ok u v =>
    rw [Step.after_of_ok h]
    exact hr.assign_ok h
  | error e v =>
    rw [Step.after_of_error h, atomic_assign right _ _ _ h]
    exact ht

/-- Nothing can be assigned to a native value: only another one would do, and that is empty. -/
theorem assign_native (hr : Sound p right) {name : String} {slots : Nat}
    (ht : target.type = .native name slots) : Value.assign right target ≠ .ok () v := by
  intro h
  obtain ⟨-, -, hrt, -, hbound⟩ := Value.assign_ok hr.holder h
  rw [hr.native (hrt.trans ht)] at hbound
  cases hbound

end Sound

/-! ## Construction -/

open Construction (onProgram onTarget)

/-- A value that has been bound to a number of the program. -/
def bound (name : String) (index : Nat) : Value := ⟨.binding, .binding name (some index)⟩

/-- Defines a line in the program and binds the target to what it yields. -/
def defineBinding (name text : String) (arguments : List Operand) : Step Construction Unit := do
  let index ← onProgram (Program.defineText name text arguments)
  onTarget (hold (.binding name (some index)))

/-- The copy of a binding makes the checks of an assignment. -/
theorem constructBinding_copy {c : Construction} (ht : c.target.type = .binding) {first : Value}
    (hf : first.type ≠ .string) :
    constructBinding first [] c = onTarget (assign first) c := by
  obtain ⟨p, ⟨type, holder⟩⟩ := c
  obtain rfl : type = .binding := ht
  unfold constructBinding
  rw [Step.get_bind]
  cases holder with
  | binding name index =>
    simp only [if_neg hf]
    unfold onTarget assign
    cases expectType .binding first <;> cases first.boundIndex <;> rfl
  | _ => rfl

theorem constructBinding_cases {c : Construction} (ht : c.target.type = .binding) (first : Value)
    (rest : List Value) :
    (∃ e, constructBinding first rest c = .error e c) ∨
    (∃ right ∈ first :: rest, constructBinding first rest c = onTarget (assign right) c) ∨
    ∃ name text arguments,
      constructBinding first rest c = defineBinding name text arguments c := by
  by_cases hcopy : first.type ≠ .string ∧ rest = []
  · obtain ⟨hf, rfl⟩ := hcopy
    exact .inr (.inl ⟨first, List.mem_cons_self, constructBinding_copy ht hf⟩)
  obtain ⟨p, ⟨type, holder⟩⟩ := c
  obtain rfl : type = .binding := ht
  unfold constructBinding
  rw [Step.get_bind]
  cases holder with
  | binding name index =>
    by_cases hs : first.type = .string
    · simp only [if_pos hs]
      cases hf : first.holder with
      | literal text =>
        simp only [Step.ofExcept_bind]
        cases rest.mapM (operand p) with
        | error e => exact .inl ⟨e, rfl⟩
        | ok arguments => exact .inr (.inr ⟨name, text, arguments, rfl⟩)
      | _ => exact .inl ⟨_, rfl⟩
    · cases rest with
      | nil => exact absurd ⟨hs, rfl⟩ hcopy
      | cons second rest =>
        simp only [if_neg hs]
        exact .inl ⟨_, rfl⟩
  | _ => exact .inl ⟨_, rfl⟩

/-- A construction is refused at once, or it leaves the target as it is, or it assigns one of its
arguments; only a binding can also be defined from a line. -/
theorem construct_cases (args : List Value) (c : Construction) :
    (∃ e, construct args c = .error e c) ∨ construct args c = .ok () c ∨
    (∃ right ∈ args, construct args c = onTarget (assign right) c) ∨
    (c.target.type = .binding ∧ ∃ name text arguments,
      construct args c = defineBinding name text arguments c) := by
  unfold construct
  rw [Step.get_bind]
  cases ht : c.target.type with
  | binding =>
    cases args with
    | nil => exact .inl ⟨_, rfl⟩
    | cons first rest =>
      rcases constructBinding_cases ht first rest with he | hc | hd
      · exact .inl he
      · exact .inr (.inr (.inl hc))
      · exact .inr (.inr (.inr ⟨rfl, hd⟩))
  | _ =>
    cases args with
    | nil => exact .inr (.inl rfl)
    | cons first rest =>
      cases rest with
      | nil => exact .inr (.inr (.inl ⟨first, List.mem_cons_self, rfl⟩))
      | cons second rest => exact .inl ⟨_, rfl⟩

/-- What a definition of a binding leaves behind: it was refused in the program, or the target is
bound to a value there. -/
theorem after_defineBinding (name text : String) (arguments : List Operand) (c : Construction) :
    (∃ e p, Program.defineText name text arguments c.program = .error e p ∧
      after (defineBinding name text arguments) c = ⟨p, c.target⟩) ∨
    ∃ index p, Program.defineText name text arguments c.program = .ok index p ∧
      after (defineBinding name text arguments) c =
        ⟨p, { c.target with holder := .binding name (some index) }⟩ := by
  unfold defineBinding
  cases hd : Program.defineText name text arguments c.program with
  | error e p =>
    have herror : onProgram (Program.defineText name text arguments) c =
        .error e { c with program := p } := Step.onPart_of_error hd
    exact .inl ⟨e, p, rfl, Step.after_of_error (Step.bind_of_error herror)⟩
  | ok index p =>
    have hok : onProgram (Program.defineText name text arguments) c =
        .ok index { c with program := p } := Step.onPart_of_ok hd
    exact .inr ⟨index, p, rfl, Step.after_bind_of_ok hok⟩

/-- A construction does to the program what a definition can do. -/
theorem change_construct (args : List Value) (c : Construction) :
    Program.Change c.program (after (construct args) c).program := by
  rcases construct_cases args c with ⟨e, hr⟩ | hr | ⟨right, -, hr⟩ | ⟨-, name, text, arguments, hr⟩
  · rw [Step.after_of_error hr]
    exact .nothing
  · rw [Step.after_of_ok hr]
    exact .nothing
  · rw [Step.after_congr hr, onTarget, Step.after_onPart]
    exact .nothing
  · have hchange := Program.change_defineText name text arguments c.program
    rw [Step.after_congr hr]
    rcases after_defineBinding name text arguments c with ⟨e, p, hd, ha⟩ | ⟨index, p, hd, ha⟩
    · rw [ha]
      rwa [Step.after_of_error hd] at hchange
    · rw [ha]
      rwa [Step.after_of_ok hd] at hchange

theorem Sound.construct {c : Construction} {args : List Value} (ht : Sound c.program c.target)
    (ha : ∀ a ∈ args, Sound c.program a) :
    Sound (after (Value.construct args) c).program (after (Value.construct args) c).target := by
  have hretains := (change_construct args c).retains
  rcases construct_cases args c with
    ⟨e, hr⟩ | hr | ⟨right, hright, hr⟩ | ⟨hb, name, text, arguments, hr⟩
  · rw [Step.after_of_error hr]
    exact ht
  · rw [Step.after_of_ok hr]
    exact ht
  · rw [Step.after_congr hr, onTarget, Step.after_onPart]
    exact ht.assign (ha right hright)
  · rw [Step.after_congr hr] at hretains ⊢
    rcases after_defineBinding name text arguments c with ⟨e, p, hd, ha⟩ | ⟨index, p, hd, ha⟩
    · rw [ha] at hretains ⊢
      exact ht.retained hretains
    · rw [ha]
      obtain ⟨handle, hvalue, hholds⟩ := Program.defineText_ok hd
      obtain ⟨program, ⟨type, holder⟩⟩ := c
      obtain rfl : type = .binding := hb
      refine ⟨trivial, fun content hc => ?_⟩
      cases hc
      exact ⟨.event handle, hvalue, hholds⟩

/-- Unless a binding would be made from a string, constructing from one value is assigning it. -/
theorem construct_one {c : Construction} {right : Value}
    (h : ¬ (c.target.type = .binding ∧ right.type = .string)) :
    construct [right] c = onTarget (assign right) c := by
  unfold construct
  rw [Step.get_bind]
  cases ht : c.target.type with
  | binding => exact constructBinding_copy ht fun hr => h ⟨ht, hr⟩
  | _ => rfl

end Value

end Datapack
