import Datapack.Proofs.Value.FrontEnd

/-!
# Copies of values

A value takes over what another one holds, by assignment or by construction from
it alone. Each type has its own checks for this, and the construction of a binding
makes them in code of its own.

**Assignment.** One value can be assigned to another exactly when the types are
equal, the right side holds something and the left side is not an operand
(`assign_isOk_iff`). What the left side held before does not matter
(`assign_again`).

**Construction.** Construction from one value is assignment (`construct_one`), but for
a binding that is constructed from a string, which is the line of an instruction then.
-/
namespace Datapack

namespace Value

variable {target right v : Value}

/-- The value is a text that was written as an operand. -/
def IsOperand (v : Value) : Prop := ∃ text, v.holder = .literal text

/-! ## Assignment -/

theorem not_isOperand_of_assign (h : assign right target = .ok () v) : ¬ target.IsOperand := by
  rintro ⟨text, ht⟩
  obtain ⟨type, holder⟩ := target
  obtain rfl : holder = .literal text := ht
  cases type <;> cases h

theorem expectType_self (t : ValueType) (holder : Holder) : expectType t ⟨t, holder⟩ = .ok () :=
  if_pos rfl

theorem assign_isOk (hl : target.Matches) (ho : ¬ target.IsOperand) (hr : right.Matches)
    (ht : target.type = right.type) (hb : right.isBound = true) :
    ∃ v, assign right target = .ok () v := by
  obtain ⟨type, holder⟩ := target
  obtain ⟨rtype, rholder⟩ := right
  obtain rfl : type = rtype := ht
  cases type with
  | binding =>
    cases holder with
    | binding name index =>
      cases rholder with
      | binding rname rindex =>
        cases rindex with
        | none => cases hb
        | some i => exact ⟨_, rfl⟩
      | _ => cases hr
    | _ => cases hl
  | string =>
    cases holder with
    | string content =>
      cases rholder with
      | literal text => exact ⟨_, rfl⟩
      | string rcontent =>
        cases rcontent with
        | none => cases hb
        | some c => exact ⟨_, rfl⟩
      | _ => cases hr
    | literal text => exact absurd ⟨text, rfl⟩ ho
    | _ => cases hl
  | native name slots =>
    cases holder with
    | native hint index =>
      cases rholder with
      | native rname rindex =>
        cases rindex with
        | none => cases hb
        | some i =>
          unfold assign
          rw [Step.get_bind]
          simp only [expectType_self]
          exact ⟨_, rfl⟩
      | _ => cases hr
    | _ => cases hl

theorem assign_isOk_iff (hl : target.Matches) (hr : right.Matches) :
    (∃ v, assign right target = .ok () v) ↔
      ¬ target.IsOperand ∧ target.type = right.type ∧ right.isBound = true := by
  constructor
  · rintro ⟨v, h⟩
    obtain ⟨-, -, ht, -, hb⟩ := assign_ok hr h
    exact ⟨not_isOperand_of_assign h, ht.symm, hb⟩
  · rintro ⟨ho, ht, hb⟩
    exact assign_isOk hl ho hr ht hb

/-- An assignment does not look at what the target holds. -/
theorem assign_again (h : assign right target = .ok () v) : assign right v = .ok () v := by
  obtain ⟨type, holder⟩ := target
  unfold assign at h
  rw [Step.get_bind] at h
  cases type with
  | binding =>
    cases holder with
    | binding name index =>
      obtain ⟨_, ht, h⟩ := Step.ofExcept_bind_ok h
      obtain ⟨i, hi, h⟩ := Step.ofExcept_bind_ok h
      cases h
      unfold assign
      simp only [Step.get_bind, ht, hi]
      rfl
    | _ => cases h
  | string =>
    cases holder with
    | string content =>
      obtain ⟨rtype, rholder⟩ := right
      cases rholder with
      | literal text => cases h; rfl
      | string rcontent =>
        obtain ⟨_, ht, h⟩ := Step.ofExcept_bind_ok h
        cases rcontent with
        | none => cases h
        | some c =>
          cases h
          unfold assign
          simp only [Step.get_bind, ht]
          rfl
      | _ =>
        obtain ⟨_, -, h⟩ := Step.ofExcept_bind_ok h
        cases h
    | _ => cases h
  | native name slots =>
    cases holder with
    | native hint index =>
      obtain ⟨_, ht, h⟩ := Step.ofExcept_bind_ok h
      obtain ⟨rtype, rholder⟩ := right
      cases rholder with
      | native rname rindex =>
        cases rindex with
        | none => cases h
        | some i =>
          cases h
          unfold assign
          simp only [Step.get_bind, ht]
          rfl
      | _ => cases h
    | _ => cases h

/-- After an assignment, both sides stand for the same in every program. -/
theorem operand_of_assign (hr : right.Matches) (h : assign right target = .ok () v) (p : Program) :
    v.operand p = right.operand p := by
  obtain ⟨-, -, -, hc, hb⟩ := assign_ok hr h
  obtain ⟨content, hcontent⟩ := Option.isSome_iff_exists.mp hb
  rw [operand_of_content hcontent, operand_of_content (hc.trans hcontent)]

end Value

namespace FrontEnd

/-- In the pool, too, constructing from one value is assigning it. -/
theorem construct_one {s : FrontEnd} {i j : Nat} {l r : Value} (hl : s.values[i]? = some l)
    (hr : s.values[j]? = some r) (h : ¬ (l.type = .binding ∧ r.type = .string)) :
    FrontEnd.construct i [j] s = FrontEnd.assign i j s := by
  unfold FrontEnd.construct FrontEnd.assign
  rw [Step.get_bind, Step.get_bind]
  simp only [hr, List.filterMap_cons, List.filterMap_nil]
  rw [onValue_of_some _ hl, onValue_of_some _ hl]
  unfold Step.onPart
  rw [Value.construct_one h]

/-- Take any two values of the pool, at any time of any run. One can be assigned to the other
exactly when it is not an operand, the types are equal and the other holds something. Then it keeps
its type and stands for what the other one stands for, and assigning again changes nothing. Unless a
binding would be made from a string, constructing the one from the other does the same, with the
same error and without a change to the program. -/
theorem copies_agree (calls : List Call) (s : FrontEnd) (hs : run {} calls = s) (i j : Nat)
    (l r : Value) (hl : s.values[i]? = some l) (hr : s.values[j]? = some r) :
    ((∃ v, Value.assign r l = .ok () v) ↔
      ¬ l.IsOperand ∧ l.type = r.type ∧ r.isBound = true) ∧
    (∀ v, Value.assign r l = .ok () v →
      v.type = l.type ∧ Value.assign r v = .ok () v ∧ (∀ p, v.operand p = r.operand p) ∧
      ∃ o, v.operand s.program = .ok o) ∧
    (¬ (l.type = .binding ∧ r.type = .string) →
      (∀ p v, Value.assign r l = .ok () v → Value.construct [r] ⟨p, l⟩ = .ok () ⟨p, v⟩) ∧
      (∀ p e v, Value.assign r l = .error e v → Value.construct [r] ⟨p, l⟩ = .error e ⟨p, v⟩) ∧
      (Call.construct i [j]).perform s = (Call.assign i j).perform s) := by
  subst hs
  have hsound := sound_reached calls
  have hleft := (hsound l (List.mem_of_getElem? hl)).holder
  have hright := (hsound r (List.mem_of_getElem? hr)).holder
  refine ⟨Value.assign_isOk_iff hleft hright, fun v h => ?_,
    fun hne => ⟨fun p v h => ?_, fun p e v h => ?_, ?_⟩⟩
  · obtain ⟨-, ht, -, -, hb⟩ := Value.assign_ok hright h
    have hsame := Value.operand_of_assign hright h
    obtain ⟨content, o, hc, ho, -⟩ := hsound.operand (List.mem_of_getElem? hr) hb
    refine ⟨ht, Value.assign_again h, hsame, o, ?_⟩
    rw [hsame, Value.operand_of_content hc, ho]
  · rw [Value.construct_one hne]
    exact Step.onPart_of_ok h
  · rw [Value.construct_one hne]
    exact Step.onPart_of_error h
  · exact construct_one hl hr hne

/-- A binding that was made from a line is copied to a new one, and then both stand for the event.
The new one holds nothing before that and is not copied. -/
theorem copies_agree_binding :
    let calls : List Call :=
      [.new .binding "a", .literal "adv_event \"x\"", .construct 0 [1], .new .binding "b"]
    let s := run {} calls
    let a := Value.bound "a" 0
    let b := Value.new .binding "b"
    s.values[0]? = some a ∧ s.values[2]? = some b ∧
      (∃ v, Value.assign a b = .ok () v ∧ v.operand s.program = a.operand s.program ∧
        Value.construct [a] ⟨s.program, b⟩ = .ok () ⟨s.program, v⟩) ∧
      ¬ ∃ v, Value.assign b a = .ok () v := by
  intro calls s a b
  have ha : s.values[0]? = some a := by decide +kernel
  have hb : s.values[2]? = some b := by decide +kernel
  have hba := copies_agree calls s rfl 2 0 b a hb ha
  have hab := copies_agree calls s rfl 0 2 a b ha hb
  have hnot : ¬ b.IsOperand := by
    rintro ⟨text, htext⟩
    cases htext
  obtain ⟨v, hv⟩ := hba.1.mpr ⟨hnot, rfl, rfl⟩
  refine ⟨ha, hb, ⟨v, hv, (hba.2.1 v hv).2.2.1 _, ?_⟩, fun h => ?_⟩
  · exact (hba.2.2 (by decide)).1 s.program v hv
  · cases (hab.1.mp h).2.2

end FrontEnd

end Datapack
