import Datapack.Proofs.Scope.Growth
import Datapack.Proofs.Value.FrontEnd

/-!
# Refusals change nothing

Whatever can be refused comes before the first change, in every operation of
registries, programs, values and scopes. A step that is put together from others
is `Atomic` by the order in which they come.

**Values.** An operation writes to its target, and a construction to the program as
well: first a line is defined in the program, then the target is bound to what it
yields, which cannot be refused any more (`atomic_construct`).

**The exception.** A name local to an entity is declared first and looked up
then, so that a refused look-up would leave the declaration behind. What was
just declared is always found (`localObjective_declared`).

**Result.** `refusals_change_nothing`, for the operations of registries,
programs, values, front ends and scopes, in every state.
-/
namespace Datapack

open Step (Atomic Reads)

/-! ## Registries -/

namespace Registry

theorem reads_require (action : Action) : Reads (require action) := by
  intro r
  by_cases h : r.stage = action.stage
  · exact Step.after_of_ok (require_ok h)
  · exact Step.after_of_error (require_error h)

theorem atomic_createEvent (event : Event) : Atomic (createEvent event) :=
  .after_reads (reads_require _) fun _ => .after_get fun _ => Step.Total.atomic fun _ => rfl

theorem atomic_addFunction (f : Function) : Atomic (addFunction f) := by
  refine .after_reads (reads_require _) fun _ => .after_get fun r => ?_
  split
  · exact .refuse _
  · exact Step.Total.atomic fun _ => rfl

theorem atomic_setFunction (id : FunctionId) (f : Function) : Atomic (setFunction id f) :=
  Step.Total.atomic fun _ => rfl

theorem atomic_markUsed (id : FunctionId) : Atomic (markUsed id) :=
  .after_reads (reads_require _) fun _ => .after_get fun _ => .after_ofExcept fun _ =>
    atomic_setFunction id _

theorem atomic_addCondition (handle : EventHandle) (c : Condition) :
    Atomic (addCondition handle c) := by
  refine .after_reads (reads_require _) fun _ => .after_get fun _ => .after_ofExcept fun event => ?_
  cases event with
  | advancement name conditions => exact Step.Total.atomic fun _ => rfl
  | tag name => exact .refuse _

theorem atomic_addRevoke (id : FunctionId) (handle : EventHandle) :
    Atomic (addRevoke id handle) := by
  refine .after_reads (reads_require _) fun _ => ?_
  cases handle.kind with
  | tag => exact .after_get fun _ => .after_ofExcept fun _ => .refuse _
  | advancement =>
    refine .after_get fun _ => .after_ofExcept fun f => ?_
    cases f.advancement with
    | none => exact atomic_setFunction id _
    | some known =>
      simp only
      split
      · exact Step.Total.atomic fun _ => rfl
      · exact .refuse _

end Registry

theorem Instruction.atomic_construct (insn : Instruction) : Atomic insn.construct := by
  have created (event : Event) :
      Atomic (do return Operand.event (← Registry.createEvent event)) :=
    .before_total (Registry.atomic_createEvent event) fun _ _ => rfl
  cases insn with
  | advEvent name => exact (created _).within _
  | tagEvent name => exact (created _).within _
  | _ => exact Step.Reads.atomic fun _ => rfl

/-! ## Programs -/

namespace Program

theorem atomic_onRegistry {α : Type} {step : Step Registry α} (h : Atomic step) :
    Atomic (onRegistry step) :=
  h.onPart fun _ => rfl

theorem atomic_addFunction (f : Function) : Atomic (addFunction f) :=
  .before_total (atomic_onRegistry (Registry.atomic_addFunction f)) fun _ _ => rfl

theorem atomic_define (name : String) (insn : Instruction) : Atomic (define name insn) := by
  unfold define
  split
  · exact .before_total (atomic_onRegistry insn.atomic_construct) fun _ _ => rfl
  · exact .refuse _

theorem atomic_defineText (name text : String) (arguments : List Operand) :
    Atomic (defineText name text arguments) :=
  .after_ofExcept fun insn => atomic_define name insn

theorem atomic_changeBody (id : FunctionId) (change : Body → Body) :
    Atomic (changeBody id change) := by
  intro p e p' h
  unfold changeBody at h
  split at h
  · cases h
  · cases h; rfl

theorem atomic_pushTop (insn : Instruction) : Atomic (pushTop insn) := by
  refine .after_get fun p => .after_ofExcept fun _ => ?_
  split
  · exact .refuse _
  · exact Step.Total.atomic fun _ => rfl

theorem atomic_pushPreamble (id : FunctionId) (insn : Instruction) :
    Atomic (pushPreamble id insn) := by
  refine .after_get fun p => .after_ofExcept fun _ => ?_
  split
  · exact .refuse _
  · split
    · exact .refuse _
    · exact atomic_changeBody id _

theorem atomic_pushBody (id : FunctionId) (insn : Instruction) : Atomic (pushBody id insn) := by
  refine .after_get fun p => .after_ofExcept fun _ => ?_
  split
  · exact .refuse _
  · exact atomic_changeBody id _

end Program

/-! ## Values -/

namespace Value

theorem atomic_operate (op : Operator) (right : Option Value) : Atomic (operate op right) := by
  refine .after_get fun target => ?_
  split
  · exact .refuse _
  · cases right with
    | some right => exact atomic_assign right
    | none => exact .refuse _

/-- Defining comes first and binding last. -/
theorem atomic_defineBinding (name text : String) (arguments : List Operand) :
    Atomic (defineBinding name text arguments) :=
  .before_total ((Program.atomic_defineText name text arguments).onPart fun _ => rfl) fun _ _ => rfl

theorem atomic_construct (args : List Value) : Atomic (construct args) := by
  intro c e c' h
  rcases construct_cases args c with ⟨e', hr⟩ | hr | ⟨right, -, hr⟩ | ⟨-, name, text, arguments, hr⟩
  · rw [hr] at h
    cases h
    rfl
  · rw [hr] at h
    cases h
  · rw [hr] at h
    exact (atomic_assign right).onPart (fun _ => rfl) c e c' h
  · rw [hr] at h
    exact atomic_defineBinding name text arguments c e c' h

end Value

/-! ## Front ends -/

namespace FrontEnd

theorem atomic_onValue (place : Nat) {step : Step Construction Unit} (h : Atomic step) :
    Atomic (onValue place step) := by
  intro s e s' hs
  cases hv : s.values[place]? with
  | none => rw [onValue_of_none _ hv] at hs; cases hs
  | some v =>
    rw [onValue_of_some _ hv] at hs
    obtain ⟨c, hc, rfl⟩ := Step.onPart_error hs
    obtain rfl := h _ _ _ hc
    obtain ⟨hplace, rfl⟩ := List.getElem?_eq_some_iff.mp hv
    simp only [List.set_getElem_self]

theorem atomic_construct (target : Nat) (args : List Nat) :
    Atomic (FrontEnd.construct target args) :=
  .after_get fun _ => atomic_onValue target (Value.atomic_construct _)

theorem atomic_assign (target right : Nat) : Atomic (FrontEnd.assign target right) := by
  refine .after_get fun s => ?_
  cases s.values[right]? with
  | none => exact Step.Total.atomic fun _ => rfl
  | some w => exact atomic_onValue target ((Value.atomic_assign w).onPart fun _ => rfl)

end FrontEnd

/-! ## Scopes -/

namespace Scope

theorem atomic_addVariable (name : String) (entry : VariableEntry) :
    Atomic (addVariable name entry) := by
  intro s e s' h
  unfold addVariable at h
  simp only at h
  split at h
  · cases h
  · split at h
    · cases h; rfl
    · cases h

/-- Names are handed out atomically when the answer for a new one is never refused. -/
theorem Allocates.atomic {step : Step Scope String} {known : Scope → Bool}
    {answer : Scope → Except Error String} {what : Allocation} {extend : Scope → Scope}
    (h : Allocates step known answer what extend)
    (ha : ∀ s, known s = false → ∃ n, answer (extend s) = .ok n) : Atomic step := by
  intro s e s' hs
  cases hk : known s with
  | true =>
    rw [h.eq_known hk] at hs
    exact Atomic.ofExcept (answer s) s e s' hs
  | false =>
    cases ho : s.isSealed with
    | true =>
      rw [h.eq_sealed hk ho] at hs
      cases hs
      rfl
    | false =>
      obtain ⟨n, hn⟩ := ha s hk
      rw [h.eq_new hk ho, hn] at hs
      cases hs

theorem atomic_memory (origin : UInt64) : Atomic (memory origin) :=
  (memory_allocates origin).atomic fun _ _ => ⟨_, rfl⟩

theorem atomic_tag (symbol : String) : Atomic (tag symbol) :=
  (tag_allocates symbol).atomic fun _ _ => ⟨_, rfl⟩

theorem localObjective_declared (name : String) (s : Scope) :
    ∃ n, localObjective name (declareLocal name s) = .ok n := by
  unfold localObjective objective fullVariable
  rw [get?_declareLocal]
  split
  · exact ⟨name, rfl⟩
  · exact ⟨_, rfl⟩

theorem atomic_entityLocal (name : String) : Atomic (entityLocal name) :=
  (entityLocal_allocates name).atomic fun s _ => localObjective_declared name s

theorem atomic_commandArg (kind value : String) : Atomic (commandArg kind value) := by
  refine .after_ofExcept fun k => ?_
  cases k with
  | tag => exact atomic_tag value
  | arg => exact .after_get fun s => .ofExcept _
  | entityLocal => exact atomic_entityLocal value
  | func => exact .after_get fun s => .ofExcept _

end Scope

/-! ## All operations -/

/-- An operation of a registry, a program, a front end or a scope that is refused leaves everything
as it was, whatever the state is in which it is called. -/
theorem refusals_change_nothing :
    (∀ event, Atomic (Registry.createEvent event)) ∧
    (∀ f, Atomic (Registry.addFunction f)) ∧
    (∀ id, Atomic (Registry.markUsed id)) ∧
    (∀ handle condition, Atomic (Registry.addCondition handle condition)) ∧
    (∀ id handle, Atomic (Registry.addRevoke id handle)) ∧
    (∀ f, Atomic (Program.addFunction f)) ∧
    (∀ name insn, Atomic (Program.define name insn)) ∧
    (∀ name text arguments, Atomic (Program.defineText name text arguments)) ∧
    (∀ insn, Atomic (Program.pushTop insn)) ∧
    (∀ id insn, Atomic (Program.pushPreamble id insn)) ∧
    (∀ id insn, Atomic (Program.pushBody id insn)) ∧
    (∀ right, Atomic (Value.assign right)) ∧
    (∀ op right, Atomic (Value.operate op right)) ∧
    (∀ args, Atomic (Value.construct args)) ∧
    (∀ target args, Atomic (FrontEnd.construct target args)) ∧
    (∀ target right, Atomic (FrontEnd.assign target right)) ∧
    (∀ name entry, Atomic (Scope.addVariable name entry)) ∧
    (∀ name, Atomic (Scope.entityLocal name)) ∧
    (∀ origin, Atomic (Scope.memory origin)) ∧
    (∀ symbol, Atomic (Scope.tag symbol)) ∧
    (∀ kind value, Atomic (Scope.commandArg kind value)) :=
  ⟨Registry.atomic_createEvent, Registry.atomic_addFunction, Registry.atomic_markUsed,
    Registry.atomic_addCondition, Registry.atomic_addRevoke, Program.atomic_addFunction,
    Program.atomic_define, Program.atomic_defineText, Program.atomic_pushTop,
    Program.atomic_pushPreamble, Program.atomic_pushBody, Value.atomic_assign,
    Value.atomic_operate, Value.atomic_construct, FrontEnd.atomic_construct,
    FrontEnd.atomic_assign, Scope.atomic_addVariable, Scope.atomic_entityLocal,
    Scope.atomic_memory, Scope.atomic_tag, Scope.atomic_commandArg⟩

end Datapack
