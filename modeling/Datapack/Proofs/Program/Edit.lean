import Datapack.Proofs.Program.Passes

/-!
# Edits

An `Edit` is one operation that puts a program together; it may succeed or be
refused, and answers with the operand that it hands out: an event handle for a
definition, a function number for an addition.

**What an edit can do.** `Edit.change`: nothing, or one of six changes
(`Change`), each with the check that let it pass. What every edit keeps is a
case analysis on `Change`.

**Results.**
* `Edit.grants`: what an edit hands out stands for something.
* `Change.isOpen`: a program that has not been compiled has no used function,
  and each of its statements is of a kind that belongs where it is.
* `Change.aligned`: no function is added without a body.
-/
namespace Datapack

/-- The event that a constructor creates. -/
def Instruction.event? : Instruction → Option Event
  | .advEvent name => some (.advancement name [])
  | .tagEvent name => some (.tag name)
  | _ => none

namespace Program

open Step (after)

/-! ## Edits -/

inductive Edit where
  | addFunction (name : String) (isInline isPinned : Bool)
  | define (name : String) (insn : Instruction)
  | defineText (name text : String) (arguments : List Operand)
  | bind (name : String) (value : Operand)
  | pushTop (insn : Instruction)
  | pushPreamble (id : FunctionId) (insn : Instruction)
  | pushBody (id : FunctionId) (insn : Instruction)

/-- A definition answers with the value that it has added. -/
def answer (step : Step Program Nat) : Step Program (Option Operand) := do
  let index ← step
  return ((← get).value index).toOption

/-- Carries out an edit and answers with the operand that it hands out. -/
def Edit.perform : Edit → Step Program (Option Operand)
  | .addFunction name isInline isPinned => do
    return some (.func (← Program.addFunction { name, isInline, isPinned }))
  | .define name insn => answer (Program.define name insn)
  | .defineText name text arguments => answer (Program.defineText name text arguments)
  | .bind name value => do
    let _ ← Program.bind name value
    return none
  | .pushTop insn => do
    Program.pushTop insn
    return none
  | .pushPreamble id insn => do
    Program.pushPreamble id insn
    return none
  | .pushBody id insn => do
    Program.pushBody id insn
    return none

/-- What one edit can do to a program. -/
inductive Change (p : Program) : Program → Prop where
  | nothing : Change p p
  | function (f : Function) (stage : p.registry.stage = .define) (idle : f.Idle)
    (fresh : ∀ g ∈ p.registry.functions, g.name ≠ f.name) :
    Change p { p with
      registry := { p.registry with functions := p.registry.functions ++ [f] }
      bodies := p.bodies ++ [{}] }
  | value (entry : String × Operand) : Change p { p with values := p.values ++ [entry] }
  | event (e : Event) (entry : String × Operand) (stage : p.registry.stage = .define)
    (bare : e.conditions = []) :
    Change p { p with
      registry := { p.registry with events := p.registry.events ++ [e] }
      values := p.values ++ [entry] }
  | top (insn : Instruction) (stage : p.registry.stage = .define) (kind : insn.kind = .preamble) :
    Change p { p with top := p.top ++ [insn] }
  | preamble (id : FunctionId) (body : Body) (insn : Instruction)
    (stage : p.registry.stage = .define) (known : p.bodies[id]? = some body)
    (kind : insn.kind = .preamble) (anywhere : insn.opcode.signature.topOnly = false) :
    Change p { p with
      bodies := p.bodies.set id { body with preamble := body.preamble ++ [insn] } }
  | command (id : FunctionId) (body : Body) (insn : Instruction)
    (stage : p.registry.stage = .define) (known : p.bodies[id]? = some body)
    (kind : insn.kind = .emitter) :
    Change p { p with
      bodies := p.bodies.set id { body with commands := body.commands ++ [insn] } }

/-! ## Outcomes -/

theorem addFunction_eq (f : Function) (p : Program) :
    addFunction f p =
      if p.registry.stage = .define then
        if p.registry.functions.any (·.name = f.name) then
          .error (Cause.misplaced (.secondFunction f.name)).error p
        else .ok p.registry.functions.length { p with
          registry := { p.registry with functions := p.registry.functions ++ [f] }
          bodies := p.bodies ++ [{}] }
      else .error (Cause.untimely (.notNow .createFunction p.registry.stage)).error p := by
  have hr := Registry.addFunction_eq f p.registry
  unfold addFunction
  split
  · rename_i h
    rw [if_pos h] at hr
    split
    · rename_i hn
      rw [if_pos hn] at hr
      exact Step.bind_of_error (onRegistry_of_error hr)
    · rename_i hn
      rw [if_neg hn] at hr
      rw [Step.bind_of_ok (onRegistry_of_ok hr)]; rfl
  · rename_i h
    rw [if_neg h] at hr
    exact Step.bind_of_error (onRegistry_of_error hr)

theorem construct_eq {insn : Instruction} {e : Event} (he : insn.event? = some e) (r : Registry) :
    insn.construct r =
      if r.stage = .define then
        .ok (.event ⟨r.events.length, e.kind⟩) { r with events := r.events ++ [e] }
      else .error ((Cause.untimely (.notNow .createEvent r.stage)).error.within insn.opcode) r := by
  have hr := Registry.createEvent_eq e r
  have create : insn.construct = Step.within insn.opcode
      (do return Operand.event (← Registry.createEvent e)) := by
    cases insn <;> cases he <;> rfl
  rw [create]
  unfold Step.within
  by_cases h : r.stage = .define
  · rw [if_pos h] at hr ⊢
    rw [Step.bind_of_ok hr]; rfl
  · rw [if_neg h] at hr ⊢
    rw [Step.bind_of_error hr]

theorem kind_constructor_iff (insn : Instruction) :
    insn.kind = .constructor ↔ ∃ e, insn.event? = some e := by
  cases insn <;>
    simp [Instruction.kind, Instruction.opcode, Opcode.kind, Opcode.signature, Instruction.event?]

theorem define_of_event {insn : Instruction} {e : Event} (he : insn.event? = some e) (name : String)
    (p : Program) :
    define name insn p =
      if p.registry.stage = .define then
        .ok p.values.length { p with
          registry := { p.registry with events := p.registry.events ++ [e] }
          values := p.values ++ [(name, .event ⟨p.registry.events.length, e.kind⟩)] }
      else
        .error ((Cause.untimely (.notNow .createEvent p.registry.stage)).error.within insn.opcode) p
        := by
  have hr := construct_eq he p.registry
  unfold define
  rw [if_pos ((kind_constructor_iff insn).mpr ⟨e, he⟩)]
  split
  · rename_i h
    rw [if_pos h] at hr
    rw [Step.bind_of_ok (onRegistry_of_ok hr)]; rfl
  · rename_i h
    rw [if_neg h] at hr
    exact Step.bind_of_error (onRegistry_of_error hr)

theorem define_of_none {insn : Instruction} (he : insn.event? = none) (name : String)
    (p : Program) :
    define name insn p =
      .error (Cause.typeMismatch "constructor instruction" insn.name).error p := by
  have hk : insn.kind ≠ .constructor := by
    intro hk
    obtain ⟨e, he'⟩ := (kind_constructor_iff insn).mp hk
    rw [he] at he'; cases he'
  unfold define
  rw [if_neg hk]; rfl

theorem checkOpen_ok {p : Program} {insn : Instruction} {u : Unit} (h : p.checkOpen insn = .ok u) :
    p.registry.stage = .define := by
  unfold checkOpen at h
  split at h
  · cases h
  · rename_i hs
    exact Decidable.not_not.mp hs

theorem change_addFunction {f : Function} (hf : f.Idle) (p : Program) :
    Change p (after (addFunction f) p) := by
  unfold after
  rw [addFunction_eq]
  by_cases h : p.registry.stage = .define
  · rw [if_pos h]
    by_cases hn : p.registry.functions.any (·.name = f.name)
    · rw [if_pos hn]; exact .nothing
    · rw [if_neg hn]
      refine .function f h hf fun g hg he => hn ?_
      exact List.any_eq_true.mpr ⟨g, hg, decide_eq_true he⟩
  · rw [if_neg h]; exact .nothing

theorem change_define (name : String) (insn : Instruction) (p : Program) :
    Change p (after (define name insn) p) := by
  unfold after
  cases he : insn.event? with
  | none => rw [define_of_none he]; exact .nothing
  | some e =>
    have bare : e.conditions = [] := by cases insn <;> cases he <;> rfl
    rw [define_of_event he]
    by_cases h : p.registry.stage = .define
    · rw [if_pos h]; exact .event e _ h bare
    · rw [if_neg h]; exact .nothing

theorem change_defineText (name text : String) (arguments : List Operand) (p : Program) :
    Change p (after (defineText name text arguments) p) := by
  unfold after defineText
  rw [Step.ofExcept_bind]
  cases Instruction.read text arguments with
  | error e => exact .nothing
  | ok insn => exact change_define name insn p

theorem change_pushTop (insn : Instruction) (p : Program) : Change p (after (pushTop insn) p) := by
  unfold after pushTop
  rw [Step.get_bind, Step.ofExcept_bind]
  cases hc : p.checkOpen insn with
  | error e => exact .nothing
  | ok u =>
    by_cases hk : insn.kind = .preamble
    · simp only [hk, ne_eq, not_true_eq_false, if_false]
      exact .top insn (checkOpen_ok hc) hk
    · simp only [hk, ne_eq, not_false_eq_true, if_true]
      exact .nothing

theorem change_pushPreamble (id : FunctionId) (insn : Instruction) (p : Program) :
    Change p (after (pushPreamble id insn) p) := by
  unfold after pushPreamble
  rw [Step.get_bind, Step.ofExcept_bind]
  cases hc : p.checkOpen insn with
  | error e => exact .nothing
  | ok u =>
    by_cases hk : insn.kind = .preamble
    · cases ht : insn.opcode.signature.topOnly with
      | true => simp only [hk, ne_eq, not_true_eq_false, if_false, if_true]; exact .nothing
      | false =>
        simp only [hk, ne_eq, not_true_eq_false, if_false, Bool.false_eq_true, changeBody]
        cases hb : p.bodies[id]? with
        | none => exact .nothing
        | some body => exact .preamble id body insn (checkOpen_ok hc) hb hk ht
    · simp only [hk, ne_eq, not_false_eq_true, if_true]
      exact .nothing

theorem change_pushBody (id : FunctionId) (insn : Instruction) (p : Program) :
    Change p (after (pushBody id insn) p) := by
  unfold after pushBody
  rw [Step.get_bind, Step.ofExcept_bind]
  cases hc : p.checkOpen insn with
  | error e => exact .nothing
  | ok u =>
    by_cases hk : insn.kind = .emitter
    · simp only [hk, ne_eq, not_true_eq_false, if_false, changeBody]
      cases hb : p.bodies[id]? with
      | none => exact .nothing
      | some body => exact .command id body insn (checkOpen_ok hc) hb hk
    · simp only [hk, ne_eq, not_false_eq_true, if_true]
      exact .nothing

/-- Every edit makes one change at most. -/
theorem Edit.change (e : Edit) (p : Program) : Change p (after e.perform p) := by
  cases e with
  | addFunction name isInline isPinned =>
    have hf : Function.Idle { name, isInline, isPinned } := ⟨rfl, rfl⟩
    exact Step.after_returning (change_addFunction hf p) fun id _ => some (Operand.func id)
  | define name insn =>
    exact Step.after_returning (change_define name insn p) fun index p' => (p'.value index).toOption
  | defineText name text arguments =>
    exact Step.after_returning (change_defineText name text arguments p) fun index p' =>
      (p'.value index).toOption
  | bind name value => exact .value (name, value)
  | pushTop insn => exact Step.after_returning (change_pushTop insn p) fun _ _ => none
  | pushPreamble id insn =>
    exact Step.after_returning (change_pushPreamble id insn p) fun _ _ => none
  | pushBody id insn => exact Step.after_returning (change_pushBody id insn p) fun _ _ => none

theorem Change.stage_eq {p p' : Program} (h : Change p p') :
    p'.registry.stage = p.registry.stage := by
  cases h <;> rfl

theorem Change.grows {p p' : Program} (h : Change p p') : p.registry.Grows p'.registry := by
  cases h with
  | function f _ _ _ => exact ⟨List.prefix_refl _, by simp⟩
  | event e _ _ _ => exact ⟨by simp, Nat.le_refl _⟩
  | _ => exact .refl _

/-! ## What edits hand out -/

theorem holds_newEvent (r : Registry) (e : Event) :
    ({ r with events := r.events ++ [e] } : Registry).Holds
      (.event ⟨r.events.length, e.kind⟩) := by
  refine ⟨e, ?_, rfl⟩
  simp

theorem holds_newFunction (r : Registry) (f : Function) :
    ({ r with functions := r.functions ++ [f] } : Registry).Holds (.func r.functions.length) := by
  show r.functions.length < (r.functions ++ [f]).length
  simp

/-- A definition hands out the number of an event that is there. -/
theorem define_ok {name : String} {insn : Instruction} {p p' : Program} {index : Nat}
    (h : define name insn p = .ok index p') :
    ∃ handle, p'.value index = .ok (.event handle) ∧ p'.registry.Holds (.event handle) := by
  cases he : insn.event? with
  | none => rw [define_of_none he] at h; cases h
  | some e =>
    rw [define_of_event he] at h
    split at h
    · cases h
      refine ⟨_, ?_, holds_newEvent p.registry e⟩
      simp [value]
    · cases h

theorem define_grants {name : String} {insn : Instruction} {p p' : Program} {index : Nat}
    (h : define name insn p = .ok index p') :
    ∃ o, (p'.value index).toOption = some o ∧ p'.registry.Holds o := by
  obtain ⟨handle, hvalue, hholds⟩ := define_ok h
  exact ⟨.event handle, by rw [hvalue]; rfl, hholds⟩

theorem answer_ok {step : Step Program Nat} {p p' : Program} {a : Option Operand}
    (h : answer step p = .ok a p') :
    ∃ index, step p = .ok index p' ∧ a = (p'.value index).toOption := by
  obtain ⟨index, p₁, h₁, h₂⟩ := Step.bind_ok h
  cases h₂
  exact ⟨index, h₁, rfl⟩

theorem Edit.grants {e : Edit} {p p' : Program} {o : Operand}
    (h : e.perform p = .ok (some o) p') : p'.registry.Holds o := by
  cases e with
  | addFunction name isInline isPinned =>
    obtain ⟨id, p₁, h₁, h₂⟩ := Step.bind_ok h
    cases h₂
    rw [addFunction_eq] at h₁
    split at h₁
    · split at h₁
      · cases h₁
      · cases h₁
        exact holds_newFunction p.registry _
    · cases h₁
  | define name insn =>
    obtain ⟨index, h₁, ha⟩ := answer_ok h
    obtain ⟨o', ho', hh⟩ := define_grants h₁
    rw [ho'] at ha; cases ha
    exact hh
  | defineText name text arguments =>
    obtain ⟨index, h₁, ha⟩ := answer_ok h
    obtain ⟨insn, p₁, hr, hd⟩ := Step.bind_ok h₁
    obtain ⟨o', ho', hh⟩ := define_grants hd
    rw [ho'] at ha; cases ha
    exact hh
  | bind name value => cases h
  | pushTop insn => obtain ⟨u, p₁, -, h₂⟩ := Step.bind_ok h; cases h₂
  | pushPreamble id insn => obtain ⟨u, p₁, -, h₂⟩ := Step.bind_ok h; cases h₂
  | pushBody id insn => obtain ⟨u, p₁, -, h₂⟩ := Step.bind_ok h; cases h₂

/-! ## Open programs -/

/-- Nothing has been compiled, and every statement is where its kind belongs. -/
structure Open (p : Program) : Prop where
  stage : p.registry.stage = .define
  fresh : p.registry.Fresh
  top : ∀ insn ∈ p.top, insn.kind = .preamble
  preambles : ∀ body ∈ p.bodies, ∀ insn ∈ body.preamble, insn.opcode = .addEventCondition
  commands : ∀ body ∈ p.bodies, ∀ insn ∈ body.commands, insn.kind = .emitter

theorem opcode_of_anywhere {insn : Instruction} (hk : insn.kind = .preamble)
    (ht : insn.opcode.signature.topOnly = false) : insn.opcode = .addEventCondition := by
  cases insn with
  | addEventCondition event path value => rfl
  | eventHandler handler event => cases ht
  | setupFn function => cases ht
  | _ => cases hk

/-- A property of all bodies is kept when one body changes to one that has it. -/
theorem forall_mem_set {P : Body → Prop} {l : List Body} {id : Nat} {body : Body}
    (h : ∀ b ∈ l, P b) (hb : P body) : ∀ b ∈ l.set id body, P b := by
  intro b hm
  rcases List.mem_or_eq_of_mem_set hm with hm | rfl
  · exact h b hm
  · exact hb

theorem forall_mem_append_singleton {α : Type} {P : α → Prop} {l : List α} {a : α}
    (h : ∀ b ∈ l, P b) (ha : P a) : ∀ b ∈ l ++ [a], P b := by
  intro b hm
  rcases List.mem_append.mp hm with hm | hm
  · exact h b hm
  · rw [List.mem_singleton.mp hm]; exact ha

theorem Change.isOpen {p p' : Program} (h : Change p p') (hp : p.Open) : p'.Open := by
  cases h with
  | nothing => exact hp
  | value entry => exact ⟨hp.stage, hp.fresh, hp.top, hp.preambles, hp.commands⟩
  | event e entry hs _ =>
    exact ⟨hp.stage, (Registry.Change.event e hs).fresh hp.stage hp.fresh, hp.top, hp.preambles,
      hp.commands⟩
  | function f hs idle fresh =>
    refine ⟨hp.stage, (Registry.Change.function f hs idle fresh).fresh hp.stage hp.fresh, hp.top,
      forall_mem_append_singleton hp.preambles ?_, forall_mem_append_singleton hp.commands ?_⟩ <;>
      exact fun insn hi => by cases hi
  | top insn hs hk =>
    exact ⟨hp.stage, hp.fresh, forall_mem_append_singleton hp.top hk, hp.preambles, hp.commands⟩
  | preamble id body insn hs known hk ht =>
    have hm := List.mem_of_getElem? known
    refine ⟨hp.stage, hp.fresh, hp.top, forall_mem_set hp.preambles ?_,
      forall_mem_set hp.commands (hp.commands body hm)⟩
    exact forall_mem_append_singleton (hp.preambles body hm) (opcode_of_anywhere hk ht)
  | command id body insn hs known hk =>
    have hm := List.mem_of_getElem? known
    refine ⟨hp.stage, hp.fresh, hp.top, forall_mem_set hp.preambles (hp.preambles body hm),
      forall_mem_set hp.commands ?_⟩
    exact forall_mem_append_singleton (hp.commands body hm) hk

theorem Open.empty : Open {} := by
  refine ⟨rfl, ⟨fun f hf => (by cases hf), List.nodup_nil⟩, fun insn hi => (by cases hi),
    fun b hb => (by cases hb), fun b hb => by cases hb⟩

/-- A new function comes with a body, so that as many functions as before have none. -/
theorem Change.aligned {p p' : Program} {n : Nat} (h : Change p p')
    (hp : p.bodies.length + n = p.registry.functions.length) :
    p'.bodies.length + n = p'.registry.functions.length := by
  cases h with
  | function f _ _ _ => simp only [List.length_append, List.length_singleton]; omega
  | preamble id body insn _ _ _ _ => simpa using hp
  | command id body insn _ _ _ => simpa using hp
  | _ => exact hp

theorem Change.length_bodies {p p' : Program} (h : Change p p') :
    p.bodies.length ≤ p'.bodies.length := by
  cases h with
  | function f _ _ _ => simp
  | preamble id body insn _ _ _ _ => simp
  | command id body insn _ _ _ => simp
  | _ => exact Nat.le_refl _

end Program

end Datapack
