import Datapack.Proofs.Program.Reference

/-!
# The order of statements

The passes of a compilation walk the statements in order and change tables that
they share. Yet only two orders show in what comes out: that of the handler and
setup statements of the top level, and for each event that of the conditions on
it. Conditions on different events may change places, and a condition may stand
before or after the handlers, at the top level or in the preamble of any
function.

**Agreement.** `Agrees p q`: the programs have the same events, functions and
commands, the same handlers in order, and the same conditions in order on each
event. Every part of `Compilable` and of `reference` reads no more than that
(`Agrees.compilable`, `Agrees.reference`).

**Result.** `compile_order_free`: programs that agree are compiled to the same
output, or neither is compiled.
-/
namespace Datapack

namespace Instruction

theorem target?_of_advancementOf? {insn : Instruction} {id : FunctionId}
    (h : (insn.advancementOf? id).isSome = true) : insn.target?.isSome = true := by
  cases insn with
  | eventHandler handler event => rfl
  | _ => cases h

end Instruction

namespace Program

/-- The handler and setup statements of the top level, in order. -/
def handlers (p : Program) : List Instruction := p.top.filter (·.target?.isSome)

theorem mem_handlers {p : Program} {insn : Instruction} {id : FunctionId}
    (h : insn.target? = some id) : insn ∈ p.handlers ↔ insn ∈ p.top := by
  simp [handlers, h]

/-- What only handlers have, they have in the order of the top level. -/
theorem filterMap_handlers {β : Type} {f : Instruction → Option β}
    (hf : ∀ insn b, f insn = some b → insn.target?.isSome = true) (p : Program) :
    p.top.filterMap f = p.handlers.filterMap f := by
  unfold handlers
  rw [List.filterMap_filter]
  refine List.filterMap_congr fun insn _ => ?_
  cases hi : f insn with
  | none => simp
  | some b => simp [hf insn b hi]

theorem any_handlers {f : Instruction → Bool}
    (hf : ∀ insn, f insn = true → insn.target?.isSome = true) (p : Program) :
    p.top.any f = p.handlers.any f := by
  unfold handlers
  rw [List.any_filter]
  refine List.any_congr rfl fun insn => ?_
  cases hi : f insn with
  | false => simp
  | true => simp [hf insn hi]

theorem mem_conditionsOn {p : Program} {id : Nat} {c : Condition} :
    c ∈ p.conditionsOn id ↔ ∃ event path value,
      .addEventCondition event path value ∈ p.top ++ p.bodies.flatMap (·.preamble) ∧
        event.id = id ∧ c = Condition.ofText path value := by
  unfold conditionsOn
  rw [List.mem_filterMap]
  constructor
  · rintro ⟨insn, hi, hc⟩
    cases insn with
    | addEventCondition event path value =>
      simp only [Instruction.conditionOn?, Option.ite_none_right_eq_some, Option.some.injEq] at hc
      exact ⟨event, path, value, hi, hc.1, hc.2.symm⟩
    | _ => cases hc
  · rintro ⟨event, path, value, hi, rfl, rfl⟩
    exact ⟨_, hi, if_pos rfl⟩

/-! ## Agreement -/

/-- The programs differ at most in where their conditions stand. -/
structure Agrees (p q : Program) : Prop where
  events : p.registry.events = q.registry.events
  functions : p.registry.functions = q.registry.functions
  commands : p.bodies.map (·.commands) = q.bodies.map (·.commands)
  handlers : p.handlers = q.handlers
  conditions : ∀ id, p.conditionsOn id = q.conditionsOn id

namespace Agrees

variable {p q : Program}

theorem symm (h : p.Agrees q) : q.Agrees p where
  events := h.events.symm
  functions := h.functions.symm
  commands := h.commands.symm
  handlers := h.handlers.symm
  conditions id := (h.conditions id).symm

variable (h : p.Agrees q)
include h

theorem mem_top {insn : Instruction} {id : FunctionId} (ht : insn.target? = some id) :
    insn ∈ p.top ↔ insn ∈ q.top := by
  rw [← mem_handlers ht, ← mem_handlers ht, h.handlers]

theorem names (id : FunctionId) : p.names id = q.names id := by
  have hnamed : ∀ insn : Instruction, decide (insn.target? = some id) = true →
      insn.target?.isSome = true := by
    intro insn hi
    rw [of_decide_eq_true hi, Option.isSome_some]
  unfold Program.names
  rw [any_handlers hnamed, any_handlers hnamed, h.handlers]

theorem isKept (id : FunctionId) (f : Function) : p.isKept id f = q.isKept id f := by
  simp only [Program.isKept, h.names]

theorem rearms (id : FunctionId) : p.rearms id = q.rearms id := by
  have hhandler : ∀ insn : Instruction, (insn.advancementOf? id).isSome = true →
      insn.target?.isSome = true := fun _ => Instruction.target?_of_advancementOf?
  unfold Program.rearms
  rw [any_handlers hhandler, any_handlers hhandler, h.handlers]

theorem record? : p.record? = q.record? := by
  funext insn
  cases insn <;> simp only [Program.record?, h.functions, h.events, h.conditions, h.rearms]

theorem command? : p.command? = q.command? := by
  funext insn
  cases insn <;> simp only [Program.command?, h.functions, h.events]

/-- The body of a function has the same commands in both programs. -/
theorem body {id : FunctionId} {body : Body} (hb : q.bodies[id]? = some body) :
    ∃ body', p.bodies[id]? = some body' ∧ body'.commands = body.commands := by
  have hc : (p.bodies.map (·.commands))[id]? = some body.commands := by
    rw [h.commands, List.getElem?_map, hb, Option.map_some]
  simpa using hc

/-! ## What a compilation checks -/

theorem condition {event : EventHandle} {path value : String}
    (hi : .addEventCondition event path value ∈ q.top ++ q.bodies.flatMap (·.preamble)) :
    ∃ event' path' value',
      .addEventCondition event' path' value' ∈ p.top ++ p.bodies.flatMap (·.preamble) ∧
        event'.id = event.id := by
  have hm : Condition.ofText path value ∈ p.conditionsOn event.id := by
    rw [h.conditions]
    exact mem_conditionsOn.mpr ⟨event, path, value, hi, rfl, rfl⟩
  obtain ⟨event', path', value', hi', hid, -⟩ := mem_conditionsOn.mp hm
  exact ⟨event', path', value', hi', hid⟩

theorem compilable (hc : p.Compilable) : q.Compilable where
  targets := by
    intro insn hi id ht
    obtain ⟨f, hf, hinline⟩ := hc.targets insn ((h.mem_top ht).mpr hi) id ht
    exact ⟨f, h.functions ▸ hf, hinline⟩
  conditions := by
    intro event path value hi
    obtain ⟨event', path', value', hi', hid⟩ := h.condition hi
    obtain ⟨name, cs, he⟩ := hc.conditions event' path' value' hi'
    exact ⟨name, cs, by rw [← h.events, ← hid, he]⟩
  handled := by
    intro handler event hi
    rw [← h.events]
    exact hc.handled handler event ((h.mem_top rfl).mpr hi)
  single := by
    intro handler event event' hi hk hi' hk'
    exact hc.single handler event event' ((h.mem_top rfl).mpr hi) hk ((h.mem_top rfl).mpr hi') hk'
  bodies := by
    intro id f body hf hb hk
    obtain ⟨body', hb', hcommands⟩ := h.body hb
    rw [← hcommands, ← h.events, ← h.functions]
    exact hc.bodies id f body' (h.functions.symm ▸ hf) hb' (h.isKept id f ▸ hk)

/-! ## What a compilation puts out -/

theorem written : (p.registry.functions.zip p.bodies).zipIdx.filterMap p.written? =
    (q.registry.functions.zip q.bodies).zipIdx.filterMap q.written? := by
  -- Of a body, only its commands are written.
  have hcommands : ∀ r : Program, (r.registry.functions.zip r.bodies).zipIdx.filterMap r.written? =
      (r.registry.functions.zip (r.bodies.map (·.commands))).zipIdx.filterMap fun entry =>
        r.written? ((entry.1.1, { commands := entry.1.2 }), entry.2) := by
    intro r
    rw [List.zip_map_right, List.zipIdx_map, List.filterMap_map]
    rfl
  have hwritten : p.written? = q.written? := by
    funext ⟨⟨f, body⟩, id⟩
    simp only [Program.written?, h.isKept, h.command?]
  rw [hcommands p, hcommands q, h.functions, h.commands, hwritten]

theorem reference : p.reference = q.reference := by
  have hrecord : ∀ (r : Program) (insn : Instruction) (reg : Registration),
      r.record? insn = some reg → insn.target?.isSome = true := by
    intro r insn reg hr
    cases insn with
    | eventHandler handler event => rfl
    | setupFn function => rfl
    | _ => cases hr
  unfold Program.reference
  rw [h.written, filterMap_handlers (hrecord p), filterMap_handlers (hrecord q), h.handlers,
    h.record?]

end Agrees

/-- **Order.** Take two programs, however they were reached, that are not compiled yet and that have
the same events, functions and commands. If their handler and setup statements are the same in order,
and if on each event the conditions are the same in order, from the top level through the preambles of
all functions, then one is compiled to an output exactly when the other is compiled to it. -/
theorem compile_order_free (calls calls' : List Call) (p q : Program)
    (hp : (History.of calls).program = p) (hq : (History.of calls').program = q)
    (hs : p.registry.stage = .define) (hs' : q.registry.stage = .define)
    (h : p.Agrees q) (b : Build) :
    (∃ p', compile p = .ok b p') ↔ ∃ q', compile q = .ok b q' := by
  subst hp hq
  have hopen := History.isOpen calls hs
  have hopen' := History.isOpen calls' hs'
  simp only [hopen.compile_ok_iff_compilable, hopen'.compile_ok_iff_compilable]
  constructor
  · rintro ⟨p', hc, rfl, -⟩
    exact ⟨_, h.compilable hc, h.reference, rfl⟩
  · rintro ⟨q', hc, rfl, -⟩
    exact ⟨_, h.symm.compilable hc, h.symm.reference, rfl⟩

/-- Two conditions on one event with one on another between them, all before the handlers. In the
other program the second event comes first, after its handler, and the conditions on the first event
have moved to the preamble of a function that is dropped. -/
theorem compile_order_free_dropped :
    ∃ (calls calls' : List Call) (p q : Program) (b : Build),
      (History.of calls).program = p ∧ (History.of calls').program = q ∧
      p.registry.stage = .define ∧ q.registry.stage = .define ∧ p.Agrees q ∧ p.top ≠ q.top ∧
      (∃ p', compile p = .ok b p') ∧ (∃ q', compile q = .ok b q') ∧
      b.functionNames = ["greet", "count"] ∧
      b.registrations =
        [.handler "greet" (.advancement "tick" [⟨["player", "level"], "3"⟩, ⟨["x"], "y"⟩]) true,
          .handler "count" (.advancement "kill" [⟨["entity"], "pig"⟩]) true] := by
  let shared : List Call := List.map .edit
    [.addFunction "greet" false false, .addFunction "count" false false,
      .addFunction "spare" false false, .define "join" (.advEvent "tick"),
      .define "kill" (.advEvent "kill")]
  let calls : List Call := shared ++ List.map .edit
    [.pushTop (.addEventCondition ⟨0, .advancement⟩ "player.level" "3"),
      .pushTop (.addEventCondition ⟨1, .advancement⟩ "entity" "pig"),
      .pushTop (.addEventCondition ⟨0, .advancement⟩ "x" "y"),
      .pushTop (.eventHandler 0 ⟨0, .advancement⟩), .pushTop (.eventHandler 1 ⟨1, .advancement⟩)]
  let calls' : List Call := shared ++ List.map .edit
    [.pushTop (.eventHandler 0 ⟨0, .advancement⟩), .pushTop (.eventHandler 1 ⟨1, .advancement⟩),
      .pushTop (.addEventCondition ⟨1, .advancement⟩ "entity" "pig"),
      .pushPreamble 2 (.addEventCondition ⟨0, .advancement⟩ "player.level" "3"),
      .pushPreamble 2 (.addEventCondition ⟨0, .advancement⟩ "x" "y")]
  have hagrees : (History.of calls).program.Agrees (History.of calls').program := by
    refine ⟨by decide +kernel, by decide +kernel, by decide +kernel, by decide +kernel,
      fun id => ?_⟩
    match id with
    | 0 => decide +kernel
    | 1 => decide +kernel
    | _ + 2 => rfl
  let b : Build :=
    { functions := [⟨"greet", []⟩, ⟨"count", []⟩]
      registrations :=
        [.handler "greet" (.advancement "tick" [⟨["player", "level"], "3"⟩, ⟨["x"], "y"⟩]) true,
          .handler "count" (.advancement "kill" [⟨["entity"], "pig"⟩]) true] }
  have hb : ∃ p', compile (History.of calls).program = .ok b p' := ⟨_, rfl⟩
  have hother := (compile_order_free calls calls' _ _ rfl rfl rfl rfl hagrees b).mp hb
  exact ⟨calls, calls', _, _, b, rfl, rfl, rfl, rfl, hagrees, by decide +kernel, hb, hother, rfl,
    rfl⟩

end Program

end Datapack
