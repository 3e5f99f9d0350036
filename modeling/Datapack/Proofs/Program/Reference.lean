import Mathlib.Data.List.Basic
import Datapack.Proofs.Program.History

/-!
# Compilation against a reference

A compilation is four passes over three kinds of lists, and what it emits
early depends on statements that come late. The reference reads everything
off the program as it stands: a registration for each handler and setup
statement of the top level, with the conditions of all statements, and a list
of commands for each function that is pinned or named there.

**`Compilable`** lists what a program has to satisfy, without running
anything: targets exist and are not inline, conditions go to advancements,
handled events exist, no function handles two advancements, and the bodies
that are written refer to what exists. Nothing is asked of the bodies of
functions that are dropped.

**Result.** `compile_eq_reference`: after any edits, compilation succeeds
exactly when the program is `Compilable`, and its output is `reference`.
-/
namespace Datapack

/-! ## Outcomes of the last passes -/

namespace Registry

theorem function_ok {r : Registry} {id : FunctionId} {f : Function} :
    r.function id = .ok f ↔ r.functions[id]? = some f := by
  unfold function
  cases r.functions[id]? <;> simp

theorem event_ok {r : Registry} {handle : EventHandle} {e : Event} :
    r.event handle = .ok e ↔ r.events[handle.id]? = some e := by
  unfold event eventAt
  cases r.events[handle.id]? <;> simp

theorem addressable_ok {r : Registry} {op : Opcode} {id : FunctionId} {f : Function} :
    r.addressable op id = .ok f ↔ r.functions[id]? = some f ∧ f.isInline = false := by
  unfold addressable
  rw [Step.except_bind_ok]
  constructor
  · rintro ⟨g, hg, h⟩
    split at h
    · cases h
    · rename_i hi
      cases h
      exact ⟨function_ok.mp hg, by simpa using hi⟩
  · rintro ⟨hf, hi⟩
    exact ⟨f, function_ok.mpr hf, by simp [hi]⟩

end Registry

namespace Instruction

theorem postapply_eventHandler {r : Registry} {handler : FunctionId} {event : EventHandle}
    {out : List Registration} :
    postapply r (.eventHandler handler event) = .ok out ↔
      ∃ f, (r.functions[handler]? = some f ∧ f.isInline = false) ∧
        ∃ e, r.events[event.id]? = some e ∧ out = [.handler f.name e f.needsRevoke] := by
  unfold postapply
  simp only [Step.mapError_ok, Step.except_bind_ok, Registry.addressable_ok, Registry.event_ok]
  simp only [pure, Except.pure, Except.ok.injEq, eq_comm]

theorem postapply_setupFn {r : Registry} {function : FunctionId} {out : List Registration} :
    postapply r (.setupFn function) = .ok out ↔
      ∃ f, (r.functions[function]? = some f ∧ f.isInline = false) ∧ out = [.setup f.name] := by
  unfold postapply
  simp only [Step.mapError_ok, Step.except_bind_ok, Registry.addressable_ok]
  simp only [pure, Except.pure, Except.ok.injEq, eq_comm]

theorem command_fireEvent {r : Registry} {event : EventHandle} {c : Command} :
    command r (.fireEvent event) = .ok c ↔
      ∃ e, r.events[event.id]? = some e ∧ c = .callTag ⟨e.name⟩ := by
  unfold command
  simp only [Step.mapError_ok, Step.except_bind_ok, Registry.event_ok]
  simp only [pure, Except.pure, Except.ok.injEq, eq_comm]

theorem command_revokeEventAdv {r : Registry} {handler : FunctionId} {c : Command} :
    command r (.revokeEventAdv handler) = .ok c ↔
      ∃ f, r.functions[handler]? = some f ∧
        c = .revoke (.plain .sender) (Advancement.nameFor f.name) := by
  unfold command
  simp only [Step.mapError_ok, Step.except_bind_ok, Registry.function_ok]
  simp only [pure, Except.pure, Except.ok.injEq, eq_comm]

end Instruction

/-! ## The reference -/

namespace Program

/-- A handler or setup statement of the top level names the function. -/
def names (p : Program) (id : FunctionId) : Bool := p.top.any (·.target? = some id)

/-- The function is written. -/
def isKept (p : Program) (id : FunctionId) (f : Function) : Bool :=
  !f.isInline && (f.isPinned || p.names id)

/-- The conditions that statements attach to an event, from the top level on. -/
def conditionsOn (p : Program) (id : Nat) : List Condition :=
  (p.top ++ p.bodies.flatMap (·.preamble)).filterMap (·.conditionOn? id)

/-- Some statement makes the function the handler of an advancement. -/
def rearms (p : Program) (id : FunctionId) : Bool :=
  p.top.any fun insn => (insn.advancementOf? id).isSome

/-- What a statement of the top level registers. -/
def record? (p : Program) : Instruction → Option Registration
  | .eventHandler handler event => do
    let f ← p.registry.functions[handler]?
    let e ← p.registry.events[event.id]?
    return .handler f.name (e.attach (p.conditionsOn event.id)) (p.rearms handler)
  | .setupFn function => do
    let f ← p.registry.functions[function]?
    return .setup f.name
  | _ => none

/-- The command of a statement in a body. -/
def command? (p : Program) : Instruction → Option Command
  | .fireEvent event => p.registry.events[event.id]?.map fun e => .callTag ⟨e.name⟩
  | .revokeEventAdv handler => p.registry.functions[handler]?.map fun f =>
    .revoke (.plain .sender) (Advancement.nameFor f.name)
  | _ => none

/-- What becomes of a function with its body and number. -/
def written? (p : Program) : (Function × Body) × FunctionId → Option CompiledFunction
  | ((f, body), id) =>
    if p.isKept id f then some ⟨f.name, body.commands.filterMap p.command?⟩ else none

/-- The output of a compilation, read off the program as it stands. -/
def reference (p : Program) : Build where
  functions := (p.registry.functions.zip p.bodies).zipIdx.filterMap p.written?
  registrations := p.top.filterMap p.record?

/-- What a program has to satisfy to be compiled. -/
structure Compilable (p : Program) : Prop where
  /-- Handlers and setup functions exist and are not inline. -/
  targets : ∀ insn ∈ p.top, ∀ id, insn.target? = some id →
    ∃ f, p.registry.functions[id]? = some f ∧ f.isInline = false
  /-- Conditions go to advancements. -/
  conditions : ∀ event path value,
    .addEventCondition event path value ∈ p.top ++ p.bodies.flatMap (·.preamble) →
    ∃ name cs, p.registry.events[event.id]? = some (.advancement name cs)
  /-- Handled events exist. -/
  handled : ∀ handler event, .eventHandler handler event ∈ p.top →
    event.id < p.registry.events.length
  /-- No function handles two advancements. -/
  single : ∀ handler event event',
    .eventHandler handler event ∈ p.top → event.kind = .advancement →
    .eventHandler handler event' ∈ p.top → event'.kind = .advancement → event.id = event'.id
  /-- The bodies that are written refer to what exists. -/
  bodies : ∀ id f body, p.registry.functions[id]? = some f → p.bodies[id]? = some body →
    p.isKept id f →
      (∀ event, .fireEvent event ∈ body.commands → event.id < p.registry.events.length) ∧
      ∀ handler, .revokeEventAdv handler ∈ body.commands → handler < p.registry.functions.length

/-! ## The closed registry of an open program -/

/-- What the passes make of a function that nothing has used yet. -/
def settled (p : Program) (id : FunctionId) (f : Function) : Function :=
  { f with isUsed := p.names id, advancement := p.top.findSome? (·.advancementOf? id) }

theorem isEmitted_settled (p : Program) (id : FunctionId) (f : Function) :
    (p.settled id f).isEmitted = p.isKept id f := by
  simp only [settled, Function.isEmitted, isKept, Bool.or_comm]

theorem needsRevoke_settled (p : Program) (id : FunctionId) (f : Function) :
    (p.settled id f).needsRevoke = p.rearms id := by
  rw [settled, Function.needsRevoke, rearms, Bool.eq_iff_iff, List.findSome?_isSome_iff,
    List.any_eq_true]

namespace Open

variable {p : Program} (hp : p.Open)
include hp

/-- Functions have names of their own. -/
theorem id_of_name {id id' : FunctionId} {f f' : Function}
    (hf : p.registry.functions[id]? = some f) (hf' : p.registry.functions[id']? = some f')
    (hn : f.name = f'.name) : id = id' := by
  have hlt : id < (p.registry.functions.map Function.name).length := by
    simpa using (List.getElem?_eq_some_iff.mp hf).1
  refine (List.getElem?_inj hlt hp.fresh.names).mp ?_
  rw [List.getElem?_map, List.getElem?_map, hf, hf', Option.map_some, Option.map_some, hn]

theorem preamble_inert {insn : Instruction} (hi : insn ∈ p.bodies.flatMap (·.preamble)) :
    ∃ event path value, insn = .addEventCondition event path value := by
  obtain ⟨body, hb, hi⟩ := List.mem_flatMap.mp hi
  have ho := hp.preambles body hb insn hi
  cases insn with
  | addEventCondition event path value => exact ⟨event, path, value, rfl⟩
  | _ => cases ho

/-- Only the top level names functions. -/
theorem mem_top_of_target {insn : Instruction} {id : FunctionId}
    (hi : insn ∈ p.preambleStatements) (ht : insn.target? = some id) : insn ∈ p.top := by
  rcases List.mem_append.mp hi with hi | hi
  · exact hi
  · obtain ⟨event, path, value, rfl⟩ := hp.preamble_inert hi
    cases ht

theorem kind_preamble {insn : Instruction} (hi : insn ∈ p.preambleStatements) :
    insn.kind = .preamble := by
  rcases List.mem_append.mp hi with hi | hi
  · exact hp.top insn hi
  · obtain ⟨event, path, value, rfl⟩ := hp.preamble_inert hi
    rfl

theorem any_target (id : FunctionId) :
    p.preambleStatements.any (·.target? = some id) = p.names id := by
  have hb : (p.bodies.flatMap (·.preamble)).any (fun insn => insn.target? = some id) = false := by
    rw [List.any_eq_false]
    intro insn hi
    obtain ⟨event, path, value, rfl⟩ := hp.preamble_inert hi
    simp [Instruction.target?]
  rw [preambleStatements, List.any_append, hb, Bool.or_false, names]

theorem findSome?_advancement (id : FunctionId) :
    p.preambleStatements.findSome? (·.advancementOf? id) =
      p.top.findSome? (·.advancementOf? id) := by
  have hb : (p.bodies.flatMap (·.preamble)).findSome? (·.advancementOf? id) = none := by
    rw [List.findSome?_eq_none_iff]
    intro insn hi
    obtain ⟨event, path, value, rfl⟩ := hp.preamble_inert hi
    rfl
  rw [preambleStatements, List.findSome?_append, hb, Option.or_none]

theorem functions_closed (id : FunctionId) :
    p.closed.functions[id]? = p.registry.functions[id]?.map (p.settled id) := by
  have hc : p.closed.functions[id]? =
      p.used.functions[id]?.map fun f =>
        { f with
          advancement := f.advancement.or
            (p.preambleStatements.findSome? (·.advancementOf? id)) } :=
    Registry.functions_applied _ _ id
  rw [hc, used, Registry.declared, List.getElem?_mapIdx, hp.any_target, hp.findSome?_advancement]
  cases hf : p.registry.functions[id]? with
  | none => rfl
  | some f =>
    obtain ⟨hu, ha⟩ := hp.fresh.idle f (List.mem_of_getElem? hf)
    simp [settled, hu, ha]

end Open

/-- What the passes make of an event. -/
theorem events_closed (p : Program) (id : Nat) :
    p.closed.events[id]? = p.registry.events[id]?.map (Event.attach (p.conditionsOn id)) :=
  Registry.events_applied _ _ id

theorem lt_of_events_closed {p : Program} {id : Nat} {e : Event}
    (h : p.closed.events[id]? = some e) : id < p.registry.events.length := by
  rw [events_closed, Option.map_eq_some_iff] at h
  obtain ⟨e₀, he, -⟩ := h
  exact (List.getElem?_eq_some_iff.mp he).1

theorem output_ok_iff {p : Program} {b : Build} :
    p.output = .ok b ↔
      ∃ registrations, p.preambleStatements.mapM (Instruction.postapply p.registry) =
          .ok registrations ∧
        ∃ functions, (p.registry.functions.zip p.bodies).mapM
            (fun entry => compileFunction p.registry entry.1 entry.2) = .ok functions ∧
          b = ⟨functions.flatten, registrations.flatten⟩ := by
  unfold output
  simp only [Step.except_bind_ok]
  simp only [pure, Except.pure, Except.ok.injEq, eq_comm]

/-! ## Compiled programs are compilable -/

namespace Open

variable {p : Program} (hp : p.Open)
include hp

theorem target_of_output {b : Build}
    (ho : ({ p with registry := p.closed } : Program).output = .ok b)
    {insn : Instruction} (hi : insn ∈ p.top) {id : FunctionId} (ht : insn.target? = some id) :
    ∃ f, p.registry.functions[id]? = some f ∧ f.isInline = false := by
  obtain ⟨registrations, hr, -⟩ := output_ok_iff.mp ho
  obtain ⟨out, hout⟩ := Step.mapM_ok_mem hr insn (List.mem_append_left _ hi)
  have hf : ∃ f, p.closed.functions[id]? = some f ∧ f.isInline = false := by
    cases insn with
    | eventHandler handler event =>
      cases ht
      obtain ⟨f, hf, -⟩ := Instruction.postapply_eventHandler.mp hout
      exact ⟨f, hf⟩
    | setupFn function =>
      cases ht
      obtain ⟨f, hf, -⟩ := Instruction.postapply_setupFn.mp hout
      exact ⟨f, hf⟩
    | _ => cases ht
  obtain ⟨f, hf, hi⟩ := hf
  rw [hp.functions_closed, Option.map_eq_some_iff] at hf
  obtain ⟨f₀, hf₀, rfl⟩ := hf
  exact ⟨f₀, hf₀, hi⟩

theorem command_of_output {b : Build}
    (ho : ({ p with registry := p.closed } : Program).output = .ok b)
    {id : FunctionId} {f : Function} {body : Body} (hf : p.registry.functions[id]? = some f)
    (hb : p.bodies[id]? = some body) (hk : p.isKept id f) :
    ∀ insn ∈ body.commands, ∃ c, insn.command p.closed = .ok c := by
  obtain ⟨-, -, functions, hfunctions, -⟩ := output_ok_iff.mp ho
  have hclosed := hp.functions_closed id
  rw [hf, Option.map_some] at hclosed
  have hzip : (p.closed.functions.zip p.bodies)[id]? = some (p.settled id f, body) :=
    List.getElem?_zip_eq_some.mpr ⟨hclosed, hb⟩
  obtain ⟨out, hout⟩ := Step.mapM_ok_mem hfunctions _ (List.mem_of_getElem? hzip)
  change compileFunction p.closed (p.settled id f) body = _ at hout
  rw [compileFunction, if_pos ((p.isEmitted_settled id f).trans hk), Step.except_bind_ok] at hout
  obtain ⟨commands, hcommands, -⟩ := hout
  exact Step.mapM_ok_mem hcommands

theorem compilable_of_compile {p' : Program} {b : Build} (h : compile p = .ok b p') :
    p.Compilable := by
  obtain ⟨-, ha, ho, -⟩ := (compile_ok_iff hp.stage).mp h
  obtain ⟨registrations, hr, -⟩ := output_ok_iff.mp ho
  refine ⟨fun insn hi id ht => hp.target_of_output ho hi ht, ?_, ?_, ?_, ?_⟩
  · intro event path value hi
    exact (ha _ hi).condition event.id (Condition.ofText path value) (if_pos rfl)
  · intro handler event hi
    obtain ⟨out, hout⟩ := Step.mapM_ok_mem hr _ (List.mem_append_left _ hi)
    obtain ⟨f, -, e, he, -⟩ := Instruction.postapply_eventHandler.mp hout
    exact lt_of_events_closed he
  · -- Both statements agree with the first one that the function has.
    intro handler event event' hi hk hi' hk'
    obtain ⟨f, hf, hfirst⟩ := (ha _ (List.mem_append_left _ hi)).advancement handler event.id
      (if_pos ⟨rfl, hk⟩)
    obtain ⟨f', hf', hfirst'⟩ := (ha _ (List.mem_append_left _ hi')).advancement handler event'.id
      (if_pos ⟨rfl, hk'⟩)
    rw [hf] at hf'
    cases hf'
    rw [hfirst] at hfirst'
    exact Option.some.inj hfirst'
  · intro id f body hf hb hkept
    have hcommand := hp.command_of_output ho hf hb hkept
    refine ⟨fun event he => ?_, fun handler hh => ?_⟩
    · obtain ⟨c, hc⟩ := hcommand _ he
      obtain ⟨e, he, -⟩ := Instruction.command_fireEvent.mp hc
      exact lt_of_events_closed he
    · obtain ⟨c, hc⟩ := hcommand _ hh
      obtain ⟨g, hg, -⟩ := Instruction.command_revokeEventAdv.mp hc
      rw [hp.functions_closed, Option.map_eq_some_iff] at hg
      obtain ⟨g₀, hg₀, -⟩ := hg
      exact (List.getElem?_eq_some_iff.mp hg₀).1

/-! ## Compilable programs are compiled -/

theorem declarable {insn : Instruction} (hc : p.Compilable) (hi : insn ∈ p.preambleStatements) :
    p.registry.Declarable insn := by
  refine ⟨hp.kind_preamble hi, fun id ht => ?_⟩
  obtain ⟨f, hf, -⟩ := hc.targets insn (hp.mem_top_of_target hi ht) id ht
  exact (List.getElem?_eq_some_iff.mp hf).1

theorem mem_of_advancementOf {insn : Instruction} {id : FunctionId} {event : Nat}
    (hi : insn ∈ p.preambleStatements) (ha : insn.advancementOf? id = some event) :
    ∃ handle, handle.kind = .advancement ∧ handle.id = event ∧
      .eventHandler id handle ∈ p.top := by
  cases insn with
  | eventHandler handler handle =>
    simp only [Instruction.advancementOf?, Option.ite_none_right_eq_some, Option.some.injEq] at ha
    obtain ⟨⟨rfl, hk⟩, rfl⟩ := ha
    exact ⟨handle, hk, rfl, hp.mem_top_of_target hi rfl⟩
  | _ => cases ha

theorem applicable {insn : Instruction} (hc : p.Compilable) (hi : insn ∈ p.preambleStatements) :
    p.used.Applicable p.preambleStatements insn := by
  refine ⟨hp.kind_preamble hi, ?_, ?_⟩
  · intro id c hid
    cases insn with
    | addEventCondition event path value =>
      simp only [Instruction.conditionOn?, Option.ite_none_right_eq_some] at hid
      obtain ⟨rfl, -⟩ := hid
      exact hc.conditions event path value hi
    | _ => cases hid
  · intro id event hid
    obtain ⟨handle, hk, rfl, htop⟩ := hp.mem_of_advancementOf hi hid
    obtain ⟨f, hf, -⟩ := hc.targets _ htop id rfl
    obtain ⟨-, hidle⟩ := hp.fresh.idle f (List.mem_of_getElem? hf)
    refine ⟨_, by rw [used, Registry.declared, List.getElem?_mapIdx, hf]; rfl, ?_⟩
    simp only [hidle, Option.none_or]
    -- The first statement of the function is for the same event.
    cases hfirst : p.preambleStatements.findSome? (·.advancementOf? id) with
    | none => rw [List.findSome?_eq_none_iff.mp hfirst insn hi] at hid; cases hid
    | some first =>
      obtain ⟨insn', hi', hid'⟩ := List.exists_of_findSome?_eq_some hfirst
      obtain ⟨handle', hk', rfl, htop'⟩ := hp.mem_of_advancementOf hi' hid'
      rw [hc.single id handle' handle htop' hk' htop hk]

theorem postapply_closed {insn : Instruction} (hc : p.Compilable)
    (hi : insn ∈ p.preambleStatements) :
    insn.postapply p.closed = .ok (p.record? insn).toList := by
  have hclosed (id : FunctionId) (ht : insn.target? = some id) :
      ∃ f, p.registry.functions[id]? = some f ∧
        p.closed.functions[id]? = some (p.settled id f) ∧ (p.settled id f).isInline = false := by
    obtain ⟨f, hf, hinline⟩ := hc.targets insn (hp.mem_top_of_target hi ht) id ht
    exact ⟨f, hf, by rw [hp.functions_closed, hf]; rfl, hinline⟩
  cases insn with
  | addEventCondition event path value => rfl
  | eventHandler handler event =>
    obtain ⟨f, hf, hsettled⟩ := hclosed handler rfl
    have hlt := hc.handled handler event (hp.mem_top_of_target hi rfl)
    have he := p.events_closed event.id
    rw [List.getElem?_eq_getElem hlt, Option.map_some] at he
    refine Instruction.postapply_eventHandler.mpr ⟨_, hsettled, _, he, ?_⟩
    rw [needsRevoke_settled]
    simp [record?, hf, List.getElem?_eq_getElem hlt, settled]
  | setupFn function =>
    obtain ⟨f, hf, hsettled⟩ := hclosed function rfl
    refine Instruction.postapply_setupFn.mpr ⟨_, hsettled, ?_⟩
    simp [record?, hf, settled]
  | _ => cases hp.kind_preamble hi

theorem command_closed {insn : Instruction} (hk : insn.kind = .emitter)
    (hevent : ∀ event, insn = .fireEvent event → event.id < p.registry.events.length)
    (hfunction : ∀ handler, insn = .revokeEventAdv handler →
      handler < p.registry.functions.length) :
    ∃ c, insn.command p.closed = .ok c ∧ p.command? insn = some c := by
  cases insn with
  | fireEvent event =>
    have hlt := hevent event rfl
    have he := p.events_closed event.id
    rw [List.getElem?_eq_getElem hlt, Option.map_some] at he
    refine ⟨_, Instruction.command_fireEvent.mpr ⟨_, he, rfl⟩, ?_⟩
    simp [command?, List.getElem?_eq_getElem hlt, Event.name_attach]
  | revokeEventAdv handler =>
    have hlt := hfunction handler rfl
    have hf := hp.functions_closed handler
    rw [List.getElem?_eq_getElem hlt, Option.map_some] at hf
    refine ⟨_, Instruction.command_revokeEventAdv.mpr ⟨_, hf, rfl⟩, ?_⟩
    simp [command?, List.getElem?_eq_getElem hlt, settled]
  | _ => cases hk

/-- The functions of the closed registry with their bodies, by number. -/
theorem zip_closed :
    p.closed.functions.zip p.bodies =
      (p.registry.functions.zip p.bodies).zipIdx.map fun entry =>
        (p.settled entry.2 entry.1.1, entry.1.2) := by
  refine List.ext_getElem? fun id => ?_
  simp only [List.zip, List.getElem?_map, List.getElem?_zipIdx, List.getElem?_zipWith,
    hp.functions_closed]
  cases p.registry.functions[id]? <;> cases p.bodies[id]? <;> simp

theorem compileFunction_closed {f : Function} {body : Body} {id : FunctionId} (hc : p.Compilable)
    (hf : p.registry.functions[id]? = some f) (hb : p.bodies[id]? = some body) :
    compileFunction p.closed (p.settled id f) body = .ok (p.written? ((f, body), id)).toList := by
  unfold compileFunction
  simp only [written?, isEmitted_settled]
  cases hk : p.isKept id f with
  | false => rfl
  | true =>
    have hcommands : body.commands.mapM (Instruction.command p.closed) =
        .ok (body.commands.filterMap p.command?) := by
      refine Step.mapM_eq_filterMap fun insn hi => ?_
      obtain ⟨hevents, hfunctions⟩ := hc.bodies id f body hf hb hk
      exact hp.command_closed (hp.commands body (List.mem_of_getElem? hb) insn hi)
        (fun event he => hevents event (he ▸ hi)) (fun handler hh => hfunctions handler (hh ▸ hi))
    rw [hcommands]
    rfl

theorem output_closed (hc : p.Compilable) :
    ({ p with registry := p.closed } : Program).output = .ok p.reference := by
  refine output_ok_iff.mpr ⟨_, Step.mapM_eq_map fun insn hi => hp.postapply_closed hc hi,
    ((p.registry.functions.zip p.bodies).zipIdx.map fun entry => (p.written? entry).toList), ?_, ?_⟩
  · show (p.closed.functions.zip p.bodies).mapM _ = _
    rw [hp.zip_closed, List.mapM_map]
    refine Step.mapM_eq_map fun entry he => ?_
    obtain ⟨hf, hb⟩ := List.getElem?_zip_eq_some.mp (List.mem_zipIdx_iff_getElem?.mp he)
    exact hp.compileFunction_closed hc hf hb
  · have hnone : (p.bodies.flatMap (·.preamble)).filterMap p.record? = [] := by
      rw [List.filterMap_eq_nil_iff]
      intro insn hi
      obtain ⟨event, path, value, rfl⟩ := hp.preamble_inert hi
      rfl
    have htop : p.preambleStatements.filterMap p.record? = p.top.filterMap p.record? := by
      rw [preambleStatements, List.filterMap_append, hnone, List.append_nil]
    rw [reference, ← htop, List.filterMap_eq_flatMap_toList, List.filterMap_eq_flatMap_toList]
    rfl

/-- An open program is compiled exactly when it is compilable, and then to its reference. -/
theorem compile_ok_iff_compilable {p' : Program} {b : Build} :
    compile p = .ok b p' ↔
      p.Compilable ∧ b = p.reference ∧ p' = { p with registry := p.closed } := by
  constructor
  · intro h
    have hc := hp.compilable_of_compile h
    obtain ⟨-, -, ho, rfl⟩ := (compile_ok_iff hp.stage).mp h
    rw [hp.output_closed hc] at ho
    exact ⟨hc, (Except.ok.inj ho).symm, rfl⟩
  · rintro ⟨hc, rfl, rfl⟩
    exact (compile_ok_iff hp.stage).mpr ⟨fun insn hi => hp.declarable hc hi,
      fun insn hi => hp.applicable hc hi, hp.output_closed hc, rfl⟩

end Open

/-- **Reference.** However a program was put together, it is compiled exactly when it is
`Compilable`, and then to `reference`. Its events have no conditions of their own, so those of
`reference` are all that statements attach. -/
theorem compile_eq_reference (edits : List Edit) :
    (∀ e ∈ (built edits).registry.events, e.conditions = []) ∧
      ∀ b, (∃ p', compile (built edits) = .ok b p') ↔
        (built edits).Compilable ∧ b = (built edits).reference := by
  refine ⟨built_bare edits, fun b => ?_⟩
  simp only [(built_isOpen edits).compile_ok_iff_compilable]
  simp

/-- The record of a handler has the condition that a later function attaches to its event. The body
of a function that is dropped may refer to what does not exist. -/
theorem compile_eq_reference_lateCondition :
    ∃ edits, (built edits).Compilable ∧ (built edits).reference =
      { functions := [⟨"greet", []⟩]
        registrations :=
          [.handler "greet" (.advancement "minecraft:tick" [⟨["player", "level"], "3"⟩]) true] } := by
  let edits : List Edit :=
    [.addFunction "greet" false false, .addFunction "spare" false false,
      .define "join" (.advEvent "minecraft:tick"), .pushTop (.eventHandler 0 ⟨0, .advancement⟩),
      .pushPreamble 1 (.addEventCondition ⟨0, .tag⟩ "player.level" "3"),
      .pushBody 1 (.fireEvent ⟨9, .tag⟩)]
  have hc : ∃ p', compile (built edits) = .ok
      { functions := [⟨"greet", []⟩]
        registrations :=
          [.handler "greet" (.advancement "minecraft:tick" [⟨["player", "level"], "3"⟩]) true] } p' :=
    ⟨_, rfl⟩
  obtain ⟨hcompilable, hb⟩ := ((compile_eq_reference edits).2 _).mp hc
  exact ⟨edits, hcompilable, hb.symm⟩

end Program

end Datapack
