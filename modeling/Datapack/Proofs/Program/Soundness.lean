import Datapack.Proofs.Instruction.Assembly
import Datapack.Proofs.Program.Reference

/-!
# Well-formed programs do not go wrong

A program hands out event handles and function numbers. If its statements use
no others, and were built by the checked constructors, then no lookup of a
compilation can fail, and no event has the wrong kind. Two refusals are left,
both about how functions are used: a function may not handle two
advancements, and an inline function cannot be called.

**Statements.** `Instruction.Built`: an instruction that comes from one of the
constructors. `History.Issued`: an instruction whose operands were handed out.

**Result.** `wellFormed_sound`: after any calls everything that was handed
out stands for what it says, and a well-formed program is refused exactly for
one of the two reasons.
-/
namespace Datapack

/-! ## The two refusals -/

theorem Error.cause_within (op : Opcode) (e : Error) : (e.within op).cause = e.cause := by
  unfold within
  cases e.op <;> rfl

namespace Instruction

variable {r : Registry} {insn : Instruction} {e : Error}

/-- Applying a statement can only be refused because its function handles another advancement. -/
theorem preapply_error {r' : Registry} (hs : r.stage = .apply) (hk : insn.kind = .preamble)
    (hc : insn.Checked) (hh : ∀ o ∈ insn.operands, r.Holds o)
    (h : insn.preapply r = .error e r') :
    ∃ name, e.cause = .misplaced (.secondAdvancement name) := by
  obtain ⟨e₀, h₀, rfl⟩ := Step.within_error h
  rw [Error.cause_within]
  cases insn with
  | addEventCondition event path value =>
    obtain ⟨known, hknown, hkind⟩ := hh (.event event) (by simp [operands])
    change Registry.addCondition event (Condition.ofText path value) r = _ at h₀
    rw [Registry.addCondition_eq, if_pos hs, hknown] at h₀
    cases known with
    | advancement name cs => cases h₀
    | tag name => rw [show event.kind = .advancement from hc] at hkind; cases hkind
  | eventHandler handler event =>
    have hlt : handler < r.functions.length := hh (.func handler) (by simp [operands])
    simp only at h₀
    cases hkind : event.kind with
    | tag => rw [hkind] at h₀; cases h₀
    | advancement =>
      rw [hkind] at h₀
      change Registry.addRevoke handler event r = _ at h₀
      rw [Registry.addRevoke_eq, if_pos hs, hkind, List.getElem?_eq_getElem hlt] at h₀
      simp only at h₀
      cases ha : r.functions[handler].advancement with
      | none => rw [ha] at h₀; cases h₀
      | some known =>
        rw [ha] at h₀
        simp only at h₀
        split at h₀
        · cases h₀
        · cases h₀
          exact ⟨_, rfl⟩
  | setupFn function => cases h₀
  | _ => cases hk

theorem postapply_inline {id : FunctionId} {f : Function} (ht : insn.target? = some id)
    (hf : r.functions[id]? = some f) (hi : f.isInline = true) :
    insn.postapply r =
      .error ((Cause.inlineHandler insn.opcode f.name).error.within insn.opcode) := by
  have ha (op : Opcode) : r.addressable op id = .error (Cause.inlineHandler op f.name).error := by
    unfold Registry.addressable
    rw [Registry.function_ok.mpr hf]
    exact if_pos hi
  cases insn with
  | eventHandler handler event => cases ht; unfold postapply; simp only [ha]; rfl
  | setupFn function => cases ht; unfold postapply; simp only [ha]; rfl
  | _ => cases ht

/-- Reading a registration off can only be refused because its function is inline. -/
theorem postapply_error (hk : insn.kind = .preamble) (hh : ∀ o ∈ insn.operands, r.Holds o)
    (h : insn.postapply r = .error e) : ∃ op name, e.cause = .inlineHandler op name := by
  have inline (id : FunctionId) (ht : insn.target? = some id) (hlt : id < r.functions.length)
      (hi : r.functions[id].isInline = true) : ∃ op name, e.cause = .inlineHandler op name := by
    rw [postapply_inline ht (List.getElem?_eq_getElem hlt) hi] at h
    cases h
    exact ⟨_, _, Error.cause_within _ _⟩
  cases insn with
  | addEventCondition event path value => cases h
  | eventHandler handler event =>
    have hlt : handler < r.functions.length := hh (.func handler) (by simp [operands])
    obtain ⟨known, hknown, -⟩ := hh (.event event) (by simp [operands])
    cases hi : r.functions[handler].isInline with
    | true => exact inline handler rfl hlt hi
    | false =>
      rw [postapply_eventHandler.mpr
        ⟨_, ⟨List.getElem?_eq_getElem hlt, hi⟩, known, hknown, rfl⟩] at h
      cases h
  | setupFn function =>
    have hlt : function < r.functions.length := hh (.func function) (by simp [operands])
    cases hi : r.functions[function].isInline with
    | true => exact inline function rfl hlt hi
    | false =>
      rw [postapply_setupFn.mpr ⟨_, ⟨List.getElem?_eq_getElem hlt, hi⟩, rfl⟩] at h
      cases h
  | _ => cases hk

theorem command_total (hk : insn.kind = .emitter) (hh : ∀ o ∈ insn.operands, r.Holds o) :
    ∃ c, insn.command r = .ok c := by
  cases insn with
  | fireEvent event =>
    obtain ⟨known, hknown, -⟩ := hh (.event event) (by simp [operands])
    exact ⟨_, command_fireEvent.mpr ⟨known, hknown, rfl⟩⟩
  | revokeEventAdv handler =>
    have hlt : handler < r.functions.length := hh (.func handler) (by simp [operands])
    exact ⟨_, command_revokeEventAdv.mpr ⟨_, List.getElem?_eq_getElem hlt, rfl⟩⟩
  | _ => cases hk

end Instruction

namespace Program

/-- All statements of a program. -/
def statements (p : Program) : List Instruction :=
  p.top ++ p.bodies.flatMap (·.preamble) ++ p.bodies.flatMap (·.commands)

/-- Everything that a statement refers to is there, with the kind that it is said to have. -/
def Held (p : Program) : Prop := ∀ insn ∈ p.statements, ∀ o ∈ insn.operands, p.registry.Holds o

/-- The events and functions that an instruction refers to have been handed out. -/
def History.Issued (h : History) (insn : Instruction) : Prop := ∀ o ∈ insn.arguments, o ∈ h.granted

instance (h : History) (insn : Instruction) : Decidable (h.Issued insn) :=
  List.decidableBAll (· ∈ h.granted) insn.arguments

theorem History.held {calls : List Call}
    (hi : ∀ insn ∈ (of calls).program.statements, (of calls).Issued insn) :
    (of calls).program.Held := by
  intro insn hm o ho
  cases o with
  | str text => trivial
  | event handle => exact History.holds calls _ (hi insn hm _ (List.mem_filter.mpr ⟨ho, rfl⟩))
  | func id => exact History.holds calls _ (hi insn hm _ (List.mem_filter.mpr ⟨ho, rfl⟩))

/-- A function is registered for two advancement events. -/
def HandlesTwo (p : Program) : Prop :=
  ∃ handler event event', .eventHandler handler event ∈ p.top ∧ event.kind = .advancement ∧
    .eventHandler handler event' ∈ p.top ∧ event'.kind = .advancement ∧ event.id ≠ event'.id

/-- A handler or setup statement names an inline function. -/
def TargetsInline (p : Program) : Prop :=
  ∃ insn ∈ p.top, ∃ id f, insn.target? = some id ∧ p.registry.functions[id]? = some f ∧
    f.isInline = true

/-! ## Where an output is refused -/

theorem output_error_cases {p : Program} {e : Error} (h : p.output = .error e) :
    p.preambleStatements.mapM (Instruction.postapply p.registry) = .error e ∨
      (p.registry.functions.zip p.bodies).mapM
        (fun entry => compileFunction p.registry entry.1 entry.2) = .error e := by
  unfold output at h
  rcases Step.except_bind_error h with h | ⟨registrations, -, h⟩
  · exact .inl h
  · rcases Step.except_bind_error h with h | ⟨functions, -, h⟩
    · exact .inr h
    · cases h

theorem compileFunction_error {r : Registry} {f : Function} {body : Body} {e : Error}
    (h : compileFunction r f body = .error e) :
    ∃ insn ∈ body.commands, insn.command r = .error e := by
  unfold compileFunction at h
  split at h
  · rcases Step.except_bind_error h with h | ⟨commands, -, h⟩
    · exact Step.mapM_error_mem h
    · cases h
  · cases h

theorem holds_closed {p : Program} {o : Operand} (ho : p.registry.Holds o) : p.closed.Holds o := by
  cases o with
  | str text => trivial
  | func id => simpa [Registry.Holds, closed, used, Registry.applied, Registry.declared] using ho
  | event handle =>
    obtain ⟨e, he, hk⟩ := ho
    refine ⟨_, by rw [events_closed, he]; rfl, ?_⟩
    rw [Event.kind_attach, hk]

/-! ## When a well-formed program is compiled -/

/-- The program is open, and its statements are checked and refer to what is there. -/
structure WellFormed (p : Program) : Prop extends p.Open where
  checked : ∀ insn ∈ p.statements, insn.Checked
  held : p.Held

namespace WellFormed

variable {p : Program} (hp : p.WellFormed)
include hp

theorem holds_top {insn : Instruction} (hi : insn ∈ p.top) :
    ∀ o ∈ insn.operands, p.registry.Holds o :=
  hp.held insn (List.mem_append_left _ (List.mem_append_left _ hi))

theorem function_of_target {insn : Instruction} {id : FunctionId} (hi : insn ∈ p.top)
    (ht : insn.target? = some id) : id < p.registry.functions.length := by
  have ho : .func id ∈ insn.operands := by
    cases insn <;> cases ht <;> simp [Instruction.operands]
  exact hp.holds_top hi _ ho

/-- Of the conditions of `Compilable` only two are left to meet. -/
theorem compilable_iff : p.Compilable ↔ ¬ p.HandlesTwo ∧ ¬ p.TargetsInline := by
  constructor
  · intro hc
    refine ⟨?_, ?_⟩
    · rintro ⟨handler, event, event', hi, hk, hi', hk', hne⟩
      exact hne (hc.single handler event event' hi hk hi' hk')
    · rintro ⟨insn, hi, id, f, ht, hf, hinline⟩
      obtain ⟨g, hg, hn⟩ := hc.targets insn hi id ht
      rw [hf] at hg
      cases hg
      rw [hinline] at hn
      cases hn
  · rintro ⟨htwo, hinline⟩
    refine ⟨?_, ?_, ?_, ?_, ?_⟩
    · intro insn hi id ht
      have hlt := hp.function_of_target hi ht
      refine ⟨_, List.getElem?_eq_getElem hlt, ?_⟩
      rw [Bool.eq_false_iff]
      exact fun h => hinline ⟨insn, hi, id, _, ht, List.getElem?_eq_getElem hlt, h⟩
    · intro event path value hi
      have hm : .addEventCondition event path value ∈ p.statements := List.mem_append_left _ hi
      have hk : event.kind = .advancement := hp.checked _ hm
      obtain ⟨e, he, hek⟩ := hp.held _ hm (.event event) (by simp [Instruction.operands])
      rw [hk] at hek
      cases e with
      | advancement name cs => exact ⟨name, cs, he⟩
      | tag name => cases hek
    · intro handler event hi
      obtain ⟨e, he, -⟩ := hp.holds_top hi (.event event) (by simp [Instruction.operands])
      exact (List.getElem?_eq_some_iff.mp he).1
    · intro handler event event' hi hk hi' hk'
      exact Decidable.byContradiction fun hne =>
        htwo ⟨handler, event, event', hi, hk, hi', hk', hne⟩
    · intro id f body hf hb hkept
      have hm {insn : Instruction} (hi : insn ∈ body.commands) : insn ∈ p.statements :=
        List.mem_append_right _ (List.mem_flatMap.mpr ⟨body, List.mem_of_getElem? hb, hi⟩)
      refine ⟨fun event hi => ?_, fun handler hi => ?_⟩
      · obtain ⟨e, he, -⟩ := hp.held _ (hm hi) (.event event) (by simp [Instruction.operands])
        exact (List.getElem?_eq_some_iff.mp he).1
      · exact hp.held _ (hm hi) (.func handler) (by simp [Instruction.operands])

theorem refused_iff : (∃ e p', compile p = .error e p') ↔ p.HandlesTwo ∨ p.TargetsInline := by
  have hok : (∃ b p', compile p = .ok b p') ↔ ¬ p.HandlesTwo ∧ ¬ p.TargetsInline := by
    simp only [hp.toOpen.compile_ok_iff_compilable, hp.compilable_iff]
    simp
  have htotal : (∃ e p', compile p = .error e p') ↔ ¬ ∃ b p', compile p = .ok b p' := by
    cases compile p <;> simp
  rw [htotal, hok, ← not_or, Classical.not_not]

/-! ## Why a well-formed program is refused -/

theorem declarable {insn : Instruction} (hi : insn ∈ p.preambleStatements) :
    p.registry.Declarable insn :=
  ⟨hp.kind_preamble hi, fun _ ht => hp.function_of_target (hp.mem_top_of_target hi ht) ht⟩

theorem preapplyAll_error {e : Error} {r' : Registry}
    (h : p.preambleStatements.forM Instruction.preapply p.used = .error e r') :
    ∃ name, e.cause = .misplaced (.secondAdvancement name) := by
  let I (r : Registry) : Prop := p.registry.Grows r ∧ r.stage = .apply
  have hkeeps : ∀ insn ∈ p.preambleStatements, Step.Keeps I insn.preapply := by
    intro insn _ r hr
    have hc := Registry.change_preapply insn r
    exact ⟨hr.1.trans hc.grows, hc.stage_eq.trans hr.2⟩
  have hstart : I p.used :=
    ⟨⟨List.prefix_refl _, by simp [used, Registry.declared]⟩, rfl⟩
  obtain ⟨insn, hi, r, ⟨hgrows, hs⟩, hr⟩ := Step.forM_error _ hkeeps _ hstart h
  have hm : insn ∈ p.statements := List.mem_append_left _ hi
  exact Instruction.preapply_error hs (hp.kind_preamble hi) (hp.checked insn hm)
    (fun o ho => (hp.held insn hm o ho).mono hgrows) hr

theorem output_error {e : Error}
    (h : ({ p with registry := p.closed } : Program).output = .error e) :
    ∃ op name, e.cause = .inlineHandler op name := by
  rcases output_error_cases h with hr | hf
  · obtain ⟨insn, hi, he⟩ := Step.mapM_error_mem hr
    exact Instruction.postapply_error (hp.kind_preamble hi)
      (fun o ho => holds_closed (hp.held insn (List.mem_append_left _ hi) o ho)) he
  · obtain ⟨⟨f, body⟩, hm, he⟩ := Step.mapM_error_mem hf
    have hb : body ∈ p.bodies := (List.of_mem_zip hm).2
    obtain ⟨insn, hi, he⟩ := compileFunction_error he
    have hs : insn ∈ p.statements :=
      List.mem_append_right _ (List.mem_flatMap.mpr ⟨body, hb, hi⟩)
    obtain ⟨c, hc⟩ := Instruction.command_total (r := p.closed) (hp.commands body hb insn hi)
      fun o ho => holds_closed (hp.held insn hs o ho)
    rw [hc] at he
    cases he

theorem refused_cause {e : Error} {p' : Program} (h : compile p = .error e p') :
    (∃ name, e.cause = .misplaced (.secondAdvancement name)) ∨
      ∃ op name, e.cause = .inlineHandler op name := by
  have hd : ∀ insn ∈ p.preambleStatements, p.registry.Declarable insn :=
    fun insn hi => hp.declarable hi
  cases hr : p.preambleStatements.forM Instruction.preapply p.used with
  | error e' r =>
    rw [compile_of_declarable hp.stage hd, hr] at h
    cases h
    exact .inl (hp.preapplyAll_error hr)
  | ok u r =>
    have ha := ((Registry.preapplyAll_ok_iff rfl).mp hr).1
    rw [compile_of_applicable hp.stage hd ha] at h
    cases ho : ({ p with registry := p.closed } : Program).output with
    | ok b => rw [ho] at h; cases h
    | error e' => rw [ho] at h; cases h; exact .inr (hp.output_error ho)

end WellFormed

theorem History.wellFormed {calls : List Call}
    (hs : (of calls).program.registry.stage = .define)
    (hb : ∀ insn ∈ (of calls).program.statements, insn.Built ∧ (of calls).Issued insn) :
    (of calls).program.WellFormed where
  toOpen := History.isOpen calls hs
  checked insn hi := (hb insn hi).1.checked
  held := History.held fun insn hi => (hb insn hi).2

/-- **Soundness.** After any calls, every handle that was handed out stands for an event of its
kind, and every function number for a function. While such a program is open, and if its
statements were built by the checked constructors from what it has handed out, its compilation is
refused exactly when a function is registered for two advancements or an inline function is a
target, and for no other reason. -/
theorem wellFormed_sound (calls : List Call) (h : History) (hh : History.of calls = h) :
    (∀ handle, .event handle ∈ h.granted →
      ∃ e, h.program.registry.events[handle.id]? = some e ∧ e.kind = handle.kind) ∧
    (∀ id, .func id ∈ h.granted → id < h.program.registry.functions.length) ∧
    (h.program.registry.stage = .define →
      (∀ insn ∈ h.program.statements, insn.Built ∧ h.Issued insn) →
      ((∃ e p', compile h.program = .error e p') ↔
        h.program.HandlesTwo ∨ h.program.TargetsInline) ∧
      ∀ e p', compile h.program = .error e p' →
        (∃ name, e.cause = .misplaced (.secondAdvancement name)) ∨
          ∃ op name, e.cause = .inlineHandler op name) := by
  subst hh
  refine ⟨fun handle hg => History.holds calls _ hg, fun id hg => History.holds calls _ hg, ?_⟩
  intro hs hb
  have hp := History.wellFormed hs hb
  exact ⟨hp.refused_iff, fun e p' he => hp.refused_cause he⟩

/-- A function that is registered for two advancements, one of them with a condition, and that
fires a tag. -/
theorem wellFormed_sound_twoAdvancements :
    ∃ calls h, History.of calls = h ∧ h.program.registry.stage = .define ∧
      (∀ insn ∈ h.program.statements, insn.Built ∧ h.Issued insn) ∧ h.program.HandlesTwo ∧
      ∃ e p', compile h.program = .error e p' ∧
        ((∃ name, e.cause = .misplaced (.secondAdvancement name)) ∨
          ∃ op name, e.cause = .inlineHandler op name) := by
  let calls : List Call := List.map .edit
    [.addFunction "greet" false false, .define "join" (.advEvent "minecraft:tick"),
      .define "kill" (.advEvent "minecraft:player_killed_entity"),
      .define "done" (.tagEvent "pack:done"),
      .pushTop (.addEventCondition ⟨1, .advancement⟩ "entity.type" "minecraft:pig"),
      .pushTop (.eventHandler 0 ⟨0, .advancement⟩), .pushTop (.eventHandler 0 ⟨1, .advancement⟩),
      .pushBody 0 (.fireEvent ⟨2, .tag⟩)]
  have hb : ∀ insn ∈ (History.of calls).program.statements,
      insn.Built ∧ (History.of calls).Issued insn := by
    have hl : (History.of calls).program.statements =
        [.addEventCondition ⟨1, .advancement⟩ "entity.type" "minecraft:pig",
          .eventHandler 0 ⟨0, .advancement⟩, .eventHandler 0 ⟨1, .advancement⟩,
          .fireEvent ⟨2, .tag⟩] := rfl
    simp only [hl, List.forall_mem_cons]
    have condition : Instruction.addCondition ⟨1, .advancement⟩ "entity.type" "minecraft:pig" =
        .ok _ := rfl
    have fire : Instruction.fire ⟨2, .tag⟩ = .ok _ := rfl
    exact ⟨⟨.addCondition condition, by decide⟩, ⟨.handle rfl, by decide⟩,
      ⟨.handle rfl, by decide⟩, ⟨.fire fire, by decide⟩, by simp⟩
  have htwo : (History.of calls).program.HandlesTwo :=
    ⟨0, ⟨0, .advancement⟩, ⟨1, .advancement⟩, by decide, rfl, by decide, rfl, by decide⟩
  obtain ⟨hiff, hcause⟩ := (wellFormed_sound calls _ rfl).2.2 rfl hb
  obtain ⟨e, p', he⟩ := hiff.mpr (.inl htwo)
  exact ⟨calls, _, rfl, rfl, hb, htwo, e, p', he, hcause e p' he⟩

end Program

end Datapack
