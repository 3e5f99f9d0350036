import Datapack.Proofs.Program.Progress
import Datapack.Proofs.Program.Soundness

/-!
# The stages of a program

A program leaves the define stage when it is compiled, whether that succeeds or
not, and does not come back to it. Each operation belongs to a stage and is
untimely in the others.

**Before.** The passes of the first compilation do in each stage only what belongs
there, so it is never refused as untimely (`Open.compile_timely`).

**After.** What builds a program up is refused (`Call.refused`), so that its events,
functions and statements stay what they were (`Call.outline_eq`). A compilation that
is refused may leave a stage in which functions can still be marked and conditions
still be attached; one that succeeds leaves none (`Call.registry_eq`).
-/
namespace Datapack

/-! ## Untimely errors -/

/-- The root of the error is that something was done at the wrong time. -/
def Error.isUntimely (e : Error) : Bool :=
  match e.cause with
  | .untimely _ => true
  | _ => false

theorem Error.isUntimely_within (op : Opcode) (e : Error) :
    (e.within op).isUntimely = e.isUntimely := by
  unfold isUntimely
  rw [cause_within]

namespace Registry

variable {r r' : Registry} {e : Error}

theorem markUsed_timely {id : FunctionId} (hs : r.stage = .declare)
    (h : markUsed id r = .error e r') : e.isUntimely = false := by
  rw [markUsed_eq, if_pos hs] at h
  split at h
  · cases h
  · cases h; rfl

theorem addCondition_timely {event : EventHandle} {c : Condition} (hs : r.stage = .apply)
    (h : addCondition event c r = .error e r') : e.isUntimely = false := by
  rw [addCondition_eq, if_pos hs] at h
  split at h
  · cases h
  · cases h; rfl
  · cases h; rfl

theorem addRevoke_timely {id : FunctionId} {event : EventHandle} (hs : r.stage = .apply)
    (h : addRevoke id event r = .error e r') : e.isUntimely = false := by
  rw [addRevoke_eq, if_pos hs] at h
  split at h
  · cases h; rfl
  · cases h; rfl
  · cases h; rfl
  · split at h
    · cases h
    · split at h
      · cases h
      · cases h; rfl

theorem function_timely {id : FunctionId} (h : r.function id = .error e) :
    e.isUntimely = false := by
  unfold function at h
  split at h
  · cases h
  · cases h; rfl

theorem event_timely {event : EventHandle} (h : r.event event = .error e) :
    e.isUntimely = false := by
  unfold Registry.event eventAt at h
  split at h
  · cases h
  · cases h; rfl

theorem addressable_timely {op : Opcode} {id : FunctionId} (h : r.addressable op id = .error e) :
    e.isUntimely = false := by
  unfold addressable at h
  rcases Step.except_bind_error h with h | ⟨f, -, h⟩
  · exact function_timely h
  · split at h
    · cases h; rfl
    · cases h

/-- A closed registry changes no more. -/
theorem Change.eq_of_closed (h : r.Change r') (hs : r.stage = .closed) : r' = r := by
  cases h with
  | nothing => rfl
  | event e stage => rw [hs] at stage; cases stage
  | function f stage _ _ => rw [hs] at stage; cases stage
  | used id f stage _ => rw [hs] at stage; cases stage
  | condition id name cs c stage _ => rw [hs] at stage; cases stage
  | revoke id f event stage _ _ => rw [hs] at stage; cases stage

end Registry

namespace Instruction

variable {insn : Instruction} {r r' : Registry} {e : Error}

theorem declare_timely (hk : insn.kind = .preamble) (hs : r.stage = .declare)
    (h : insn.declare r = .error e r') : e.isUntimely = false := by
  obtain ⟨e₀, h₀, rfl⟩ := Step.within_error h
  rw [Error.isUntimely_within]
  cases insn with
  | addEventCondition event path value => cases h₀
  | eventHandler handler event => exact Registry.markUsed_timely hs h₀
  | setupFn function => exact Registry.markUsed_timely hs h₀
  | _ => cases hk

theorem preapply_timely (hk : insn.kind = .preamble) (hs : r.stage = .apply)
    (h : insn.preapply r = .error e r') : e.isUntimely = false := by
  obtain ⟨e₀, h₀, rfl⟩ := Step.within_error h
  rw [Error.isUntimely_within]
  cases insn with
  | addEventCondition event path value => exact Registry.addCondition_timely hs h₀
  | eventHandler handler event =>
    simp only at h₀
    cases hkind : event.kind with
    | tag => rw [hkind] at h₀; cases h₀
    | advancement => rw [hkind] at h₀; exact Registry.addRevoke_timely hs h₀
  | setupFn function => cases h₀
  | _ => cases hk

theorem postapply_timely (hk : insn.kind = .preamble) (h : insn.postapply r = .error e) :
    e.isUntimely = false := by
  obtain ⟨e₀, h₀, rfl⟩ := Step.mapError_error h
  rw [Error.isUntimely_within]
  cases insn with
  | addEventCondition event path value => cases h₀
  | eventHandler handler event =>
    rcases Step.except_bind_error h₀ with h₀ | ⟨f, -, h₀⟩
    · exact Registry.addressable_timely h₀
    · rcases Step.except_bind_error h₀ with h₀ | ⟨known, -, h₀⟩
      · exact Registry.event_timely h₀
      · cases h₀
  | setupFn function =>
    rcases Step.except_bind_error h₀ with h₀ | ⟨f, -, h₀⟩
    · exact Registry.addressable_timely h₀
    · cases h₀
  | _ => cases hk

theorem command_timely (hk : insn.kind = .emitter) (h : insn.command r = .error e) :
    e.isUntimely = false := by
  obtain ⟨e₀, h₀, rfl⟩ := Step.mapError_error h
  rw [Error.isUntimely_within]
  cases insn with
  | fireEvent event =>
    rcases Step.except_bind_error h₀ with h₀ | ⟨known, -, h₀⟩
    · exact Registry.event_timely h₀
    · cases h₀
  | revokeEventAdv handler =>
    rcases Step.except_bind_error h₀ with h₀ | ⟨f, -, h₀⟩
    · exact Registry.function_timely h₀
    · cases h₀
  | _ => cases hk

end Instruction

namespace Program

open Step (after)

/-! ## The first compilation -/

/-- A pass whose statements are timely in its stage is timely. -/
theorem pass_timely {act : Instruction → Step Registry Unit} {stage : Stage}
    (hact : ∀ insn (r : Registry), r.Change (after (act insn) r)) {l : List Instruction}
    (hl : ∀ insn ∈ l, ∀ {r r' e}, r.stage = stage → act insn r = .error e r' →
      e.isUntimely = false)
    {r r' : Registry} {e : Error} (hs : r.stage = stage) (h : l.forM act r = .error e r') :
    e.isUntimely = false := by
  obtain ⟨insn, hi, r₁, hs₁, h₁⟩ := Step.forM_error (I := fun r => r.stage = stage) l
    (fun insn _ r hr => (hact insn r).stage_eq.trans hr) r hs h
  exact hl insn hi hs₁ h₁

namespace Open

variable {p : Program} (hp : p.Open)
include hp

theorem output_timely {r : Registry} {e : Error}
    (h : ({ p with registry := r } : Program).output = .error e) : e.isUntimely = false := by
  rcases output_error_cases h with h | h
  · obtain ⟨insn, hi, h⟩ := Step.mapM_error_mem h
    exact Instruction.postapply_timely (hp.kind_preamble hi) h
  · obtain ⟨⟨f, body⟩, hm, h⟩ := Step.mapM_error_mem h
    obtain ⟨insn, hi, h⟩ := compileFunction_error h
    exact Instruction.command_timely (hp.commands body (List.of_mem_zip hm).2 insn hi) h

theorem compile_timely {p' : Program} {e : Error} (h : compile p = .error e p') :
    e.isUntimely = false := by
  rw [compile_eq hp.stage] at h
  split at h
  · rename_i h₁
    cases h
    exact pass_timely Registry.change_declare
      (fun insn hi => Instruction.declare_timely (hp.kind_preamble hi)) rfl h₁
  · split at h
    · rename_i h₂
      cases h
      exact pass_timely Registry.change_preapply
        (fun insn hi => Instruction.preapply_timely (hp.kind_preamble hi)) rfl h₂
    · split at h
      · rename_i h₃
        cases h
        exact hp.output_timely h₃
      · cases h

end Open

/-! ## What builds a program up -/

def Edit.isBuilding : Edit → Bool
  | .addFunction .. | .pushTop _ | .pushPreamble .. | .pushBody .. => true
  | .define _ insn => insn.kind = .constructor
  | .defineText _ text arguments =>
    (Instruction.read text arguments).toOption.any (·.kind = .constructor)
  | .bind .. => false

def Direct.isBuilding : Direct → Bool
  | .createEvent _ | .addFunction .. => true
  | .construct insn => insn.kind = .constructor
  | _ => false

/-- The call compiles, or it adds an event, a function or a statement. -/
def Call.isBuilding : Call → Bool
  | .compile => true
  | .edit e => e.isBuilding
  | .direct d => d.isBuilding

section
variable {p : Program} (hs : p.registry.stage ≠ .define)
include hs

theorem checkOpen_refused (insn : Instruction) :
    ∃ e, p.checkOpen insn = .error e ∧ e.isUntimely = true :=
  ⟨_, if_pos hs, Error.isUntimely_within _ _⟩

theorem define_refused {insn : Instruction} (hk : insn.kind = .constructor) (name : String) :
    ∃ e, define name insn p = .error e p ∧ e.isUntimely = true := by
  obtain ⟨event, he⟩ := (kind_constructor_iff insn).mp hk
  rw [define_of_event he, if_neg hs]
  exact ⟨_, rfl, Error.isUntimely_within _ _⟩

theorem Edit.refused {e : Edit} (hb : e.isBuilding = true) :
    ∃ err, e.perform p = .error err p ∧ err.isUntimely = true := by
  -- A push looks at the stage before anything else.
  have push {x : Step Program Unit} (insn : Instruction)
      (hx : ∀ err, p.checkOpen insn = .error err → x p = .error err p) :
      ∃ err, (x >>= fun _ => pure (none : Option Operand)) p = .error err p ∧
        err.isUntimely = true := by
    obtain ⟨err, herr, hu⟩ := checkOpen_refused hs insn
    exact ⟨err, Step.bind_of_error (hx err herr), hu⟩
  cases e with
  | addFunction name isInline isPinned =>
    have h := addFunction_eq { name, isInline, isPinned } p
    rw [if_neg hs] at h
    exact ⟨_, Step.bind_of_error h, rfl⟩
  | define name insn =>
    obtain ⟨err, h, hu⟩ := define_refused hs (of_decide_eq_true hb) name
    exact ⟨err, Step.bind_of_error h, hu⟩
  | defineText name text arguments =>
    simp only [isBuilding] at hb
    cases hr : Instruction.read text arguments with
    | error err => rw [hr] at hb; cases hb
    | ok insn =>
      rw [hr] at hb
      obtain ⟨err, h, hu⟩ := define_refused hs (of_decide_eq_true hb) name
      have hread : Program.defineText name text arguments p = .error err p := by
        unfold Program.defineText
        rw [Step.ofExcept_bind, hr]
        exact h
      exact ⟨err, Step.bind_of_error hread, hu⟩
  | bind name value => cases hb
  | pushTop insn =>
    refine push insn fun err herr => ?_
    unfold Program.pushTop
    rw [Step.get_bind, Step.ofExcept_bind, herr]
  | pushPreamble id insn =>
    refine push insn fun err herr => ?_
    unfold Program.pushPreamble
    rw [Step.get_bind, Step.ofExcept_bind, herr]
  | pushBody id insn =>
    refine push insn fun err herr => ?_
    unfold Program.pushBody
    rw [Step.get_bind, Step.ofExcept_bind, herr]

theorem Direct.refused {d : Direct} (hb : d.isBuilding = true) :
    ∃ err, d.perform p.registry = .error err p.registry ∧ err.isUntimely = true := by
  cases d with
  | createEvent event =>
    have h := Registry.createEvent_eq event p.registry
    rw [if_neg hs] at h
    exact ⟨_, Step.bind_of_error h, rfl⟩
  | addFunction name isInline isPinned =>
    have h := Registry.addFunction_eq { name, isInline, isPinned } p.registry
    rw [if_neg hs] at h
    exact ⟨_, Step.bind_of_error h, rfl⟩
  | construct insn =>
    obtain ⟨event, he⟩ := (kind_constructor_iff insn).mp (of_decide_eq_true hb)
    have h := construct_eq he p.registry
    rw [if_neg hs] at h
    exact ⟨_, Step.bind_of_error h, Error.isUntimely_within _ _⟩
  | _ => cases hb

theorem Call.refused {c : Call} (hb : c.isBuilding = true) :
    ∃ err, c.perform p = .error err p ∧ err.isUntimely = true := by
  cases c with
  | edit e => exact Edit.refused hs hb
  | compile => exact ⟨_, Step.bind_of_error (compile_refused hs), rfl⟩
  | direct d =>
    obtain ⟨err, h, hu⟩ := Direct.refused hs hb
    exact ⟨err, onRegistry_of_error h, hu⟩

theorem Call.after_refused {c : Call} (hb : c.isBuilding = true) : after c.perform p = p := by
  obtain ⟨err, h, -⟩ := Call.refused hs hb
  exact Step.after_of_error h

end

/-! ## What stays -/

/-- What there is in a program: its events and functions, whatever has happened to them since they
were declared, and its statements. -/
structure Outline where
  events : List (String × EventKind)
  functions : List (String × Bool × Bool)
  top : List Instruction
  bodies : List Body
  deriving DecidableEq

def outline (p : Program) : Outline where
  events := p.registry.events.map fun e => (e.name, e.kind)
  functions := p.registry.functions.map fun f => (f.name, f.isInline, f.isPinned)
  top := p.top
  bodies := p.bodies

theorem outline_onRegistry {p : Program} {r : Registry} (h : p.registry.Change r)
    (hs : p.registry.stage ≠ .define) :
    ({ p with registry := r } : Program).outline = p.outline := by
  cases h with
  | nothing => rfl
  | event e stage => exact absurd stage hs
  | function f stage _ _ => exact absurd stage hs
  | used id f _ known => simp only [outline, Registry.map_set_same known]
  | condition id name cs c _ known =>
    have hsame : (p.registry.events.set id (.advancement name (cs ++ [c]))).map
        (fun e => (e.name, e.kind)) = p.registry.events.map fun e => (e.name, e.kind) :=
      Registry.map_set_same known rfl
    simp only [outline, hsame]
  | revoke id f event _ known _ => simp only [outline, Registry.map_set_same known]

/-- After the define stage, an edit adds values at most. -/
theorem Change.eq_values {p p' : Program} (h : Change p p') (hs : p.registry.stage ≠ .define) :
    p' = { p with values := p'.values } := by
  cases h with
  | nothing => rfl
  | value entry => rfl
  | function f stage _ _ => exact absurd stage hs
  | event e entry stage _ => exact absurd stage hs
  | top insn stage _ => exact absurd stage hs
  | preamble id body insn stage _ _ _ => exact absurd stage hs
  | command id body insn stage _ _ => exact absurd stage hs

theorem Call.outline_eq (c : Call) {p : Program} (hs : p.registry.stage ≠ .define) :
    (after c.perform p).outline = p.outline := by
  cases c with
  | edit e =>
    show (after e.perform p).outline = _
    rw [(e.change p).eq_values hs]
    rfl
  | compile => rw [Call.after_refused hs rfl]
  | direct d =>
    show (after (onRegistry d.perform) p).outline = _
    rw [after_onRegistry]
    exact outline_onRegistry (d.change p.registry) hs

theorem Call.registry_eq (c : Call) {p : Program} (hs : p.registry.stage = .closed) :
    (after c.perform p).registry = p.registry := by
  have hd : p.registry.stage ≠ .define := by rw [hs]; decide
  cases c with
  | edit e =>
    show (after e.perform p).registry = _
    rw [(e.change p).eq_values hd]
  | compile => rw [Call.after_refused hd rfl]
  | direct d =>
    show (after (onRegistry d.perform) p).registry = _
    rw [after_onRegistry]
    exact (d.change p.registry).eq_of_closed hs

theorem outline_compile (p : Program) : (after compile p).outline = p.outline := by
  have h := keeps_compile (p := p)
    (I := fun r => r.stage ≠ .define ∧ ({ p with registry := r } : Program).outline = p.outline)
    (fun r r' hc hr => ⟨hc.stage_eq ▸ hr.1,
      (outline_onRegistry (p := { p with registry := r }) hc hr.1).trans hr.2⟩)
    (fun r stage hr hne => ⟨hne, hr.2⟩) (fun _ => ⟨fun hd => (by cases hd), rfl⟩)
    fun hne => ⟨hne, rfl⟩
  rw [after_compile]
  exact h.2

theorem stage_of_compile {p p' : Program} {b : Build} (h : compile p = .ok b p') :
    p'.registry.stage = .closed := by
  by_cases hs : p.registry.stage = .define
  · rw [(compile_ok_iff hs).mp h |>.2.2.2]
    rfl
  · rw [compile_refused hs] at h
    cases h

/-! ## Whole runs -/

namespace History

theorem stage_of (calls : List Call) (h : .compile ∉ calls) :
    (of calls).program.registry.stage = .define := by
  refine of_induct (P := fun s => s.program.registry.stage = .define) rfl fun c hc s hs => ?_
  have hne : c ≠ .compile := by
    rintro rfl
    exact h hc
  rw [program_call, Call.stage_eq hne]
  exact hs

/-- Past a compilation, whatever came of it. -/
theorem past (calls later : List Call) :
    (of (calls ++ .compile :: later)).program.registry.stage ≠ .define ∧
      (of (calls ++ .compile :: later)).program.outline = (of calls).program.outline := by
  let P (q : Program) : Prop :=
    q.registry.stage ≠ .define ∧ q.outline = (of calls).program.outline
  rw [of_append, List.foldl_cons]
  refine foldl_induct (P := fun s => P s.program) ?_ ?_
  · rw [program_call]
    exact Step.after_returning (P := P) ⟨stage_compile _, outline_compile _⟩ fun _ _ => none
  · intro c _ s hs
    rw [program_call]
    exact ⟨fun hd => hs.1 (Call.stage_define hd).1, (c.outline_eq hs.1).trans hs.2⟩

/-- Past a compilation that succeeded. -/
theorem registry_past {calls : List Call} {b : Build} {p' : Program}
    (h : compile (of calls).program = .ok b p') (later : List Call) :
    (of (calls ++ .compile :: later)).program.registry = p'.registry := by
  rw [of_append, List.foldl_cons]
  refine foldl_induct (P := fun s => s.program.registry = p'.registry) ?_ ?_
  · rw [program_call]
    exact Step.after_returning (P := fun q : Program => q.registry = p'.registry)
      (by rw [Step.after_of_ok h]) fun _ _ => none
  · intro c _ s hs
    have hclosed : s.program.registry.stage = .closed := by rw [hs]; exact stage_of_compile h
    rw [program_call, c.registry_eq hclosed]
    exact hs

end History

/-- **Discipline.** Take any calls, successful or refused, on a program and on its registry.

Without a compilation among them the program is in the define stage, and its first compilation is
not refused as untimely. After a compilation, successful or refused, and any later calls, it has
left the define stage, whatever builds a program up is refused as untimely without a change, and
its events, functions and statements are those that were compiled. After one that succeeded, it is
closed, and its registry changes no more.

A program whose statements are marked at each visit, and which checks the marks and the order of
the stages, gives the same answers throughout. -/
theorem stage_discipline (calls : List Call) :
    (.compile ∉ calls → (History.of calls).program.registry.stage = .define ∧
      ∀ e p', compile (History.of calls).program = .error e p' → e.isUntimely = false) ∧
    (∀ later p, (History.of (calls ++ .compile :: later)).program = p →
      p.registry.stage ≠ .define ∧
      (∀ c : Call, c.isBuilding = true → ∃ e, c.perform p = .error e p ∧ e.isUntimely = true) ∧
      p.outline = (History.of calls).program.outline) ∧
    (∀ b p', compile (History.of calls).program = .ok b p' → p'.registry.stage = .closed ∧
      ∀ later, (History.of (calls ++ .compile :: later)).program.registry = p'.registry) ∧
    (Tracked.of calls).program = (History.of calls).program ∧
    ∀ c : Call, Follows c.perform c.track (Tracked.of calls) fun _ => True := by
  refine ⟨fun hc => ?_, fun later p hp => ?_, fun b p' h => ?_, (Tracked.pace calls).2, ?_⟩
  · have hs := History.stage_of calls hc
    exact ⟨hs, fun e p' h => (History.isOpen calls hs).compile_timely h⟩
  · subst hp
    obtain ⟨hs, ho⟩ := History.past calls later
    exact ⟨hs, fun c hb => Call.refused hs hb, ho⟩
  · exact ⟨stage_of_compile h, History.registry_past h⟩
  · exact fun c => c.follows (Tracked.pace calls).1

/-- A handler of two advancements is refused in the apply stage. A condition can still be attached
there, but no function added. With one advancement the compilation succeeds, and neither is possible
afterwards. -/
theorem stage_discipline_twoAdvancements :
    ∃ once twice later : List Call, .compile ∉ twice ∧
      (∃ e p', compile (History.of twice).program = .error e p' ∧ e.isUntimely = false ∧
        p'.registry.stage = .apply ∧
        (History.of (twice ++ .compile :: later)).program.registry ≠ p'.registry ∧
        (History.of (twice ++ .compile :: later)).program.outline =
          (History.of twice).program.outline) ∧
      ∃ b p', compile (History.of once).program = .ok b p' ∧
        (History.of (once ++ .compile :: later)).program.registry = p'.registry := by
  let once : List Call := [
    .edit (.addFunction "f" false false),
    .edit (.define "a" (.advEvent "a")),
    .edit (.define "b" (.advEvent "b")),
    .edit (.pushTop (.eventHandler 0 ⟨0, .advancement⟩))]
  let twice := once ++ [.edit (.pushTop (.eventHandler 0 ⟨1, .advancement⟩))]
  let later : List Call :=
    [.direct (.addCondition ⟨0, .advancement⟩ "x" "y"), .edit (.addFunction "g" false false)]
  have hopen : .compile ∉ twice := by simp [twice, once]
  obtain ⟨e, p', hrefused, happly, hchanged⟩ : ∃ e p', compile (History.of twice).program =
      .error e p' ∧ p'.registry.stage = .apply ∧
      (History.of (twice ++ .compile :: later)).program.registry ≠ p'.registry :=
    ⟨_, _, rfl, rfl, by decide +kernel⟩
  obtain ⟨b, q, hok⟩ : ∃ b q, compile (History.of once).program = .ok b q := ⟨_, _, rfl⟩
  refine ⟨once, twice, later, hopen, ⟨e, p', hrefused, ?_, happly, hchanged, ?_⟩, b, q, hok, ?_⟩
  · exact ((stage_discipline twice).1 hopen).2 e p' hrefused
  · exact ((stage_discipline twice).2.1 later _ rfl).2.2
  · exact ((stage_discipline once).2.2.1 b q hok).2 later

end Program

end Datapack
