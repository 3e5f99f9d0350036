import Datapack.Proofs.Program.Edit

/-!
# Histories

A program is reached from the empty one by calls, each of which may succeed
or be refused. A `Call` is an edit, the compilation, or something done
directly to the registry of the program. A `History` is a program with the
operands that its calls have handed out.

**Results.**
* `History.holds`: everything that was handed out still stands for what it
  stood for, after any calls.
* `History.isOpen`: a program in the define stage is open, whatever was tried
  on its registry.
* `History.aligned`: there is one body for each function, except those that
  were declared behind the back of the program.
* `built`: the program that edits alone come to; it is open.
-/
namespace Datapack

namespace Program

open Step (after)

/-! ## Calls -/

/-- What can be done to the registry of a program without the program. -/
inductive Direct where
  | createEvent (event : Event)
  | addFunction (name : String) (isInline isPinned : Bool)
  | markUsed (id : FunctionId)
  | addCondition (event : EventHandle) (path value : String)
  | addRevoke (id : FunctionId) (event : EventHandle)
  | construct (insn : Instruction)
  | declare (insn : Instruction)
  | preapply (insn : Instruction)

def Direct.perform : Direct → Step Registry (Option Operand)
  | .createEvent event => do return some (.event (← Registry.createEvent event))
  | .addFunction name isInline isPinned => do
    return some (.func (← Registry.addFunction { name, isInline, isPinned }))
  | .markUsed id => do
    Registry.markUsed id
    return none
  | .addCondition event path value => do
    Registry.addCondition event (Condition.ofText path value)
    return none
  | .addRevoke id event => do
    Registry.addRevoke id event
    return none
  | .construct insn => do return some (← insn.construct)
  | .declare insn => do
    insn.declare
    return none
  | .preapply insn => do
    insn.preapply
    return none

theorem Direct.change (d : Direct) (r : Registry) : r.Change (after d.perform r) := by
  cases d with
  | createEvent event =>
    exact Step.after_returning (Registry.change_createEvent event r) fun handle _ =>
      some (Operand.event handle)
  | addFunction name isInline isPinned =>
    have hf : Function.Idle { name, isInline, isPinned } := ⟨rfl, rfl⟩
    exact Step.after_returning (Registry.change_addFunction hf r) fun id _ => some (Operand.func id)
  | markUsed id => exact Step.after_returning (Registry.change_markUsed id r) fun _ _ => none
  | addCondition event path value =>
    exact Step.after_returning (Registry.change_addCondition event _ r) fun _ _ => none
  | addRevoke id event =>
    exact Step.after_returning (Registry.change_addRevoke id event r) fun _ _ => none
  | construct insn =>
    exact Step.after_returning (Registry.change_construct insn r) fun o _ => some o
  | declare insn => exact Step.after_returning (Registry.change_declare insn r) fun _ _ => none
  | preapply insn => exact Step.after_returning (Registry.change_preapply insn r) fun _ _ => none

inductive Call where
  | edit (e : Edit)
  | compile
  | direct (d : Direct)

def Call.perform : Call → Step Program (Option Operand)
  | .edit e => e.perform
  | .compile => do
    let _ ← Program.compile
    return none
  | .direct d => onRegistry d.perform

/-- A pass keeps what every change to a registry keeps. -/
theorem keeps_pass {I : Registry → Prop} (hI : ∀ r r', r.Change r' → I r → I r')
    {pass : Instruction → Step Registry Unit}
    (hp : ∀ insn (r : Registry), r.Change (after (pass insn) r)) (l : List Instruction) :
    Step.Keeps I (l.forM pass) :=
  Step.Keeps.forM l fun insn _ r hr => hI r _ (hp insn r) hr

theorem keeps_compile {I : Registry → Prop} (hI : ∀ r r', r.Change r' → I r → I r')
    (hs : ∀ r stage, I r → stage ≠ .define → I { r with stage }) {p : Program}
    (hp : p.registry.stage = .define → I { p.registry with stage := .declare })
    (hp' : p.registry.stage ≠ .define → I p.registry) :
    I (after compile p).registry := by
  by_cases h : p.registry.stage = .define
  · have k₁ := keeps_pass hI Registry.change_declare p.preambleStatements _ (hp h)
    unfold after at k₁ ⊢
    rw [compile_eq h]
    cases h₁ : p.preambleStatements.forM Instruction.declare
        { p.registry with stage := .declare } with
    | error e r => rw [h₁] at k₁; exact k₁
    | ok u r₁ =>
      rw [h₁] at k₁
      have k₂ := keeps_pass hI Registry.change_preapply p.preambleStatements _
        (hs r₁ .apply k₁ (by decide))
      unfold after at k₂
      simp only
      cases h₂ : p.preambleStatements.forM Instruction.preapply { r₁ with stage := .apply } with
      | error e r => rw [h₂] at k₂; exact k₂
      | ok u r₂ =>
        rw [h₂] at k₂
        simp only
        cases ({ p with registry := { r₂ with stage := .closed } } : Program).output <;>
          exact hs r₂ .closed k₂ (by decide)
  · rw [Step.after_of_error (compile_refused h)]
    exact hp' h

/-- A compilation changes nothing but the registry. -/
theorem after_compile (p : Program) :
    after compile p = { p with registry := (after compile p).registry } := by
  by_cases hs : p.registry.stage = .define
  · unfold after
    rw [compile_eq hs]
    cases p.preambleStatements.forM Instruction.declare { p.registry with stage := .declare } with
    | error e r => rfl
    | ok u r₁ =>
      simp only
      cases p.preambleStatements.forM Instruction.preapply { r₁ with stage := .apply } with
      | error e r => rfl
      | ok u r₂ =>
        simp only
        cases ({ p with registry := { r₂ with stage := .closed } } : Program).output <;> rfl
  · rw [Step.after_of_error (compile_refused hs)]

theorem grows_compile (p : Program) : p.registry.Grows (after compile p).registry := by
  refine keeps_compile (I := p.registry.Grows) (fun r r' hc h => h.trans hc.grows)
    (fun r stage h _ => h.enter stage) (fun _ => (Registry.Grows.refl _).enter .declare)
    (fun _ => .refl _)

/-- Compiling is not undone: the define stage is over, also after a refusal. -/
theorem stage_compile (p : Program) : (after compile p).registry.stage ≠ .define := by
  refine keeps_compile (I := fun r => r.stage ≠ .define) (fun r r' hc h => ?_)
    (fun r stage _ hs => hs) (fun _ h => by cases h) (fun h => h)
  rw [hc.stage_eq]; exact h

theorem Call.grows (c : Call) (p : Program) : p.registry.Grows (after c.perform p).registry := by
  cases c with
  | edit e => exact (e.change p).grows
  | compile =>
    exact Step.after_returning (P := fun q : Program => p.registry.Grows q.registry)
      (grows_compile p) fun _ _ => none
  | direct d =>
    have h := (d.change p.registry).grows
    show p.registry.Grows (after (onRegistry d.perform) p).registry
    rw [after_onRegistry]
    exact h

/-- Only the compilation changes the stage. -/
theorem Call.stage_eq {c : Call} (hc : c ≠ .compile) (p : Program) :
    (after c.perform p).registry.stage = p.registry.stage := by
  cases c with
  | edit e => exact (e.change p).stage_eq
  | compile => exact absurd rfl hc
  | direct d =>
    show (after (onRegistry d.perform) p).registry.stage = _
    rw [after_onRegistry]
    exact (d.change p.registry).stage_eq

/-- Only a program that was open, and was not compiled, is open afterwards. -/
theorem Call.stage_define {c : Call} {p : Program}
    (h : (after c.perform p).registry.stage = .define) :
    p.registry.stage = .define ∧ c ≠ .compile := by
  have hc : c ≠ .compile := by
    rintro rfl
    have hn := Step.after_returning (P := fun q : Program => q.registry.stage ≠ .define)
      (stage_compile p) fun _ _ => (none : Option Operand)
    exact hn h
  exact ⟨Call.stage_eq hc p ▸ h, hc⟩

/-! ## What calls hand out -/

theorem Direct.grants {d : Direct} {r r' : Registry} {o : Operand}
    (h : d.perform r = .ok (some o) r') : r'.Holds o := by
  cases d with
  | createEvent event =>
    obtain ⟨handle, r₁, h₁, h₂⟩ := Step.bind_ok h
    cases h₂
    rw [Registry.createEvent_eq] at h₁
    split at h₁
    · cases h₁; exact holds_newEvent r event
    · cases h₁
  | addFunction name isInline isPinned =>
    obtain ⟨id, r₁, h₁, h₂⟩ := Step.bind_ok h
    cases h₂
    rw [Registry.addFunction_eq] at h₁
    split at h₁
    · split at h₁
      · cases h₁
      · cases h₁
        exact holds_newFunction r _
    · cases h₁
  | construct insn =>
    obtain ⟨o', r₁, h₁, h₂⟩ := Step.bind_ok h
    cases h₂
    cases he : insn.event? with
    | none =>
      cases insn with
      | advEvent name => cases he
      | tagEvent name => cases he
      | _ => cases h₁
    | some e =>
      rw [construct_eq he] at h₁
      split at h₁
      · cases h₁; exact holds_newEvent r e
      · cases h₁
  | markUsed id => obtain ⟨u, r₁, -, h₂⟩ := Step.bind_ok h; cases h₂
  | addCondition event path value => obtain ⟨u, r₁, -, h₂⟩ := Step.bind_ok h; cases h₂
  | addRevoke id event => obtain ⟨u, r₁, -, h₂⟩ := Step.bind_ok h; cases h₂
  | declare insn => obtain ⟨u, r₁, -, h₂⟩ := Step.bind_ok h; cases h₂
  | preapply insn => obtain ⟨u, r₁, -, h₂⟩ := Step.bind_ok h; cases h₂

theorem Call.grants {c : Call} {p p' : Program} {o : Operand}
    (h : c.perform p = .ok (some o) p') : p'.registry.Holds o := by
  cases c with
  | edit e => exact Edit.grants h
  | compile => obtain ⟨b, p₁, -, h₂⟩ := Step.bind_ok h; cases h₂
  | direct d =>
    obtain ⟨r, hd, rfl⟩ := onRegistry_ok h
    exact Direct.grants hd

/-! ## Histories -/

/-- A program with the operands that it has handed out. -/
structure History where
  program : Program := {}
  granted : List Operand := []

namespace History

/-- One more call, successful or refused. -/
def call (h : History) (c : Call) : History :=
  match c.perform h.program with
  | .ok answer program => ⟨program, h.granted ++ answer.toList⟩
  | .error _ program => { h with program }

/-- What calls come to, from the empty program on. -/
def of (calls : List Call) : History := calls.foldl call {}

theorem program_call (h : History) (c : Call) : (h.call c).program = after c.perform h.program := by
  unfold call after
  cases c.perform h.program <;> rfl

/-- What a history has and every call keeps, it has after any calls. -/
theorem foldl_induct {P : History → Prop} : ∀ {calls : List Call} {h₀ : History}, P h₀ →
    (∀ c ∈ calls, ∀ h, P h → P (h.call c)) → P (calls.foldl call h₀) := by
  intro calls
  induction calls with
  | nil => exact fun h₀ _ => h₀
  | cons c calls ih =>
    intro h h₀ hstep
    refine ih (hstep c List.mem_cons_self h h₀) fun d hd => ?_
    exact hstep d (List.mem_cons_of_mem c hd)

/-- What the empty program has and every call keeps, every reached program has. -/
theorem of_induct {P : History → Prop} {calls : List Call} (h₀ : P {})
    (hstep : ∀ c ∈ calls, ∀ h, P h → P (h.call c)) : P (of calls) :=
  foldl_induct h₀ hstep

theorem of_append (calls later : List Call) : of (calls ++ later) = later.foldl call (of calls) :=
  List.foldl_append

/-- Everything that was handed out stands for an event of its kind, or for a function. -/
theorem holds (calls : List Call) :
    ∀ o ∈ (of calls).granted, (of calls).program.registry.Holds o := by
  refine of_induct (P := fun h => ∀ o ∈ h.granted, h.program.registry.Holds o)
    (fun o ho => by cases ho) ?_
  intro c _ h ih o ho
  have hg := c.grows h.program
  have old (ho : o ∈ h.granted) : (after c.perform h.program).registry.Holds o :=
    (ih o ho).mono hg
  rw [program_call]
  unfold call at ho
  cases hc : c.perform h.program with
  | error e p => rw [hc] at ho; exact old ho
  | ok a p =>
    rw [hc] at ho
    rcases List.mem_append.mp ho with ho | ho
    · exact old ho
    · rw [Option.mem_toList.mp ho] at hc
      rw [Step.after_of_ok hc]
      exact Call.grants hc

end History

/-! ## Open programs -/

/-- A call on an open program leaves it open, unless it compiles it. -/
theorem Call.isOpen {c : Call} {p : Program} (hp : p.Open) (hc : c ≠ .compile) :
    (after c.perform p).Open := by
  cases c with
  | edit e => exact (e.change p).isOpen hp
  | compile => exact absurd rfl hc
  | direct d =>
    have h := d.change p.registry
    show (after (onRegistry d.perform) p).Open
    rw [after_onRegistry]
    exact ⟨h.stage_eq.trans hp.stage, h.fresh hp.stage hp.fresh, hp.top, hp.preambles, hp.commands⟩

theorem History.isOpen (calls : List Call) (hs : (of calls).program.registry.stage = .define) :
    (of calls).program.Open := by
  revert hs
  refine of_induct (P := fun h => h.program.registry.stage = .define → h.program.Open)
    (fun _ => .empty) ?_
  intro c _ h ih hs
  rw [program_call] at hs ⊢
  obtain ⟨hd, hc⟩ := Call.stage_define hs
  exact Call.isOpen (ih hd) hc

/-! ## Bodies -/

/-- The call declares a function that gets no body. -/
def Call.isBare : Call → Bool
  | .direct (.addFunction ..) => true
  | _ => false

section
variable {r : Registry} (hs : r.stage = .define)
include hs

theorem after_markUsed (id : FunctionId) : after (Registry.markUsed id) r = r := by
  unfold after
  rw [Registry.markUsed_eq, hs]
  rfl

theorem after_addCondition (event : EventHandle) (c : Condition) :
    after (Registry.addCondition event c) r = r := by
  unfold after
  rw [Registry.addCondition_eq, hs]
  rfl

theorem after_addRevoke (id : FunctionId) (event : EventHandle) :
    after (Registry.addRevoke id event) r = r := by
  unfold after
  rw [Registry.addRevoke_eq, hs]
  rfl

theorem after_declare (insn : Instruction) : after insn.declare r = r := by
  unfold Instruction.declare
  rw [Step.after_within]
  cases insn with
  | eventHandler handler event => exact after_markUsed hs handler
  | setupFn function => exact after_markUsed hs function
  | _ => rfl

theorem after_preapply (insn : Instruction) : after insn.preapply r = r := by
  unfold Instruction.preapply
  rw [Step.after_within]
  cases insn with
  | addEventCondition event path value => exact after_addCondition hs event _
  | eventHandler handler event =>
    simp only
    cases event.kind with
    | tag => rfl
    | advancement => exact after_addRevoke hs handler event
  | _ => rfl

theorem functions_createEvent (e : Event) :
    (after (Registry.createEvent e) r).functions = r.functions := by
  unfold after
  rw [Registry.createEvent_eq, if_pos hs]

theorem functions_construct (insn : Instruction) :
    (after insn.construct r).functions = r.functions := by
  cases he : insn.event? with
  | some e =>
    unfold after
    rw [construct_eq he, if_pos hs]
  | none =>
    cases insn with
    | advEvent name => cases he
    | tagEvent name => cases he
    | _ => rfl

/-- An open registry gets its functions from `addFunction` only. -/
theorem Direct.functions_eq {d : Direct} (hd : (Call.direct d).isBare = false) :
    (after d.perform r).functions = r.functions := by
  let P (r' : Registry) : Prop := r'.functions = r.functions
  cases d with
  | addFunction name isInline isPinned => cases hd
  | createEvent event =>
    exact Step.after_returning (P := P) (functions_createEvent hs event) fun handle _ =>
      some (Operand.event handle)
  | construct insn =>
    exact Step.after_returning (P := P) (functions_construct hs insn) fun o _ => some o
  | markUsed id =>
    exact Step.after_returning (P := P) (by rw [after_markUsed hs]) fun _ _ => none
  | addCondition event path value =>
    exact Step.after_returning (P := P) (by rw [after_addCondition hs]) fun _ _ => none
  | addRevoke id event =>
    exact Step.after_returning (P := P) (by rw [after_addRevoke hs]) fun _ _ => none
  | declare insn =>
    exact Step.after_returning (P := P) (by rw [after_declare hs]) fun _ _ => none
  | preapply insn =>
    exact Step.after_returning (P := P) (by rw [after_preapply hs]) fun _ _ => none

end

theorem Direct.length_functions (d : Direct) (r : Registry) :
    (after d.perform r).functions.length =
      r.functions.length +
        if Step.succeeds d.perform r = true ∧ (Call.direct d).isBare = true then 1 else 0 := by
  by_cases hb : (Call.direct d).isBare = true
  · cases d with
    | addFunction name isInline isPinned =>
      have refused {e : Error} (h : Registry.addFunction { name, isInline, isPinned } r = .error e r) :
          (Direct.addFunction name isInline isPinned).perform r = .error e r :=
        Step.bind_of_error h
      have h := Registry.addFunction_eq { name, isInline, isPinned } r
      split at h
      · split at h
        · rw [Step.after_of_error (refused h), Step.succeeds_of_error (refused h)]
          rfl
        · have h' : (Direct.addFunction name isInline isPinned).perform r = .ok _ _ :=
            Step.bind_of_ok h
          rw [Step.after_of_ok h', Step.succeeds_of_ok h', if_pos ⟨rfl, hb⟩]
          exact List.length_append
      · rw [Step.after_of_error (refused h), Step.succeeds_of_error (refused h)]
        rfl
    | _ => cases hb
  · rw [if_neg (fun h => hb h.2), Nat.add_zero]
    by_cases hs : r.stage = .define
    · rw [Direct.functions_eq hs (Bool.not_eq_true _ ▸ hb)]
    · exact (d.change r).length_functions hs

theorem length_functions_compile (p : Program) :
    (after compile p).registry.functions.length = p.registry.functions.length := by
  have h := keeps_compile (p := p)
    (I := fun r => r.stage ≠ .define ∧ r.functions.length = p.registry.functions.length)
    (fun r r' hc hr => ⟨hc.stage_eq ▸ hr.1, (hc.length_functions hr.1).trans hr.2⟩)
    (fun r stage hr hne => ⟨hne, hr.2⟩) (fun _ => ⟨fun hd => (by cases hd), rfl⟩)
    fun hne => ⟨hne, rfl⟩
  exact h.2

namespace History

/-- The calls that are not refused. -/
def accepted : History → List Call → List Call
  | _, [] => []
  | h, c :: calls =>
    (if Step.succeeds c.perform h.program then [c] else []) ++ accepted (h.call c) calls

/-- How many functions are declared without a body. -/
def bare (calls : List Call) : Nat := (accepted {} calls).countP (·.isBare)

end History

/-- A call leaves as many functions without a body as there were, and one more if it is bare. -/
theorem Call.aligned (c : Call) {p : Program} {n : Nat}
    (hp : p.bodies.length + n = p.registry.functions.length) :
    (after c.perform p).bodies.length +
        (n + (if Step.succeeds c.perform p then [c] else []).countP (·.isBare)) =
      (after c.perform p).registry.functions.length := by
  cases c with
  | edit e =>
    have hn : (if Step.succeeds (Call.edit e).perform p then [Call.edit e] else []).countP
        (·.isBare) = 0 := by
      split <;> rfl
    rw [hn]
    exact (e.change p).aligned hp
  | compile =>
    have hn : (if Step.succeeds Call.compile.perform p then [Call.compile] else []).countP
        (·.isBare) = 0 := by
      split <;> rfl
    rw [hn]
    refine Step.after_returning (P := fun q : Program =>
      q.bodies.length + (n + 0) = q.registry.functions.length) ?_ fun _ _ => (none : Option Operand)
    rw [length_functions_compile, after_compile]
    exact hp
  | direct d =>
    show (after (onRegistry d.perform) p).bodies.length + (n + (if Step.succeeds
      (onRegistry d.perform) p then [Call.direct d] else []).countP (·.isBare)) =
        (after (onRegistry d.perform) p).registry.functions.length
    rw [after_onRegistry, succeeds_onRegistry]
    simp only [d.length_functions]
    cases Step.succeeds d.perform p.registry <;> simp [List.countP_cons] <;> omega

namespace History

theorem aligned_from : ∀ (calls : List Call) (h : History) {n : Nat},
    h.program.bodies.length + n = h.program.registry.functions.length →
    (calls.foldl call h).program.bodies.length + (n + (accepted h calls).countP (·.isBare)) =
      (calls.foldl call h).program.registry.functions.length
  | [], _, _, hn => hn
  | c :: calls, h, n, hn => by
    have hc := c.aligned hn
    rw [← program_call] at hc
    have hl := aligned_from calls (h.call c) hc
    rw [accepted, List.countP_append, ← Nat.add_assoc n]
    exact hl

/-- Every function has a body, but for as many as were declared without one. -/
theorem aligned (calls : List Call) :
    (of calls).program.bodies.length + bare calls =
      (of calls).program.registry.functions.length := by
  have h := aligned_from calls {} (n := 0) rfl
  rwa [Nat.zero_add] at h

theorem mem_of_accepted {c : Call} : ∀ {calls : List Call} {h : History},
    c ∈ accepted h calls → c ∈ calls
  | [], _, hc => by cases hc
  | d :: calls, h, hc => by
    rcases List.mem_append.mp hc with hc | hc
    · split at hc
      · exact List.mem_singleton.mp hc ▸ List.mem_cons_self
      · cases hc
    · exact List.mem_cons_of_mem d (mem_of_accepted hc)

theorem bare_eq_zero {calls : List Call} (hb : ∀ c ∈ calls, c.isBare = false) : bare calls = 0 := by
  refine List.countP_eq_zero.mpr fun c hc => ?_
  rw [hb c (mem_of_accepted hc)]
  decide

end History

/-! ## Programs made by edits -/

/-- The program that edits come to. -/
def built (edits : List Edit) : Program := (History.of (edits.map .edit)).program

/-- Edits keep what every change keeps. -/
theorem built_induct {P : Program → Prop} (h₀ : P {}) (hstep : ∀ p p', Change p p' → P p → P p')
    (edits : List Edit) : P (built edits) := by
  refine History.of_induct (P := fun h => P h.program) h₀ ?_
  intro c hc h ih
  obtain ⟨e, -, rfl⟩ := List.mem_map.mp hc
  rw [History.program_call]
  exact hstep _ _ (e.change h.program) ih

theorem built_isOpen (edits : List Edit) : (built edits).Open :=
  built_induct .empty (fun _ _ hc hp => hc.isOpen hp) edits

theorem built_aligned (edits : List Edit) :
    (built edits).bodies.length = (built edits).registry.functions.length :=
  built_induct (P := fun p => p.bodies.length + 0 = p.registry.functions.length) rfl
    (fun _ _ hc hp => hc.aligned hp) edits

/-- Before it is compiled, no event of such a program has conditions. -/
theorem built_bare (edits : List Edit) :
    ∀ e ∈ (built edits).registry.events, e.conditions = [] := by
  refine built_induct (P := fun p => ∀ e ∈ p.registry.events, e.conditions = [])
    (fun e he => by cases he) ?_ edits
  intro p p' hc hp
  cases hc with
  | event e entry _ bare => exact forall_mem_append_singleton hp bare
  | _ => exact hp

end Program

end Datapack
