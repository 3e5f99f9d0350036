import Datapack.Proofs.Layout.Places
import Datapack.Proofs.Program.Reference
import Datapack.Proofs.Scope.Growth
import Datapack.Session.Basic

/-!
# Emission of compiled programs

What a compilation yields can be emitted in every session, open or sealed.
Each function that is hooked up is among the functions that are written, and
the commands of compiled functions need nothing that a scope hands out: they
name tags and advancements only.

**Closure.** `Build.Linked`: the functions of all registrations are functions
of the build, and its commands are plain. Every compiled program is linked
(`Compilable.linked`), because a function that is a target is used, and one that is
used and not inline is written.

**Emission.** `Emits s s' files`: from `s` to `s'` only function names and
the given files were added. `emit_linked` says which files, tags apart.

**Result.** `emit_total`: emission of a compiled program succeeds in every
session and changes nothing in the scope but the known functions.
-/
namespace Datapack

/-! ## Commands that hand nothing out -/

namespace Command

/-- The text of a command that depends on the namespace only. -/
def line? (ns : String) : Command → Option String
  | .call function => some ("function " ++ (ns ++ ":" ++ function))
  | .callTag tag => some ("function #" ++ (tag.parts.1.getD ns ++ ":" ++ tag.parts.2))
  | .revoke (.plain kind) advancement =>
    some ("advancement revoke " ++ kind.symbol ++ " only " ++ ns ++ ":" ++ advancement)
  | _ => none

/-- A command that a compilation can yield. -/
def IsPlain : Command → Prop
  | .callTag _ => True
  | .revoke (.plain _) _ => True
  | _ => False

theorem resolve_plain {c : Command} (hc : c.IsPlain) (s : Scope) :
    ∃ line, c.resolve s = .ok line s ∧ c.line? s.ns = some line := by
  cases c with
  | callTag tag => exact ⟨_, rfl, rfl⟩
  | revoke target advancement =>
    cases target with
    | plain kind => exact ⟨_, rfl, rfl⟩
    | _ => exact hc.elim
  | _ => exact hc.elim

end Command

theorem Scope.functionName_known {s : Scope} {name : String} (h : name ∈ s.functions) :
    s.functionName name = .ok (s.ns ++ ":" ++ name) := by
  unfold functionName hasFunction
  rw [if_pos (List.contains_iff_mem.mpr h)]

theorem Scope.functionName_unknown {s : Scope} {name : String} (h : name ∉ s.functions) :
    s.functionName name = .error (Cause.notFound .functionName name).error := by
  unfold functionName hasFunction
  simp [h]

theorem Command.resolve_call {s : Scope} {name : String} (h : name ∈ s.functions) :
    (Command.call name).resolve s = .ok ("function " ++ (s.ns ++ ":" ++ name)) s := by
  have hr : (Command.call name).resolve s =
      (Step.ofExcept (s.functionName name) >>= fun t => pure ("function " ++ t)) s := rfl
  rw [hr, Scope.functionName_known h]
  rfl

theorem Command.resolve_unknown {s : Scope} {name : String} (h : name ∉ s.functions) :
    (Command.call name).resolve s = .error (Cause.notFound .functionName name).error s := by
  have hr : (Command.call name).resolve s =
      (Step.ofExcept (s.functionName name) >>= fun t => pure ("function " ++ t)) s := rfl
  rw [hr, Scope.functionName_unknown h]
  rfl

namespace Scope

/-- The objectives do not depend on the known functions. -/
theorem objectives_functions (s : Scope) (functions : List String) :
    ({ s with functions } : Scope).objectives = s.objectives := rfl

end Scope

/-! ## What a build has to satisfy -/

/-- The function that a registration hooks up. -/
def Registration.function : Registration → String
  | .handler function _ _ => function
  | .setup function => function

structure Build.Linked (b : Build) : Prop where
  hooks : ∀ reg ∈ b.registrations, reg.function ∈ b.functionNames
  commands : ∀ f ∈ b.functions, ∀ c ∈ f.commands, c.IsPlain

namespace Program

theorem isPlain_of_command? {p : Program} {insn : Instruction} {c : Command}
    (h : p.command? insn = some c) : c.IsPlain := by
  cases insn with
  | fireEvent event =>
    obtain ⟨e, -, rfl⟩ := Option.map_eq_some_iff.mp h
    trivial
  | revokeEventAdv handler =>
    obtain ⟨f, -, rfl⟩ := Option.map_eq_some_iff.mp h
    trivial
  | _ => cases h

/-- The function of a record is the target of its statement. -/
theorem target_of_record? {p : Program} {insn : Instruction} {reg : Registration}
    (h : p.record? insn = some reg) :
    ∃ id f, insn.target? = some id ∧ p.registry.functions[id]? = some f ∧
      reg.function = f.name := by
  cases insn with
  | eventHandler handler event =>
    obtain ⟨f, hf, h⟩ := Option.bind_eq_some_iff.mp h
    obtain ⟨e, he, h⟩ := Option.bind_eq_some_iff.mp h
    cases h
    exact ⟨handler, f, rfl, hf, rfl⟩
  | setupFn function =>
    obtain ⟨f, hf, h⟩ := Option.bind_eq_some_iff.mp h
    cases h
    exact ⟨function, f, rfl, hf, rfl⟩
  | _ => cases h

theorem reference_plain (p : Program) :
    ∀ f ∈ p.reference.functions, ∀ c ∈ f.commands, c.IsPlain := by
  intro f hf c hc
  obtain ⟨⟨⟨g, body⟩, id⟩, -, hw⟩ := List.mem_filterMap.mp hf
  simp only [written?, Option.ite_none_right_eq_some] at hw
  obtain ⟨-, hw⟩ := hw
  cases hw
  obtain ⟨insn, -, hinsn⟩ := List.mem_filterMap.mp hc
  exact isPlain_of_command? hinsn

theorem Compilable.linked {p : Program} (hc : p.Compilable)
    (hlen : p.registry.functions.length ≤ p.bodies.length) : p.reference.Linked where
  hooks reg hr := by
    obtain ⟨insn, hi, hreg⟩ := List.mem_filterMap.mp hr
    obtain ⟨id, f, ht, hf, hname⟩ := target_of_record? hreg
    obtain ⟨g, hg, hinline⟩ := hc.targets insn hi id ht
    rw [hf] at hg
    cases hg
    -- The statement uses the function, so it is kept.
    have hkept : p.isKept id f = true := by
      have hnames : p.names id = true := List.any_eq_true.mpr ⟨insn, hi, decide_eq_true ht⟩
      rw [isKept, hinline, hnames, Bool.or_true]; rfl
    have hlt : id < p.bodies.length := Nat.lt_of_lt_of_le (List.getElem?_eq_some_iff.mp hf).1 hlen
    have hzip : ((f, p.bodies[id]), id) ∈ (p.registry.functions.zip p.bodies).zipIdx :=
      List.mem_zipIdx_iff_getElem?.mpr
        (List.getElem?_zip_eq_some.mpr ⟨hf, List.getElem?_eq_getElem hlt⟩)
    have hwritten : p.written? ((f, p.bodies[id]), id) =
        some ⟨f.name, p.bodies[id].commands.filterMap p.command?⟩ := if_pos hkept
    exact List.mem_map.mpr ⟨_, List.mem_filterMap.mpr ⟨_, hzip, hwritten⟩, hname.symm⟩
  commands := p.reference_plain

end Program

/-! ## Emission -/

namespace Session

/-- Only function names and `files` were added. -/
structure Emits (s s' : Session) (files : List PackFile) : Prop where
  scope : s'.scope = { s.scope with functions := s'.scope.functions }
  functions : s.scope.functions ⊆ s'.scope.functions
  files : s'.files = s.files ++ files

namespace Emits

theorem nothing {s s' : Session} (hs : s'.scope = s.scope) (hf : s'.files = s.files) :
    Emits s s' [] :=
  ⟨by rw [hs], by rw [hs]; exact List.Subset.refl _, by rw [hf, List.append_nil]⟩

theorem trans {s₁ s₂ s₃ : Session} {l l' : List PackFile} (h : Emits s₁ s₂ l)
    (h' : Emits s₂ s₃ l') : Emits s₁ s₃ (l ++ l') where
  scope := by rw [h'.scope, h.scope]
  functions := List.Subset.trans h.functions h'.functions
  files := by rw [h'.files, h.files, List.append_assoc]

theorem ns {s s' : Session} {l : List PackFile} (h : Emits s s' l) : s'.scope.ns = s.scope.ns := by
  rw [h.scope]

end Emits

/-- A list of steps, each of which emits its own files once `names` are known. -/
theorem forM_emits {α : Type} {f : α → Step Session Unit} {g : α → List PackFile}
    {names : List String} {ns : String} : ∀ (l : List α),
    (∀ a ∈ l, ∀ s : Session, names ⊆ s.scope.functions → s.scope.ns = ns →
      ∃ s', f a s = .ok () s' ∧ Emits s s' (g a)) →
    ∀ s : Session, names ⊆ s.scope.functions → s.scope.ns = ns →
      ∃ s', l.forM f s = .ok () s' ∧ Emits s s' (l.flatMap g)
  | [], _, s, _, _ => ⟨s, rfl, .nothing rfl rfl⟩
  | a :: l, h, s, hn, hns => by
    obtain ⟨s₁, h₁, e₁⟩ := h a List.mem_cons_self s hn hns
    obtain ⟨s', h', e'⟩ := forM_emits l (fun b hb => h b (List.mem_cons_of_mem a hb)) s₁
      (List.Subset.trans hn e₁.functions) (e₁.ns.trans hns)
    exact ⟨s', (Step.bind_of_ok h₁).trans h', e₁.trans e'⟩

theorem onScope_of_ok {α : Type} {step : Step Scope α} {s : Session} {a : α} {scope : Scope}
    (h : step s.scope = .ok a scope) : onScope step s = .ok a { s with scope } :=
  Step.onPart_of_ok h

theorem functionName_onScope {name : String} {s : Session} (h : name ∈ s.scope.functions) :
    onScope (do Step.ofExcept ((← get).functionName name)) s =
      .ok (s.scope.ns ++ ":" ++ name) s := by
  refine onScope_of_ok ?_
  rw [Step.get_bind, Scope.functionName_known h]
  rfl

theorem functionName_unknown {name : String} {s : Session} (h : name ∉ s.scope.functions) :
    onScope (do Step.ofExcept ((← get).functionName name)) s =
      .error (Cause.notFound .functionName name).error s := by
  refine Step.onPart_of_error (t := s.scope) ?_
  rw [Step.get_bind, Scope.functionName_unknown h]
  rfl

theorem addFunctionNames_emits (names : List String) (s : Session) :
    Emits s { s with scope := s.scope.addFunctions names } [] where
  scope := rfl
  functions := fun _ h => Scope.mem_addFunctions.mpr (.inr h)
  files := by rw [List.append_nil]

theorem addFunction_of_ok (name : String) {commands : List Command} {lines : List String}
    {s : Session} {scope : Scope} (h : Command.resolveAll commands s.scope = .ok lines scope) :
    addFunction name commands s =
      .ok () { s with scope, files := s.files ++ [.function name lines] } := by
  unfold addFunction
  rw [Step.bind_of_ok (onScope_of_ok h)]
  rfl

theorem onScope_ok {α : Type} {step : Step Scope α} {a : α} {s s' : Session}
    (h : onScope step s = .ok a s') : ∃ scope, step s.scope = .ok a scope ∧ s' = { s with scope } :=
  Step.onPart_ok h

theorem addFunction_ok {name : String} {commands : List Command} {s s' : Session}
    (h : addFunction name commands s = .ok () s') :
    ∃ lines scope, Command.resolveAll commands s.scope = .ok lines scope ∧
      s'.files = s.files ++ [.function name lines] := by
  obtain ⟨lines, s₁, hlines, h⟩ := Step.bind_ok h
  obtain ⟨scope, hresolve, rfl⟩ := onScope_ok hlines
  cases h
  exact ⟨lines, scope, hresolve, rfl⟩

theorem addFunction_emits (name : String) {commands : List Command} {lines : List String}
    {s : Session} (h : Command.resolveAll commands s.scope = .ok lines s.scope) :
    ∃ s', addFunction name commands s = .ok () s' ∧ Emits s s' [.function name lines] :=
  ⟨_, addFunction_of_ok name h, rfl, List.Subset.refl _, rfl⟩

/-- What the function that an advancement calls does: it re-arms the advancement, if `revoke` says
so, and calls the handler. -/
def trampolineLines (ns handler : String) (revoke : Bool) : List String :=
  (if revoke then ["advancement revoke @s only " ++ ns ++ ":" ++ Advancement.nameFor handler]
    else []) ++ ["function " ++ (ns ++ ":" ++ handler)]

/-- The advancement that triggers a handler. -/
def triggerFor (ns handler trigger : String) (conditions : List Condition) : Advancement where
  name := Advancement.nameFor handler
  criteria := Table.ofList [(handler, ⟨trigger, conditions⟩)]
  reward := some (ns ++ ":" ++ trampolineFor handler)

/-- The files of a registration. -/
def hookFiles (ns : String) : Registration → List PackFile
  | .handler function (.advancement name conditions) revoke =>
    [.advancement (triggerFor ns function name conditions),
      .function (trampolineFor function) (trampolineLines ns function revoke)]
  | _ => []

theorem addMember_emits {function : String} {s : Session} (tag : QualifiedName)
    (hf : function ∈ s.scope.functions) :
    ∃ s', addMember tag function s = .ok () s' ∧ Emits s s' [] := by
  unfold addMember
  rw [Step.bind_of_ok (functionName_onScope hf)]
  exact ⟨_, rfl, .nothing rfl rfl⟩

/-- The commands of a trampoline. -/
def trampolineCommands (handler : String) (revoke : Bool) : List Command :=
  (if revoke then [.revoke (.plain .sender) (Advancement.nameFor handler)] else []) ++
    [.call handler]

theorem resolve_trampoline {handler : String} {s : Scope} (revoke : Bool)
    (hf : handler ∈ s.functions) :
    Command.resolveAll (trampolineCommands handler revoke) s =
      .ok (trampolineLines s.ns handler revoke) s := by
  have hlines : (trampolineCommands handler revoke).filterMap (·.line? s.ns) =
      trampolineLines s.ns handler revoke := by
    cases revoke <;> rfl
  rw [← hlines]
  refine Step.mapM_steady fun c hc => ?_
  rcases List.mem_append.mp hc with hc | hc
  · cases revoke with
    | false => cases hc
    | true => rw [List.mem_singleton.mp hc]; exact ⟨_, rfl, rfl⟩
  · rw [List.mem_singleton.mp hc]
    exact ⟨_, Command.resolve_call hf, rfl⟩

theorem resolve_trampoline_unknown {handler : String} {scope : Scope} (revoke : Bool)
    (hf : handler ∉ scope.functions) :
    Command.resolveAll (trampolineCommands handler revoke) scope =
      .error (Cause.notFound .functionName handler).error scope := by
  have hcall : [Command.call handler].mapM Command.resolve scope =
      .error (Cause.notFound .functionName handler).error scope := by
    rw [List.mapM_cons]
    exact Step.bind_of_error (Command.resolve_unknown hf)
  cases revoke with
  | false => exact hcall
  | true =>
    let rearm : Command := .revoke (.plain .sender) (Advancement.nameFor handler)
    show (rearm :: [.call handler]).mapM Command.resolve scope = _
    rw [List.mapM_cons, Step.bind_of_ok (show rearm.resolve scope = .ok _ scope from rfl)]
    exact Step.bind_of_error hcall

/-- The trampoline becomes known and is written after the advancement that calls it. -/
theorem addAdvancementHandler_eq {handler : String} {s : Session} (trigger : String)
    (conditions : List Condition) (revoke : Bool) (hf : handler ∈ s.scope.functions) :
    addAdvancementHandler handler trigger conditions revoke s = .ok () { s with
      scope := s.scope.addFunctions [trampolineFor handler]
      files := s.files ++ [.advancement (triggerFor s.scope.ns handler trigger conditions),
        .function (trampolineFor handler) (trampolineLines s.scope.ns handler revoke)] } := by
  let s₁ : Session := { s with scope := s.scope.addFunctions [trampolineFor handler] }
  have htrampoline : trampolineFor handler ∈ s₁.scope.functions :=
    Scope.mem_addFunctions.mpr (.inl List.mem_cons_self)
  have hhandler : handler ∈ s₁.scope.functions := Scope.mem_addFunctions.mpr (.inr hf)
  let s₂ : Session := { s₁ with
    files := s₁.files ++ [.advancement (triggerFor s.scope.ns handler trigger conditions)] }
  have hlines := addFunction_of_ok (s := s₂) (trampolineFor handler)
    (resolve_trampoline revoke hhandler)
  unfold addAdvancementHandler
  rw [Step.bind_of_ok (show addFunctionNames [trampolineFor handler] s = .ok () s₁ from rfl),
    Step.bind_of_ok (functionName_onScope htrampoline)]
  refine ((Step.bind_of_ok rfl).trans hlines).trans ?_
  simp only [s₂, s₁, List.append_assoc, List.singleton_append]
  rfl

theorem addAdvancementHandler_emits {handler : String} {s : Session} (trigger : String)
    (conditions : List Condition) (revoke : Bool) (hf : handler ∈ s.scope.functions) :
    ∃ s', addAdvancementHandler handler trigger conditions revoke s = .ok () s' ∧
      Emits s s' [.advancement (triggerFor s.scope.ns handler trigger conditions),
        .function (trampolineFor handler) (trampolineLines s.scope.ns handler revoke)] := by
  refine ⟨_, addAdvancementHandler_eq trigger conditions revoke hf, ?_⟩
  exact ⟨rfl, fun _ h => Scope.mem_addFunctions.mpr (.inr h), rfl⟩

theorem register_emits {reg : Registration} {s : Session}
    (hf : reg.function ∈ s.scope.functions) :
    ∃ s', register reg s = .ok () s' ∧ Emits s s' (hookFiles s.scope.ns reg) := by
  cases reg with
  | setup function => exact addMember_emits loadTag hf
  | handler function event revoke =>
    cases event with
    | tag name => exact addMember_emits ⟨name⟩ hf
    | advancement name conditions => exact addAdvancementHandler_emits name conditions revoke hf

theorem tagFiles_tags (s : Session) : ∀ file ∈ s.tagFiles, ∃ key members, file = .tag key members := by
  intro file hfile
  obtain ⟨⟨key, g⟩, -, rfl⟩ := List.mem_map.mp hfile
  exact ⟨_, _, rfl⟩

/-- The file of a compiled function. -/
def functionFile (ns : String) (f : CompiledFunction) : PackFile :=
  .function f.name (f.commands.filterMap (·.line? ns))

/-- A linked build is emitted in every session. Its functions come first, then the files of its
registrations in order, then tags. -/
theorem emit_linked {b : Build} (hb : b.Linked) (s : Session) :
    ∃ s' tags, emit b s = .ok () s' ∧ (∀ file ∈ tags, ∃ key members, file = .tag key members) ∧
      Emits s s' (b.functions.map (functionFile s.scope.ns) ++
        b.registrations.flatMap (hookFiles s.scope.ns) ++ tags) := by
  let s₁ : Session := { s with scope := s.scope.addFunctions b.functionNames }
  have e₁ := addFunctionNames_emits b.functionNames s
  have hknown : b.functionNames ⊆ s₁.scope.functions :=
    fun _ h => Scope.mem_addFunctions.mpr (.inl h)
  have hfunction : ∀ f ∈ b.functions, ∀ t : Session, b.functionNames ⊆ t.scope.functions →
      t.scope.ns = s.scope.ns → ∃ t', addFunction f.name f.commands t = .ok () t' ∧
        Emits t t' [functionFile s.scope.ns f] := by
    intro f hf t _ hns
    rw [functionFile, ← hns]
    exact addFunction_emits f.name (Step.mapM_steady fun c hc =>
      Command.resolve_plain (hb.commands f hf c hc) t.scope)
  have hregister : ∀ reg ∈ b.registrations, ∀ t : Session, b.functionNames ⊆ t.scope.functions →
      t.scope.ns = s.scope.ns → ∃ t', register reg t = .ok () t' ∧
        Emits t t' (hookFiles s.scope.ns reg) := by
    intro reg hr t hn hns
    rw [← hns]
    exact register_emits (hn (hb.hooks reg hr))
  obtain ⟨s₂, h₂, e₂⟩ := forM_emits b.functions hfunction s₁ hknown e₁.ns
  obtain ⟨s₃, h₃, e₃⟩ := forM_emits b.registrations hregister s₂
    (List.Subset.trans hknown e₂.functions) (e₂.ns.trans e₁.ns)
  refine ⟨{ s₃ with files := s₃.files ++ s₃.tagFiles }, s₃.tagFiles, ?_, ?_, ?_⟩
  · unfold emit
    rw [Step.bind_of_ok (show addFunctionNames b.functionNames s = .ok () s₁ from rfl),
      Step.bind_of_ok h₂]
    exact Step.bind_of_ok h₃
  · exact tagFiles_tags s₃
  · have e₄ : Emits s₃ { s₃ with files := s₃.files ++ s₃.tagFiles } s₃.tagFiles :=
      ⟨rfl, List.Subset.refl _, rfl⟩
    rw [List.map_eq_flatMap]
    exact ((e₁.trans e₂).trans e₃).trans e₄

end Session

open Program (History compile)

/-- What an open program with a body for each function is compiled to is linked. -/
theorem Program.linked_of_compile {calls : List Call} {b : Build} {p' : Program}
    (hb : ∀ c ∈ calls, c.isBare = false) (hc : compile (History.of calls).program = .ok b p') :
    b.Linked := by
  have hp := History.isOpen calls (stage_define_of_compile hc)
  obtain ⟨hcompilable, rfl, -⟩ := hp.compile_ok_iff_compilable.mp hc
  have ha := History.aligned calls
  rw [History.bare_eq_zero hb] at ha
  exact hcompilable.linked (Nat.le_of_eq ha.symm)

/-- **Emission.** A program whose functions all have bodies, once it is compiled, is emitted in
every session, whatever ids and handles its statements carry. In the scope only the known functions
grow. -/
theorem Session.emit_total (calls : List Program.Call) (b : Build) (p' : Program)
    (hb : ∀ c ∈ calls, c.isBare = false) (hc : compile (History.of calls).program = .ok b p')
    (s : Session) :
    ∃ s', emit b s = .ok () s' ∧
      s'.scope = { s.scope with functions := s'.scope.functions } ∧
      s.scope.functions ⊆ s'.scope.functions ∧
      s'.scope.vars = s.scope.vars ∧ s'.scope.cells = s.scope.cells ∧
      s'.scope.tags = s.scope.tags ∧ s'.scope.isSealed = s.scope.isSealed ∧
      s'.scope.objectives = s.scope.objectives := by
  obtain ⟨s', tags, hs', -, e⟩ := emit_linked (Program.linked_of_compile hb hc) s
  refine ⟨s', hs', e.scope, e.functions, ?_⟩
  rw [e.scope]
  exact ⟨rfl, rfl, rfl, rfl, Scope.objectives_functions _ _⟩

/-- A handler whose body fires an event under a handle of the wrong kind, emitted in a sealed
session. -/
theorem Session.emit_total_sealed :
    ∃ (calls : List Program.Call) (b : Build) (p' : Program) (s s' : Session),
      (∀ c ∈ calls, c.isBare = false) ∧ compile (History.of calls).program = .ok b p' ∧
      s.scope.isSealed = true ∧ emit b s = .ok () s' ∧ s'.scope.isSealed = true ∧
      s'.scope.objectives = s.scope.objectives := by
  let calls : List Program.Call := List.map .edit
    [.addFunction "greet" false false, .define "join" (.advEvent "minecraft:tick"),
      .pushTop (.eventHandler 0 ⟨0, .advancement⟩), .pushBody 0 (.fireEvent ⟨0, .tag⟩),
      .pushBody 0 (.revokeEventAdv 0)]
  let scope : Scope :=
    { ns := "demo", entityTag := "demo_etag", home := .site, cells := [7], isSealed := true }
  let s : Session := { scope, layout := ⟨.site, []⟩ }
  have hb : ∀ c ∈ calls, c.isBare = false := by decide
  have hc : compile (History.of calls).program = .ok
      { functions := [⟨"greet",
          [.callTag ⟨"minecraft:tick"⟩, .revoke (.plain .sender) "adv_greet"]⟩]
        registrations := [.handler "greet" (.advancement "minecraft:tick" []) true] } _ := rfl
  obtain ⟨s', hs', -, -, -, -, -, hsealed, hobjectives⟩ := emit_total calls _ _ hb hc s
  exact ⟨calls, _, _, s, s', hb, hc, rfl, hs', hsealed, hobjectives⟩

end Datapack
