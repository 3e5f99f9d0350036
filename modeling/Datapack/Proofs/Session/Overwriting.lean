import Datapack.Proofs.Program.Bodies
import Datapack.Proofs.Session.Rearming

/-!
# Functions that are overwritten

A build is emitted functions first and trampolines last, and a pack keeps the
last file of a name. So a compiled function that is called like the trampoline
of an advancement handler does not get into the pack.

**Emission.** `emit_ok`: what an emission that succeeds has written, for any
build of plain commands. The functions it hooks up were known by then, but need
not be functions of the build.

**Results.** `functions_survive`: all other functions are in the pack of a fresh
session, with their commands resolved. `trampoline_overwrites`: one that is not.
-/
namespace Datapack

namespace Session

variable {s s' : Session}

theorem trampolineFor_ne (handler : String) : handler ≠ trampolineFor handler := by
  intro h
  have hlen := congrArg String.length h
  unfold trampolineFor at hlen
  rw [String.length_append] at hlen
  have hsuffix : "_trampoline".length = 11 := rfl
  omega

/-- Only a known function is hooked up. -/
theorem register_ok {reg : Registration} (h : register reg s = .ok () s') :
    reg.function ∈ s.scope.functions := by
  have member {tag : QualifiedName} {function : String} (h : addMember tag function s = .ok () s') :
      function ∈ s.scope.functions := by
    refine Decidable.byContradiction fun hf => ?_
    unfold addMember at h
    rw [Step.bind_of_error (functionName_unknown hf)] at h
    cases h
  cases reg with
  | setup function => exact member h
  | handler function event revoke =>
    cases event with
    | tag name => exact member h
    | advancement trigger conditions =>
      refine Decidable.byContradiction fun hf => ?_
      let s₁ : Session := { s with scope := s.scope.addFunctions [trampolineFor function] }
      have htrampoline : trampolineFor function ∈ s₁.scope.functions :=
        Scope.mem_addFunctions.mpr (.inl List.mem_cons_self)
      -- The trampoline has just become known, the handler has not.
      have hunknown : function ∉ s₁.scope.functions := by
        intro hm
        rcases Scope.mem_addFunctions.mp hm with hm | hm
        · exact trampolineFor_ne function (List.mem_singleton.mp hm)
        · exact hf hm
      have h : addAdvancementHandler function trigger conditions revoke s = .ok () s' := h
      unfold addAdvancementHandler at h
      rw [Step.bind_of_ok (show addFunctionNames [trampolineFor function] s = .ok () s₁ from rfl),
        Step.bind_of_ok (functionName_onScope htrampoline)] at h
      obtain ⟨u, s₂, hwrite, h⟩ := Step.bind_ok h
      cases hwrite
      obtain ⟨lines, scope, hlines, -⟩ := addFunction_ok h
      have hrefused := resolve_trampoline_unknown revoke hunknown
      cases hrefused.symm.trans hlines

theorem register_emits_of_ok {reg : Registration} (h : register reg s = .ok () s') :
    Emits s s' (hookFiles s.scope.ns reg) := by
  obtain ⟨s₁, h₁, e⟩ := register_emits (register_ok h)
  rw [h] at h₁
  cases h₁
  exact e

/-- A list of steps that succeed, each of which emits its own files. -/
theorem forM_emits_of_ok {α : Type} {f : α → Step Session Unit} {g : α → List PackFile}
    {ns : String} : ∀ {l : List α} {s s' : Session},
    (∀ a ∈ l, ∀ t t' : Session, t.scope.ns = ns → f a t = .ok () t' → Emits t t' (g a)) →
    s.scope.ns = ns → l.forM f s = .ok () s' → Emits s s' (l.flatMap g)
  | [], s, s', _, _, h => by
    cases h
    exact .nothing rfl rfl
  | a :: l, s, s', hl, hns, h => by
    obtain ⟨u, s₁, h₁, h'⟩ := Step.bind_ok (x := f a) (f := fun _ => l.forM f) h
    have e₁ := hl a List.mem_cons_self s s₁ hns h₁
    have e' := forM_emits_of_ok (fun b hb => hl b (List.mem_cons_of_mem a hb)) (e₁.ns.trans hns) h'
    exact e₁.trans e'

/-- What an emission has written: functions, then the files of registrations, then tags. -/
theorem emit_ok {b : Build} (hb : ∀ f ∈ b.functions, ∀ c ∈ f.commands, c.IsPlain)
    (h : emit b s = .ok () s') :
    ∃ tags, (∀ file ∈ tags, ∃ key members, file = .tag key members) ∧
      Emits s s' (b.functions.map (functionFile s.scope.ns) ++
        b.registrations.flatMap (hookFiles s.scope.ns) ++ tags) := by
  have hfunction : ∀ f ∈ b.functions, ∀ t t' : Session, t.scope.ns = s.scope.ns →
      addFunction f.name f.commands t = .ok () t' → Emits t t' [functionFile s.scope.ns f] := by
    intro f hf t t' hns ht
    obtain ⟨t₁, ht₁, e⟩ := addFunction_emits f.name (Step.mapM_steady fun c hc =>
      Command.resolve_plain (hb f hf c hc) t.scope)
    rw [ht] at ht₁
    cases ht₁
    rw [functionFile, ← hns]
    exact e
  have hregister : ∀ reg ∈ b.registrations, ∀ t t' : Session, t.scope.ns = s.scope.ns →
      register reg t = .ok () t' → Emits t t' (hookFiles s.scope.ns reg) := by
    intro reg _ t t' hns ht
    rw [← hns]
    exact register_emits_of_ok ht
  obtain ⟨u, s₁, h₁, h⟩ := Step.bind_ok h
  cases h₁
  have e₁ := addFunctionNames_emits b.functionNames s
  obtain ⟨u, s₂, h₂, h⟩ := Step.bind_ok h
  have e₂ := forM_emits_of_ok hfunction e₁.ns h₂
  obtain ⟨u, s₃, h₃, h⟩ := Step.bind_ok h
  have e₃ := forM_emits_of_ok hregister (e₂.ns.trans e₁.ns) h₃
  cases h
  refine ⟨s₃.tagFiles, tagFiles_tags s₃, ?_⟩
  have e₄ : Emits s₃ { s₃ with files := s₃.files ++ s₃.tagFiles } s₃.tagFiles :=
    ⟨rfl, List.Subset.refl _, rfl⟩
  rw [List.map_eq_flatMap]
  exact ((e₁.trans e₂).trans e₃).trans e₄

/-! ## The pack -/

section
variable {ns : String} {b : Build} {lines : List String} {tags : List PackFile}
  (ht : ∀ file ∈ tags, ∃ key members, file = .tag key members)
include ht

theorem function_freshFiles (hn : b.functionNames.Nodup) {f : CompiledFunction}
    (hf : f ∈ b.functions)
    (hfree : ∀ handler trigger conditions revoke,
      .handler handler (.advancement trigger conditions) revoke ∈ b.registrations →
        f.name ≠ trampolineFor handler) :
    (Pack.ofFiles (freshFiles ns b lines tags)).function? f.name =
      some (f.commands.filterMap (·.line? ns)) := by
  have htrampolines : Assoc.get? f.name
      ((b.registrations.flatMap (hookFiles ns)).filterMap (·.asFunction?)).reverse = none := by
    cases hget : Assoc.get? f.name
        ((b.registrations.flatMap (hookFiles ns)).filterMap (·.asFunction?)).reverse with
    | none => rfl
    | some text =>
      obtain ⟨handler, trigger, conditions, revoke, hr, he⟩ :=
        mem_trampolines.mp (Assoc.mem_of_get?_reverse hget)
      exact absurd (Prod.mk.inj he).1 (hfree handler trigger conditions revoke hr)
  have hentries : (b.functions.map (functionFile ns)).filterMap (·.asFunction?) =
      b.functions.map fun f => (f.name, f.commands.filterMap (·.line? ns)) := by
    rw [List.filterMap_map, ← List.filterMap_eq_map]
    rfl
  have hkeys : ((b.functions.map fun f =>
      (f.name, f.commands.filterMap (·.line? ns))).map Prod.fst).Nodup := by
    rw [List.map_map]
    exact hn
  have hfunction := Assoc.get?_of_mem hkeys (List.mem_map_of_mem hf)
  rw [function?_freshFiles ht, htrampolines, hentries, Assoc.get?_reverse hkeys, hfunction]
  rfl

/-- A trampoline takes the place of the function of its name. -/
theorem trampoline_of_name {handler trigger : String} {conditions : List Condition} {revoke : Bool}
    (hr : .handler handler (.advancement trigger conditions) revoke ∈ b.registrations) :
    ∃ revoke', (Pack.ofFiles (freshFiles ns b lines tags)).function? (trampolineFor handler) =
      some (trampolineLines ns handler revoke') := by
  have hm : (trampolineFor handler, trampolineLines ns handler revoke) ∈
      ((b.registrations.flatMap (hookFiles ns)).filterMap (·.asFunction?)).reverse :=
    List.mem_reverse.mpr (mem_trampolines.mpr ⟨handler, trigger, conditions, revoke, hr, rfl⟩)
  obtain ⟨text, hget⟩ := Assoc.get?_isSome hm
  obtain ⟨name, trigger', conditions', revoke', -, he⟩ :=
    mem_trampolines.mp (Assoc.mem_of_get?_reverse hget)
  obtain ⟨hname, rfl⟩ := Prod.mk.inj he
  obtain rfl := (String.append_left_inj _).mp hname
  exact ⟨revoke', by rw [function?_freshFiles ht, hget, Option.some_or]⟩

end

/-- The pack of a fresh session after an emission. -/
theorem pack_of_emit {b : Build} (hb : ∀ f ∈ b.functions, ∀ c ∈ f.commands, c.IsPlain)
    {settings : Settings} {origin : BlockPos} (hs : create settings origin = .ok s)
    (he : emit b s = .ok () s') :
    s.scope.ns = settings.ns ∧ s'.scope.ns = settings.ns ∧
      ∃ lines tags, (∀ file ∈ tags, ∃ key members, file = .tag key members) ∧
        s'.pack = Pack.ofFiles (freshFiles settings.ns b lines tags) := by
  obtain ⟨s₀, lines, hs₀, hns, hfiles⟩ := create_ok settings origin
  rw [hs] at hs₀
  cases hs₀
  obtain ⟨tags, htags, e⟩ := emit_ok hb he
  refine ⟨hns, e.ns.trans hns, lines, tags, htags, ?_⟩
  rw [pack, e.files, hfiles, hns, freshFiles]

open Program (History compile)

/-- **Survival.** A program that was put together by any calls, and compiled, is emitted in a fresh
session. Each compiled function then has its file in the pack: its commands, resolved in the scope of
the session, which they leave alone. The one exception is a function that is called like the
trampoline of an advancement handler: its file is the trampoline. -/
theorem functions_survive (calls : List Program.Call) (b : Build) (p' : Program)
    (hc : compile (History.of calls).program = .ok b p') (settings : Settings) (origin : BlockPos)
    (s s' : Session) (hs : create settings origin = .ok s) (he : emit b s = .ok () s')
    (f : CompiledFunction) (hf : f ∈ b.functions) :
    (∃ lines, Command.resolveAll f.commands s.scope = .ok lines s.scope ∧
      Command.resolveAll f.commands s'.scope = .ok lines s'.scope ∧
      ((∀ handler trigger conditions revoke,
        .handler handler (.advancement trigger conditions) revoke ∈ b.registrations →
          f.name ≠ handler ++ "_trampoline") → s'.pack.function? f.name = some lines)) ∧
    ∀ handler trigger conditions revoke,
      .handler handler (.advancement trigger conditions) revoke ∈ b.registrations →
      f.name = handler ++ "_trampoline" →
        ∃ revoke', s'.pack.function? f.name = some (trampolineLines settings.ns handler revoke') := by
  have hopen := History.isOpen calls (Program.stage_define_of_compile hc)
  obtain ⟨-, rfl, -⟩ := hopen.compile_ok_iff_compilable.mp hc
  have hplain := (History.of calls).program.reference_plain
  obtain ⟨hns, hns', dump, tags, htags, hpack⟩ := pack_of_emit hplain hs he
  have hresolve (scope : Scope) (h : scope.ns = settings.ns) :
      Command.resolveAll f.commands scope =
        .ok (f.commands.filterMap (·.line? settings.ns)) scope := by
    rw [← h]
    exact Step.mapM_steady fun c hcmd => Command.resolve_plain (hplain f hf c hcmd) scope
  rw [hpack]
  refine ⟨⟨_, hresolve s.scope hns, hresolve s'.scope hns', fun hfree => ?_⟩, ?_⟩
  · exact function_freshFiles htags hopen.nodup_functionNames hf hfree
  · intro handler trigger conditions revoke hr hname
    rw [hname]
    exact trampoline_of_name htags hr

/-- A function that is written beside the trampoline of a handler. -/
theorem functions_survive_besideTrampoline :
    ∃ calls b p' settings origin s s' f, compile (History.of calls).program = .ok b p' ∧
      create settings origin = .ok s ∧ emit b s = .ok () s' ∧ f ∈ b.functions ∧ f.name = "main" ∧
      b.registrations = [.handler "greet" (.advancement "minecraft:tick" []) true] ∧
      s'.pack.function? "main" = some ["function #demo:done"] := by
  let calls : List Program.Call := [
    .edit (.addFunction "greet" false false), .edit (.addFunction "main" false true),
    .edit (.define "join" (.advEvent "minecraft:tick")), .edit (.define "done" (.tagEvent "done")),
    .edit (.pushTop (.eventHandler 0 ⟨0, .advancement⟩)),
    .edit (.pushBody 1 (.fireEvent ⟨1, .tag⟩))]
  let f : CompiledFunction := ⟨"main", [.callTag ⟨"done"⟩]⟩
  have hb : ∀ c ∈ calls, c.isBare = false := by decide
  have hc : compile (History.of calls).program = .ok
      { functions := [⟨"greet", []⟩, f]
        registrations := [.handler "greet" (.advancement "minecraft:tick" []) true] } _ := rfl
  have hf : f ∈ [⟨"greet", []⟩, f] := List.mem_cons_of_mem _ List.mem_cons_self
  obtain ⟨s, -, hs, hns, -⟩ := create_ok { ns := "demo", position := .site } .site
  obtain ⟨s', tags, he, -⟩ := emit_linked (Program.linked_of_compile hb hc) s
  obtain ⟨⟨lines, hlines, -, hfile⟩, -⟩ := functions_survive calls _ _ hc _ _ s s' hs he f hf
  have hfree : ∀ handler trigger conditions revoke,
      .handler handler (.advancement trigger conditions) revoke ∈
        [Registration.handler "greet" (.advancement "minecraft:tick" []) true] →
      f.name ≠ handler ++ "_trampoline" := by
    intro handler trigger conditions revoke hr
    cases List.mem_singleton.mp hr
    decide
  have htext : Command.resolveAll f.commands s.scope =
      .ok ["function #" ++ (s.scope.ns ++ ":" ++ "done")] s.scope := rfl
  rw [htext, hns] at hlines
  cases hlines
  exact ⟨calls, _, _, _, _, s, s', f, hc, hs, he, hf, rfl, rfl, hfile hfree⟩

/-- A function that is called like the trampoline of a handler is not in the pack. -/
theorem trampoline_overwrites :
    ∃ calls b p' settings origin s s' f lines, compile (History.of calls).program = .ok b p' ∧
      create settings origin = .ok s ∧ emit b s = .ok () s' ∧ f ∈ b.functions ∧
      Command.resolveAll f.commands s'.scope = .ok lines s'.scope ∧
      s'.pack.function? f.name ≠ some lines := by
  let calls : List Program.Call := [
    .edit (.addFunction "greet" false false), .edit (.addFunction "greet_trampoline" false true),
    .edit (.define "join" (.advEvent "minecraft:tick")), .edit (.define "done" (.tagEvent "done")),
    .edit (.pushTop (.eventHandler 0 ⟨0, .advancement⟩)),
    .edit (.pushBody 1 (.fireEvent ⟨1, .tag⟩))]
  let f : CompiledFunction := ⟨"greet_trampoline", [.callTag ⟨"done"⟩]⟩
  have hb : ∀ c ∈ calls, c.isBare = false := by decide
  let b : Build := {
    functions := [⟨"greet", []⟩, f]
    registrations := [.handler "greet" (.advancement "minecraft:tick" []) true] }
  have hc : compile (History.of calls).program = .ok b _ := rfl
  have hlinked := Program.linked_of_compile hb hc
  obtain ⟨s, -, hs, -⟩ := create_ok { ns := "demo", position := .site } .site
  obtain ⟨s', -, he, -⟩ := emit_linked hlinked s
  obtain ⟨-, hns', dump, tags, htags, hpack⟩ := pack_of_emit hlinked.commands hs he
  obtain ⟨revoke, hfile⟩ := trampoline_of_name (b := b) htags List.mem_cons_self
  have hname : f.name = trampolineFor "greet" := by decide
  have htext : Command.resolveAll f.commands s'.scope =
      .ok ["function #" ++ (s'.scope.ns ++ ":" ++ "done")] s'.scope := rfl
  refine ⟨calls, _, _, _, _, s, s', f, _, hc, hs, he, List.mem_cons_of_mem _ List.mem_cons_self,
    htext, ?_⟩
  rw [hpack, hname, hfile, hns']
  cases revoke <;> decide

end Session

end Datapack
