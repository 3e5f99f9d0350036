import Datapack.Proofs.Session.Tags

/-!
# No reference dangles

Tags, advancements and trampolines call functions by their qualified names, and
some of these are named before the function is written: a session that sets
itself up on load begins with a tag for a trampoline that only its lifecycle
writes.

**What calls write.** `Writes ns names ts files`: the functions among
`files` are those of `names`, and the trampolines `ts`, each of which calls its
target; every advancement calls a trampoline. `Call.writes` says it of one call
and `performAll_writes` of a run.

**What tags name.** `Names ns callable`: the members of tags, collected or
written, are functions of `callable`. Every call keeps it whose functions are
callable (`Call.keeps_names`).

**Result.** `references_present`: after compiled programs were emitted and the
lifecycle was written, in any order, every function that is called by a tag, an
advancement or a trampoline is in the pack.
-/
namespace Datapack

namespace Session

open Step (Keeps)

variable {s s' : Session}

/-! ## What calls write -/

/-- A function that leads to another one. -/
structure Trampoline where
  name : String
  target : String
  /-- It first revokes the advancement of its target. -/
  revoke : Bool

def Trampoline.file (ns : String) (t : Trampoline) : PackFile :=
  .function t.name (trampolineLines ns t.target t.revoke)

/-- The trampolines of a registration. -/
def hookTrampolines : Registration → List Trampoline
  | .handler handler (.advancement _ _) revoke => [⟨trampolineFor handler, handler, revoke⟩]
  | _ => []

/-- The trampolines that a call writes. -/
def Call.trampolines (onLoad : Bool) : Call → List Trampoline
  | .emit build => build.registrations.flatMap hookTrampolines
  | .addLifecycle setup _ => if onLoad then [⟨loadTrampoline, setup, false⟩] else []
  | _ => []

/-- The other functions that a call writes. -/
def Call.functions : Call → List String
  | .emit build => build.functionNames
  | .addLifecycle setup cleanup => [setup, cleanup]
  | _ => []

open Program (History compile) in
/-- The call emits a compiled program whose functions all have bodies, or writes the lifecycle. -/
def Call.IsCompiled : Call → Prop
  | .emit build => ∃ calls p', (∀ c ∈ calls, c.isBare = false) ∧
    compile (History.of calls).program = .ok build p'
  | .addLifecycle _ _ => True
  | _ => False

/-- The target of a trampoline is written by the same call. -/
theorem Call.IsCompiled.target {c : Call} (hc : c.IsCompiled) {onLoad : Bool} :
    ∀ t ∈ c.trampolines onLoad, t.target ∈ c.functions := by
  intro t ht
  cases c with
  | emit build =>
    obtain ⟨calls, p', hb, hcompile⟩ := hc
    obtain ⟨reg, hr, ht⟩ := List.mem_flatMap.mp ht
    have hhook := (Program.linked_of_compile hb hcompile).hooks reg hr
    cases reg with
    | setup function => cases ht
    | handler handler event revoke =>
      cases event with
      | tag name => cases ht
      | advancement trigger conditions =>
        rw [List.mem_singleton.mp ht]
        exact hhook
  | addLifecycle setup cleanup =>
    cases onLoad with
    | false => cases ht
    | true =>
      rw [List.mem_singleton.mp ht]
      exact List.mem_cons_self
  | _ => exact hc.elim

structure Writes (ns : String) (names : List String) (ts : List Trampoline)
    (files : List PackFile) : Prop where
  functions : ∀ f ∈ names, ∃ lines, .function f lines ∈ files
  trampolines : ∀ t ∈ ts, t.file ns ∈ files
  only : ∀ name lines, .function name lines ∈ files →
    name ∈ names ∨ ∃ t ∈ ts, t.file ns = .function name lines
  rewards : ∀ a, .advancement a ∈ files → ∃ t ∈ ts, a.reward = some (ns ++ ":" ++ t.name)

namespace Writes

variable {ns : String} {names names' : List String} {ts ts' : List Trampoline}
  {files files' : List PackFile}

theorem append (h : Writes ns names ts files) (h' : Writes ns names' ts' files') :
    Writes ns (names ++ names') (ts ++ ts') (files ++ files') where
  functions f hf := by
    rcases List.mem_append.mp hf with hf | hf
    · obtain ⟨lines, hl⟩ := h.functions f hf
      exact ⟨lines, List.mem_append_left _ hl⟩
    · obtain ⟨lines, hl⟩ := h'.functions f hf
      exact ⟨lines, List.mem_append_right _ hl⟩
  trampolines t ht := by
    rcases List.mem_append.mp ht with ht | ht
    · exact List.mem_append_left _ (h.trampolines t ht)
    · exact List.mem_append_right _ (h'.trampolines t ht)
  only name lines hf := by
    rcases List.mem_append.mp hf with hf | hf
    · rcases h.only name lines hf with hn | ⟨t, ht, he⟩
      · exact .inl (List.mem_append_left _ hn)
      · exact .inr ⟨t, List.mem_append_left _ ht, he⟩
    · rcases h'.only name lines hf with hn | ⟨t, ht, he⟩
      · exact .inl (List.mem_append_right _ hn)
      · exact .inr ⟨t, List.mem_append_right _ ht, he⟩
  rewards a ha := by
    rcases List.mem_append.mp ha with ha | ha
    · obtain ⟨t, ht, hr⟩ := h.rewards a ha
      exact ⟨t, List.mem_append_left _ ht, hr⟩
    · obtain ⟨t, ht, hr⟩ := h'.rewards a ha
      exact ⟨t, List.mem_append_right _ ht, hr⟩

theorem of_tags (h : ∀ file ∈ files, ∃ key members, file = .tag key members) :
    Writes ns [] [] files where
  functions := nofun
  trampolines := nofun
  only name lines hf := by
    obtain ⟨key, members, he⟩ := h _ hf
    cases he
  rewards a ha := by
    obtain ⟨key, members, he⟩ := h _ ha
    cases he

theorem function (ns name : String) (lines : List String) :
    Writes ns [name] [] [.function name lines] where
  functions f hf := ⟨lines, by rw [List.mem_singleton.mp hf]; exact List.mem_cons_self⟩
  trampolines := nofun
  only name' lines' hf := by
    cases List.mem_singleton.mp hf
    exact .inl List.mem_cons_self
  rewards a ha := by cases List.mem_singleton.mp ha

theorem trampoline (ns : String) (t : Trampoline) : Writes ns [] [t] [t.file ns] where
  functions := nofun
  trampolines t' ht := by
    rw [List.mem_singleton.mp ht]
    exact List.mem_cons_self
  only name lines hf := .inr ⟨t, List.mem_cons_self, (List.mem_singleton.mp hf).symm⟩
  rewards a ha := by cases List.mem_singleton.mp ha

/-- An advancement may come before the trampoline that it calls. -/
theorem cons_advancement {a : Advancement} {t : Trampoline} (h : Writes ns names ts files)
    (ht : t ∈ ts) (ha : a.reward = some (ns ++ ":" ++ t.name)) :
    Writes ns names ts (.advancement a :: files) where
  functions f hf := by
    obtain ⟨lines, hl⟩ := h.functions f hf
    exact ⟨lines, List.mem_cons_of_mem _ hl⟩
  trampolines t ht := List.mem_cons_of_mem _ (h.trampolines t ht)
  only name lines hf := by
    rcases List.mem_cons.mp hf with he | hf
    · cases he
    · exact h.only name lines hf
  rewards a' ha' := by
    rcases List.mem_cons.mp ha' with he | hf
    · cases he
      exact ⟨t, ht, ha⟩
    · exact h.rewards a' hf

theorem functionFiles (ns : String) : ∀ functions : List CompiledFunction,
    Writes ns (functions.map (·.name)) [] (functions.map (functionFile ns))
  | [] => of_tags nofun
  | f :: functions => (function ns f.name _).append (functionFiles ns functions)

theorem hooks (ns : String) : ∀ registrations : List Registration,
    Writes ns [] (registrations.flatMap hookTrampolines) (registrations.flatMap (hookFiles ns))
  | [] => of_tags nofun
  | reg :: registrations => by
    have hreg : Writes ns [] (hookTrampolines reg) (hookFiles ns reg) := by
      cases reg with
      | setup function => exact of_tags nofun
      | handler handler event revoke =>
        cases event with
        | tag name => exact of_tags nofun
        | advancement trigger conditions =>
          exact (trampoline ns ⟨trampolineFor handler, handler, revoke⟩).cons_advancement
            List.mem_cons_self rfl
    exact hreg.append (hooks ns registrations)

end Writes

/-! ## What stays throughout -/

/-- What the blank session has and every part of a beginning keeps, a fresh session has. -/
theorem create_induct {I : Session → Prop} (hI : Admits I)
    (hd : ∀ tag, Keeps I (declareTag tag)) {settings : Settings} {origin : BlockPos}
    (hm : settings.setupOnLoad = true → Keeps I (addMember loadTag loadTrampoline))
    (h₀ : I (blank settings origin)) (h : create settings origin = .ok s) : I s := by
  obtain ⟨s₁, s₂, htick, hload, hrest⟩ := create_cases h
  have h₂ := (hd loadTag).of_ok hload ((hd tickTag).of_ok htick h₀)
  rcases hrest with ⟨-, hs⟩ | ⟨hon, s₃, s₄, hnames, hmember, hs⟩
  · exact hI.outfit.of_ok hs h₂
  · have h₃ := (hI.addFunctionNames [loadTrampoline]).of_ok hnames h₂
    exact hI.outfit.of_ok hs ((hm hon).of_ok hmember h₃)

/-- The namespace and the choice to set up on load do not change. -/
def Stays (ns : String) (onLoad : Bool) (s : Session) : Prop :=
  s.scope.ns = ns ∧ s.setupOnLoad = onLoad

namespace Stays

variable {ns : String} {onLoad : Bool}

theorem admits (ns : String) (onLoad : Bool) : Admits (Stays ns onLoad) where
  scope h hg := ⟨hg.ns.trans h.1, h.2⟩
  file h _ := h
  place _ h := h
  hook _ h := h

theorem writeTags : Keeps (Stays ns onLoad) Session.writeTags := fun _ h => h

theorem addMember (tag : QualifiedName) (function : String) :
    Keeps (Stays ns onLoad) (Session.addMember tag function) :=
  .bind ((admits ns onLoad).onScope (Scope.functionName_lasting function)) fun _ =>
    .bind (fun _ h => h) fun _ _ h => h

theorem create {settings : Settings} {origin : BlockPos}
    (h : Session.create settings origin = .ok s) : Stays settings.ns settings.setupOnLoad s :=
  create_induct (admits _ _) (fun _ _ h => h) (fun _ => addMember loadTag loadTrampoline) ⟨rfl, rfl⟩ h

end Stays

/-! ## Runs -/

/-- A trampoline that was written calls its target. -/
theorem resolve_trampoline_ok {handler : String} {revoke : Bool} {scope scope' : Scope}
    {lines : List String}
    (h : Command.resolveAll (trampolineCommands handler revoke) scope = .ok lines scope') :
    lines = trampolineLines scope.ns handler revoke ∧ scope' = scope := by
  by_cases hf : handler ∈ scope.functions
  · rw [resolve_trampoline revoke hf] at h
    cases h
    exact ⟨rfl, rfl⟩
  · rw [resolve_trampoline_unknown revoke hf] at h
    cases h

/-- The commands that a lifecycle answers with. -/
def callBoth (setup cleanup : String) : Step Session (String × String) := do
  return (← onScope (Command.call setup).resolve, ← onScope (Command.call cleanup).resolve)

theorem files_callBoth {setup cleanup : String} {calls : String × String}
    (h : callBoth setup cleanup s = .ok calls s') : s'.files = s.files := by
  obtain ⟨up, s₁, h₁, h⟩ := Step.bind_ok h
  obtain ⟨down, s₂, h₂, h⟩ := Step.bind_ok h
  obtain ⟨scope, -, rfl⟩ := onScope_ok h₁
  obtain ⟨scope', -, rfl⟩ := onScope_ok h₂
  cases h
  rfl

theorem writeLifecycle_eq (setup cleanup : String) (up down : List String) (s : Session) :
    writeLifecycle setup cleanup up down s =
      (if s.setupOnLoad then do
        addFunction loadTrampoline [.call setup]
        writeTags
        callBoth setup cleanup
      else callBoth setup cleanup : Step Session (String × String))
        { s with files := s.files ++ [.function setup up] ++ [.function cleanup down] } := rfl

theorem writeLifecycle_writes {setup cleanup : String} {up down : List String}
    {calls : String × String} (h : writeLifecycle setup cleanup up down s = .ok calls s') :
    ∃ files, s'.files = s.files ++ files ∧
      Writes s.scope.ns [setup, cleanup]
        ((Call.addLifecycle setup cleanup).trampolines s.setupOnLoad) files := by
  have hboth := (Writes.function s.scope.ns setup up).append
    (Writes.function s.scope.ns cleanup down)
  rw [writeLifecycle_eq] at h
  cases hload : s.setupOnLoad with
  | false =>
    rw [hload] at h
    refine ⟨_, ?_, hboth⟩
    rw [files_callBoth h, List.append_assoc]
  | true =>
    rw [hload, if_pos rfl] at h
    obtain ⟨u, s₁, h₁, h⟩ := Step.bind_ok h
    obtain ⟨u, s₂, h₂, h⟩ := Step.bind_ok h
    obtain ⟨lines, scope, hlines, hfiles⟩ := addFunction_ok h₁
    have hlines : Command.resolveAll (trampolineCommands setup false) s.scope = .ok lines scope :=
      hlines
    obtain ⟨rfl, -⟩ := resolve_trampoline_ok hlines
    cases h₂
    have hloads := Writes.trampoline s.scope.ns ⟨loadTrampoline, setup, false⟩
    refine ⟨_, ?_, (hboth.append hloads).append (.of_tags (tagFiles_tags s₁))⟩
    rw [files_callBoth h]
    show s₁.files ++ s₁.tagFiles = _
    rw [hfiles]
    simp only [List.append_assoc, Trampoline.file]

theorem Call.writes {c : Call} (hc : c.IsCompiled) (hok : (c.perform s).1 = true) :
    ∃ files, (c.perform s).2.files = s.files ++ files ∧
      Writes s.scope.ns c.functions (c.trampolines s.setupOnLoad) files := by
  cases c with
  | emit build =>
    obtain ⟨calls, p', hb, hcompile⟩ := hc
    obtain ⟨s', tags, he, htags, e⟩ := emit_linked (Program.linked_of_compile hb hcompile) s
    have hperform : (Call.emit build).perform s = (true, s') :=
      Attempt.outcome_of_ok (Attempt.ofStep_ok.mpr he)
    rw [hperform]
    refine ⟨_, e.files, ?_⟩
    have hw := ((Writes.functionFiles s.scope.ns build.functions).append
      (Writes.hooks s.scope.ns build.registrations)).append (.of_tags htags)
    rw [List.append_nil, List.append_nil, List.append_nil, List.nil_append] at hw
    exact hw
  | addLifecycle setup cleanup =>
    obtain ⟨answer, h⟩ := Attempt.outcome_true (Prod.ext hok rfl)
    obtain ⟨up, down, scope, hgrows, h⟩ := addLifecycle_ok h
    have hwrites := writeLifecycle_writes h
    rw [show ({ s with scope } : Session).scope.ns = s.scope.ns from hgrows.ns] at hwrites
    exact hwrites
  | _ => exact hc.elim

theorem Call.stays {c : Call} (hc : c.IsCompiled) :
    Stays s.scope.ns s.setupOnLoad (c.perform s).2 := by
  have hI := Stays.admits s.scope.ns s.setupOnLoad
  cases c with
  | emit build =>
    exact Attempt.keeps_outcome (hI.emit Stays.addMember Stays.writeTags build) ⟨rfl, rfl⟩
  | addLifecycle setup cleanup => exact hI.addLifecycle Stays.writeTags setup cleanup ⟨rfl, rfl⟩
  | _ => exact hc.elim

theorem performAll_writes : ∀ {calls : List Call} {s : Session}, (∀ c ∈ calls, c.IsCompiled) →
    performAll s calls = some s' →
    ∃ files, s'.files = s.files ++ files ∧
      Writes s.scope.ns (calls.flatMap Call.functions)
        (calls.flatMap (Call.trampolines s.setupOnLoad)) files
  | [], s, _, hr => by
    cases hr
    exact ⟨[], (List.append_nil _).symm, .of_tags nofun⟩
  | c :: calls, s, hc, hr => by
    unfold performAll at hr
    split at hr
    · rename_i hok
      have hhead := hc c List.mem_cons_self
      obtain ⟨files, hfiles, hw⟩ := Call.writes hhead hok
      obtain ⟨more, hmore, hw'⟩ :=
        performAll_writes (fun d hd => hc d (List.mem_cons_of_mem c hd)) hr
      obtain ⟨hns, hload⟩ := Call.stays (s := s) hhead
      rw [hns, hload] at hw'
      refine ⟨files ++ more, ?_, hw.append hw'⟩
      rw [hmore, hfiles, List.append_assoc]
    · cases hr

/-! ## What tags name -/

/-- The text is the qualified name of a function of `names`. -/
def Qualified (ns : String) (names : List String) (text : String) : Prop :=
  ∃ f ∈ names, text = ns ++ ":" ++ f

/-- Every member of a tag, collected or written, is a function of `callable`. -/
structure Names (ns : String) (callable : List String) (s : Session) : Prop where
  groups : ∀ key g, s.groups.get? key = some g → ∀ m ∈ g.members, Qualified ns callable m
  tags : ∀ key members, .tag key members ∈ s.files → ∀ m ∈ members, Qualified ns callable m
  ns : s.scope.ns = ns

namespace Names

variable {ns : String} {callable : List String}

theorem admits (ns : String) (callable : List String) : Admits (Names ns callable) where
  scope h hg := ⟨h.groups, h.tags, hg.ns.trans h.ns⟩
  file {s file} h hfile := by
    refine ⟨h.groups, fun key members hm => ?_, h.ns⟩
    rcases List.mem_append.mp hm with hm | hm
    · exact h.tags key members hm
    · exact absurd (List.mem_singleton.mp hm).symm (hfile key members)
  place _ h := ⟨h.groups, h.tags, h.ns⟩
  hook _ h := ⟨h.groups, h.tags, h.ns⟩

theorem writeTags : Keeps (Names ns callable) Session.writeTags := by
  intro s h
  refine ⟨h.groups, fun key members hm => ?_, h.ns⟩
  rcases List.mem_append.mp hm with hm | hm
  · exact h.tags key members hm
  · have htag : (key, members) ∈ s.tagFiles.filterMap (·.asTag?) :=
      List.mem_filterMap.mpr ⟨_, hm, rfl⟩
    obtain ⟨k, g, hg, -, he⟩ := mem_tagFiles.mp htag
    cases he
    exact h.groups k g (Table.get?_of_mem hg)

theorem group (h : Names ns callable s) (tag : QualifiedName) :
    ∀ m ∈ (s.group tag).members, Qualified ns callable m := by
  unfold Session.group
  cases hg : s.groups.get? (tag.resolve s.scope) with
  | none => exact nofun
  | some g => exact h.groups _ g hg

theorem withGroup (h : Names ns callable s) (key : String) {g : TagGroup}
    (hg : ∀ m ∈ g.members, Qualified ns callable m) :
    Names ns callable { s with groups := s.groups.insert key g } := by
  refine ⟨fun k g' hk => ?_, h.tags, h.ns⟩
  simp only [Table.get?_insert] at hk
  split at hk
  · cases hk
    exact hg
  · exact h.groups k g' hk

theorem declareTag (tag : QualifiedName) : Keeps (Names ns callable) (Session.declareTag tag) :=
  fun _ h => h.withGroup _ (h.group tag)

theorem addMember (tag : QualifiedName) {function : String} (hf : function ∈ callable) :
    Keeps (Names ns callable) (Session.addMember tag function) := by
  intro s h
  by_cases hknown : function ∈ s.scope.functions
  · obtain ⟨s', hok, -⟩ := addMember_emits tag hknown
    rw [Step.after_of_ok hok, addMember_ok hok]
    refine h.withGroup _ fun m hm => ?_
    rcases List.mem_append.mp hm with hm | hm
    · exact h.group tag m hm
    · exact ⟨function, hf, by rw [List.mem_singleton.mp hm, h.ns]⟩
  · have hrefused : Session.addMember tag function s =
        .error (Cause.notFound .functionName function).error s :=
      Step.bind_of_error (functionName_unknown hknown)
    rw [Step.after_of_error hrefused]
    exact h

theorem register {reg : Registration} (hf : reg.function ∈ callable) :
    Keeps (Names ns callable) (Session.register reg) := by
  cases reg with
  | setup function => exact addMember loadTag hf
  | handler function event revoke =>
    cases event with
    | tag name => exact addMember ⟨name⟩ hf
    | advancement trigger conditions =>
      exact (admits ns callable).addAdvancementHandler function trigger conditions revoke

theorem emit {build : Build} (hb : ∀ reg ∈ build.registrations, reg.function ∈ callable) :
    Keeps (Names ns callable) (Session.emit build) :=
  .bind ((admits ns callable).addFunctionNames build.functionNames) fun _ =>
    .bind (.forM build.functions fun f _ => (admits ns callable).addFunction f.name f.commands)
      fun _ => .bind (.forM build.registrations fun reg hr => register (hb reg hr)) fun _ => writeTags

theorem create {settings : Settings} {origin : BlockPos}
    (hl : settings.setupOnLoad = true → loadTrampoline ∈ callable)
    (h : Session.create settings origin = .ok s) : Names settings.ns callable s :=
  create_induct (admits settings.ns callable) declareTag (fun hon => addMember loadTag (hl hon))
    ⟨nofun, nofun, rfl⟩ h

end Names

theorem Call.keeps_names {c : Call} (hc : c.IsCompiled) {ns : String} {callable : List String}
    (hf : c.functions ⊆ callable) (h : Names ns callable s) :
    Names ns callable (c.perform s).2 := by
  cases c with
  | emit build =>
    obtain ⟨calls, p', hb, hcompile⟩ := hc
    have hhooks := (Program.linked_of_compile hb hcompile).hooks
    exact Attempt.keeps_outcome (Names.emit fun reg hr => hf (hhooks reg hr)) h
  | addLifecycle setup cleanup =>
    exact (Names.admits ns callable).addLifecycle Names.writeTags setup cleanup h
  | _ => exact hc.elim

theorem performAll_names {ns : String} {callable : List String} : ∀ {calls : List Call}
    {s : Session}, (∀ c ∈ calls, c.IsCompiled) → calls.flatMap Call.functions ⊆ callable →
    Names ns callable s → performAll s calls = some s' → Names ns callable s'
  | [], _, _, _, h, hr => by
    cases hr
    exact h
  | c :: calls, s, hc, hf, h, hr => by
    rw [List.flatMap_cons, List.append_subset] at hf
    unfold performAll at hr
    split at hr
    · exact performAll_names (fun d hd => hc d (List.mem_cons_of_mem c hd)) hf.2
        (Call.keeps_names (hc c List.mem_cons_self) hf.1 h) hr
    · cases hr

/-! ## The pack -/

/-- **References.** Take a fresh session and any successful calls that emit compiled programs, whose
functions all have bodies, or write the lifecycle; if the session is to set itself up on load, the
lifecycle is among them. Then every member of a tag and the reward of every advancement is a
function of the pack, and so is the target of every trampoline that was written, whether or not the
trampoline has been replaced since. All functions that were written are accounted for: the one that
shows the stack, those of the programs and of the lifecycle, and trampolines. -/
theorem references_present (settings : Settings) (origin : BlockPos) (calls : List Call)
    (hs : create settings origin = .ok s) (hc : ∀ c ∈ calls, c.IsCompiled)
    (hl : settings.setupOnLoad = true → ∃ setup cleanup, .addLifecycle setup cleanup ∈ calls)
    (hr : performAll s calls = some s') :
    (∀ key members, (key, members) ∈ s'.pack.tags.entries → ∀ m ∈ members,
      ∃ f, m = settings.ns ++ ":" ++ f ∧ (s'.pack.function? f).isSome = true) ∧
    (∀ name a, (name, a) ∈ s'.pack.advancements.entries →
      ∃ f, a.reward = some (settings.ns ++ ":" ++ f) ∧ (s'.pack.function? f).isSome = true) ∧
    (∀ t ∈ calls.flatMap (Call.trampolines settings.setupOnLoad),
      .function t.name (trampolineLines settings.ns t.target t.revoke) ∈ s'.files ∧
        (s'.pack.function? t.target).isSome = true) ∧
    ∀ name lines, .function name lines ∈ s'.files →
      name = stackDump ∨ name ∈ calls.flatMap Call.functions ∨
        ∃ t ∈ calls.flatMap (Call.trampolines settings.setupOnLoad),
          name = t.name ∧ lines = trampolineLines settings.ns t.target t.revoke := by
  let names := calls.flatMap Call.functions
  let ts := calls.flatMap (Call.trampolines settings.setupOnLoad)
  let callable := stackDump :: (names ++ ts.map (·.name))
  obtain ⟨s₀, lines, hs₀, -, hstart⟩ := create_ok settings origin
  rw [hs] at hs₀
  cases hs₀
  obtain ⟨hns, honload⟩ := Stays.create hs
  obtain ⟨files, hfiles, hw⟩ := performAll_writes hc hr
  rw [hns, honload] at hw
  rw [hstart] at hfiles
  have present {f : String} (hf : f ∈ callable) : (s'.pack.function? f).isSome = true := by
    rw [pack, Pack.function?_isSome, hfiles]
    rcases List.mem_cons.mp hf with rfl | hf
    · exact ⟨lines, List.mem_append_left _ List.mem_cons_self⟩
    · rcases List.mem_append.mp hf with hf | hf
      · obtain ⟨text, ht⟩ := hw.functions f hf
        exact ⟨text, List.mem_append_right _ ht⟩
      · obtain ⟨t, ht, rfl⟩ := List.mem_map.mp hf
        exact ⟨_, List.mem_append_right _ (hw.trampolines t ht)⟩
  have callable_name {t : Trampoline} (ht : t ∈ ts) : t.name ∈ callable :=
    List.mem_cons_of_mem _ (List.mem_append_right _ (List.mem_map_of_mem ht))
  have callable_function {f : String} (hf : f ∈ names) : f ∈ callable :=
    List.mem_cons_of_mem _ (List.mem_append_left _ hf)
  -- The tag that runs on load has named its trampoline from the beginning.
  have hload (hon : settings.setupOnLoad = true) : loadTrampoline ∈ callable := by
    obtain ⟨setup, cleanup, hm⟩ := hl hon
    refine callable_name (t := ⟨loadTrampoline, setup, false⟩) (List.mem_flatMap.mpr ⟨_, hm, ?_⟩)
    rw [hon]
    exact List.mem_cons_self
  have hnames := performAll_names hc (fun _ => callable_function) (Names.create hload hs) hr
  refine ⟨fun key members hm m hmember => ?_, fun name a ha => ?_, fun t ht => ?_, ?_⟩
  · obtain ⟨f, hf, rfl⟩ := hnames.tags key members (Pack.mem_of_mem_tags hm) m hmember
    exact ⟨f, rfl, present hf⟩
  · have ha := Pack.mem_of_mem_advancements ha
    rw [hfiles] at ha
    rcases List.mem_append.mp ha with ha | ha
    · cases List.mem_singleton.mp ha
    · obtain ⟨t, ht, hreward⟩ := hw.rewards a ha
      exact ⟨t.name, hreward, present (callable_name ht)⟩
  · obtain ⟨c, hcall, htc⟩ := List.mem_flatMap.mp ht
    have htarget := (hc c hcall).target t htc
    refine ⟨?_, present (callable_function (List.mem_flatMap.mpr ⟨c, hcall, htarget⟩))⟩
    rw [hfiles]
    exact List.mem_append_right _ (hw.trampolines t ht)
  · intro name text hf
    rw [hfiles] at hf
    rcases List.mem_append.mp hf with hf | hf
    · cases List.mem_singleton.mp hf
      exact .inl rfl
    · rcases hw.only name text hf with hn | ⟨t, ht, he⟩
      · exact .inr (.inl hn)
      · cases he
        exact .inr (.inr ⟨t, ht, rfl, rfl⟩)

/-- A handler of an advancement, the lifecycle, and a later program with a function that replaces the
trampoline of the handler. -/
theorem references_present_replaced :
    ∃ (settings : Settings) (calls : List Call) (s s' : Session),
      create settings settings.position = .ok s ∧ (∀ c ∈ calls, c.IsCompiled) ∧
      settings.setupOnLoad = true ∧ (∃ setup cleanup, .addLifecycle setup cleanup ∈ calls) ∧
      performAll s calls = some s' ∧
      .function "greet_trampoline" ["advancement revoke @s only demo:adv_greet",
        "function demo:greet"] ∈ s'.files ∧ (s'.pack.function? "greet").isSome = true ∧
      .function "setup_on_load_trampoline" ["function demo:up"] ∈ s'.files ∧
      (s'.pack.function? "up").isSome = true := by
  let settings : Settings := {
    ns := "demo"
    position := .site
    setupOnLoad := true }
  let greeting : Build := {
    functions := [⟨"greet", []⟩]
    registrations := [.handler "greet" (.advancement "minecraft:tick" []) true] }
  let other : Build := { functions := [⟨"greet_trampoline", []⟩] }
  let calls : List Call := [.emit greeting, .addLifecycle "up" "down", .emit other]
  have hgreeting : (Call.emit greeting).IsCompiled :=
    ⟨[.edit (.addFunction "greet" false false),
      .edit (.define "join" (.advEvent "minecraft:tick")),
      .edit (.pushTop (.eventHandler 0 ⟨0, .advancement⟩))], _, by decide, rfl⟩
  have hother : (Call.emit other).IsCompiled :=
    ⟨[.edit (.addFunction "greet_trampoline" false true)], _, by decide, rfl⟩
  have hc : ∀ c ∈ calls, c.IsCompiled := by
    intro c hm
    simp only [calls, List.mem_cons, List.not_mem_nil, or_false] at hm
    rcases hm with rfl | rfl | rfl
    · exact hgreeting
    · trivial
    · exact hother
  have hl : ∃ setup cleanup, .addLifecycle setup cleanup ∈ calls :=
    ⟨"up", "down", List.mem_cons_of_mem _ List.mem_cons_self⟩
  have h : ((create settings settings.position).toOption.bind (performAll · calls)).isSome = true :=
    by decide +kernel
  obtain ⟨s', h⟩ := Option.isSome_iff_exists.mp h
  obtain ⟨s, hcreate, hr⟩ := Option.bind_eq_some_iff.mp h
  have hs := Step.except_ok_of_toOption hcreate
  obtain ⟨-, -, htrampolines, -⟩ := references_present settings _ calls hs hc (fun _ => hl) hr
  obtain ⟨hhandler, hgreet⟩ := htrampolines ⟨"greet_trampoline", "greet", true⟩ List.mem_cons_self
  obtain ⟨hload, hup⟩ := htrampolines ⟨"setup_on_load_trampoline", "up", false⟩
    (List.mem_cons_of_mem _ List.mem_cons_self)
  exact ⟨settings, calls, s, s', hs, hc, rfl, hl, hr, hhandler, hgreet, hload, hup⟩

end Session

end Datapack
