import Datapack.Proofs.Pack
import Datapack.Proofs.Program.Soundness
import Datapack.Proofs.Session.Emission

/-!
# Advancement handlers are re-armed

An advancement fires once. So an advancement event calls a trampoline, which
revokes the advancement and only then calls the handler. The trampoline and
the advancement carry the name of the handler, and the pack keeps one file of
each name: two events of one handler would overwrite each other. Compilation
refuses them, so all records of one handler agree (`records_agree`).

**Names.** A function may itself be called like a trampoline. Its file is
written before all trampolines, and is replaced by the one of its name.

**Result.** `handlers_rearmed`: in the pack of a fresh session, after a
compiled program was emitted, every advancement record has its advancement
and its trampoline, and there is no other advancement.
-/
namespace Datapack

/-! ## Records of one handler -/

namespace Program

variable {p : Program}

/-- Where the record of an advancement comes from. The statement holds a handle of the kind of its
event, so the handler re-arms. -/
theorem statement_of_record (hh : p.Held) {name trigger : String} {conditions : List Condition}
    {revoke : Bool}
    (hr : .handler name (.advancement trigger conditions) revoke ∈ p.reference.registrations) :
    revoke = true ∧ ∃ id f event, .eventHandler id event ∈ p.top ∧ event.kind = .advancement ∧
      p.registry.functions[id]? = some f ∧ f.name = name ∧
      p.registry.events[event.id]?.map (Event.attach (p.conditionsOn event.id)) =
        some (.advancement trigger conditions) := by
  obtain ⟨insn, hi, hrec⟩ := List.mem_filterMap.mp hr
  cases insn with
  | eventHandler id event =>
    obtain ⟨f, hf, hrec⟩ := Option.bind_eq_some_iff.mp hrec
    obtain ⟨e, he, hrec⟩ := Option.bind_eq_some_iff.mp hrec
    simp only [pure, Option.some.injEq, Registration.handler.injEq] at hrec
    obtain ⟨hname, hevent, rfl⟩ := hrec
    have hkind : event.kind = .advancement := by
      obtain ⟨e', he', hk⟩ := hh _ (List.mem_append_left _ (List.mem_append_left _ hi))
        (.event event) (by simp [Instruction.operands])
      rw [he] at he'
      cases he'
      rw [← hk, ← Event.kind_attach (p.conditionsOn event.id), hevent]
      rfl
    refine ⟨List.any_eq_true.mpr ⟨_, hi, ?_⟩, id, f, event, hi, hkind, hf, hname, ?_⟩
    · simp [Instruction.advancementOf?, hkind]
    · rw [he, Option.map_some, hevent]
  | setupFn function =>
    obtain ⟨f, hf, hrec⟩ := Option.bind_eq_some_iff.mp hrec
    cases hrec
  | _ => cases hrec

theorem records_agree (hp : p.Open) (hc : p.Compilable) (hh : p.Held)
    {name trigger trigger' : String} {conditions conditions' : List Condition}
    {revoke revoke' : Bool}
    (hr : .handler name (.advancement trigger conditions) revoke ∈ p.reference.registrations)
    (hr' : .handler name (.advancement trigger' conditions') revoke' ∈ p.reference.registrations) :
    trigger = trigger' ∧ conditions = conditions' := by
  obtain ⟨-, id, f, event, hi, hk, hf, hn, he⟩ := statement_of_record hh hr
  obtain ⟨-, id', f', event', hi', hk', hf', hn', he'⟩ := statement_of_record hh hr'
  obtain rfl := hp.id_of_name hf hf' (hn.trans hn'.symm)
  rw [← hc.single id event event' hi hk hi' hk', he] at he'
  cases he'
  exact ⟨rfl, rfl⟩

end Program

namespace Session

/-! ## Fresh sessions -/

theorem declareTag_emits (tag : QualifiedName) (s : Session) :
    ∃ s', declareTag tag s = .ok () s' ∧ Emits s s' [] :=
  ⟨_, rfl, .nothing rfl rfl⟩

/-- The last part of a beginning: the utility block and the function that shows the stack. -/
def outfit : Step Session Unit := do
  addLines [[{ command := .raw "", conditional := false, mode := .repeating }]]
  addFunctionNames [stackDump]
  addFunction stackDump [.dumpStack none (.plain .allPlayers)]

theorem outfit_eq (s : Session) :
    outfit s = .ok () { s with
      scope := s.scope.addFunctions [stackDump]
      layout := s.layout.place [{ command := "", conditional := false, mode := .repeating }]
      files := s.files ++ [.function stackDump
        [Command.dumpText (s.scope.addFunctions [stackDump]) none (.plain .allPlayers)]] } := rfl

theorem outfit_emits (s : Session) :
    ∃ s' lines, outfit s = .ok () s' ∧ Emits s s' [.function stackDump lines] :=
  ⟨_, _, outfit_eq s, rfl, fun _ h => Scope.mem_addFunctions.mpr (.inr h), rfl⟩

theorem begin_eq (s : Session) :
    begin s = (do
      declareTag tickTag
      declareTag loadTag
      if (← get).setupOnLoad then
        addFunctionNames [loadTrampoline]
        addMember loadTag loadTrampoline
        outfit
      else outfit : Step Session Unit) s := rfl

/-- A session begins with the file of one function. -/
theorem begin_emits (s : Session) :
    ∃ s' lines, begin s = .ok () s' ∧ Emits s s' [.function stackDump lines] := by
  obtain ⟨s₁, h₁, e₁⟩ := declareTag_emits tickTag s
  obtain ⟨s₂, h₂, e₂⟩ := declareTag_emits loadTag s₁
  have e₁₂ := e₁.trans e₂
  rw [begin_eq, Step.bind_of_ok h₁, Step.bind_of_ok h₂, Step.get_bind]
  cases s₂.setupOnLoad with
  | false =>
    obtain ⟨s', lines, hs', e⟩ := outfit_emits s₂
    exact ⟨s', lines, hs', e₁₂.trans e⟩
  | true =>
    let s₃ : Session := { s₂ with scope := s₂.scope.addFunctions [loadTrampoline] }
    have e₃ := addFunctionNames_emits [loadTrampoline] s₂
    obtain ⟨s₄, h₄, e₄⟩ := addMember_emits (s := s₃) loadTag
      (Scope.mem_addFunctions.mpr (.inl List.mem_cons_self))
    obtain ⟨s', lines, hs', e⟩ := outfit_emits s₄
    refine ⟨s', lines, ?_, ((e₁₂.trans e₃).trans e₄).trans e⟩
    simp only [if_true]
    rw [Step.bind_of_ok (show addFunctionNames _ s₂ = .ok () s₃ from rfl), Step.bind_of_ok h₄]
    exact hs'

theorem create_ok (settings : Settings) (origin : BlockPos) :
    ∃ s lines, create settings origin = .ok s ∧ s.scope.ns = settings.ns ∧
      s.files = [.function stackDump lines] := by
  obtain ⟨s, lines, hs, e⟩ := begin_emits
    { scope := scopeOf settings, layout := ⟨origin, []⟩, setupOnLoad := settings.setupOnLoad }
  refine ⟨s, lines, ?_, e.ns, e.files⟩
  simp only [create, hs]

/-- The session that a new one begins as. -/
def blank (settings : Settings) (origin : BlockPos) : Session where
  scope := scopeOf settings
  layout := ⟨origin, []⟩
  setupOnLoad := settings.setupOnLoad

/-- The steps from a blank session to a fresh one. -/
theorem create_cases {settings : Settings} {origin : BlockPos} {s : Session}
    (h : create settings origin = .ok s) :
    ∃ s₁ s₂, declareTag tickTag (blank settings origin) = .ok () s₁ ∧
      declareTag loadTag s₁ = .ok () s₂ ∧
      ((settings.setupOnLoad = false ∧ outfit s₂ = .ok () s) ∨
        (settings.setupOnLoad = true ∧ ∃ s₃ s₄, addFunctionNames [loadTrampoline] s₂ = .ok () s₃ ∧
          addMember loadTag loadTrampoline s₃ = .ok () s₄ ∧ outfit s₄ = .ok () s)) := by
  have hbegin : begin (blank settings origin) = .ok () s := by
    simp only [create] at h
    split at h
    · rename_i hbegin
      cases h
      exact hbegin
    · cases h
  rw [begin_eq] at hbegin
  obtain ⟨_, s₁, htick, hbegin⟩ := Step.bind_ok hbegin
  obtain ⟨_, s₂, hload, hbegin⟩ := Step.bind_ok hbegin
  have hsetup : s₂.setupOnLoad = settings.setupOnLoad := by
    cases htick
    cases hload
    rfl
  refine ⟨s₁, s₂, htick, hload, ?_⟩
  rw [Step.get_bind, hsetup] at hbegin
  cases hon : settings.setupOnLoad with
  | false =>
    rw [hon] at hbegin
    exact .inl ⟨rfl, hbegin⟩
  | true =>
    rw [hon, if_pos rfl] at hbegin
    obtain ⟨_, s₃, hnames, hbegin⟩ := Step.bind_ok hbegin
    obtain ⟨_, s₄, hmember, hbegin⟩ := Step.bind_ok hbegin
    exact .inr ⟨rfl, s₃, s₄, hnames, hmember, hbegin⟩

/-! ## The pack -/

theorem mem_hookFiles {ns : String} {regs : List Registration} {file : PackFile} :
    file ∈ regs.flatMap (hookFiles ns) ↔
      ∃ name trigger conditions revoke,
        .handler name (.advancement trigger conditions) revoke ∈ regs ∧
        (file = .advancement (triggerFor ns name trigger conditions) ∨
          file = .function (trampolineFor name) (trampolineLines ns name revoke)) := by
  rw [List.mem_flatMap]
  constructor
  · rintro ⟨reg, hr, hf⟩
    cases reg with
    | setup function => cases hf
    | handler name event revoke =>
      cases event with
      | tag tagName => cases hf
      | advancement trigger conditions =>
        exact ⟨name, trigger, conditions, revoke, hr, by simpa [hookFiles] using hf⟩
  · rintro ⟨name, trigger, conditions, revoke, hr, hf⟩
    exact ⟨_, hr, by simpa [hookFiles] using hf⟩

variable {ns : String} {b : Build} {tags : List PackFile}

/-- The files of a build that was emitted in a fresh session. -/
def freshFiles (ns : String) (b : Build) (lines : List String) (tags : List PackFile) :
    List PackFile :=
  [.function stackDump lines] ++ (b.functions.map (functionFile ns) ++
    b.registrations.flatMap (hookFiles ns) ++ tags)

/-- Only registrations have advancements. -/
theorem mem_advancements {lines : List String}
    (ht : ∀ file ∈ tags, ∃ key members, file = .tag key members) {entry : String × Advancement} :
    entry ∈ (freshFiles ns b lines tags).filterMap (·.asAdvancement?) ↔
      ∃ name trigger conditions revoke,
        .handler name (.advancement trigger conditions) revoke ∈ b.registrations ∧
        entry = (Advancement.nameFor name, triggerFor ns name trigger conditions) := by
  rw [List.mem_filterMap]
  constructor
  · rintro ⟨file, hf, he⟩
    simp only [freshFiles, List.mem_append, List.mem_singleton, List.mem_map] at hf
    rcases hf with rfl | (⟨f, -, rfl⟩ | hf) | hf
    · cases he
    · cases he
    · obtain ⟨name, trigger, conditions, revoke, hr, rfl | rfl⟩ := mem_hookFiles.mp hf
      · cases he
        exact ⟨name, trigger, conditions, revoke, hr, rfl⟩
      · cases he
    · obtain ⟨key, members, rfl⟩ := ht file hf
      cases he
  · rintro ⟨name, trigger, conditions, revoke, hr, rfl⟩
    refine ⟨.advancement (triggerFor ns name trigger conditions), ?_, rfl⟩
    simp only [freshFiles, List.mem_append]
    exact .inr (.inl (.inr (mem_hookFiles.mpr ⟨name, trigger, conditions, revoke, hr, .inl rfl⟩)))

theorem mem_trampolines {entry : String × List String} :
    entry ∈ (b.registrations.flatMap (hookFiles ns)).filterMap (·.asFunction?) ↔
      ∃ name trigger conditions revoke,
        .handler name (.advancement trigger conditions) revoke ∈ b.registrations ∧
        entry = (trampolineFor name, trampolineLines ns name revoke) := by
  rw [List.mem_filterMap]
  constructor
  · rintro ⟨file, hf, he⟩
    obtain ⟨name, trigger, conditions, revoke, hr, rfl | rfl⟩ := mem_hookFiles.mp hf
    · cases he
    · cases he
      exact ⟨name, trigger, conditions, revoke, hr, rfl⟩
  · rintro ⟨name, trigger, conditions, revoke, hr, rfl⟩
    exact ⟨_, mem_hookFiles.mpr ⟨name, trigger, conditions, revoke, hr, .inr rfl⟩, rfl⟩

section
variable {lines : List String} (ht : ∀ file ∈ tags, ∃ key members, file = .tag key members)
include ht

/-- The advancement of a handler, when all records of the handler agree. -/
theorem advancement_freshFiles {name trigger : String} {conditions : List Condition} {revoke : Bool}
    (hr : .handler name (.advancement trigger conditions) revoke ∈ b.registrations)
    (ha : ∀ trigger' conditions' revoke',
      .handler name (.advancement trigger' conditions') revoke' ∈ b.registrations →
        trigger' = trigger ∧ conditions' = conditions) :
    (Pack.ofFiles (freshFiles ns b lines tags)).advancements.get? (Advancement.nameFor name) =
      some (triggerFor ns name trigger conditions) := by
  rw [Pack.advancements_ofFiles]
  refine Assoc.get?_of_agree ?_ fun a hm => ?_
  · rw [List.mem_reverse, mem_advancements ht]
    exact ⟨name, trigger, conditions, revoke, hr, rfl⟩
  · rw [List.mem_reverse, mem_advancements ht] at hm
    obtain ⟨name', trigger', conditions', revoke', hr', he⟩ := hm
    obtain ⟨hname, rfl⟩ := Prod.mk.inj he
    obtain rfl := (String.append_right_inj _).mp hname
    obtain ⟨rfl, rfl⟩ := ha trigger' conditions' revoke' hr'
    rfl

/-- Trampolines come before the functions of the build, which come before what was there. -/
theorem function?_freshFiles (name : String) :
    (Pack.ofFiles (freshFiles ns b lines tags)).function? name =
      (Assoc.get? name
        ((b.registrations.flatMap (hookFiles ns)).filterMap (·.asFunction?)).reverse).or
      ((Assoc.get? name ((b.functions.map (functionFile ns)).filterMap (·.asFunction?)).reverse).or
        (Assoc.get? name [(stackDump, lines)])) := by
  have htags : tags.filterMap (·.asFunction?) = [] := by
    rw [List.filterMap_eq_nil_iff]
    intro file hf
    obtain ⟨key, members, rfl⟩ := ht file hf
    rfl
  rw [Pack.function?_ofFiles, freshFiles]
  simp only [List.filterMap_append, List.reverse_append, htags, List.reverse_nil, List.nil_append,
    Assoc.get?_append, Option.or_assoc]
  rfl

/-- The trampoline of a handler, when all records of the handler re-arm. It replaces any function
of its name. -/
theorem trampoline_freshFiles {name trigger : String} {conditions : List Condition}
    {revoke : Bool}
    (hr : .handler name (.advancement trigger conditions) revoke ∈ b.registrations)
    (ha : ∀ trigger' conditions' revoke',
      .handler name (.advancement trigger' conditions') revoke' ∈ b.registrations →
        revoke' = true) :
    (Pack.ofFiles (freshFiles ns b lines tags)).function? (trampolineFor name) =
      some (trampolineLines ns name true) := by
  have hlast : Assoc.get? (trampolineFor name)
      ((b.registrations.flatMap (hookFiles ns)).filterMap (·.asFunction?)).reverse =
        some (trampolineLines ns name true) := by
    refine Assoc.get?_of_agree ?_ fun lines' hm => ?_
    · rw [List.mem_reverse, mem_trampolines]
      exact ⟨name, trigger, conditions, revoke, hr, by rw [ha _ _ _ hr]⟩
    · rw [List.mem_reverse, mem_trampolines] at hm
      obtain ⟨name', trigger', conditions', revoke', hr', he⟩ := hm
      obtain ⟨hname, rfl⟩ := Prod.mk.inj he
      obtain rfl := (String.append_left_inj _).mp hname
      rw [ha _ _ _ hr']
  rw [function?_freshFiles ht, hlast, Option.some_or]

end

open Program (History compile)

/-- **Re-arming.** A program is put together from what it has itself handed out, compiled, and
emitted in a fresh session. Then every record of an advancement event has the advancement of its
handler in the pack, with the event and its conditions as the one criterion, and a trampoline that
revokes this advancement before it calls the handler. There is no other advancement, and the
records of one handler are for the same event and conditions. -/
theorem handlers_rearmed (edits : List Program.Edit) (h : History)
    (hh : History.of (edits.map .edit) = h) (hi : ∀ insn ∈ h.program.statements, h.Issued insn)
    (b : Build) (p' : Program) (hc : compile h.program = .ok b p')
    (settings : Settings) (origin : BlockPos) (s : Session)
    (hs : create settings origin = .ok s) :
    ∃ s', emit b s = .ok () s' ∧
      (∀ name trigger conditions revoke,
        .handler name (.advancement trigger conditions) revoke ∈ b.registrations →
        (∃ a, s'.pack.advancements.get? ("adv_" ++ name) = some a ∧
          a.criteria.entries = [(name, ⟨trigger, conditions⟩)] ∧
          a.reward = some (settings.ns ++ ":" ++ (name ++ "_trampoline"))) ∧
        s'.pack.function? (name ++ "_trampoline") =
          some ["advancement revoke @s only " ++ settings.ns ++ ":" ++ ("adv_" ++ name),
            "function " ++ (settings.ns ++ ":" ++ name)]) ∧
      (∀ entry ∈ s'.pack.advancements.entries, ∃ name trigger conditions revoke,
        .handler name (.advancement trigger conditions) revoke ∈ b.registrations ∧
        entry.1 = "adv_" ++ name) ∧
      ∀ name trigger conditions revoke trigger' conditions' revoke',
        .handler name (.advancement trigger conditions) revoke ∈ b.registrations →
        .handler name (.advancement trigger' conditions') revoke' ∈ b.registrations →
        trigger = trigger' ∧ conditions = conditions' := by
  subst hh
  have hp : (Program.built edits).Open := Program.built_isOpen edits
  have hheld : (Program.built edits).Held := History.held hi
  obtain ⟨hcompilable, rfl, -⟩ := hp.compile_ok_iff_compilable.mp hc
  have hlinked := hcompilable.linked (Nat.le_of_eq (Program.built_aligned edits).symm)
  obtain ⟨s₀, lines, hs₀, hns, hfiles⟩ := create_ok settings origin
  rw [hs] at hs₀
  cases hs₀
  obtain ⟨s', tags, hs', htags, e⟩ := emit_linked hlinked s
  have hpack : s'.pack =
      Pack.ofFiles (freshFiles settings.ns (Program.built edits).reference lines tags) := by
    rw [pack, e.files, hfiles, hns, freshFiles]
  refine ⟨s', hs', fun name trigger conditions revoke hr => ⟨?_, ?_⟩, fun entry he => ?_,
    fun _ _ _ _ _ _ _ hr hr' => Program.records_agree hp hcompilable hheld hr hr'⟩
  · refine ⟨triggerFor settings.ns name trigger conditions, ?_, rfl, rfl⟩
    rw [hpack]
    exact advancement_freshFiles htags hr fun _ _ _ hr' =>
      Program.records_agree hp hcompilable hheld hr' hr
  · rw [hpack]
    exact trampoline_freshFiles htags hr fun _ _ _ hr' =>
      (Program.statement_of_record hheld hr').1
  · have hget := Table.get?_of_mem he
    rw [hpack, Pack.advancements_ofFiles] at hget
    obtain ⟨name, trigger, conditions, revoke, hr, hentry⟩ :=
      (mem_advancements htags).mp (List.mem_reverse.mp (Assoc.mem_of_get? hget))
    exact ⟨name, trigger, conditions, revoke, hr, (Prod.mk.inj hentry).1⟩

/-- A handler beside a function that is called like its trampoline. -/
theorem handlers_rearmed_sameName :
    ∃ edits h b p' settings origin s s', History.of (List.map .edit edits) = h ∧
      (∀ insn ∈ h.program.statements, h.Issued insn) ∧ compile h.program = .ok b p' ∧
      create settings origin = .ok s ∧ "greet_trampoline" ∈ b.functionNames ∧
      emit b s = .ok () s' ∧
      s'.pack.function? "greet_trampoline" =
        some ["advancement revoke @s only demo:adv_greet", "function demo:greet"] := by
  let edits : List Program.Edit :=
    [.addFunction "greet" false false, .addFunction "greet_trampoline" false true,
      .define "join" (.advEvent "minecraft:tick"), .pushTop (.eventHandler 0 ⟨0, .advancement⟩),
      .pushPreamble 1 (.addEventCondition ⟨0, .advancement⟩ "player.level" "3"),
      .pushBody 1 (.revokeEventAdv 0)]
  have hi : ∀ insn ∈ (History.of (edits.map .edit)).program.statements,
      (History.of (edits.map .edit)).Issued insn := by decide
  have hc : compile (History.of (edits.map .edit)).program = .ok
      { functions := [⟨"greet", []⟩,
          ⟨"greet_trampoline", [.revoke (.plain .sender) "adv_greet"]⟩]
        registrations :=
          [.handler "greet" (.advancement "minecraft:tick" [⟨["player", "level"], "3"⟩]) true] }
      _ := rfl
  obtain ⟨s, -, hs, -⟩ := create_ok { ns := "demo", position := .site } .site
  obtain ⟨s', hs', hrecords, -⟩ := handlers_rearmed edits _ rfl hi _ _ hc _ _ s hs
  obtain ⟨-, htrampoline⟩ := hrecords _ _ _ _ List.mem_cons_self
  exact ⟨edits, _, _, _, _, _, s, s', rfl, hi, hc, hs, by decide, hs', htrampoline⟩

end Session

end Datapack
