import Datapack.Proofs.Session.Lifecycle
import Datapack.Proofs.Session.Tags

/-!
# Fresh sessions that can be installed

Validation looks at the settings alone. A session has registers of its own,
which the settings may replace, and an installation clears two of them without
arguments. So a replacement that has slots passes validation and yet cannot be
installed.

**Variables.** `fill_isOk_iff`: a variable takes as many arguments as it has
slots. The options of validated settings, and those of the registers, are such
arguments (`options_of_scopeOf`), so all objectives can be enumerated.

**Clearing.** `succeeds_clearing`: scores are cleared exactly when the cleared
registers resolve without arguments.

**Result.** `fresh_installs_iff`: among validated settings, exactly those whose
replacements of the cleared registers have no slots can be installed. The
others exist (`slotted_register_refused`).
-/
namespace Datapack

/-! ## Variables and their arguments -/

theorem VariableEntry.fill_isOk_iff (name : String) {entry : VariableEntry} {args : List String} :
    (∃ text, entry.fill name args = .ok text) ↔ args.length = entry.arity := by
  cases entry with
  | fixed text => cases args <;> simp [fill, arity]
  | templated template options =>
    by_cases h : Template.slots template = args.length
    · simp [fill, Template.fill?, arity, h]
    · have h' : ¬ args.length = Template.slots template := fun e => h e.symm
      simp [fill, Template.fill?, arity, h, h']

theorem VariableEntry.length_of_fixed {text : String} {args : List String}
    (h : args ∈ (fixed text).options) : args.length = (fixed text).arity := by
  rw [List.mem_singleton.mp h]
  rfl

/-- Every option fills its variable. -/
theorem Settings.options_of_validate {settings : Settings} (h : settings.validate = .ok ())
    {name : String} {entry : VariableEntry} (he : settings.vars.get? name = some entry) :
    ∀ args ∈ entry.options, args.length = entry.arity := by
  intro args ha
  have hoption := (validate_ok h).2 _ (Assoc.mem_of_get? he)
  cases entry with
  | fixed text => exact VariableEntry.length_of_fixed ha
  | templated template options =>
    have hall := List.find?_eq_none.mp (Option.map_eq_none_iff.mp hoption)
    simpa [VariableEntry.arity] using hall args ha

namespace Scope

variable {s : Scope}

theorem objective_isOk_iff {name : String} {args : List String} :
    (∃ n, s.objective name args = .ok n) ↔
      ∃ entry, s.vars.get? name = some entry ∧ args.length = entry.arity := by
  simp only [objective_ok, ← VariableEntry.fill_isOk_iff name]
  constructor
  · rintro ⟨n, entry, text, he, ht, -⟩
    exact ⟨entry, he, text, ht⟩
  · rintro ⟨entry, he, text, ht⟩
    exact ⟨_, entry, text, he, ht, rfl⟩

/-- When every option fills its variable there is an enumeration, if collisions are let pass. -/
theorem objectives_isOk (hd : s.detectCollisions = false)
    (h : ∀ name entry, s.vars.get? name = some entry →
      ∀ args ∈ entry.options, args.length = entry.arity) :
    ∃ names, s.objectives = .ok names := by
  have hnames : ∀ e ∈ s.vars.entries, ∃ names, s.fullNames e.1 e.2 = .ok names := by
    rintro ⟨name, entry⟩ he
    refine Step.mapM_isOk fun args ha => ?_
    obtain ⟨text, ht⟩ :=
      (VariableEntry.fill_isOk_iff name).mpr (h name entry (Table.get?_of_mem he) args ha)
    exact ⟨_, Step.except_map_ok.mpr ⟨text, ht, rfl⟩⟩
  obtain ⟨lists, hlists⟩ := Step.mapM_isOk hnames
  unfold objectives
  rw [fullObjectives_ok.mpr ⟨lists, hlists, rfl⟩, hd]
  exact ⟨_, rfl⟩

end Scope

namespace Session

/-! ## Clearing scores -/

/-- A score that is cleared allocates nothing: cells are known, and variables are only read. -/
theorem after_cleared {s : Scope} {target : ScoreRef} (h : target ∈ clearedScores s) :
    Step.after target.objective s = s := by
  cases target with
  | var name args => exact Step.after_ofExcept _ s
  | memory origin =>
    have hcell : origin ∈ s.cells := by simpa [clearedScores] using h
    exact (Scope.memory_allocates origin).after_known (List.contains_iff_mem.mpr hcell)

theorem succeeds_clearing (s : Scope) :
    Step.succeeds (Command.resolveAll (clearing s)) s = true ↔
      ∀ name ∈ clearedRegisters, ∃ n, s.objective name [] = .ok n := by
  have hreads : ∀ c ∈ clearing s, Step.after c.resolve s = s := by
    intro c hc
    obtain ⟨target, ht, rfl⟩ := List.mem_map.mp hc
    exact Step.after_returning (P := (· = s)) (after_cleared ht) _
  have hcells : ∀ origin ∈ s.cells, Step.succeeds (Scope.memory origin) s = true := by
    intro origin hcell
    have hknown := (Scope.memory_allocates origin).eq_known (List.contains_iff_mem.mpr hcell)
    exact Step.succeeds_of_ok hknown
  have hsucceeds : ∀ target, Step.succeeds (Command.setScore target 0).resolve s =
      Step.succeeds target.objective s := fun target => Step.succeeds_returning _ _ s
  unfold Command.resolveAll
  rw [Step.succeeds_mapM hreads]
  unfold clearing clearedScores
  simp only [List.forall_mem_map, hsucceeds, List.forall_mem_append]
  constructor
  · rintro ⟨-, h⟩ name hname
    exact Step.succeeds_ofExcept.mp (h name hname)
  · intro h
    exact ⟨hcells, fun name hname => Step.succeeds_ofExcept.mpr (h name hname)⟩

/-! ## Fresh sessions -/

/-- The variables of a session are those of the settings, and the registers that these do not
replace. -/
theorem get?_scopeOf (settings : Settings) (name : String) :
    (scopeOf settings).vars.get? name =
      (settings.vars.get? name).or (Assoc.get? name registers) := by
  have hregisters : (Table.ofList registers).entries = registers := by decide
  unfold scopeOf
  rw [Table.get?_insertAll, Assoc.get?_reverse settings.vars.nodup]
  unfold Table.get?
  rw [hregisters]

/-- The registers are fixed. -/
theorem fixed_of_registers : ∀ e ∈ registers, ∃ text, e.2 = .fixed text := by
  simp [registers]

theorem options_of_scopeOf {settings : Settings} (hv : settings.validate = .ok ())
    {name : String} {entry : VariableEntry}
    (he : (scopeOf settings).vars.get? name = some entry) :
    ∀ args ∈ entry.options, args.length = entry.arity := by
  rw [get?_scopeOf, Option.or_eq_some_iff] at he
  rcases he with he | ⟨-, he⟩
  · exact settings.options_of_validate hv he
  · obtain ⟨text, rfl⟩ := fixed_of_registers _ (Assoc.mem_of_get? he)
    exact fun args => VariableEntry.length_of_fixed

/-- A cleared register resolves unless the settings replace it by a variable with slots. -/
theorem cleared_scopeOf {settings : Settings} {name : String} (hname : name ∈ clearedRegisters) :
    (∃ n, (scopeOf settings).objective name [] = .ok n) ↔
      ∀ entry, settings.vars.get? name = some entry → entry.arity = 0 := by
  have hregister : ∀ name ∈ clearedRegisters, (Assoc.get? name registers).isSome = true := by
    decide
  rw [Scope.objective_isOk_iff, get?_scopeOf]
  cases settings.vars.get? name with
  | none =>
    obtain ⟨entry, he⟩ := Option.isSome_iff_exists.mp (hregister name hname)
    obtain ⟨text, rfl⟩ := fixed_of_registers _ (Assoc.mem_of_get? he)
    rw [he]
    exact iff_of_true ⟨_, rfl, rfl⟩ nofun
  | some entry => simp [eq_comm]

/-- A fresh session has one block, no hook and the scope of its settings. -/
theorem fresh_of_create {settings : Settings} {origin : BlockPos} {s : Session}
    (h : create settings origin = .ok s) :
    s.hook = [] ∧ s.layout = ⟨origin, [[⟨"", false, .repeating⟩]]⟩ ∧
      s.scope = { scopeOf settings with functions := s.scope.functions } := by
  obtain ⟨s₁, s₂, htick, hload, hrest⟩ := create_cases h
  cases htick
  cases hload
  rcases hrest with ⟨-, hs⟩ | ⟨-, s₃, s₄, hnames, hmember, hs⟩
  · cases hs
    exact ⟨rfl, rfl, rfl⟩
  · cases hnames
    obtain rfl := addMember_ok hmember
    cases hs
    exact ⟨rfl, rfl, rfl⟩

/-- An installation without a hook, of blocks that fit and variables that are enumerated, depends on
the scores that it clears. -/
theorem install_isOk_iff {s : Session} (hhook : s.hook = []) {objectives : List String}
    (ho : s.scope.objectives = .ok objectives) (hl : s.layout.Fits) :
    (∃ up s', install s = .ok up s') ↔
      Step.succeeds (Command.resolveAll (clearing s.scope.setSealed)) s.scope.setSealed = true := by
  have hnone : Command.resolveAll [] s.scope = .ok [] s.scope := rfl
  obtain ⟨placed, hplaced⟩ := hl.positions?
  rw [install_eq, hhook, hnone]
  simp only [ho, Layout.setCommands?, hplaced, Option.map_some]
  cases hc : Command.resolveAll (clearing s.scope.setSealed) s.scope.setSealed with
  | error e scope => simp [Step.succeeds_of_error hc]
  | ok cleared scope => simp [Step.succeeds_of_ok hc]

theorem fits_utility {origin : BlockPos} (hz : origin.z.val + 1 < 0x80000000)
    (block : Block String) : Layout.Fits ⟨origin, [[block]]⟩ := by
  intro z line hl x hx
  have hx' := origin.x.property
  cases z with
  | zero =>
    cases hl
    simp only [List.length_singleton] at hx
    simp only
    omega
  | succ z => cases hl

/-- **Installing a fresh session.** From settings that pass validation a session can always be made.
When collisions are let pass and the utility block, one step along the last axis, is in range, its
installation succeeds exactly when the settings do not replace a cleared register by a template with
slots. -/
theorem fresh_installs_iff (settings : Settings) (hv : settings.validate = .ok ())
    (hd : settings.detectCollisions = false)
    (hz : settings.position.z.val + 1 < 0x80000000) :
    ∃ s, create settings settings.position = .ok s ∧
      ((∃ up s', install s = .ok up s') ↔
        ∀ name ∈ ["working_reg", "success_tracker"], ∀ entry,
          settings.vars.get? name = some entry → entry.arity = 0) := by
  obtain ⟨s, -, hs, -⟩ := create_ok settings settings.position
  obtain ⟨hhook, hlayout, hscope⟩ := fresh_of_create hs
  obtain ⟨objectives, ho⟩ := Scope.objectives_isOk (s := scopeOf settings) hd
    fun name entry he => options_of_scopeOf hv he
  have ho' : s.scope.objectives = .ok objectives := by rw [hscope]; exact ho
  have hl : s.layout.Fits := by rw [hlayout]; exact fits_utility hz _
  have hobjective : ∀ name, s.scope.setSealed.objective name [] =
      (scopeOf settings).objective name [] := by
    intro name
    rw [hscope]
    rfl
  refine ⟨s, hs, ?_⟩
  rw [install_isOk_iff hhook ho' hl, succeeds_clearing]
  refine forall_congr' fun name => forall_congr' fun hname => ?_
  rw [hobjective, cleared_scopeOf hname]

/-- A template takes the place of a cleared register, but has no slots; another variable has one, and
the utility block is the last one in range. -/
theorem fresh_installs_iff_slotless :
    ∃ (settings : Settings) (s : Session) (up : List String) (s' : Session),
      settings.validate = .ok () ∧ settings.detectCollisions = false ∧
      settings.position.z.val + 2 = 0x80000000 ∧
      settings.vars.entries = [("slot", .templated "s\x7b\x7d" [["0"], ["1"]]),
        ("success_tracker", .templated "done" [[]])] ∧
      create settings settings.position = .ok s ∧ install s = .ok up s' := by
  let settings : Settings := {
    ns := "ns"
    position := ⟨⟨0, by decide⟩, ⟨64, by decide⟩, ⟨0x7FFFFFFE, by decide⟩⟩
    setupOnLoad := true
    vars := Table.ofList [("slot", .templated "s\x7b\x7d" [["0"], ["1"]]),
      ("success_tracker", .templated "done" [[]])] }
  have hslotless : ∀ name ∈ ["working_reg", "success_tracker"], ∀ entry,
      settings.vars.get? name = some entry → entry.arity = 0 := by
    intro name hname entry he
    rcases List.mem_pair.mp hname with rfl | rfl
    · cases he
    · cases he
      rfl
  obtain ⟨s, hs, hiff⟩ := fresh_installs_iff settings (by decide) rfl (by decide)
  obtain ⟨up, s', hup⟩ := hiff.mpr hslotless
  exact ⟨settings, s, up, s', by decide, rfl, by decide, by decide, hs, hup⟩

/-- A register that is replaced by a template with a slot passes validation, but clearing it without
arguments is refused. -/
theorem slotted_register_refused :
    ∃ (settings : Settings) (s s' : Session),
      settings.validate = .ok () ∧ settings.detectCollisions = false ∧
      settings.position.z.val + 1 < 0x80000000 ∧
      settings.vars.entries = [("working_reg", .templated "w\x7b\x7d" [["0"]])] ∧
      create settings settings.position = .ok s ∧
      install s = .error (.refused
        (Cause.arityMismatch "working_reg" (.exactly 1) 0).error) s' := by
  let settings : Settings := {
    ns := "ns"
    position := .site
    vars := Table.ofList [("working_reg", .templated "w\x7b\x7d" [["0"]])] }
  exact ⟨settings, _, _, by decide, rfl, by decide, by decide, rfl, rfl⟩

end Session

end Datapack
