import Datapack.Proofs.Layout.Commands
import Datapack.Proofs.Scope.Objectives
import Datapack.Proofs.Session.Calls

/-!
# Installing and uninstalling agree

The commands that install a pack and those that uninstall it are computed at
different times, each from the tables as they then are. They agree because
installation seals the scope: whatever is called afterwards, and whether it
succeeds or not, variables and cells stay as they are.

**Undoing.** `uninstall_undoes_install`: uninstallation removes the objectives
that were added, in the same order, and kills the same entities. While no block
is placed it clears the blocks that were set, and a second installation is
possible and has the same commands.

**What resolves.** `listed_is_installed`: what resolves after the installation
was installed, a variable for arguments outside its options excepted. The
exception is real: a template takes any arguments, while only its options are
enumerated (`unlisted_slot_resolves`).
-/
namespace Datapack

namespace Session

variable {s s₁ : Session} {up : List String}

/-! ## After an installation -/

theorem killCommand_eq (scope : Scope) :
    killCommand scope = "kill @e[tag=" ++ scope.entityTag ++ "]" := by
  change "kill " ++ ("@e" ++ "[tag=" ++ scope.entityTag ++ "" ++ "]") = _
  rw [String.append_empty, ← String.append_assoc]
  rfl

/-- The entity that is summoned has the tag. -/
theorem summonCommand_eq (scope : Scope) : ∃ data, summonCommand scope =
    "summon armor_stand " ++ scope.home.text ++ " \x7bTags:[\"" ++ scope.entityTag ++ "\"]" ++
      data := by
  unfold summonCommand entityData
  refine ⟨",ArmorItems:[\x7bid:\"minecraft:stone\",Count:1b," ++
    ("tag:\x7bstack:[],globals:[],working:\x7bint:0\x7d\x7d\x7d],NoAI:1b,Invisible:1b,Small:0b," ++
    "NoGravity:1b,Marker:1b,Invulnerable:1b,NoBasePlate:1b\x7d"), ?_⟩
  simp only [String.append_assoc]
  rfl

/-- The lines that clear scores. -/
theorem clearing_lines {scope t t' : Scope} {lines : List String}
    (h : Command.resolveAll (clearing scope) t = .ok lines t') :
    ∀ line ∈ lines, ∃ rest, line = "scoreboard players set " ++ rest := by
  intro line hline
  obtain ⟨c, hc, u, u', hu⟩ := Step.mapM_results h line hline
  obtain ⟨target, -, rfl⟩ := List.mem_map.mp hc
  obtain ⟨objective, u₁, -, hu₁⟩ := Step.bind_ok hu
  cases hu₁
  simp only [String.append_assoc]
  exact ⟨_, rfl⟩

/-- What an installation came to, and what later calls have left of its session: the sealed scope,
known functions apart, and the lines. -/
theorem run_install (h : install s = .ok up s₁) (calls : List Call) :
    ∃ scope hook objectives cleared placed,
      Command.resolveAll s.hook s.scope = .ok hook scope ∧
      scope.objectives = .ok objectives ∧
      Command.resolveAll (clearing scope.setSealed) scope.setSealed =
        .ok cleared scope.setSealed ∧
      s.layout.positions? = some placed ∧
      up = installation scope.setSealed objectives cleared
        (placed.map fun (pos, block) => Layout.setText pos block) hook ∧
      s₁ = { s with scope := scope.setSealed } ∧
      Grows { s with scope := scope.setSealed } (run s₁ calls) ∧
      (run s₁ calls).scope =
        { scope.setSealed with functions := (run s₁ calls).scope.functions } := by
  obtain ⟨scope, hook, objectives, cleared, blocks, hhook, hobjectives, hcleared, hblocks, rfl,
    rfl⟩ := install_ok h
  obtain ⟨placed, hplaced, rfl⟩ := Option.map_eq_some_iff.mp hblocks
  have hgrows := run_grows (s := { s with scope := scope.setSealed }) calls rfl
  exact ⟨scope, hook, objectives, cleared, placed, hhook, hobjectives, hcleared, hplaced, rfl,
    rfl, hgrows, hgrows.scope.frozen rfl⟩

/-- **Undoing.** After an installation and any later calls, successful or refused, the blocks being
in range, uninstallation kills the entities with the tag of the one that the installation summoned,
as the installation itself did first, and removes the objectives that it added, which are those of
the scope, in order. If no block was placed since, it clears the coordinates at which the blocks of
the layout were set, in order; and with the same hook, installing again has the same commands and
changes nothing. -/
theorem uninstall_undoes_install (h : install s = .ok up s₁) (calls : List Call)
    (hfits : (run s₁ calls).layout.Fits) :
    ∃ (data : String) (objectives cleared hook : List String)
      (placed : List (BlockPos × Block String)) (removed : List BlockPos),
      (∃ scope, Command.resolveAll s.hook s.scope = .ok hook scope) ∧
      s₁.scope.objectives = .ok objectives ∧ placed.map Prod.snd = s.layout.blocks ∧
      (∀ line ∈ cleared, ∃ rest, line = "scoreboard players set " ++ rest) ∧
      up = ["kill @e[tag=" ++ s.scope.entityTag ++ "]",
          "summon armor_stand " ++ s.scope.home.text ++ " \x7bTags:[\"" ++ s.scope.entityTag ++
            "\"]" ++ data] ++
        objectives.map (fun o => "scoreboard objectives add " ++ o ++ " dummy") ++ cleared ++
        placed.map (fun (pos, block) => Layout.blockLine pos
          (block.mode.blockId ++ "[facing=east,conditional=" ++
            (if block.conditional then "true" else "false") ++ "]\x7bCommand:" ++
            Text.Json.quote block.command ++ ",auto:1b\x7d")) ++ hook ∧
      (run s₁ calls).uninstall = .ok (["kill @e[tag=" ++ s.scope.entityTag ++ "]"] ++
        objectives.map (fun o => "scoreboard objectives remove " ++ o) ++
        removed.map (fun pos => Layout.blockLine pos "minecraft:air")) ∧
      ((run s₁ calls).layout.blocks = s.layout.blocks →
        removed = placed.map Prod.fst ∧
        ((run s₁ calls).hook = s.hook → install (run s₁ calls) = .ok up (run s₁ calls))) := by
  obtain ⟨scope, hook, objectives, cleared, placed, hhook, hobjectives, hcleared, hplaced, rfl,
    rfl, hgrows, hscope⟩ := run_install h calls
  obtain ⟨standing, hstanding⟩ := hfits.positions?
  generalize run { s with scope := scope.setSealed } calls = s' at hgrows hscope hstanding ⊢
  have hobjectives' : s'.scope.objectives = .ok objectives := by rw [hscope]; exact hobjectives
  -- Neither the hook nor the later calls touch the tag and the place of the entity.
  have hframe := ((Command.resolveAll_lasting s.hook).grows_ok hhook).frame
  have htag : scope.entityTag = s.scope.entityTag := by rw [hframe]
  have hhome : scope.home = s.scope.home := by rw [hframe]
  have hkill : killCommand s'.scope = "kill @e[tag=" ++ s.scope.entityTag ++ "]" := by
    rw [killCommand_eq, hscope, ← htag]
    rfl
  obtain ⟨data, hsummon⟩ := summonCommand_eq scope.setSealed
  refine ⟨data, objectives, cleared, hook, placed, standing.map Prod.fst, ⟨scope, hhook⟩,
    hobjectives, (Layout.rows?_placed hplaced).blocks, clearing_lines hcleared, ?_, ?_, ?_⟩
  · unfold installation
    simp only [Layout.setText_eq, killCommand_eq, hsummon]
    rw [← htag, ← hhome]
    rfl
  · unfold uninstall Layout.clearCommands?
    rw [hobjectives', hstanding, hkill, List.map_map]
    simp only [← Layout.clearText_eq]
    rfl
  · intro hblocks
    have hpositions : s'.layout.positions? = some placed :=
      (Layout.positions?_of_blocks hgrows.origin hgrows.lines hblocks).trans hplaced
    rw [hpositions] at hstanding
    cases hstanding
    refine ⟨rfl, fun hsame => ?_⟩
    -- What was resolved once resolves again in the sealed scope and leaves it as it is.
    have hgrown : scope.Grows s'.scope := scope.grows_setSealed.trans hgrows.scope
    have hhook' : Command.resolveAll s'.hook s'.scope = .ok hook s'.scope := by
      rw [hsame]
      exact (Command.resolveAll_lasting s.hook).again hhook hgrown
    have hcleared' := (Command.resolveAll_lasting (clearing scope.setSealed)).again hcleared
      hgrows.scope
    have hsealed : s'.scope.setSealed = s'.scope := by rw [hscope]; rfl
    have hclearing : clearing s'.scope = clearing scope.setSealed := by rw [hscope]; rfl
    have hinstallation : ∀ blocks, installation s'.scope objectives cleared blocks hook =
        installation scope.setSealed objectives cleared blocks hook := by
      intro blocks
      rw [hscope]
      rfl
    rw [install_eq, hhook']
    simp only [hobjectives', hsealed, hclearing, hcleared', hinstallation, Layout.setCommands?,
      hpositions, Option.map_some]

/-- The hook declares a name local to an entity; a cell is refused and an empty line is placed
before all is installed once more. -/
theorem uninstall_undoes_install_hook :
    ∃ (s s₁ : Session) (up : List String) (calls : List Call),
      install s = .ok up s₁ ∧ "scoreboard objectives add ns_el_hp dummy" ∈ up ∧
      "setblock 0 64 1 minecraft:repeating_command_block[facing=east,conditional=false]" ++
        "\x7bCommand:\"say hi\",auto:1b\x7d" ∈ up ∧
      (run s₁ calls).layout.Fits ∧ (run s₁ calls).layout.lines ≠ s.layout.lines ∧
      "scoreboard objectives remove ns_el_hp" ∈ (run s₁ calls).uninstall.toOption.getD [] ∧
      "setblock 0 64 1 minecraft:air" ∈ (run s₁ calls).uninstall.toOption.getD [] ∧
      install (run s₁ calls) = .ok up (run s₁ calls) := by
  let s : Session := {
    scope := {
      ns := "ns"
      entityTag := "ns_etag"
      home := .site
      vars := Table.ofList registers
      cells := [255] }
    layout := ⟨.site, [[⟨"say hi", false, .repeating⟩]]⟩
    hook := [.templated [.text "scoreboard players set @s ", .arg "entity_local" "hp",
      .text " 20"]] }
  let s₁ : Session :=
    { s with scope := { Scope.declareLocal "hp" s.scope with isSealed := true } }
  let calls : List Call :=
    [.scope (.memory 4), .addFunction "greet" [.setScore (.memory 255) 1], .addLines [[]], .install]
  have h : ∃ up, install s = .ok up s₁ ∧ "scoreboard objectives add ns_el_hp dummy" ∈ up ∧
      "setblock 0 64 1 minecraft:repeating_command_block[facing=east,conditional=false]" ++
        "\x7bCommand:\"say hi\",auto:1b\x7d" ∈ up :=
    ⟨_, rfl, by decide +kernel, by decide +kernel⟩
  obtain ⟨up, h, hadded, hset⟩ := h
  have hlines : (run s₁ calls).layout.lines = [[⟨"say hi", false, .repeating⟩], []] := rfl
  have hfits : (run s₁ calls).layout.Fits := by
    intro z line hl x hx
    rw [hlines] at hl
    rcases z with _ | _ | z
    · cases hl
      obtain rfl : x = 0 := Nat.lt_one_iff.mp hx
      decide
    · cases hl
      cases hx
    · cases hl
  obtain ⟨_, _, _, _, _, _, -, -, -, -, -, -, hagain⟩ := uninstall_undoes_install h calls hfits
  obtain ⟨-, hinstall⟩ := hagain (by decide +kernel)
  exact ⟨s, s₁, up, calls, h, hadded, hset, hfits, by decide +kernel, by decide +kernel,
    by decide +kernel, hinstall (by decide +kernel)⟩

/-! ## What resolves after an installation -/

theorem mem_installation {scope : Scope} {objectives cleared blocks hook : List String} {n : String}
    (hn : n ∈ objectives) :
    "scoreboard objectives add " ++ n ++ " dummy" ∈
      installation scope objectives cleared blocks hook := by
  have hadd : addObjectiveCommand n ∈ objectives.map addObjectiveCommand :=
    List.mem_map_of_mem hn
  unfold installation
  simp only [List.mem_append]
  exact .inl (.inl (.inl (.inr hadd)))

/-- **What resolves was installed.** After an installation and any later calls, variables resolve
as they did then. The objective of a memory cell was installed if it resolves, and so was that of a
variable or of a name local to an entity, if the arguments are among its options. The same holds of
the objective of a score that is set. -/
theorem listed_is_installed (h : install s = .ok up s₁) (calls : List Call) :
    (∀ name args, (run s₁ calls).scope.objective name args = s₁.scope.objective name args) ∧
    (∀ origin n t, Scope.memory origin (run s₁ calls).scope = .ok n t →
      "scoreboard objectives add " ++ n ++ " dummy" ∈ up) ∧
    (∀ name args n, (run s₁ calls).scope.objective name args = .ok n →
      s₁.scope.ListedWith name args → "scoreboard objectives add " ++ n ++ " dummy" ∈ up) ∧
    (∀ name n t, Scope.entityLocal name (run s₁ calls).scope = .ok n t →
      name ∉ s₁.scope.foreign → s₁.scope.ListedWith (Scope.localName name) [] →
      "scoreboard objectives add " ++ n ++ " dummy" ∈ up) ∧
    ∀ target value line t,
      (Command.setScore target value).resolve (run s₁ calls).scope = .ok line t →
      ∃ n, line = "scoreboard players set " ++ Selector.tracked.text s₁.scope ++ " " ++ n ++ " " ++
          toString value ∧
        ((∀ name args, target = .var name args → s₁.scope.ListedWith name args) →
          "scoreboard objectives add " ++ n ++ " dummy" ∈ up) := by
  obtain ⟨scope, hook, objectives, cleared, placed, -, hobjectives, -, -, rfl, rfl, hrun, hscope⟩ :=
    run_install h calls
  have hgrows : scope.setSealed.Grows _ := hrun.scope
  generalize (run { s with scope := scope.setSealed } calls).scope = later at hgrows hscope ⊢
  have hsealed : later.isSealed = true := by rw [hscope]; rfl
  have hlater : later.objectives = .ok objectives := by rw [hscope]; exact hobjectives
  have hmemory : ∀ origin n t, Scope.memory origin later = .ok n t → n ∈ objectives := by
    intro origin n t hn
    obtain rfl := (Scope.memory_lasting origin).still_ok hsealed hn
    obtain ⟨hc, rfl⟩ := Scope.memory_ok hn
    exact Scope.cell_mem_objectives hlater hc
  have hvariable : ∀ name args n, later.objective name args = .ok n →
      scope.setSealed.ListedWith name args → n ∈ objectives := by
    intro name args n hn hl
    exact (hl.grows hgrows).mem_objectives hn hlater
  refine ⟨fun name args => by rw [hscope]; rfl, fun origin n t hn =>
    mem_installation (hmemory origin n t hn), fun name args n hn hl =>
    mem_installation (hvariable name args n hn hl), fun name n t hn hf hl => ?_,
    fun target value line t hline => ?_⟩
  · obtain rfl := (Scope.entityLocal_lasting name).still_ok hsealed hn
    have hf' : name ∉ t.foreign := by rw [hgrows.foreign]; exact hf
    exact mem_installation (hvariable _ _ n (Scope.entityLocal_ok hf' hn).1 hl)
  · obtain ⟨n, t', hn, htext⟩ := Step.bind_ok hline
    obtain rfl := (ScoreRef.objective_lasting target).still_ok hsealed hn
    cases htext
    refine ⟨n, by rw [Selector.text_grows hgrows], fun hl => mem_installation ?_⟩
    cases target with
    | var name args =>
      obtain ⟨hn, -⟩ := Step.ofExcept_ok.mp (show Step.ofExcept _ _ = _ from hn)
      exact hvariable name args n hn (hl name args rfl)
    | memory origin => exact hmemory origin n _ hn

/-- Settings with a variable that has a slot for one argument and two options for it. -/
def slotSettings : Settings where
  ns := "ns"
  position := .site
  vars := Table.ofList [("slot", .templated "s\x7b\x7d" [["0"], ["1"]])]

/-- A listed slot, after a new cell and a new option were refused. -/
theorem listed_is_installed_slot :
    ∃ (s s₁ : Session) (up : List String) (calls : List Call),
      create slotSettings slotSettings.position = .ok s ∧ install s = .ok up s₁ ∧
      s₁.scope.ListedWith "slot" ["1"] ∧
      (run s₁ calls).scope.objective "slot" ["1"] = .ok "ns_s1" ∧
      "scoreboard objectives add ns_s1 dummy" ∈ up := by
  let calls : List Call := [.scope (.memory 4),
    .scope (.addVariable "slot" (.templated "s\x7b\x7d" [["0"], ["1"], ["7"]]))]
  have h : ∃ s s₁ up, create slotSettings slotSettings.position = .ok s ∧
      install s = .ok up s₁ ∧ s₁.scope.ListedWith "slot" ["1"] ∧
      s₁.scope.objective "slot" ["1"] = .ok "ns_s1" :=
    ⟨_, _, _, rfl, rfl, ⟨_, rfl, .inr (by decide)⟩, rfl⟩
  obtain ⟨s, s₁, up, hs, h, hl, hn⟩ := h
  obtain ⟨hsame, -, hvariable, -⟩ := listed_is_installed h calls
  have hn' := (hsame "slot" ["1"]).trans hn
  exact ⟨s, s₁, up, calls, hs, h, hl, hn', hvariable "slot" ["1"] "ns_s1" hn' hl⟩

/-- An argument that is not listed resolves in the sealed scope, and its objective was not installed.
-/
theorem unlisted_slot_resolves :
    ∃ (s s₁ : Session) (up : List String),
      slotSettings.validate = .ok () ∧ create slotSettings slotSettings.position = .ok s ∧
      install s = .ok up s₁ ∧ s₁.scope.objective "slot" ["7"] = .ok "ns_s7" ∧
      "scoreboard objectives add ns_s7 dummy" ∉ up :=
  ⟨_, _, _, rfl, rfl, rfl, rfl, by decide⟩

end Session

end Datapack
