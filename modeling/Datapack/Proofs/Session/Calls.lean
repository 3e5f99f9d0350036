import Datapack.Proofs.Scope.Growth
import Datapack.Session.Install

/-!
# Calls of a session

Everything that a session does is put together from a few changes: its scope
widens, a file is written, a line of blocks is placed, a hook is set. What these
changes keep, the operations keep, in success and in refusal.

**Changes.** `Admits I`: the changes that have nothing to do with tags keep `I`.
Then so do the operations that are made of them (`Admits.addFunction`,
`Admits.addLines`, `Admits.install`, ...). The operations that collect or write
tags ask for more, each for what it needs.

**Calls.** `Call` lists what can be done to a session, its scope included, and
`run` is what calls come to. From a sealed session on, the scope changes no more,
known functions apart, and lines are only added (`run_grows`).
-/
namespace Datapack

open Step (after Keeps)

namespace Attempt

variable {σ α : Type}

/-- Whether an attempt succeeds, and the state that it leaves. -/
def outcome (x : Attempt σ α) (s : σ) : Bool × σ :=
  match x s with
  | .ok _ s' => (true, s')
  | .error _ s' => (false, s')

theorem bind_eq {β : Type} (x : Attempt σ α) (f : α → Attempt σ β) (s : σ) :
    (x >>= f) s = match x s with
      | .ok a s' => f a s'
      | .error e s' => .error e s' := by
  change EStateM.bind x f s = _
  unfold EStateM.bind
  cases x s <;> rfl

theorem outcome_ofStep (step : Step σ α) (s : σ) : (outcome (ofStep step) s).2 = after step s := by
  unfold outcome ofStep after
  cases step s <;> rfl

theorem keeps_outcome {I : σ → Prop} {step : Step σ α} (hk : Keeps I step) {s : σ} (hs : I s) :
    I (outcome (ofStep step) s).2 := by
  rw [outcome_ofStep]
  exact hk s hs

theorem ofStep_ok {step : Step σ α} {s s' : σ} {a : α} :
    ofStep step s = .ok a s' ↔ step s = .ok a s' := by
  unfold ofStep
  cases step s <;> simp

theorem outcome_of_ok {x : Attempt σ α} {s s' : σ} {a : α} (h : x s = .ok a s') :
    outcome x s = (true, s') := by
  unfold outcome; rw [h]

theorem outcome_of_error {x : Attempt σ α} {s s' : σ} {e : Failure} (h : x s = .error e s') :
    outcome x s = (false, s') := by
  unfold outcome; rw [h]

theorem outcome_true {x : Attempt σ α} {s s' : σ} (h : outcome x s = (true, s')) :
    ∃ a, x s = .ok a s' := by
  unfold outcome at h
  split at h
  · cases h; exact ⟨_, by assumption⟩
  · cases h

end Attempt

namespace Session

open Scope (Composed Lasting)

/-! ## Changes -/

structure Admits (I : Session → Prop) : Prop where
  scope : ∀ {s scope}, I s → s.scope.Widens scope → I { s with scope }
  file : ∀ {s file}, I s → (∀ key members, file ≠ .tag key members) →
    I { s with files := s.files ++ [file] }
  place : ∀ {s} line, I s → I { s with layout := s.layout.place line }
  hook : ∀ {s} hook, I s → I { s with hook }

theorem after_onScope {α : Type} (step : Step Scope α) (s : Session) :
    after (onScope step) s = { s with scope := after step s.scope } :=
  Step.after_onPart step s

theorem resolveBlock_composed (block : Block Command) : Composed (resolveBlock block) :=
  .bind block.command.resolve_composed fun command => .pure { block with command }

namespace Admits

variable {I : Session → Prop} (hI : Admits I)
include hI

theorem onScope {α : Type} {step : Step Scope α} (h : Lasting step) :
    Keeps I (Session.onScope step) := by
  intro s hs
  rw [after_onScope]
  exact hI.scope hs (h.widens s.scope)

theorem addFunctionNames (names : List String) : Keeps I (Session.addFunctionNames names) :=
  fun s hs => hI.scope hs (s.scope.widens_addFunctions names)

theorem addFunction (name : String) (commands : List Command) :
    Keeps I (Session.addFunction name commands) :=
  .bind (hI.onScope (Command.resolveAll_lasting commands)) fun lines _ hs =>
    hI.file hs fun _ _ h => by cases h

theorem addLines (lines : List (List (Block Command))) : Keeps I (Session.addLines lines) :=
  .forM lines fun line _ =>
    .bind (hI.onScope (Composed.mapM resolveBlock_composed line).lasting) fun blocks _ hs =>
      hI.place blocks hs

theorem setHook (commands : List Command) : Keeps I (Session.setHook commands) :=
  fun _ hs => hI.hook commands hs

theorem addAdvancementHandler (handler trigger : String) (conditions : List Condition)
    (revoke : Bool) : Keeps I (Session.addAdvancementHandler handler trigger conditions revoke) :=
  .bind (hI.addFunctionNames [trampolineFor handler]) fun _ =>
    .bind (hI.onScope (Scope.functionName_lasting (trampolineFor handler))) fun _ =>
      .bind (fun _ hs => hI.file hs fun _ _ h => by cases h) fun _ =>
        hI.addFunction (trampolineFor handler) _

theorem registerAll (hm : ∀ tag function, Keeps I (addMember tag function))
    (hw : Keeps I writeTags) (registrations : List Registration) :
    Keeps I (Session.registerAll registrations) := by
  refine .bind (.forM registrations fun reg _ => ?_) fun _ => hw
  cases reg with
  | setup function => exact hm loadTag function
  | handler function event revoke =>
    cases event with
    | tag name => exact hm ⟨name⟩ function
    | advancement name conditions =>
      exact hI.addAdvancementHandler function name conditions revoke

theorem emit (hm : ∀ tag function, Keeps I (addMember tag function)) (hw : Keeps I writeTags)
    (build : Build) : Keeps I (Session.emit build) :=
  .bind (hI.addFunctionNames build.functionNames) fun _ =>
    .bind (.forM build.functions fun f _ => hI.addFunction f.name f.commands) fun _ =>
      hI.registerAll hm hw build.registrations

end Admits

/-! ## Installation -/

/-- The commands that set the scores of a scope to zero. -/
def clearing (s : Scope) : List Command := (clearedScores s).map (.setScore · 0)

/-- What an installation consists of. -/
def installation (s : Scope) (objectives cleared blocks hook : List String) : List String :=
  [killCommand s, summonCommand s] ++ objectives.map addObjectiveCommand ++ cleared ++ blocks ++
    hook

theorem scoped_bind {α β : Type} (step : Step Scope α) (f : α → Attempt Session β) (s : Session) :
    (Attempt.ofStep (onScope step) >>= f) s =
      match step s.scope with
      | .ok a scope => f a { s with scope }
      | .error e scope => .error (.refused e) { s with scope } := by
  rw [Attempt.bind_eq]
  unfold Attempt.ofStep onScope Step.onPart
  cases step s.scope <;> rfl

theorem install_eq (s : Session) :
    install s =
      match Command.resolveAll s.hook s.scope with
      | .error e scope => .error (.refused e) { s with scope }
      | .ok hook scope =>
        match scope.objectives with
        | .error e => .error (.refused e) { s with scope }
        | .ok objectives =>
          match Command.resolveAll (clearing scope.setSealed) scope.setSealed with
          | .error e scope => .error (.refused e) { s with scope }
          | .ok cleared scope =>
            match s.layout.setCommands? with
            | none => .error .overflow { s with scope }
            | some blocks =>
              .ok (installation scope objectives cleared blocks hook) { s with scope } := by
  have hget : install s = (Attempt.ofStep (onScope (Command.resolveAll s.hook)) >>= fun hook => do
      let objectives ← Attempt.ofStep (onScope do Step.ofExcept (← get).objectives)
      modify fun s => { s with scope := s.scope.setSealed }
      let cleared ← Attempt.ofStep (onScope do Command.resolveAll (clearing (← get)))
      let s ← get
      let blocks ← Attempt.ofOption s.layout.setCommands?
      return installation s.scope objectives cleared blocks hook) s := rfl
  rw [hget, scoped_bind]
  cases Command.resolveAll s.hook s.scope with
  | error e scope => rfl
  | ok hook scope =>
    simp only
    rw [scoped_bind, Step.get_bind]
    cases scope.objectives with
    | error e => rfl
    | ok objectives =>
      have hcleared := scoped_bind (do Command.resolveAll (clearing (← get)))
        (fun cleared => do
          let s ← get
          let blocks ← Attempt.ofOption s.layout.setCommands?
          return installation s.scope objectives cleared blocks hook)
        { s with scope := scope.setSealed }
      refine Eq.trans (show _ = _ from hcleared) ?_
      rw [Step.get_bind]
      cases Command.resolveAll (clearing scope.setSealed) scope.setSealed with
      | error e scope => rfl
      | ok cleared scope =>
        have hblocks := Attempt.bind_eq (Attempt.ofOption s.layout.setCommands?)
          (fun blocks => pure (installation scope objectives cleared blocks hook))
          { s with scope }
        refine Eq.trans (show _ = _ from hblocks) ?_
        unfold Attempt.ofOption
        cases s.layout.setCommands? <;> rfl

/-- A successful installation: the hook is resolved first, and what it needed is enumerated. -/
theorem install_ok {s s' : Session} {up : List String} (h : install s = .ok up s') :
    ∃ scope hook objectives cleared blocks,
      Command.resolveAll s.hook s.scope = .ok hook scope ∧
      scope.objectives = .ok objectives ∧
      Command.resolveAll (clearing scope.setSealed) scope.setSealed =
        .ok cleared scope.setSealed ∧
      s.layout.setCommands? = some blocks ∧
      s' = { s with scope := scope.setSealed } ∧
      up = installation scope.setSealed objectives cleared blocks hook := by
  rw [install_eq] at h
  split at h
  · cases h
  · rename_i hook scope hhook
    split at h
    · cases h
    · rename_i objectives hobjectives
      split at h
      · cases h
      · rename_i cleared scope' hcleared
        split at h
        · cases h
        · rename_i blocks hblocks
          -- The scope is sealed by now, so clearing its scores leaves it alone.
          obtain rfl := (Command.resolveAll_lasting _).still_ok rfl hcleared
          cases h
          exact ⟨scope, hook, objectives, cleared, blocks, hhook, hobjectives, hcleared, hblocks,
            rfl, rfl⟩

/-- An installation touches nothing but the scope, which widens. -/
theorem install_widens (s : Session) :
    ∃ scope, (Attempt.outcome install s).2 = { s with scope } ∧ s.scope.Widens scope := by
  have hhook := (Command.resolveAll_lasting s.hook).widens s.scope
  unfold Attempt.outcome
  rw [install_eq]
  cases hr : Command.resolveAll s.hook s.scope with
  | error e scope =>
    rw [Step.after_of_error hr] at hhook
    exact ⟨scope, rfl, hhook⟩
  | ok hook scope =>
    rw [Step.after_of_ok hr] at hhook
    simp only
    cases scope.objectives with
    | error e => exact ⟨scope, rfl, hhook⟩
    | ok objectives =>
      have hsealed := hhook.trans scope.widens_setSealed
      have hcleared := hsealed.trans
        ((Command.resolveAll_lasting (clearing scope.setSealed)).widens scope.setSealed)
      simp only
      cases hc : Command.resolveAll (clearing scope.setSealed) scope.setSealed with
      | error e scope' =>
        rw [Step.after_of_error hc] at hcleared
        exact ⟨scope', rfl, hcleared⟩
      | ok cleared scope' =>
        rw [Step.after_of_ok hc] at hcleared
        simp only
        cases s.layout.setCommands? with
        | none => exact ⟨scope', rfl, hcleared⟩
        | some blocks => exact ⟨scope', rfl, hcleared⟩

/-- Writes the functions that install and uninstall the pack. -/
def writeLifecycle (setup cleanup : String) (up down : List String) :
    Step Session (String × String) := do
  write (.function setup up)
  write (.function cleanup down)
  if (← get).setupOnLoad then
    addFunction loadTrampoline [.call setup]
    writeTags
  return (← onScope (Command.call setup).resolve, ← onScope (Command.call cleanup).resolve)

/-- Uninstallation as an attempt that leaves the session alone. -/
def uninstalling : Attempt Session (List String) := fun s =>
  match s.uninstall with
  | .ok down => .ok down s
  | .error e => .error e s

theorem addLifecycle_eq (setup cleanup : String) (s : Session) :
    addLifecycle setup cleanup s =
      match install { s with scope := s.scope.addFunctions [setup, cleanup] } with
      | .error e s' => .error e s'
      | .ok up s' =>
        match s'.uninstall with
        | .error e => .error e s'
        | .ok down => Attempt.ofStep (writeLifecycle setup cleanup up down) s' := by
  have hinstall : addLifecycle setup cleanup s =
      (install >>= fun up => uninstalling >>= fun down =>
        Attempt.ofStep (writeLifecycle setup cleanup up down))
        { s with scope := s.scope.addFunctions [setup, cleanup] } := rfl
  rw [hinstall, Attempt.bind_eq]
  cases install { s with scope := s.scope.addFunctions [setup, cleanup] } with
  | error e s' => rfl
  | ok up s' =>
    simp only
    rw [Attempt.bind_eq]
    unfold uninstalling
    cases s'.uninstall <;> rfl

/-- The lifecycle is written in the session that was installed, which differs in its scope. -/
theorem addLifecycle_ok {setup cleanup : String} {s s' : Session} {calls : String × String}
    (h : addLifecycle setup cleanup s = .ok calls s') :
    ∃ up down scope, s.scope.Grows scope ∧
      writeLifecycle setup cleanup up down { s with scope } = .ok calls s' := by
  rw [addLifecycle_eq] at h
  cases hup : install { s with scope := s.scope.addFunctions [setup, cleanup] } with
  | error e s₁ => rw [hup] at h; cases h
  | ok up s₁ =>
    obtain ⟨scope, hs₁, hwidens⟩ := install_widens
      { s with scope := s.scope.addFunctions [setup, cleanup] }
    rw [Attempt.outcome_of_ok hup] at hs₁
    simp only at hs₁
    rw [hup, hs₁] at h
    simp only at h
    split at h
    · cases h
    · rename_i down _
      have hgrows := (s.scope.grows_addFunctions [setup, cleanup]).trans hwidens.toGrows
      exact ⟨up, down, scope, hgrows, Attempt.ofStep_ok.mp h⟩

namespace Admits

variable {I : Session → Prop} (hI : Admits I)
include hI

theorem install {s : Session} (hs : I s) : I (Attempt.outcome Session.install s).2 := by
  obtain ⟨scope, heq, hg⟩ := install_widens s
  rw [heq]
  exact hI.scope hs hg

theorem writeLifecycle (hw : Keeps I writeTags) (setup cleanup : String) (up down : List String) :
    Keeps I (Session.writeLifecycle setup cleanup up down) := by
  have hreturn : Keeps I (do
      return (← Session.onScope (Command.call setup).resolve,
        ← Session.onScope (Command.call cleanup).resolve) : Step Session (String × String)) :=
    .bind (hI.onScope (Command.resolve_lasting _)) fun _ =>
      .bind (hI.onScope (Command.resolve_lasting _)) fun _ => .pure _
  refine .bind (fun _ hs => hI.file hs fun _ _ h => by cases h) fun _ =>
    .bind (fun _ hs => hI.file hs fun _ _ h => by cases h) fun _ =>
      .bind (fun _ hs => hs) fun s => ?_
  cases s.setupOnLoad with
  | false => exact hreturn
  | true => exact .bind (hI.addFunction loadTrampoline _) fun _ => .bind hw fun _ => hreturn

theorem addLifecycle (hw : Keeps I writeTags) (setup cleanup : String) {s : Session} (hs : I s) :
    I (Attempt.outcome (Session.addLifecycle setup cleanup) s).2 := by
  have hnames := hI.scope hs (s.scope.widens_addFunctions [setup, cleanup])
  have hinstalled := hI.install hnames
  cases hr : Session.install { s with scope := s.scope.addFunctions [setup, cleanup] } with
  | error e s' =>
    have h : Session.addLifecycle setup cleanup s = .error e s' := by rw [addLifecycle_eq, hr]
    rw [Attempt.outcome_of_error hr] at hinstalled
    rw [Attempt.outcome_of_error h]
    exact hinstalled
  | ok up s' =>
    rw [Attempt.outcome_of_ok hr] at hinstalled
    cases hd : s'.uninstall with
    | error e =>
      have h : Session.addLifecycle setup cleanup s = .error e s' := by
        rw [addLifecycle_eq, hr]; simp only [hd]
      rw [Attempt.outcome_of_error h]
      exact hinstalled
    | ok down =>
      have h : Session.addLifecycle setup cleanup s =
          Attempt.ofStep (Session.writeLifecycle setup cleanup up down) s' := by
        rw [addLifecycle_eq, hr]; simp only [hd]
      have hwritten := hI.writeLifecycle hw setup cleanup up down s' hinstalled
      rw [← Attempt.outcome_ofStep] at hwritten
      unfold Attempt.outcome at hwritten ⊢
      rw [h]
      exact hwritten

end Admits

/-! ## Calls -/

/-- What can be done to a session. -/
inductive Call where
  | scope (c : Scope.Call)
  | addFunction (name : String) (commands : List Command)
  | addLines (lines : List (List (Block Command)))
  | setHook (commands : List Command)
  | registerAll (registrations : List Registration)
  | emit (build : Build)
  | install
  | addLifecycle (setup cleanup : String)

/-- Whether a call succeeds, and the session that it leaves. -/
def Call.perform : Call → Session → Bool × Session
  | .scope c => Attempt.outcome (.ofStep (onScope c.perform))
  | .addFunction name commands => Attempt.outcome (.ofStep (Session.addFunction name commands))
  | .addLines lines => Attempt.outcome (.ofStep (Session.addLines lines))
  | .setHook commands => Attempt.outcome (.ofStep (Session.setHook commands))
  | .registerAll registrations =>
    Attempt.outcome (.ofStep (Session.registerAll registrations))
  | .emit build => Attempt.outcome (.ofStep (Session.emit build))
  | .install => Attempt.outcome Session.install
  | .addLifecycle setup cleanup => Attempt.outcome (Session.addLifecycle setup cleanup)

/-- The session after some calls, successful or not. -/
def run (s : Session) (calls : List Call) : Session :=
  calls.foldl (fun s c => (c.perform s).2) s

/-! ## Growth -/

/-- The scope has grown, and lines were added to the layout. -/
structure Grows (s s' : Session) : Prop where
  scope : s.scope.Grows s'.scope
  origin : s'.layout.origin = s.layout.origin
  lines : s.layout.lines <+: s'.layout.lines

namespace Grows

theorem refl (s : Session) : Grows s s := ⟨.refl _, rfl, List.prefix_rfl⟩

theorem trans {s s' s'' : Session} (h : Grows s s') (h' : Grows s' s'') : Grows s s'' :=
  ⟨h.scope.trans h'.scope, h'.origin.trans h.origin, h.lines.trans h'.lines⟩

theorem admits (s : Session) : Admits (Grows s) where
  scope h hg := ⟨h.scope.trans hg.toGrows, h.origin, h.lines⟩
  file h _ := ⟨h.scope, h.origin, h.lines⟩
  place _ h := ⟨h.scope, h.origin, h.lines.trans (List.prefix_append _ _)⟩
  hook _ h := ⟨h.scope, h.origin, h.lines⟩

theorem writeTags (s : Session) : Keeps (Grows s) writeTags :=
  fun _ h => ⟨h.scope, h.origin, h.lines⟩

theorem addMember (s : Session) (tag : QualifiedName) (function : String) :
    Keeps (Grows s) (addMember tag function) :=
  .bind ((admits s).onScope (Scope.functionName_lasting function)) fun _ =>
    .bind (fun _ h => h) fun _ _ h => ⟨h.scope, h.origin, h.lines⟩

end Grows

theorem Call.grows {s : Session} (hs : s.scope.isSealed = true) (c : Call) :
    Grows s (c.perform s).2 := by
  have hI := Grows.admits s
  have hm := Grows.addMember s
  have hw := Grows.writeTags s
  have hs₀ := Grows.refl s
  cases c with
  | scope c =>
    have hreplaces : c.replaces s.scope = false := by
      cases c with
      | addVariable name entry => rw [Scope.Call.replaces, hs]; rfl
      | _ => rfl
    show Grows s (Attempt.outcome (.ofStep (onScope c.perform)) s).2
    rw [Attempt.outcome_ofStep, after_onScope]
    exact ⟨Scope.Call.grows hreplaces, rfl, List.prefix_rfl⟩
  | addFunction name commands => exact Attempt.keeps_outcome (hI.addFunction name commands) hs₀
  | addLines lines => exact Attempt.keeps_outcome (hI.addLines lines) hs₀
  | setHook commands => exact Attempt.keeps_outcome (hI.setHook commands) hs₀
  | registerAll registrations =>
    exact Attempt.keeps_outcome (hI.registerAll hm hw registrations) hs₀
  | emit build => exact Attempt.keeps_outcome (hI.emit hm hw build) hs₀
  | install => exact hI.install hs₀
  | addLifecycle setup cleanup => exact hI.addLifecycle hw setup cleanup hs₀

theorem run_grows : ∀ {s : Session} (calls : List Call), s.scope.isSealed = true →
    Grows s (run s calls)
  | s, [], _ => .refl s
  | s, c :: calls, hs => by
    have hc := c.grows hs
    have hs' : (c.perform s).2.scope.isSealed = true := by rw [hc.scope.frozen hs]; exact hs
    exact hc.trans (run_grows calls hs')

end Session

end Datapack
