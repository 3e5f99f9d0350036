import Datapack.Advancement
import Datapack.Proofs.Pack

/-!
# The last comparable condition wins

The conditions of a criterion are written one after the other into one nested
object. A condition replaces the text at its own path, makes objects of the
texts above it, and drops the objects below it; it leaves alone what stands at
paths that are neither its beginnings nor its continuations.

**One condition.** `descend?_insertPath`: after a condition is written, the texts
are its own, at its path, and those that stood at paths not comparable with it.

**All conditions.** `descend?_foldl`: what stands at a path was written there and
spared by all later conditions (`Wins`), or stood there before and was spared by
all.

**Result.** `last_comparable_wins`, of the text of an advancement: the criterion
holds a value at a path exactly if a condition put it there and every later one
is at a path that is not comparable.
-/
namespace Datapack

open Text (Json)

namespace Assoc

variable {κ α β : Type} [DecidableEq κ]

theorem map_put (f : α → β) (key : κ) (value : α) (l : List (κ × α)) :
    (put key value l).map (fun e => (e.1, f e.2)) =
      put key (f value) (l.map fun e => (e.1, f e.2)) := by
  induction l with
  | nil => rfl
  | cons entry l ih =>
    by_cases hk : entry.1 = key
    · simp [put, hk]
    · simp [put, hk, ih]

end Assoc

namespace Conditions

/-! ## Paths -/

/-- One path begins the other. -/
def Comparable (p q : List String) : Prop := p <+: q ∨ q <+: p

instance (p q : List String) : Decidable (Comparable p q) :=
  inferInstanceAs (Decidable (p <+: q ∨ q <+: p))

theorem comparable_cons {k k' : String} {p q : List String} :
    Comparable (k :: p) (k' :: q) ↔ k = k' ∧ Comparable p q := by
  unfold Comparable
  rw [List.cons_prefix_cons, List.cons_prefix_cons, eq_comm (a := k'), ← and_or_left]

/-- Conditions that leave a path alone: none of them has a path that begins it or goes on from it.
-/
def Spares (conditions : List Condition) (path : List String) : Prop :=
  ∀ c ∈ conditions, c.path ≠ [] → ¬ Comparable c.path path

instance (conditions : List Condition) (path : List String) :
    Decidable (Spares conditions path) :=
  inferInstanceAs (Decidable (∀ c ∈ conditions, c.path ≠ [] → ¬ Comparable c.path path))

theorem spares_cons {c : Condition} {conditions : List Condition} {path : List String} :
    Spares (c :: conditions) path ↔
      (c.path ≠ [] → ¬ Comparable c.path path) ∧ Spares conditions path :=
  List.forall_mem_cons

/-- A condition puts the value at the path, and all later ones spare it. -/
def Wins (conditions : List Condition) (path : List String) (value : String) : Prop :=
  ∃ before after, conditions = before ++ ⟨path, value⟩ :: after ∧ Spares after path

theorem wins_cons {c : Condition} {conditions : List Condition} {path : List String}
    {value : String} :
    Wins (c :: conditions) path value ↔
      (c = ⟨path, value⟩ ∧ Spares conditions path) ∨ Wins conditions path value := by
  constructor
  · rintro ⟨before, after, heq, hafter⟩
    cases before with
    | nil =>
      cases heq
      exact .inl ⟨rfl, hafter⟩
    | cons first before =>
      cases heq
      exact .inr ⟨before, after, rfl, hafter⟩
  · rintro (⟨rfl, hafter⟩ | ⟨before, after, rfl, hafter⟩)
    · exact ⟨[], conditions, rfl, hafter⟩
    · exact ⟨c :: before, after, rfl, hafter⟩

/-! ## One condition -/

/-- What an object holds at a path. -/
def descend? : List String → Json → Option Json
  | [], value => some value
  | key :: path, .obj members => (Assoc.get? key members).bind (descend? path)
  | _ :: _, .str _ => none

theorem descend?_put (key k : String) (value : Json) (path : List String)
    (members : List (String × Json)) :
    descend? (k :: path) (.obj (Assoc.put key value members)) =
      if key = k then descend? path value else descend? (k :: path) (.obj members) := by
  rw [descend?, Assoc.get?_put]
  split
  · rfl
  · rw [descend?]

theorem descend?_empty {path : List String} (h : path ≠ []) : descend? path (.obj []) = none := by
  cases path with
  | nil => exact absurd rfl h
  | cons key path => rfl

theorem descend?_str (path : List String) (text value : String) :
    descend? path (.str text) = some (.str value) ↔ path = [] ∧ text = value := by
  cases path <;> simp [descend?]

/-- A longer path is written into the object below its first key, which is empty if there was none.
-/
theorem insertPath_cons (text key : String) {written : List String} (hw : written ≠ [])
    (members : List (String × Json)) :
    ∃ below, insertPath text (key :: written) members =
        Assoc.put key (.obj (insertPath text written below)) members ∧
      ∀ path, path ≠ [] → descend? path (.obj below) = descend? (key :: path) (.obj members) := by
  obtain ⟨key', written, rfl⟩ := List.exists_cons_of_ne_nil hw
  refine ⟨_, rfl, fun path hp => ?_⟩
  rw [descend?]
  cases Assoc.get? key members with
  | none => exact descend?_empty hp
  | some value =>
    cases value with
    | obj below => rfl
    | str text =>
      obtain ⟨k, path, rfl⟩ := List.exists_cons_of_ne_nil hp
      rfl

/-- What stands at a path after a condition is written. -/
theorem descend?_insertPath {written path : List String} (hw : written ≠ []) (hp : path ≠ [])
    (text value : String) (members : List (String × Json)) :
    descend? path (.obj (insertPath text written members)) = some (.str value) ↔
      (written = path ∧ text = value) ∨
        (¬ Comparable written path ∧ descend? path (.obj members) = some (.str value)) := by
  induction written generalizing path members with
  | nil => exact absurd rfl hw
  | cons key written ih =>
    obtain ⟨k, path, rfl⟩ := List.exists_cons_of_ne_nil hp
    rw [comparable_cons, List.cons.injEq]
    by_cases hnil : written = []
    · subst hnil
      -- The text stands under the key, and below it there is nothing more.
      have hcomparable : Comparable [] path := .inl List.nil_prefix
      rw [insertPath, descend?_put]
      by_cases hk : key = k
      · simp [hk, hcomparable, descend?_str, eq_comm]
      · simp [hk]
    · obtain ⟨below, hbelow, hdescend⟩ := insertPath_cons text key hnil members
      rw [hbelow, descend?_put]
      by_cases hk : key = k
      · subst hk
        by_cases hpath : path = []
        · -- An object stands under the key, not a text.
          have hcomparable : Comparable written [] := .inr List.nil_prefix
          simp [hpath, hnil, hcomparable, descend?]
        · rw [if_pos rfl, ih hnil hpath, hdescend path hpath]
          simp
      · simp [hk]

/-! ## All conditions -/

theorem insertPath_nil (text : String) (members : List (String × Json)) :
    insertPath text [] members = members := by
  rw [insertPath]

/-- What stands at a path after some conditions are written, one after the other. -/
theorem descend?_foldl {path : List String} (hp : path ≠ []) (value : String)
    (conditions : List Condition) (members : List (String × Json)) :
    descend? path (.obj (conditions.foldl (fun members c => insertPath c.value c.path members)
        members)) = some (.str value) ↔
      Wins conditions path value ∨
        (Spares conditions path ∧ descend? path (.obj members) = some (.str value)) := by
  induction conditions generalizing members with
  | nil => simp [Wins, Spares]
  | cons c conditions ih =>
    rw [List.foldl_cons, ih, wins_cons, spares_cons]
    by_cases hc : c.path = []
    · have hne : c ≠ ⟨path, value⟩ := by
        rintro rfl
        exact hp hc
      rw [hc, insertPath_nil]
      simp [hne]
    · have hown : c = ⟨path, value⟩ ↔ c.path = path ∧ c.value = value := by
        cases c
        simp
      rw [descend?_insertPath hc hp, hown]
      simp only [ne_eq, hc, not_false_eq_true, true_implies]
      constructor
      · rintro (hlater | ⟨hspared, hthis | ⟨hnot, hbefore⟩⟩)
        · exact .inl (.inr hlater)
        · exact .inl (.inl ⟨hthis, hspared⟩)
        · exact .inr ⟨⟨hnot, hspared⟩, hbefore⟩
      · rintro ((⟨hthis, hspared⟩ | hlater) | ⟨⟨hnot, hspared⟩, hbefore⟩)
        · exact .inr ⟨hspared, .inl hthis⟩
        · exact .inl hlater
        · exact .inr ⟨hspared, .inr ⟨hnot, hbefore⟩⟩

theorem descend?_nest {path : List String} (hp : path ≠ []) (value : String)
    (conditions : List Condition) :
    descend? path (.obj (nest conditions)) = some (.str value) ↔ Wins conditions path value := by
  unfold nest
  rw [descend?_foldl hp, descend?_empty hp]
  simp

/-- Conditions without a path have no effect. -/
theorem nest_filter (conditions : List Condition) :
    nest (conditions.filter fun c => c.path ≠ []) = nest conditions := by
  unfold nest
  rw [List.foldl_filter]
  congr 1
  funext members c
  by_cases hc : c.path = []
  · simp [hc, insertPath_nil]
  · simp [hc]

end Conditions

/-! ## Advancements -/

open Conditions (descend? nest Spares)

theorem Criterion.toJson_congr {trigger : String} {conditions conditions' : List Condition}
    (h : nest conditions = nest conditions') :
    (Criterion.mk trigger conditions).toJson = (Criterion.mk trigger conditions').toJson := by
  unfold toJson
  rw [h]

/-- Where the conditions of a criterion stand, when there are any. -/
theorem Criterion.descend?_toJson {path : List String} (hp : path ≠ []) (c : Criterion) :
    descend? ("conditions" :: path) c.toJson = descend? path (.obj (nest c.conditions)) := by
  unfold toJson
  cases nest c.conditions with
  | nil => exact (Conditions.descend?_empty hp).symm
  | cons member members => rfl

namespace Advancement

theorem toJson_addCriterion (a : Advancement) (key trigger : String)
    (conditions : List Condition) :
    (a.addCriterion key trigger conditions).toJson =
      .obj (("criteria", .obj (Assoc.put key (Criterion.mk trigger conditions).toJson
        (a.criteria.entries.map fun e => (e.1, e.2.toJson)))) ::
        match a.reward with
        | none => []
        | some function => [("rewards", .obj [("function", .str function)])]) := by
  rw [← Assoc.map_put Criterion.toJson]
  rfl

theorem descend?_addCriterion {path : List String} (hp : path ≠ []) (a : Advancement)
    (key trigger : String) (conditions : List Condition) :
    descend? ("criteria" :: key :: "conditions" :: path)
        (a.addCriterion key trigger conditions).toJson =
      descend? path (.obj (nest conditions)) := by
  rw [toJson_addCriterion, descend?, Assoc.get?, if_pos rfl, Option.bind_some,
    Conditions.descend?_put, if_pos rfl, Criterion.descend?_toJson hp]

/-- **The last comparable condition wins.** The criterion holds a text at a path exactly if one of
its conditions put it there and no later one has a path that begins this one or goes on from it. So
a condition stays if all later ones spare its path; and conditions without a path have no effect. -/
theorem last_comparable_wins (a : Advancement) (key trigger : String)
    (conditions : List Condition) :
    (∀ (path : List String) (value : String), path ≠ [] →
      (descend? ("criteria" :: key :: "conditions" :: path)
          (a.addCriterion key trigger conditions).toJson = some (.str value) ↔
        ∃ before after, conditions = before ++ ⟨path, value⟩ :: after ∧
          ∀ c ∈ after, c.path ≠ [] → ¬ (c.path <+: path ∨ path <+: c.path))) ∧
    (∀ before c after, conditions = before ++ c :: after → c.path ≠ [] → Spares after c.path →
      descend? ("criteria" :: key :: "conditions" :: c.path)
        (a.addCriterion key trigger conditions).toJson = some (.str c.value)) ∧
    (a.addCriterion key trigger (conditions.filter fun c => c.path ≠ [])).toJson =
      (a.addCriterion key trigger conditions).toJson := by
  refine ⟨fun path value hp => ?_, fun before c after hc hp hspared => ?_, ?_⟩
  · rw [descend?_addCriterion hp]
    exact Conditions.descend?_nest hp value conditions
  · rw [descend?_addCriterion hp]
    exact (Conditions.descend?_nest hp c.value conditions).mpr ⟨before, after, hc, hspared⟩
  · rw [toJson_addCriterion, toJson_addCriterion,
      Criterion.toJson_congr (Conditions.nest_filter conditions)]

/-- A text gives way to an object, which gives way to a text again; what stands beside it stays. -/
theorem last_comparable_wins_overwritten :
    ∃ (a : Advancement) (conditions : List Condition),
      conditions = [.ofText "player.level" "1", .ofText "player.stats" "2",
        .ofText "player.level.min" "3", ⟨[], "4"⟩, .ofText "player.level" "5"] ∧
      descend? ["criteria", "h", "conditions", "player", "stats"]
        (a.addCriterion "h" "minecraft:tick" conditions).toJson = some (.str "2") ∧
      descend? ["criteria", "h", "conditions", "player", "level"]
        (a.addCriterion "h" "minecraft:tick" conditions).toJson = some (.str "5") := by
  let conditions : List Condition := [⟨["player", "level"], "1"⟩, ⟨["player", "stats"], "2"⟩,
    ⟨["player", "level", "min"], "3"⟩, ⟨[], "4"⟩, ⟨["player", "level"], "5"⟩]
  obtain ⟨-, hstays, -⟩ := last_comparable_wins { name := "adv_h" } "h" "minecraft:tick"
    conditions
  exact ⟨{ name := "adv_h" }, conditions, by decide +kernel,
    hstays [⟨["player", "level"], "1"⟩] _ _ rfl (by decide) (by decide),
    hstays [⟨["player", "level"], "1"⟩, ⟨["player", "stats"], "2"⟩,
      ⟨["player", "level", "min"], "3"⟩, ⟨[], "4"⟩] _ _ rfl (by decide) (by decide)⟩

end Advancement

end Datapack
