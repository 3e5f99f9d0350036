import Datapack.Proofs.Scope.Objectives

/-!
# Collisions are found exactly

A scope that detects collisions walks over the full names of its objectives and
compares each with those it has seen. It may see a name again and again, and
what it has seen may hold any number of names with other cuts; only a different
name with the same cut stops it.

**Names apart.** `Apart` says of a list that its cuts tell its names apart.
Every list is apart, or it is so up to a first name that clashes with one before
it (`apart_or_clash`).

**The walk.** The names seen are apart all the time. So a walk over names that
stay apart with them goes on to what follows (`collision?_append`), and at a name
that clashes it ends with the one earlier name of that cut (`collision?_clash`).

**Result.** `collisions_exact`: a collision is reported exactly when there is
one, and it is the first; otherwise detection changes nothing and no two
different names have become one objective.
-/
namespace Datapack

namespace Scope

/-! ## Names apart -/

/-- No two different names have the same cut. -/
def Apart (names : List String) : Prop :=
  ∀ a ∈ names, ∀ b ∈ names, trim a = trim b → a = b

instance (names : List String) : Decidable (Apart names) :=
  inferInstanceAs (Decidable (∀ a ∈ names, ∀ b ∈ names, trim a = trim b → a = b))

/-- Behind the names `before`, which are apart, the name `second` is the first that differs from an
earlier one of the same cut; `first` is that one, and the only one. -/
structure Clash (before : List String) (first second : String) : Prop where
  apart : Apart before
  mem : first ∈ before
  only : ∀ a ∈ before, trim a = trim second → a = first
  trim_eq : trim first = trim second
  ne : first ≠ second

theorem Apart.mono {names names' : List String} (h : Apart names') (hs : names ⊆ names') :
    Apart names :=
  fun a ha b hb => h a (hs ha) b (hs hb)

theorem Apart.cons {names : List String} {name : String} (h : Apart names)
    (hname : ∀ a ∈ names, trim a = trim name → a = name) : Apart (name :: names) := by
  intro a ha b hb hab
  rcases List.mem_cons.mp ha with rfl | ha' <;> rcases List.mem_cons.mp hb with rfl | hb'
  · rfl
  · exact (hname b hb' hab.symm).symm
  · exact hname a ha' hab
  · exact h a ha' b hb' hab

/-- Names that follow names apart are apart with them, up to the first that clashes. -/
theorem apart_or_clash {before : List String} (h : Apart before) (names : List String) :
    Apart (before ++ names) ∨ ∃ more second after first,
      names = more ++ second :: after ∧ Clash (before ++ more) first second := by
  induction names generalizing before with
  | nil =>
    left
    rw [List.append_nil]
    exact h
  | cons name names ih =>
    by_cases hname : ∃ first ∈ before, trim first = trim name ∧ first ≠ name
    · right
      obtain ⟨first, hmem, htrim, hne⟩ := hname
      refine ⟨[], name, names, first, rfl, ?_⟩
      rw [List.append_nil]
      exact ⟨h, hmem, fun a ha hab => h a ha first hmem (hab.trans htrim.symm), htrim, hne⟩
    · have hsame : ∀ a ∈ before, trim a = trim name → a = name := fun a ha hab =>
        Decidable.byContradiction fun hne => hname ⟨a, ha, hab, hne⟩
      have hstep : Apart (before ++ [name]) :=
        (h.cons hsame).mono (List.perm_append_singleton name before).subset
      rcases ih hstep with hall | ⟨more, second, after, first, rfl, hclash⟩
      · left
        rwa [List.append_assoc] at hall
      · right
        rw [List.append_assoc] at hclash
        exact ⟨name :: more, second, after, first, rfl, hclash⟩

/-! ## The walk -/

theorem collision?_cons {seen : List String} {name : String}
    (h : ∀ a ∈ seen, trim a = trim name → a = name) (names : List String) :
    collision? seen (name :: names) = collision? (name :: seen) names := by
  rw [collision?]
  split
  · rename_i first hfirst
    have htrim : trim first = trim name := by simpa using List.find?_some hfirst
    rw [if_pos (h first (List.mem_of_find?_eq_some hfirst) htrim)]
  · rfl

theorem collision?_append {seen before : List String} (h : Apart (before ++ seen))
    (names : List String) :
    collision? seen (before ++ names) = collision? (before.reverse ++ seen) names := by
  induction before generalizing seen with
  | nil => rfl
  | cons name before ih =>
    have hname : ∀ a ∈ seen, trim a = trim name → a = name := fun a ha hab =>
      h a (List.mem_append_right _ ha) name (by simp) hab
    have hrest : Apart (before ++ name :: seen) := h.mono List.perm_middle.subset
    rw [List.cons_append, collision?_cons hname, ih hrest, List.reverse_cons, List.append_assoc,
      List.singleton_append]

theorem collision?_clash {before : List String} {first second : String}
    (h : Clash before first second) (after : List String) :
    collision? [] (before ++ second :: after) =
      some (.nameCollision (trim second) first second) := by
  have hapart : Apart (before ++ []) := by rw [List.append_nil]; exact h.apart
  rw [collision?_append hapart, List.append_nil, collision?]
  cases hfound : before.reverse.find? (trim · = trim second) with
  | none =>
    have hnone := List.find?_eq_none.mp hfound first (List.mem_reverse.mpr h.mem)
    exact absurd h.trim_eq (by simpa using hnone)
  | some found =>
    have htrim : trim found = trim second := by simpa using List.find?_some hfound
    have hmem := List.mem_reverse.mp (List.mem_of_find?_eq_some hfound)
    obtain rfl := h.only found hmem htrim
    exact if_neg h.ne

theorem collision?_apart {names : List String} (h : Apart names) : collision? [] names = none := by
  have hapart : Apart (names ++ []) := by rwa [List.append_nil]
  have hwalk := collision?_append hapart []
  rwa [List.append_nil] at hwalk

/-! ## Enumerations -/

variable {s : Scope} {names : List String}

theorem objectives_of_full (h : s.fullObjectives = .ok names) :
    s.objectives = match if s.detectCollisions then collision? [] names else none with
      | some cause => .error cause.error
      | none => .ok (names.map trim) := by
  rw [objectives, h]
  rfl

theorem objectives_of_apart (h : s.fullObjectives = .ok names) (ha : Apart names) :
    s.objectives = .ok (names.map trim) := by
  rw [objectives_of_full h, collision?_apart ha, ite_self]

theorem objectives_of_clash (hd : s.detectCollisions = true) {before after : List String}
    {first second : String} (h : s.fullObjectives = .ok (before ++ second :: after))
    (hc : Clash before first second) :
    s.objectives = .error (Cause.nameCollision (trim second) first second).error := by
  rw [objectives_of_full h, hd, collision?_clash hc]
  rfl

/-- **Detection is exact.** When a scope detects collisions and has full names, a collision is
reported exactly if two different names have the same cut. What is reported is the first name that
differs from an earlier one of the same cut, that earlier name, and their cut. If none is reported,
the objectives are those of the scope without detection, one for each name, and equal objectives are
those of equal names. -/
theorem collisions_exact (hd : s.detectCollisions = true) (h : s.fullObjectives = .ok names) :
    ((∃ trimmed first second,
        s.objectives = .error (Cause.nameCollision trimmed first second).error) ↔
      ∃ a ∈ names, ∃ b ∈ names, a ≠ b ∧ trim a = trim b) ∧
    (∀ trimmed first second,
      s.objectives = .error (Cause.nameCollision trimmed first second).error ↔
        ∃ before after, names = before ++ second :: after ∧ Clash before first second ∧
          trimmed = trim first ∧ trimmed = trim second) ∧
    ((¬ ∃ trimmed first second,
        s.objectives = .error (Cause.nameCollision trimmed first second).error) →
      s.objectives = { s with detectCollisions := false }.objectives ∧
      s.objectives = .ok (names.map trim) ∧
      ∀ (i j : Nat) (a b : String), names[i]? = some a → names[j]? = some b →
        (names.map trim)[i]? = (names.map trim)[j]? → a = b) := by
  have hreported : ∀ {before after first second}, names = before ++ second :: after →
      Clash before first second →
      s.objectives = .error (Cause.nameCollision (trim second) first second).error := by
    rintro before after first second rfl hc
    exact objectives_of_clash hd h hc
  have hstart : Apart [] := fun a ha => nomatch ha
  rcases apart_or_clash hstart names with hapart | ⟨before, second, after, first, hsplit, hclash⟩
  · rw [List.nil_append] at hapart
    have hok := objectives_of_apart h hapart
    have hnone : ¬ ∃ trimmed first second,
        s.objectives = .error (Cause.nameCollision trimmed first second).error := by
      rintro ⟨trimmed, first, second, he⟩
      rw [hok] at he
      cases he
    refine ⟨⟨fun he => absurd he hnone, ?_⟩, fun trimmed first second => ⟨?_, ?_⟩, fun _ => ?_⟩
    · rintro ⟨a, ha, b, hb, hne, hab⟩
      exact absurd (hapart a ha b hb hab) hne
    · exact fun he => absurd ⟨trimmed, first, second, he⟩ hnone
    · rintro ⟨before, after, hsplit, hc, -, -⟩
      exact absurd ⟨_, _, _, hreported hsplit hc⟩ hnone
    · refine ⟨?_, hok, ?_⟩
      · rw [hok]
        exact (objectives_of_apart (s := { s with detectCollisions := false }) h hapart).symm
      · intro i j a b hi hj hij
        rw [List.getElem?_map, List.getElem?_map, hi, hj] at hij
        exact hapart a (List.mem_of_getElem? hi) b (List.mem_of_getElem? hj)
          (Option.some.inj hij)
  · rw [List.nil_append] at hclash
    have he := hreported hsplit hclash
    refine ⟨⟨fun _ => ?_, fun _ => ⟨_, _, _, he⟩⟩, fun trimmed first' second' => ⟨?_, ?_⟩,
      fun hnone => absurd ⟨_, _, _, he⟩ hnone⟩
    · refine ⟨first, ?_, second, ?_, hclash.ne, hclash.trim_eq⟩
      · rw [hsplit]
        exact List.mem_append_left _ hclash.mem
      · rw [hsplit]
        exact List.mem_append_right _ List.mem_cons_self
    · intro he'
      rw [he] at he'
      cases he'
      exact ⟨before, after, hsplit, hclash, hclash.trim_eq.symm, rfl⟩
    · rintro ⟨before', after', hsplit', hc', -, rfl⟩
      exact hreported hsplit' hc'

/-- A repeated name is passed over, and a collision behind the first one is not reported. -/
theorem collisions_exact_repeated :
    ∃ (s : Scope) (names : List String), s.detectCollisions = true ∧
      s.fullObjectives = .ok names ∧
      names = ["ns_counter_of_ticks", "ns_counter_of_ticks", "ns_hp", "ns_encounter_of_ticks",
        "ns_recounter_of_ticks", "ns_x4"] ∧
      s.objectives = .error (Cause.nameCollision "counter_of_ticks" "ns_counter_of_ticks"
        "ns_encounter_of_ticks").error := by
  let s : Scope := {
    ns := "ns"
    entityTag := "ns_etag"
    home := .site
    detectCollisions := true
    vars := Table.ofList [("ticks", .fixed "counter_of_ticks"),
      ("time", .templated "counter_of_\x7b\x7d" [["ticks"]]), ("hp", .fixed "hp"),
      ("fights", .fixed "encounter_of_ticks"), ("again", .fixed "recounter_of_ticks")]
    cells := [4] }
  have hfull : s.fullObjectives = .ok ["ns_counter_of_ticks", "ns_counter_of_ticks", "ns_hp",
      "ns_encounter_of_ticks", "ns_recounter_of_ticks", "ns_x4"] :=
    Step.except_ok_of_toOption (by decide +kernel)
  obtain ⟨-, hfirst, -⟩ := collisions_exact rfl hfull
  have hclash : Clash ["ns_counter_of_ticks", "ns_counter_of_ticks", "ns_hp"]
      "ns_counter_of_ticks" "ns_encounter_of_ticks" :=
    ⟨by decide +kernel, by decide, by decide +kernel, by decide +kernel, by decide⟩
  exact ⟨s, _, rfl, hfull, rfl, (hfirst _ _ _).mpr
    ⟨_, ["ns_recounter_of_ticks", "ns_x4"], rfl, hclash, by decide +kernel, by decide +kernel⟩⟩

end Scope

end Datapack
