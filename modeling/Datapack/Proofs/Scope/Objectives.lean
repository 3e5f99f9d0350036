import Datapack.Proofs.Layout.Places
import Datapack.Proofs.Scope.Growth
import Datapack.Proofs.Text
import Datapack.Scope.Objectives

/-!
# The enumeration of objectives is complete

Objectives are handed out one by one, while the enumeration is computed later,
from what the tables then hold. The two agree because a scope only grows: what
was handed out has left its mark in a table, and the mark is still there.

**Marks.** `objective_ok`, `memory_ok` and `entityLocal_ok` say what a name
that was handed out has left in the scope.

**Membership.** `mem_objectives` and `cell_mem_objectives` find the name in the
enumeration again. A templated variable is enumerated for its options only, so
a name that was made with other arguments need not be in it.

**Result.** `objectives_complete`: along every run in which no variable is
given another entry, the names that were handed out stay in the enumeration,
and the enumeration only grows.
-/
namespace Datapack

namespace Scope

theorem length_trim (name : String) : (trim name).length ≤ 16 :=
  Text.length_lastChars objectiveLimit name

/-! ## What a name leaves behind -/

variable {s s' : Scope}

theorem objective_ok {name n : String} {args : List String} :
    s.objective name args = .ok n ↔ ∃ entry text, s.vars.get? name = some entry ∧
      entry.fill name args = .ok text ∧ n = trim (s.qualify text) := by
  unfold objective fullVariable
  rw [Step.except_map_ok]
  cases s.vars.get? name with
  | none => simp
  | some entry =>
    constructor
    · rintro ⟨full, hfull, rfl⟩
      obtain ⟨text, ht, rfl⟩ := Step.except_map_ok.mp hfull
      exact ⟨entry, text, rfl, ht, rfl⟩
    · rintro ⟨entry', text, he, ht, rfl⟩
      cases he
      exact ⟨_, Step.except_map_ok.mpr ⟨text, ht, rfl⟩, rfl⟩

theorem memory_ok {origin : UInt64} {n : String} (h : memory origin s = .ok n s') :
    origin ∈ s'.cells ∧ n = trim (s'.cellName origin) := by
  unfold memory at h
  split at h
  · rename_i hc
    cases h
    exact ⟨List.contains_iff_mem.mp hc, rfl⟩
  · split at h
    · cases h
    · cases h
      exact ⟨List.mem_append_right _ List.mem_cons_self, rfl⟩

/-- A name local to an entity is a variable, declared now with its own name if it was not before. -/
theorem entityLocal_ok {name n : String} (hf : name ∉ s.foreign)
    (h : entityLocal name s = .ok n s') :
    s'.objective (localName name) [] = .ok n ∧ ∃ entry,
      s'.vars.get? (localName name) = some entry ∧
      (s.vars.get? (localName name) = some entry ∨ entry = .fixed (localName name)) := by
  have hnot : s.foreign.contains name = false := by
    rw [← Bool.not_eq_true, List.contains_iff_mem]
    exact hf
  rw [entityLocal_eq, isLocal, hnot, Bool.false_or] at h
  split at h
  · rename_i hv
    obtain ⟨entry, he⟩ := Option.isSome_iff_exists.mp hv
    obtain ⟨hn, rfl⟩ := Step.ofExcept_ok.mp h
    rw [localObjective, hnot] at hn
    exact ⟨hn, entry, he, .inl he⟩
  · split at h
    · cases h
    · obtain ⟨hn, rfl⟩ := Step.ofExcept_ok.mp h
      rw [localObjective, show (declareLocal name s).foreign = s.foreign from rfl, hnot] at hn
      exact ⟨hn, _, get?_declareLocal name s, .inr rfl⟩

/-! ## What the enumeration holds -/

theorem fullObjectives_ok {full : List String} :
    s.fullObjectives = .ok full ↔ ∃ lists,
      s.vars.entries.mapM (fun (name, entry) => s.fullNames name entry) = .ok lists ∧
      full = lists.flatten ++ s.cells.map s.cellName := by
  unfold fullObjectives
  rw [Step.except_bind_ok]
  simp only [pure, Except.pure, Except.ok.injEq, eq_comm]

theorem objectives_ok {names : List String} (h : s.objectives = .ok names) :
    ∃ full, s.fullObjectives = .ok full ∧ names = full.map trim := by
  unfold objectives at h
  obtain ⟨full, hfull, h⟩ := Step.except_bind_ok.mp h
  split at h
  · cases h
  · cases h
    exact ⟨full, hfull, rfl⟩

/-- A variable is enumerated for each of its options. -/
theorem mem_objectives {names : List String} (h : s.objectives = .ok names) {name n : String}
    {args : List String} {entry : VariableEntry} (he : s.vars.get? name = some entry)
    (ha : args ∈ entry.options) (hn : s.objective name args = .ok n) : n ∈ names := by
  obtain ⟨full, hfull, rfl⟩ := objectives_ok h
  obtain ⟨lists, hlists, rfl⟩ := fullObjectives_ok.mp hfull
  obtain ⟨entry', text, he', ht, rfl⟩ := objective_ok.mp hn
  rw [he] at he'
  cases he'
  obtain ⟨list, hlist, hnames⟩ := Step.mapM_mem hlists (name, entry) (Assoc.mem_of_get? he)
  obtain ⟨q, hq, hfill⟩ := Step.mapM_mem hnames args ha
  obtain ⟨text', ht', rfl⟩ := Step.except_map_ok.mp hfill
  rw [ht] at ht'
  cases ht'
  exact List.mem_map.mpr
    ⟨_, List.mem_append_left _ (List.mem_flatten.mpr ⟨list, hlist, hq⟩), rfl⟩

theorem cell_mem_objectives {names : List String} (h : s.objectives = .ok names)
    {origin : UInt64} (hc : origin ∈ s.cells) : trim (s.cellName origin) ∈ names := by
  obtain ⟨full, hfull, rfl⟩ := objectives_ok h
  obtain ⟨lists, -, rfl⟩ := fullObjectives_ok.mp hfull
  exact List.mem_map.mpr
    ⟨_, List.mem_append_right _ (List.mem_map.mpr ⟨origin, hc, rfl⟩), rfl⟩

/-- What the enumeration holds, it holds in its order when the scope has grown. New variables come
between the old ones and the cells. -/
theorem objectives_grow (hg : Grows s s') {names names' : List String}
    (h : s.objectives = .ok names) (h' : s'.objectives = .ok names') : names.Sublist names' := by
  obtain ⟨full, hfull, rfl⟩ := objectives_ok h
  obtain ⟨full', hfull', rfl⟩ := objectives_ok h'
  obtain ⟨lists, hlists, rfl⟩ := fullObjectives_ok.mp hfull
  obtain ⟨lists', hlists', rfl⟩ := fullObjectives_ok.mp hfull'
  obtain ⟨newVars, hvars⟩ := hg.vars
  obtain ⟨newCells, hcells⟩ := hg.cells
  have hqualify : s'.qualify = s.qualify := by funext name; unfold qualify; rw [hg.ns]
  have hnames : s'.fullNames = s.fullNames := by
    funext name entry
    unfold fullNames
    rw [hqualify]
  have hcell : s'.cellName = s.cellName := by funext origin; unfold cellName; rw [hqualify]
  rw [← hvars, hnames] at hlists'
  obtain ⟨olds, news, holds, -, rfl⟩ := Step.mapM_append_ok hlists'
  rw [hlists] at holds
  cases holds
  rw [← hcells, hcell, List.flatten_append, List.append_assoc]
  refine List.Sublist.map trim (List.Sublist.append (.refl _) ?_)
  rw [List.map_append]
  exact (List.sublist_append_left _ _).trans (List.sublist_append_right _ _)

/-- A fixed variable that resolves was given no arguments, and this is its one option. -/
theorem nil_of_fixed {name text n : String} {args : List String}
    (he : s.vars.get? name = some (.fixed text)) (hn : s.objective name args = .ok n) :
    args = [] := by
  obtain ⟨entry, filled, he', hfill, -⟩ := objective_ok.mp hn
  rw [he] at he'
  cases he'
  cases args with
  | nil => rfl
  | cons arg args => cases hfill

/-! ## Runs -/

/-- The variable is enumerated with these arguments, if it resolves with them at all. -/
def ListedWith (s : Scope) (name : String) (args : List String) : Prop :=
  ∃ entry, s.vars.get? name = some entry ∧ ((∃ text, entry = .fixed text) ∨ args ∈ entry.options)

theorem ListedWith.mem_objectives {name n : String} {args : List String}
    (hl : s.ListedWith name args) (hn : s.objective name args = .ok n) {names : List String}
    (h : s.objectives = .ok names) : n ∈ names := by
  obtain ⟨entry, he, ⟨text, rfl⟩ | ha⟩ := hl
  · obtain rfl := nil_of_fixed he hn
    exact Scope.mem_objectives h he List.mem_cons_self hn
  · exact Scope.mem_objectives h he ha hn

theorem ListedWith.grows {name : String} {args : List String} (hl : s.ListedWith name args)
    (hg : Grows s s') : s'.ListedWith name args := by
  obtain ⟨entry, he, ha⟩ := hl
  exact ⟨entry, hg.get? he, ha⟩

/-- The call asks for an objective that the enumeration has to cover. -/
def Call.Listed (s : Scope) : Call → Prop
  | .memory _ => True
  | .objective name args => s.ListedWith name args
  | .entityLocal name =>
    name ∉ s.foreign ∧
      ∀ template options, s.vars.get? (localName name) ≠ some (.templated template options)
  | _ => False

/-- What a listed call answers is enumerated in every scope that has grown since. -/
theorem Call.Listed.mem_objectives {c : Call} (hl : c.Listed s) {n : String}
    (h : c.perform s = .ok (some n) s') {t : Scope} (hg : Grows s' t) :
    n.length ≤ 16 ∧ ∀ names, t.objectives = .ok names → n ∈ names := by
  -- A variable that resolves in the scope left behind resolves in the later one.
  have hvariable : ∀ {name : String} {args : List String}, s'.ListedWith name args →
      s'.objective name args = .ok n →
      n.length ≤ 16 ∧ ∀ names, t.objectives = .ok names → n ∈ names := by
    intro name args hw hn
    obtain ⟨entry, text, -, -, rfl⟩ := objective_ok.mp hn
    exact ⟨length_trim _, fun names hnames =>
      (hw.grows hg).mem_objectives (hg.objective hn) hnames⟩
  cases c with
  | memory origin =>
    obtain ⟨m, s₁, hm, hs₁⟩ := Step.bind_ok h
    cases hs₁
    obtain ⟨hc, rfl⟩ := memory_ok hm
    have hcell : t.cellName origin = s'.cellName origin := by
      unfold cellName qualify
      rw [hg.ns]
    refine ⟨length_trim _, fun names hnames => ?_⟩
    rw [← hcell]
    exact cell_mem_objectives hnames (hg.cells.subset hc)
  | objective name args =>
    have hread : (Step.ofExcept (s.objective name args) >>= fun m => pure (some m)) s =
        .ok (some n) s' := h
    obtain ⟨m, s₁, hm, hs₁⟩ := Step.bind_ok hread
    cases hs₁
    obtain ⟨hn, rfl⟩ := Step.ofExcept_ok.mp hm
    exact hvariable hl hn
  | entityLocal name =>
    obtain ⟨m, s₁, hm, hs₁⟩ := Step.bind_ok h
    cases hs₁
    obtain ⟨hn, entry, he, hold⟩ := entityLocal_ok hl.1 hm
    refine hvariable ⟨entry, he, .inl ?_⟩ hn
    rcases hold with hold | rfl
    · cases entry with
      | fixed text => exact ⟨text, rfl⟩
      | templated template options => exact absurd hold (hl.2 template options)
    · exact ⟨_, rfl⟩
  | _ => exact hl.elim

/-- **Completeness.** Take any run of calls, refused ones among them, that gives no variable another
entry, and any point of it. An objective that was answered there, for a memory cell, a variable with
listed arguments or a name local to an entity, has at most sixteen characters and is in the
enumeration at the end. The enumeration at that point is a part of the one at the end, in order. -/
theorem objectives_complete (s : Scope) (before later : List Call)
    (hr : replacesNone s (before ++ later) = true) :
    (∀ c rest n s', later = c :: rest → c.Listed (run s before) →
      c.perform (run s before) = .ok (some n) s' →
      n.length ≤ 16 ∧
        ∀ names, (run s (before ++ later)).objectives = .ok names → n ∈ names) ∧
    ∀ names names', (run s before).objectives = .ok names →
      (run s (before ++ later)).objectives = .ok names' → names.Sublist names' := by
  rw [replacesNone_append, Bool.and_eq_true] at hr
  rw [run_append]
  refine ⟨?_, fun names names' h h' => objectives_grow (run_grows hr.2) h h'⟩
  rintro c rest n s' rfl hl h
  have hrest := hr.2
  rw [replacesNone, Bool.and_eq_true, Step.after_of_ok h] at hrest
  have hend : run (run s before) (c :: rest) = run s' rest := by
    rw [run, List.foldl_cons, Step.after_of_ok h, run]
  rw [hend]
  exact hl.mem_objectives h (run_grows hrest.2)

/-- A cell whose name is cut, allocated between a refused call and the declaration of a variable. -/
theorem objectives_complete_cutCell :
    ∃ (s : Scope) (before later : List Call) (names names' : List String),
      replacesNone s (before ++ later) = true ∧
      (run s before).objectives = .ok names ∧ (run s (before ++ later)).objectives = .ok names' ∧
      "espace_xdeadbeef" ∈ names' ∧ names.Sublist names' ∧ names ≠ names' := by
  let s : Scope := {
    ns := "averylongnamespace"
    entityTag := "averylongnamespace_etag"
    home := .site
    vars := Table.ofList [("slot", .templated "s\x7b\x7d" [["0"], ["1"]])] }
  let before : List Call := [.objective "slot" ["7"], .commandArg "selector" "x"]
  let later : List Call :=
    [.memory 0xdeadbeef, .addVariable "timer" (.fixed "t"), .entityLocal "hp", .setSealed,
      .memory 4]
  have hr : replacesNone s (before ++ later) = true := by decide
  have hbefore : (run s before).objectives = .ok ["longnamespace_s0", "longnamespace_s1"] :=
    Step.except_ok_of_toOption (by decide +kernel)
  have hlater : (run s (before ++ later)).objectives =
      .ok ["longnamespace_s0", "longnamespace_s1", "ylongnamespace_t", "gnamespace_el_hp",
        "espace_xdeadbeef"] := Step.except_ok_of_toOption (by decide +kernel)
  have hname : trim (s.cellName 0xdeadbeef) = "espace_xdeadbeef" := by decide +kernel
  have hmemory : (Call.memory 0xdeadbeef).perform (run s before) =
      .ok (some (trim (s.cellName 0xdeadbeef))) { s with cells := [0xdeadbeef] } := rfl
  rw [hname] at hmemory
  obtain ⟨hnames, hsublist⟩ := objectives_complete s before later hr
  obtain ⟨-, hcell⟩ := hnames _ _ _ _ rfl trivial hmemory
  exact ⟨s, before, later, _, _, hr, hbefore, hlater, hcell _ hlater,
    hsublist _ _ hbefore hlater, by decide⟩

end Scope

end Datapack
