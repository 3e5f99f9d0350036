import Datapack.Proofs.Program.Reference
import Datapack.Proofs.Session.Calls
import Datapack.Proofs.Session.Rearming
import Datapack.Proofs.Text

/-!
# Function tags collect their handlers

A session keeps a group of functions for each tag, under the qualified name of
the tag, and writes all groups again whenever registrations were hooked up.

**Names.** `NamesTag`: a name with a colon is cut at its first one, a name
without one is in the namespace of the session. A namespace holds no colon, so
a qualified name stands for one tag (`key_inj`) and two tags never share a
group.

**Collecting.** `Collected` says what has been collected for each tag and that
the pack holds nothing else. Every call keeps it, and a successful call adds the
functions of its registrations at the end (`Collected.perform`).

**Result.** `tags_hold_handlers`: after any successful calls, one of which
hooks registrations up, a tag of the pack lists exactly the functions that were
registered for it, in order, and firing an event calls the tag of its handlers.
-/
namespace Datapack

open Step (Keeps)

/-! ## The tag that a name stands for -/

/-- In a session with namespace `ns`, the name stands for the tag `tag` of the namespace `tagNs`. -/
def NamesTag (ns name tagNs tag : String) : Prop :=
  (':' ∉ tagNs.toList ∧ name = tagNs ++ ":" ++ tag) ∨
    (':' ∉ name.toList ∧ tagNs = ns ∧ tag = name)

instance (ns name tagNs tag : String) : Decidable (NamesTag ns name tagNs tag) :=
  inferInstanceAs (Decidable (_ ∨ _))

theorem QualifiedName.target_eq_iff {q : QualifiedName} {s : Scope} {tagNs tag : String} :
    q.target s = (tagNs, tag) ↔ NamesTag s.ns q.text tagNs tag := by
  have hqualified : ∀ {a b : String}, ':' ∉ a.toList → q.text = a ++ ":" ++ b →
      q.target s = (a, b) := by
    intro a b ha ht
    have hsplit : Text.splitFirst? ':' q.text = some (a, b) := by
      rw [ht]
      exact Text.splitFirst?_append ha
    unfold target parts
    rw [hsplit]
    rfl
  have hplain : ':' ∉ q.text.toList → q.target s = (s.ns, q.text) := by
    intro h
    unfold target parts
    rw [Text.splitFirst?_of_notMem h]
    rfl
  constructor
  · intro h
    by_cases hc : ':' ∈ q.text.toList
    · obtain ⟨a, b, ha, ht⟩ := Text.exists_split_of_mem hc
      rw [hqualified ha ht] at h
      cases h
      exact .inl ⟨ha, ht⟩
    · rw [hplain hc] at h
      cases h
      exact .inr ⟨hc, rfl, rfl⟩
  · intro h
    rcases h with ⟨ha, ht⟩ | ⟨hc, rfl, rfl⟩
    · exact hqualified ha ht
    · exact hplain hc

/-- No colon in the namespace of the scope, so none in that of a tag. -/
theorem QualifiedName.target_colon {s : Scope} (hs : ':' ∉ s.ns.toList) (q : QualifiedName) :
    ':' ∉ (q.target s).1.toList := by
  rcases target_eq_iff.mp (show q.target s = ((q.target s).1, (q.target s).2) from rfl) with
    ⟨h, -⟩ | ⟨-, h, -⟩
  · exact h
  · rw [h]
    exact hs

theorem key_inj {ns ns' name name' : String} (h : ':' ∉ ns.toList) (h' : ':' ∉ ns'.toList)
    (he : ns ++ ":" ++ name = ns' ++ ":" ++ name') : ns = ns' ∧ name = name' :=
  Text.append_inj_of_notMem h h' he

/-- A name stands for one tag. -/
theorem NamesTag.unique {ns name tagNs tag tagNs' tag' : String} (h : NamesTag ns name tagNs tag)
    (h' : NamesTag ns name tagNs' tag') : tagNs = tagNs' ∧ tag = tag' := by
  rcases h with ⟨hn, rfl⟩ | ⟨hc, rfl, rfl⟩
  · rcases h' with ⟨hn', he⟩ | ⟨hc, -, -⟩
    · exact key_inj hn hn' he
    · simp at hc
  · rcases h' with ⟨-, rfl⟩ | ⟨-, rfl, rfl⟩
    · simp at hc
    · exact ⟨rfl, rfl⟩

theorem namesTag_load {ns tagNs tag : String} :
    NamesTag ns Session.loadTag.text tagNs tag ↔ tagNs = "minecraft" ∧ tag = "load" := by
  have hload : NamesTag ns Session.loadTag.text "minecraft" "load" := .inl ⟨by decide, rfl⟩
  constructor
  · intro h
    exact h.unique hload
  · rintro ⟨rfl, rfl⟩
    exact hload

/-- What validation has looked at. -/
theorem Settings.validate_ok {settings : Settings} (h : settings.validate = .ok ()) :
    (∀ c ∈ settings.ns.toList, isNamespaceChar c = true) ∧
      ∀ entry ∈ settings.vars.entries, wrongOption? entry = none := by
  unfold validate fault? at h
  split at h
  · cases h
  · rename_i hfault
    split at hfault
    · cases hfault
    · split at hfault
      · cases hfault
      · rename_i hfind
        refine ⟨fun c hc => ?_, List.findSome?_eq_none_iff.mp hfault⟩
        simpa using List.find?_eq_none.mp hfind c hc

theorem Settings.colon_of_validate {settings : Settings} (h : settings.validate = .ok ()) :
    ':' ∉ settings.ns.toList := by
  intro hc
  have hchar := (validate_ok h).1 ':' hc
  revert hchar
  decide

/-! ## What belongs to a tag -/

/-- The registration adds its function to the tag: as a handler of the tag, or for setup. -/
def Registration.joins (ns tagNs tag : String) : Registration → Bool
  | .handler _ (.tag name) _ => NamesTag ns name tagNs tag
  | .handler _ (.advancement _ _) _ => false
  | .setup _ => tagNs = "minecraft" && tag = "load"

/-- The functions that registrations add to a tag, in order. -/
def joining (ns : String) (registrations : List Registration) (tagNs tag : String) : List String :=
  (registrations.filter (·.joins ns tagNs tag)).map fun r => ns ++ ":" ++ r.function

theorem joining_append (ns : String) (before later : List Registration) (tagNs tag : String) :
    joining ns (before ++ later) tagNs tag =
      joining ns before tagNs tag ++ joining ns later tagNs tag := by
  simp [joining]

/-! ## Groups -/

namespace Session

variable {s s' : Session}

/-- The functions that have been collected for a tag. -/
def collected (s : Session) (tagNs tag : String) : List String :=
  match s.groups.get? (tagNs ++ ":" ++ tag) with
  | some g => if (g.ns, g.name) = (tagNs, tag) then g.members else []
  | none => []

/-- Every group is kept under its qualified name. -/
def Keyed (s : Session) : Prop :=
  ∀ key g, s.groups.get? key = some g → ':' ∉ g.ns.toList ∧ key = g.ns ++ ":" ++ g.name

theorem Keyed.group (hk : s.Keyed) (hs : ':' ∉ s.scope.ns.toList) (tag : QualifiedName) :
    s.group tag = ⟨(tag.target s.scope).1, (tag.target s.scope).2,
      s.collected (tag.target s.scope).1 (tag.target s.scope).2⟩ := by
  unfold Session.group collected
  cases hg : s.groups.get? (tag.resolve s.scope) with
  | none =>
    have hg' := hg
    unfold QualifiedName.resolve at hg'
    simp only [hg', Option.getD_none]
  | some g =>
    obtain ⟨hcolon, hkey⟩ := hk _ _ hg
    obtain ⟨hns, hname⟩ := key_inj (tag.target_colon hs) hcolon hkey
    unfold QualifiedName.resolve at hg
    simp only [hg, Option.getD_some]
    rw [if_pos (by rw [hns, hname])]
    rw [hns, hname]

/-- One group is replaced. -/
def withGroup (s : Session) (tagNs tag : String) (members : List String) : Session :=
  { s with groups := s.groups.insert (tagNs ++ ":" ++ tag) ⟨tagNs, tag, members⟩ }

theorem Keyed.withGroup (hk : s.Keyed) {tagNs : String} (hn : ':' ∉ tagNs.toList) (tag : String)
    (members : List String) : (s.withGroup tagNs tag members).Keyed := by
  intro key g hg
  simp only [Session.withGroup, Table.get?_insert] at hg
  split at hg
  · rename_i he
    cases hg
    exact ⟨hn, he.symm⟩
  · exact hk key g hg

theorem Keyed.collected_withGroup (hk : s.Keyed) {tagNs : String} (hn : ':' ∉ tagNs.toList)
    (tag : String) (members : List String) (ns name : String) :
    (s.withGroup tagNs tag members).collected ns name =
      if (tagNs, tag) = (ns, name) then members else s.collected ns name := by
  unfold collected
  simp only [Session.withGroup, Table.get?_insert]
  by_cases he : tagNs ++ ":" ++ tag = ns ++ ":" ++ name
  · rw [if_pos he]
    by_cases ht : (tagNs, tag) = (ns, name)
    · simp only [ht, if_true]
    · -- The group under this name is that of another tag, before and after.
      simp only [ht, if_false]
      cases hg : s.groups.get? (ns ++ ":" ++ name) with
      | none => rfl
      | some g =>
        obtain ⟨hcolon, hkey⟩ := hk _ _ hg
        obtain ⟨rfl, rfl⟩ := key_inj hn hcolon (he.trans hkey)
        exact (if_neg ht).symm
  · have ht : (tagNs, tag) ≠ (ns, name) := by
      intro h
      cases h
      exact he rfl
    rw [if_neg he, if_neg ht]

theorem addMember_ok {tag : QualifiedName} {function : String}
    (h : addMember tag function s = .ok () s') :
    s' = { s with groups := s.groups.insert (tag.resolve s.scope) { s.group tag with
      members := (s.group tag).members ++ [s.scope.ns ++ ":" ++ function] } } := by
  by_cases hf : function ∈ s.scope.functions
  · unfold addMember at h
    rw [Step.bind_of_ok (functionName_onScope hf)] at h
    cases h
    rfl
  · unfold addMember at h
    rw [Step.bind_of_error (functionName_unknown hf)] at h
    cases h

/-! ## Files -/

theorem mem_tagFiles {entry : TagKey × List String} :
    entry ∈ s.tagFiles.filterMap (·.asTag?) ↔
      ∃ key g, (key, g) ∈ s.groups.entries ∧ g.members ≠ [] ∧
        entry = (⟨"functions", g.ns, g.name⟩, g.members) := by
  unfold tagFiles
  rw [List.filterMap_map, List.mem_filterMap]
  constructor
  · intro h
    obtain ⟨⟨key, g⟩, hg, he⟩ := h
    rw [List.mem_filter] at hg
    exact ⟨key, g, hg.1, by simpa using hg.2, (Option.some.inj he).symm⟩
  · intro h
    obtain ⟨key, g, hg, hm, rfl⟩ := h
    exact ⟨(key, g), List.mem_filter.mpr ⟨hg, by simpa using hm⟩, rfl⟩

theorem Keyed.members_of_mem (hk : s.Keyed) {key : String} {g : TagGroup}
    (hg : (key, g) ∈ s.groups.entries) : g.members = s.collected g.ns g.name := by
  have hget := Table.get?_of_mem hg
  obtain ⟨-, rfl⟩ := hk key g hget
  unfold collected
  rw [hget]
  exact (if_pos rfl).symm

theorem mem_of_collected {ns name : String} (h : s.collected ns name ≠ []) :
    ∃ key g, (key, g) ∈ s.groups.entries ∧ g.ns = ns ∧ g.name = name ∧
      g.members = s.collected ns name := by
  unfold collected at h ⊢
  cases hg : s.groups.get? (ns ++ ":" ++ name) with
  | none => rw [hg] at h; exact absurd rfl h
  | some g =>
    rw [hg] at h
    simp only at h ⊢
    split at h
    · rename_i ht
      obtain ⟨rfl, rfl⟩ := Prod.mk.inj ht
      exact ⟨_, g, Assoc.mem_of_get? hg, rfl, rfl, (if_pos rfl).symm⟩
    · exact absurd rfl h

/-- The files of the tags: one for each tag for which something was collected. -/
theorem Keyed.get?_tagFiles (hk : s.Keyed) (ns name : String) :
    Assoc.get? ⟨"functions", ns, name⟩ (s.tagFiles.filterMap (·.asTag?)).reverse =
      if s.collected ns name = [] then none else some (s.collected ns name) := by
  have hagree : ∀ members, (⟨"functions", ns, name⟩, members) ∈
      (s.tagFiles.filterMap (·.asTag?)).reverse →
      members = s.collected ns name ∧ members ≠ [] := by
    intro members hm
    rw [List.mem_reverse, mem_tagFiles] at hm
    obtain ⟨key, g, hg, hne, he⟩ := hm
    cases he
    exact ⟨hk.members_of_mem hg, hne⟩
  by_cases hc : s.collected ns name = []
  · rw [if_pos hc]
    cases hget : Assoc.get? ⟨"functions", ns, name⟩ (s.tagFiles.filterMap (·.asTag?)).reverse with
    | none => rfl
    | some members =>
      obtain ⟨he, hne⟩ := hagree members (Assoc.mem_of_get? hget)
      exact absurd (he.trans hc) hne
  · rw [if_neg hc]
    obtain ⟨key, g, hg, rfl, rfl, hmembers⟩ := mem_of_collected hc
    refine Assoc.get?_of_agree ?_ fun members hm => (hagree members hm).1
    rw [List.mem_reverse, mem_tagFiles]
    exact ⟨key, g, hg, hmembers ▸ hc, by rw [hmembers]⟩

/-! ## Collecting -/

/-- In the namespace `ns`, `listed` has been collected for each tag, and the pack holds nothing of a
tag for which it is empty. Once the tags are `written`, the pack holds the others. -/
structure Collected (ns : String) (listed : String → String → List String) (written : Bool)
    (s : Session) : Prop where
  ns : s.scope.ns = ns
  keyed : s.Keyed
  collected : ∀ tagNs tag, s.collected tagNs tag = listed tagNs tag
  unfiled : ∀ tagNs tag, listed tagNs tag = [] → s.pack.tag? "functions" tagNs tag = none
  filed : written = true → ∀ tagNs tag, listed tagNs tag ≠ [] →
    s.pack.tag? "functions" tagNs tag = some (listed tagNs tag)

namespace Collected

variable {ns : String} {listed : String → String → List String} {written : Bool}

theorem congr (h : Collected ns listed written s) {listed' : String → String → List String}
    (he : ∀ tagNs tag, listed tagNs tag = listed' tagNs tag) : Collected ns listed' written s := by
  have heq : listed = listed' := by
    funext tagNs tag
    exact he tagNs tag
  exact heq ▸ h

/-- The scope matters only for its namespace. -/
theorem withScope (h : Collected ns listed written s) {scope : Scope}
    (hscope : scope.ns = s.scope.ns) : Collected ns listed written { s with scope } :=
  ⟨hscope.trans h.ns, h.keyed, h.collected, h.unfiled, h.filed⟩

theorem admits (ns : String) (listed : String → String → List String) (written : Bool) :
    Admits (Collected ns listed written) where
  scope h hg := h.withScope hg.ns
  file {s file} h hfile := by
    have hnot : file.asTag? = none := by
      cases file with
      | tag key members => exact absurd rfl (hfile key members)
      | _ => rfl
    have htag : ∀ tagNs tag, ({ s with files := s.files ++ [file] } : Session).pack.tag? "functions"
        tagNs tag = s.pack.tag? "functions" tagNs tag := by
      intro tagNs tag
      refine (Pack.tag?_append s.files [file] "functions" tagNs tag).trans ?_
      simp [hnot, Assoc.get?, pack]
    exact ⟨h.ns, h.keyed, h.collected, fun tagNs tag he => (htag tagNs tag).trans
      (h.unfiled tagNs tag he), fun hw tagNs tag hne => (htag tagNs tag).trans
      (h.filed hw tagNs tag hne)⟩
  place _ h := ⟨h.ns, h.keyed, h.collected, h.unfiled, h.filed⟩
  hook _ h := ⟨h.ns, h.keyed, h.collected, h.unfiled, h.filed⟩

theorem writeTags (h : Collected ns listed written s) :
    Collected ns listed true { s with files := s.files ++ s.tagFiles } := by
  have htag : ∀ tagNs tag,
      ({ s with files := s.files ++ s.tagFiles } : Session).pack.tag? "functions" tagNs tag =
        (if listed tagNs tag = [] then none else some (listed tagNs tag)).or
          (s.pack.tag? "functions" tagNs tag) := by
    intro tagNs tag
    refine (Pack.tag?_append s.files s.tagFiles "functions" tagNs tag).trans ?_
    rw [h.keyed.get?_tagFiles, h.collected]
    rfl
  refine ⟨h.ns, h.keyed, h.collected, fun tagNs tag he => ?_, fun _ tagNs tag hne => ?_⟩
  · rw [htag, if_pos he, h.unfiled tagNs tag he]
    rfl
  · rw [htag, if_neg hne]
    rfl

theorem keeps_writeTags : Keeps (Collected ns listed written) Session.writeTags := by
  intro s h
  exact { h.writeTags with filed := fun _ => h.writeTags.filed rfl }

section
variable (hns : ':' ∉ ns.toList)
include hns

theorem declareTag (tag : QualifiedName) : Keeps (Collected ns listed written)
    (Session.declareTag tag) := by
  intro s h
  have hs : ':' ∉ s.scope.ns.toList := h.ns ▸ hns
  have hcolon := tag.target_colon hs
  have heq : Session.declareTag tag s = .ok () (s.withGroup (tag.target s.scope).1
      (tag.target s.scope).2 (s.collected (tag.target s.scope).1 (tag.target s.scope).2)) := by
    show EStateM.Result.ok () _ = _
    rw [h.keyed.group hs tag]
    rfl
  rw [Step.after_of_ok heq]
  refine ⟨h.ns, h.keyed.withGroup hcolon _ _, fun tagNs name => ?_, h.unfiled, h.filed⟩
  rw [h.keyed.collected_withGroup hcolon, ← h.collected]
  split
  · rename_i ht
    rw [← (Prod.mk.inj ht).1, ← (Prod.mk.inj ht).2]
  · rfl

/-- A known function is added at the end of one tag. -/
theorem addMember (h : Collected ns listed written s) {tag : QualifiedName} {function : String}
    (hok : Session.addMember tag function s = .ok () s') :
    Collected ns (fun tagNs name => listed tagNs name ++
      if NamesTag ns tag.text tagNs name then [ns ++ ":" ++ function] else []) false s' := by
  have hs : ':' ∉ s.scope.ns.toList := h.ns ▸ hns
  have hcolon := tag.target_colon hs
  have heq : s' = s.withGroup (tag.target s.scope).1 (tag.target s.scope).2
      (s.collected (tag.target s.scope).1 (tag.target s.scope).2 ++ [ns ++ ":" ++ function]) := by
    rw [addMember_ok hok, h.keyed.group hs tag, h.ns]
    rfl
  subst heq
  have hjoins : ∀ tagNs name,
      (s.withGroup (tag.target s.scope).1 (tag.target s.scope).2
        (s.collected (tag.target s.scope).1 (tag.target s.scope).2 ++
          [ns ++ ":" ++ function])).collected tagNs name =
        listed tagNs name ++
          if NamesTag ns tag.text tagNs name then [ns ++ ":" ++ function] else [] := by
    intro tagNs name
    have htarget : tag.target s.scope = (tagNs, name) ↔ NamesTag ns tag.text tagNs name := by
      rw [← h.ns]
      exact QualifiedName.target_eq_iff
    rw [h.keyed.collected_withGroup hcolon]
    by_cases ht : tag.target s.scope = (tagNs, name)
    · rw [if_pos ht, if_pos (htarget.mp ht), ht, h.collected]
    · rw [if_neg ht, if_neg fun hn => ht (htarget.mpr hn), h.collected, List.append_nil]
  exact ⟨h.ns, h.keyed.withGroup hcolon _ _, hjoins,
    fun tagNs name he => h.unfiled tagNs name (List.append_eq_nil_iff.mp he).1, nofun⟩

theorem register (h : Collected ns listed written s) {r : Registration}
    (hok : Session.register r s = .ok () s') :
    Collected ns (fun tagNs tag => listed tagNs tag ++ joining ns [r] tagNs tag) false s' := by
  cases r with
  | setup function =>
    have hmember : Session.addMember loadTag function s = .ok () s' := hok
    refine (h.addMember hns hmember).congr fun tagNs tag => ?_
    by_cases ht : tagNs = "minecraft" ∧ tag = "load"
    · rw [if_pos (namesTag_load.mpr ht)]
      simp [joining, Registration.joins, Registration.function, ht]
    · rw [if_neg fun hn => ht (namesTag_load.mp hn)]
      simp [joining, Registration.joins, ht]
  | handler function event revoke =>
    cases event with
    | tag name =>
      have hmember : Session.addMember ⟨name⟩ function s = .ok () s' := hok
      refine (h.addMember hns hmember).congr fun tagNs tag => ?_
      by_cases ht : NamesTag ns name tagNs tag <;>
        simp [joining, Registration.joins, Registration.function, ht]
    | advancement name conditions =>
      have hkept := ((admits ns listed false).addAdvancementHandler function name conditions
        revoke).of_ok hok { h with filed := nofun }
      exact hkept.congr fun tagNs tag => (List.append_nil _).symm

theorem forM_register : ∀ {registrations : List Registration}
    {listed : String → String → List String} {written : Bool} {s : Session},
    Collected ns listed written s → registrations.forM Session.register s = .ok () s' →
    Collected ns (fun tagNs tag => listed tagNs tag ++ joining ns registrations tagNs tag) false s'
  | [], _, _, _, h, hok => by
    cases hok
    have hkept : Collected ns _ false s' := { h with filed := nofun }
    exact hkept.congr fun tagNs tag => (List.append_nil _).symm
  | r :: registrations, _, _, _, h, hok => by
    obtain ⟨_, s₁, hr, hrest⟩ := Step.bind_ok hok
    refine (forM_register (h.register hns hr) hrest).congr fun tagNs tag => ?_
    rw [List.append_assoc, ← joining_append, List.singleton_append]

theorem registerAll (h : Collected ns listed written s) {registrations : List Registration}
    (hok : Session.registerAll registrations s = .ok () s') :
    Collected ns (fun tagNs tag => listed tagNs tag ++ joining ns registrations tagNs tag) true
      s' := by
  obtain ⟨_, s₁, hforM, hwrite⟩ := Step.bind_ok hok
  cases hwrite
  exact (h.forM_register hns hforM).writeTags

theorem emit (h : Collected ns listed written s) {build : Build}
    (hok : Session.emit build s = .ok () s') :
    Collected ns (fun tagNs tag => listed tagNs tag ++ joining ns build.registrations tagNs tag)
      true s' := by
  have hI := admits ns listed written
  obtain ⟨_, s₁, hnames, hok⟩ := Step.bind_ok hok
  obtain ⟨_, s₂, hfunctions, hregister⟩ := Step.bind_ok hok
  have h₁ := (hI.addFunctionNames build.functionNames).of_ok hnames h
  have h₂ := (Keeps.forM build.functions fun f _ => hI.addFunction f.name f.commands).of_ok
    hfunctions h₁
  exact h₂.registerAll hns hregister

end

end Collected

/-! ## Fresh sessions -/

/-- The tags of a fresh session: it may have a function of its own to run on load. -/
def initially (settings : Settings) (tagNs tag : String) : List String :=
  if settings.setupOnLoad = true ∧ tagNs = "minecraft" ∧ tag = "load" then
    [settings.ns ++ ":setup_on_load_trampoline"]
  else []

theorem Admits.outfit {I : Session → Prop} (hI : Admits I) : Keeps I outfit :=
  .bind (hI.addLines _) fun _ => .bind (hI.addFunctionNames _) fun _ => hI.addFunction _ _

theorem collected_create {settings : Settings} (hns : ':' ∉ settings.ns.toList)
    {origin : BlockPos} (h : create settings origin = .ok s) :
    Collected settings.ns (initially settings) false s := by
  have hblank : Collected settings.ns (fun _ _ => []) false (blank settings origin) :=
    ⟨rfl, nofun, fun _ _ => rfl, fun _ _ _ => rfl, nofun⟩
  have houtfit (listed : String → String → List String) :=
    (Collected.admits settings.ns listed false).outfit
  obtain ⟨s₁, s₂, htick, hload, hrest⟩ := create_cases h
  have h₂ := (Collected.declareTag hns loadTag).of_ok hload
    ((Collected.declareTag hns tickTag).of_ok htick hblank)
  rcases hrest with ⟨hon, hs⟩ | ⟨hon, s₃, s₄, hnames, hmember, hs⟩
  · refine ((houtfit _).of_ok hs h₂).congr fun tagNs tag => ?_
    simp [initially, hon]
  · have h₃ := ((Collected.admits _ _ _).addFunctionNames _).of_ok hnames h₂
    refine ((houtfit _).of_ok hs (h₃.addMember hns hmember)).congr fun tagNs tag => ?_
    simp [initially, hon, namesTag_load, loadTrampoline, String.append_assoc]

/-! ## Successful calls -/

/-- The registrations that a call hooks up. -/
def Call.registrations : Call → List Registration
  | .registerAll registrations => registrations
  | .emit build => build.registrations
  | _ => []

/-- The call hooks registrations up, if only none. -/
def Call.hooks : Call → Bool
  | .registerAll _ => true
  | .emit _ => true
  | _ => false

/-- The session after some calls, if all succeed. -/
def performAll : Session → List Call → Option Session
  | s, [] => some s
  | s, c :: calls => if (c.perform s).1 then performAll (c.perform s).2 calls else none

theorem Collected.perform {ns : String} (hns : ':' ∉ ns.toList)
    {listed : String → String → List String} {written : Bool} (h : Collected ns listed written s)
    {c : Call} (hc : (c.perform s).1 = true) :
    Collected ns (fun tagNs tag => listed tagNs tag ++ joining ns c.registrations tagNs tag)
      (written || c.hooks) (c.perform s).2 := by
  have hI := admits ns listed written
  -- A call that hooks nothing up keeps what was collected.
  have hquiet : ∀ {s'}, Collected ns listed written s' → Collected ns
      (fun tagNs tag => listed tagNs tag ++ joining ns [] tagNs tag) (written || false) s' := by
    intro s' h'
    rw [Bool.or_false]
    exact h'.congr fun tagNs tag => (List.append_nil _).symm
  cases c with
  | scope c =>
    refine hquiet ?_
    show Collected ns listed written (Attempt.outcome (.ofStep (onScope c.perform)) s).2
    rw [Attempt.outcome_ofStep, after_onScope]
    exact h.withScope (c.ns_after s.scope)
  | addFunction name commands =>
    exact hquiet (Attempt.keeps_outcome (hI.addFunction name commands) h)
  | addLines lines => exact hquiet (Attempt.keeps_outcome (hI.addLines lines) h)
  | setHook commands => exact hquiet (Attempt.keeps_outcome (hI.setHook commands) h)
  | install => exact hquiet (hI.install h)
  | addLifecycle setup cleanup => exact hquiet (hI.addLifecycle keeps_writeTags setup cleanup h)
  | registerAll registrations =>
    obtain ⟨_, hok⟩ := Attempt.outcome_true (Prod.ext hc rfl)
    rw [Call.hooks, Bool.or_true]
    exact h.registerAll hns (Attempt.ofStep_ok.mp hok)
  | emit build =>
    obtain ⟨_, hok⟩ := Attempt.outcome_true (Prod.ext hc rfl)
    rw [Call.hooks, Bool.or_true]
    exact h.emit hns (Attempt.ofStep_ok.mp hok)

theorem Collected.performAll {ns : String} (hns : ':' ∉ ns.toList) : ∀ {calls : List Call}
    {listed : String → String → List String} {written : Bool} {s : Session},
    Collected ns listed written s → Session.performAll s calls = some s' →
    Collected ns (fun tagNs tag =>
        listed tagNs tag ++ joining ns (calls.flatMap Call.registrations) tagNs tag)
      (written || calls.any Call.hooks) s'
  | [], listed, written, s, h, hr => by
    cases hr
    rw [List.any_nil, Bool.or_false]
    exact h.congr fun tagNs tag => (List.append_nil _).symm
  | c :: calls, listed, written, s, h, hr => by
    unfold Session.performAll at hr
    split at hr
    · rename_i hc
      have hrest := Collected.performAll hns (h.perform hns hc) hr
      rw [List.any_cons, ← Bool.or_assoc]
      refine hrest.congr fun tagNs tag => ?_
      rw [List.flatMap_cons, joining_append, List.append_assoc]
    · cases hr

/-- What belongs to a tag after registrations were hooked up in a fresh session. -/
def belonging (settings : Settings) (registrations : List Registration) (tagNs tag : String) :
    List String :=
  initially settings tagNs tag ++ joining settings.ns registrations tagNs tag

/-- **Tags.** Take a fresh session whose namespace is valid and any successful calls, at least one
of which hooks registrations up. A tag of functions is then in the pack exactly if something belongs
to it, and it lists what does: the trampoline that runs on load, if there is one, and then the
handlers in the order in which they were registered. A command that fires a tag event calls the one
tag that the name of the event stands for. -/
theorem tags_hold_handlers (settings : Settings) (origin : BlockPos) (calls : List Call)
    (hns : ({ settings with vars := ∅ } : Settings).validate = .ok ())
    (hs : create settings origin = .ok s) (hr : performAll s calls = some s')
    (hhooks : ∃ c ∈ calls, c.hooks = true) :
    (∀ tagNs tag, s'.pack.tag? "functions" tagNs tag =
      if belonging settings (calls.flatMap Call.registrations) tagNs tag = [] then none
      else some (belonging settings (calls.flatMap Call.registrations) tagNs tag)) ∧
    ∀ (r : Registry) (event : EventHandle) (name : String),
      r.events[event.id]? = some (.tag name) →
      ∃ tagNs tag c, NamesTag settings.ns name tagNs tag ∧
        (∀ tagNs' tag', NamesTag settings.ns name tagNs' tag' → tagNs' = tagNs ∧ tag' = tag) ∧
        Instruction.command r (.fireEvent event) = .ok c ∧
        c.resolve s'.scope = .ok ("function #" ++ tagNs ++ ":" ++ tag) s'.scope := by
  have hcolon : ':' ∉ settings.ns.toList := by
    have hvalid := Settings.colon_of_validate hns
    exact hvalid
  have h := (collected_create hcolon hs).performAll hcolon hr
  rw [List.any_eq_true.mpr hhooks, Bool.or_true] at h
  constructor
  · intro tagNs tag
    split
    · rename_i he
      exact h.unfiled tagNs tag he
    · rename_i hne
      exact h.filed rfl tagNs tag hne
  · intro r event name he
    have htarget : NamesTag settings.ns name ((⟨name⟩ : QualifiedName).target s'.scope).1
        ((⟨name⟩ : QualifiedName).target s'.scope).2 := by
      rw [← h.ns]
      exact QualifiedName.target_eq_iff.mp rfl
    refine ⟨_, _, _, htarget, fun tagNs' tag' hn => hn.unique htarget,
      Instruction.command_fireEvent.mpr ⟨_, he, rfl⟩, ?_⟩
    show EStateM.Result.ok ("function #" ++ QualifiedName.resolve ⟨name⟩ s'.scope) s'.scope = _
    simp only [QualifiedName.resolve, String.append_assoc]

/-- A qualified and a plain tag, a setup function and a handler of the tag that runs on load,
registered before and after the pack was installed. -/
theorem tags_hold_handlers_load :
    ∃ (settings : Settings) (s s' : Session) (calls : List Call),
      ({ settings with vars := ∅ } : Settings).validate = .ok () ∧
      create settings settings.position = .ok s ∧ performAll s calls = some s' ∧
      (∃ c ∈ calls, c.hooks = true) ∧
      s'.pack.tag? "functions" "minecraft" "load" =
        some ["ns:setup_on_load_trampoline", "ns:greet", "ns:stack_dump"] ∧
      s'.pack.tag? "functions" "ns" "tick" = some ["ns:greet"] ∧
      s'.pack.tag? "functions" "minecraft" "tick" = none := by
  let settings : Settings := {
    ns := "ns"
    position := .site
    setupOnLoad := true }
  let calls : List Call :=
    [.emit ⟨[⟨"greet", [.raw "say hi"]⟩], [.handler "greet" (.tag "tick") false, .setup "greet"]⟩,
      .addLifecycle "up" "down", .registerAll [.handler "stack_dump" (.tag "minecraft:load") false]]
  have h : ((create settings settings.position).toOption.bind (performAll · calls)).isSome = true :=
    by decide +kernel
  obtain ⟨s', h⟩ := Option.isSome_iff_exists.mp h
  obtain ⟨s, hcreate, hr⟩ := Option.bind_eq_some_iff.mp h
  have hs := Step.except_ok_of_toOption hcreate
  have hns : ({ settings with vars := ∅ } : Settings).validate = .ok () :=
    Step.except_ok_of_toOption (by decide +kernel)
  have hhooks : ∃ c ∈ calls, c.hooks = true := ⟨_, List.mem_cons_self, rfl⟩
  obtain ⟨htags, -⟩ := tags_hold_handlers settings settings.position calls hns hs hr hhooks
  exact ⟨settings, s, s', calls, hns, hs, hr, hhooks, htags "minecraft" "load", htags "ns" "tick",
    htags "minecraft" "tick"⟩

end Session

end Datapack
