import Datapack.Pack

/-!
# Files that replace each other

A pack is the outcome of a list of files, and a file replaces the earlier ones
of its name. So what a pack holds under a name is the last file of that name:
`get?_insertAll` for tables, `function?_ofFiles`, `tag?_ofFiles` and
`advancements_ofFiles` for packs.

When all files of a name agree, the order in which they were written does not
matter (`get?_of_agree`).
-/
namespace Datapack

variable {κ α : Type} [DecidableEq κ]

/-! ## The last write wins -/

namespace Assoc

theorem get?_put (key k : κ) (v : α) (l : List (κ × α)) :
    get? k (put key v l) = if key = k then some v else get? k l := by
  induction l with
  | nil => rfl
  | cons entry l ih =>
    obtain ⟨k', v'⟩ := entry
    by_cases hk : k' = key
    · simp only [put, hk, if_true, get?]
      split <;> rfl
    · simp only [put, hk, if_false, get?, ih]
      by_cases hkk : k' = k
      · have hne : key ≠ k := fun h => hk (hkk.trans h.symm)
        simp [hkk, hne]
      · simp [hkk]

theorem get?_append (k : κ) (l l' : List (κ × α)) :
    get? k (l ++ l') = (get? k l).or (get? k l') := by
  induction l with
  | nil => rfl
  | cons entry l ih =>
    obtain ⟨k', v'⟩ := entry
    by_cases hk : k' = k <;> simp [get?, hk, ih]

theorem mem_of_get? {k : κ} {v : α} {l : List (κ × α)} (h : get? k l = some v) : (k, v) ∈ l := by
  induction l with
  | nil => cases h
  | cons entry l ih =>
    obtain ⟨k', v'⟩ := entry
    by_cases hk : k' = k
    · rw [get?, if_pos hk] at h
      cases h
      exact hk ▸ List.mem_cons_self
    · rw [get?, if_neg hk] at h
      exact List.mem_cons_of_mem _ (ih h)

theorem get?_isSome {k : κ} {v : α} {l : List (κ × α)} (h : (k, v) ∈ l) :
    ∃ w, get? k l = some w := by
  induction l with
  | nil => cases h
  | cons entry l ih =>
    obtain ⟨k', v'⟩ := entry
    by_cases hk : k' = k
    · exact ⟨v', if_pos hk⟩
    · rcases List.mem_cons.mp h with he | h
      · exact absurd (Prod.mk.inj he).1.symm hk
      · obtain ⟨w, hw⟩ := ih h
        exact ⟨w, (if_neg hk).trans hw⟩

theorem get?_of_mem {k : κ} {v : α} {l : List (κ × α)} (hn : (l.map Prod.fst).Nodup)
    (h : (k, v) ∈ l) : get? k l = some v := by
  induction l with
  | nil => cases h
  | cons entry l ih =>
    obtain ⟨k', v'⟩ := entry
    obtain ⟨hk', hn⟩ := List.nodup_cons.mp hn
    rcases List.mem_cons.mp h with he | h
    · cases he
      exact if_pos rfl
    · have hne : k' ≠ k := fun e => hk' (List.mem_map.mpr ⟨(k, v), h, e.symm⟩)
      rw [get?, if_neg hne, ih hn h]

theorem mem_of_get?_reverse {k : κ} {v : α} {l : List (κ × α)} (h : get? k l.reverse = some v) :
    (k, v) ∈ l :=
  List.mem_reverse.mp (mem_of_get? h)

theorem get?_reverse {l : List (κ × α)} (hn : (l.map Prod.fst).Nodup) (k : κ) :
    get? k l.reverse = get? k l := by
  have hn' : (l.reverse.map Prod.fst).Nodup := by
    rw [List.map_reverse]
    exact (List.reverse_perm _).nodup_iff.mpr hn
  ext v
  exact ⟨fun h => get?_of_mem hn (mem_of_get?_reverse h),
    fun h => get?_of_mem hn' (List.mem_reverse.mpr (mem_of_get? h))⟩

/-- A new key goes to the end. -/
theorem put_of_none {key : κ} {l : List (κ × α)} (h : get? key l = none) (v : α) :
    put key v l = l ++ [(key, v)] := by
  induction l with
  | nil => rfl
  | cons entry l ih =>
    obtain ⟨k, w⟩ := entry
    by_cases hk : k = key
    · rw [get?, if_pos hk] at h
      cases h
    · rw [get?, if_neg hk] at h
      rw [put, if_neg hk, ih h, List.cons_append]

/-- What was found is found when there is more behind it. -/
theorem get?_of_prefix {k : κ} {v : α} {l l' : List (κ × α)} (hp : l <+: l')
    (h : get? k l = some v) : get? k l' = some v := by
  obtain ⟨more, rfl⟩ := hp
  rw [get?_append, h, Option.some_or]

/-- Values that agree can be looked up in any order. -/
theorem get?_of_agree {k : κ} {v : α} {l : List (κ × α)} (hm : (k, v) ∈ l)
    (ha : ∀ w, (k, w) ∈ l → w = v) : get? k l = some v := by
  obtain ⟨w, hw⟩ := get?_isSome hm
  rw [hw, ha w (mem_of_get? hw)]

end Assoc

namespace Table

theorem get?_insert (t : Table κ α) (key k : κ) (v : α) :
    (t.insert key v).get? k = if key = k then some v else t.get? k :=
  Assoc.get?_put key k v t.entries

theorem get?_insertAll (k : κ) : ∀ (l : List (κ × α)) (t : Table κ α),
    (t.insertAll l).get? k = (Assoc.get? k l.reverse).or (t.get? k)
  | [], _ => rfl
  | (key, v) :: l, t => by
    have h := get?_insertAll k l (t.insert key v)
    have hone : Assoc.get? k [(key, v)] = if key = k then some v else none := rfl
    rw [List.reverse_cons, Assoc.get?_append, Option.or_assoc, hone]
    refine h.trans ?_
    rw [get?_insert]
    by_cases hk : key = k <;> simp [hk]

theorem get?_of_mem {t : Table κ α} {k : κ} {v : α} (h : (k, v) ∈ t.entries) :
    t.get? k = some v :=
  Assoc.get?_of_mem t.nodup h

end Table

/-! ## What a pack holds -/

namespace PackFile

/-- A function with its name. -/
def asFunction? : PackFile → Option (String × List String)
  | .function name commands => some (name, commands)
  | _ => none

/-- A tag with its key. -/
def asTag? : PackFile → Option (TagKey × List String)
  | .tag key members => some (key, members)
  | _ => none

/-- An advancement with its name. -/
def asAdvancement? : PackFile → Option (String × Advancement)
  | .advancement content => some (content.name, content)
  | _ => none

end PackFile

namespace Pack

theorem functions_foldl : ∀ (files : List PackFile) (p : Pack),
    (files.foldl write p).functions = p.functions.insertAll (files.filterMap (·.asFunction?))
  | [], _ => rfl
  | file :: files, p => by
    rw [List.foldl_cons, functions_foldl files]
    cases file <;> rfl

theorem tags_foldl : ∀ (files : List PackFile) (p : Pack),
    (files.foldl write p).tags = p.tags.insertAll (files.filterMap (·.asTag?))
  | [], _ => rfl
  | file :: files, p => by
    rw [List.foldl_cons, tags_foldl files]
    cases file <;> rfl

theorem advancements_foldl : ∀ (files : List PackFile) (p : Pack),
    (files.foldl write p).advancements =
      p.advancements.insertAll (files.filterMap (·.asAdvancement?))
  | [], _ => rfl
  | file :: files, p => by
    rw [List.foldl_cons, advancements_foldl files]
    cases file <;> rfl

theorem function?_ofFiles (files : List PackFile) (name : String) :
    (ofFiles files).function? name =
      Assoc.get? name (files.filterMap (·.asFunction?)).reverse := by
  unfold function? ofFiles
  rw [functions_foldl, Table.get?_insertAll]
  exact Option.or_none

theorem tag?_ofFiles (files : List PackFile) (category ns name : String) :
    (ofFiles files).tag? category ns name =
      Assoc.get? ⟨category, ns, name⟩ (files.filterMap (·.asTag?)).reverse := by
  unfold tag? ofFiles
  rw [tags_foldl, Table.get?_insertAll]
  exact Option.or_none

/-- Later files come first. -/
theorem tag?_append (files more : List PackFile) (category ns name : String) :
    (ofFiles (files ++ more)).tag? category ns name =
      (Assoc.get? ⟨category, ns, name⟩ (more.filterMap (·.asTag?)).reverse).or
        ((ofFiles files).tag? category ns name) := by
  rw [tag?_ofFiles, tag?_ofFiles, List.filterMap_append, List.reverse_append, Assoc.get?_append]

theorem advancements_ofFiles (files : List PackFile) (name : String) :
    (ofFiles files).advancements.get? name =
      Assoc.get? name (files.filterMap (·.asAdvancement?)).reverse := by
  unfold ofFiles
  rw [advancements_foldl, Table.get?_insertAll]
  exact Option.or_none

theorem function?_isSome {files : List PackFile} {name : String} :
    ((ofFiles files).function? name).isSome = true ↔ ∃ lines, .function name lines ∈ files := by
  rw [function?_ofFiles, Option.isSome_iff_exists]
  constructor
  · rintro ⟨lines, h⟩
    obtain ⟨file, hf, he⟩ := List.mem_filterMap.mp (Assoc.mem_of_get?_reverse h)
    cases file with
    | function name' lines' => cases he; exact ⟨lines, hf⟩
    | _ => cases he
  · rintro ⟨lines, h⟩
    exact Assoc.get?_isSome (List.mem_reverse.mpr (List.mem_filterMap.mpr ⟨_, h, rfl⟩))

/-- A tag of the pack was written as it is. -/
theorem mem_of_mem_tags {files : List PackFile} {key : TagKey} {members : List String}
    (h : (key, members) ∈ (ofFiles files).tags.entries) : .tag key members ∈ files := by
  have hget : (ofFiles files).tag? key.category key.ns key.name = some members := Table.get?_of_mem h
  rw [tag?_ofFiles] at hget
  obtain ⟨file, hf, he⟩ := List.mem_filterMap.mp (Assoc.mem_of_get?_reverse hget)
  cases file with
  | tag key' members' => cases he; exact hf
  | _ => cases he

/-- An advancement of the pack was written as it is. -/
theorem mem_of_mem_advancements {files : List PackFile} {name : String} {a : Advancement}
    (h : (name, a) ∈ (ofFiles files).advancements.entries) : .advancement a ∈ files := by
  have hget := Table.get?_of_mem h
  rw [advancements_ofFiles] at hget
  obtain ⟨file, hf, he⟩ := List.mem_filterMap.mp (Assoc.mem_of_get?_reverse hget)
  cases file with
  | advancement content => cases he; exact hf
  | _ => cases he

end Pack

end Datapack
