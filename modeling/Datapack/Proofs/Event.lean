import Datapack.Event
import Datapack.Proofs.Text

/-!
# Paths written with dots

A condition keeps its path as a list of components, and programs write it as one
text with dots between them. Every text can be read as a path: a dot at either
end, or beside another dot, leaves an empty component there, and the empty text
is the path of one empty component.

**Paths that can be written.** `Dotless c`: the path of `c` has a component, and
none of them holds a dot. These are the conditions that are read from texts
(`dotless_ofText`); a path without components would be written like the one with
a single empty component.

**Result.** `dotted_paths`: reading and writing undo each other, on all texts
and on exactly these conditions.
-/
namespace Datapack

namespace Condition

/-- The path can be told from the text that it is written as. -/
structure Dotless (c : Condition) : Prop where
  nonempty : c.path ≠ []
  no_dot : ∀ component ∈ c.path, '.' ∉ component.toList

theorem dottedPath_eq (c : Condition) : c.dottedPath = ".".intercalate c.path := by
  rw [← String.toList_inj, dottedPath, String.toList_ofList, String.toList_intercalate]
  rfl

theorem toList_path_ofText (text value : String) :
    (ofText text value).path.map String.toList = Text.splitOn '.' text.toList := by
  simp [ofText]

theorem dotless_ofText (text value : String) : (ofText text value).Dotless where
  nonempty h := by
    have hsplit := toList_path_ofText text value
    rw [h, List.map_nil] at hsplit
    exact Text.splitOn_ne_nil _ _ hsplit.symm
  no_dot := by
    rw [← List.forall_mem_map (P := fun component => '.' ∉ component), toList_path_ofText]
    exact Text.notMem_of_mem_splitOn

theorem dottedPath_ofText (text value : String) : (ofText text value).dottedPath = text := by
  rw [dottedPath, toList_path_ofText, Text.joinWith_splitOn, String.ofList_toList]

theorem ofText_dottedPath {c : Condition} (h : c.Dotless) : ofText c.dottedPath c.value = c := by
  have hsplit : Text.splitOn '.' (Text.joinWith '.' (c.path.map String.toList)) =
      c.path.map String.toList :=
    Text.splitOn_joinWith (List.forall_mem_map.mpr h.no_dot) (by simpa using h.nonempty)
  rw [ofText, dottedPath, String.toList_ofList, hsplit]
  simp

/-- **Dotted paths.** A path is written with a dot between each two components. Every text is read
as a path with a component and without a dot in any, which is written as this text again. A
condition is read back from its text exactly if its path is such. So different texts are different
paths. -/
theorem dotted_paths :
    (∀ c : Condition, c.dottedPath = ".".intercalate c.path) ∧
    (∀ text value : String, (ofText text value).Dotless ∧ (ofText text value).value = value ∧
      (ofText text value).dottedPath = text) ∧
    (∀ c : Condition, ofText c.dottedPath c.value = c ↔ c.Dotless) ∧
    ∀ text text' value value' : String,
      (ofText text value).path = (ofText text' value').path ↔ text = text' := by
  refine ⟨dottedPath_eq, ?_, ?_, ?_⟩
  · intro text value
    exact ⟨dotless_ofText text value, rfl, dottedPath_ofText text value⟩
  · intro c
    constructor
    · intro h
      rw [← h]
      exact dotless_ofText _ _
    · exact ofText_dottedPath
  · intro text text' value value'
    constructor
    · intro h
      rw [← dottedPath_ofText text value, ← dottedPath_ofText text' value', dottedPath_eq,
        dottedPath_eq, h]
    · rintro rfl
      rfl

example : (ofText ".a..b." "1").path = ["", "a", "", "b", ""] := by decide +kernel

end Condition

end Datapack
