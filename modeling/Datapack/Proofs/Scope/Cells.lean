import Datapack.Proofs.Scope.Objectives

/-!
# Memory cells keep their names apart

The name of a memory cell is the namespace, a mark and the origin of the cell in
hexadecimal digits; the objective keeps the last sixteen characters of it. What
is cut away may be the whole namespace and the mark as well, and still no two
cells of a scope share an objective.

**Reading back.** `behindLast_cell`: the digits of a cell are what stands behind
the last mark of its objective. An origin has at most sixteen digits, and none of
them is the mark; with sixteen of them the mark is lost, but then nothing else is
left.

**Result.** `cells_never_alias`: at any two moments of the life of a scope, the
objectives of two cells are the same exactly if the cells are.
-/
namespace Datapack

namespace Scope

/-! ## Reading an objective back -/

theorem behindLast_cell (s : Scope) (origin : UInt64) :
    Text.behindLast 'x' (trim (s.cellName origin)).toList = Nat.toDigits 16 origin.toNat := by
  have hname : (s.cellName origin).toList =
      (s.ns.toList ++ ['_']) ++ 'x' :: Nat.toDigits 16 origin.toNat := by
    simp [cellName, qualify]
  exact Text.behindLast_lastChars hname (Text.mark_not_mem_toDigits _)
    (Text.length_toDigits_le origin)

theorem trim_cellName_injective (s : Scope) {o₁ o₂ : UInt64}
    (h : trim (s.cellName o₁) = trim (s.cellName o₂)) : o₁ = o₂ := by
  have hdigits : Nat.toDigits 16 o₁.toNat = Nat.toDigits 16 o₂.toNat := by
    rw [← s.behindLast_cell o₁, h, s.behindLast_cell o₂]
  exact UInt64.toNat_inj.mp (Text.toDigits_injective (by decide) (by decide) hdigits)

/-! ## Cells of a scope -/

/-- What a memory call answers at some moment of the life of a scope. -/
theorem memory_run_ok {s t : Scope} {calls : List Call} {origin : UInt64} {n : String}
    (h : memory origin (run s calls) = .ok n t) : n = trim (s.cellName origin) := by
  obtain ⟨-, rfl⟩ := memory_ok h
  have hns : t.ns = s.ns := ((memory_lasting origin).grows_ok h).ns.trans (run_ns s calls)
  unfold cellName qualify
  rw [hns]

theorem memory_isOk_iff {s : Scope} {origin : UInt64} :
    (∃ n t, memory origin s = .ok n t) ↔ s.isSealed = false ∨ origin ∈ s.cells := by
  unfold memory
  rw [← List.contains_iff_mem]
  cases s.cells.contains origin <;> cases s.isSealed <;> simp

/-- **No two cells share an objective.** A scope of whatever namespace hands out the objective of
every cell until it is sealed, and of the cells it has ever after. At any two moments of its life,
whatever is called before them, the objectives of two cells are the same exactly if the cells are.
-/
theorem cells_never_alias (s : Scope) (o₁ o₂ : UInt64) :
    (∀ calls : List Call, (∃ n t, memory o₁ (run s calls) = .ok n t) ↔
      (run s calls).isSealed = false ∨ o₁ ∈ (run s calls).cells) ∧
    ∀ (calls₁ calls₂ : List Call) (n₁ n₂ : String) (t₁ t₂ : Scope),
      memory o₁ (run s calls₁) = .ok n₁ t₁ → memory o₂ (run s calls₂) = .ok n₂ t₂ →
      (n₁ = n₂ ↔ o₁ = o₂) := by
  refine ⟨fun calls => memory_isOk_iff, ?_⟩
  intro calls₁ calls₂ n₁ n₂ t₁ t₂ h₁ h₂
  rw [memory_run_ok h₁, memory_run_ok h₂]
  constructor
  · exact s.trim_cellName_injective
  · rintro rfl
    rfl

/-- Fifteen digits keep their mark and sixteen do not, here with the same digits behind it. -/
theorem cells_never_alias_markLost :
    ∃ (s t₁ t₂ : Scope) (n₁ n₂ : String),
      memory 0xabcdef012345678 s = .ok n₁ t₁ ∧ memory 0xaabcdef012345678 t₁ = .ok n₂ t₂ ∧
      n₁ = "xabcdef012345678" ∧ n₂ = "aabcdef012345678" ∧ n₁ ≠ n₂ := by
  let s : Scope := {
    ns := "averylongnamespace"
    entityTag := "averylongnamespace_etag"
    home := .site }
  let t₁ : Scope := { s with cells := [0xabcdef012345678] }
  let t₂ : Scope := { s with cells := [0xabcdef012345678, 0xaabcdef012345678] }
  have hn₁ : trim (s.cellName 0xabcdef012345678) = "xabcdef012345678" := by decide +kernel
  have hn₂ : trim (s.cellName 0xaabcdef012345678) = "aabcdef012345678" := by decide +kernel
  have h₁ : memory 0xabcdef012345678 s = .ok (trim (s.cellName 0xabcdef012345678)) t₁ := rfl
  have h₂ : memory 0xaabcdef012345678 t₁ = .ok (trim (s.cellName 0xaabcdef012345678)) t₂ := rfl
  rw [hn₁] at h₁
  rw [hn₂] at h₂
  have hrun : run s [.memory 0xabcdef012345678] = t₁ := rfl
  obtain ⟨-, hapart⟩ := cells_never_alias s 0xabcdef012345678 0xaabcdef012345678
  have hiff := hapart [] [.memory 0xabcdef012345678] _ _ t₁ t₂ h₁ (hrun.symm ▸ h₂)
  exact ⟨s, t₁, t₂, _, _, h₁, h₂, rfl, rfl, fun e => absurd (hiff.mp e) (by decide)⟩

end Scope

end Datapack
