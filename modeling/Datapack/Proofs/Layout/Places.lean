import Datapack.Layout

/-!
# Where blocks stand

Blocks are placed line by line, and each place is computed from the number of the
line and the number of the block in it.

**Fitting.** `Fits` says that all blocks have coordinates in range. Placing then
succeeds (`Fits.positions?`), and lines without blocks move nothing
(`positions?_of_blocks`).

**Places.** `PlaceOf` says where a block stands. A successful placement puts every
block there, line after line (`rows?_placed`). So it is only successful if the
layout fits (`positions?_eq_none_iff`), which is a matter of the last block of each
line (`not_fits_iff`).
-/
namespace Datapack

/-! ## Positions -/

theorem Coord.ofInt?_eq_some {n : Int} {c : Coord} : Coord.ofInt? n = some c ↔ c.val = n := by
  unfold Coord.ofInt?
  split
  · rw [Option.some.injEq, Subtype.ext_iff, eq_comm]
  · rename_i hn
    constructor
    · intro h
      cases h
    · rintro rfl
      exact absurd c.property hn

namespace BlockPos

theorem ext_vals {p q : BlockPos} (hx : p.x.val = q.x.val) (hy : p.y.val = q.y.val)
    (hz : p.z.val = q.z.val) : p = q := by
  cases p
  cases q
  rw [mk.injEq]
  exact ⟨Subtype.ext hx, Subtype.ext hy, Subtype.ext hz⟩

theorem offset?_eq_some {p q : BlockPos} {dx dy dz : Int} :
    p.offset? dx dy dz = some q ↔
      q.x.val = p.x.val + dx ∧ q.y.val = p.y.val + dy ∧ q.z.val = p.z.val + dz := by
  unfold offset? ofInts?
  simp only [Option.bind_eq_bind, Option.bind_eq_some_iff, Coord.ofInt?_eq_some,
    Option.some.injEq]
  constructor
  · rintro ⟨x, hx, y, hy, z, hz, rfl⟩
    exact ⟨hx, hy, hz⟩
  · rintro ⟨hx, hy, hz⟩
    exact ⟨q.x, hx, q.y, hy, q.z, hz, rfl⟩

/-- The position at which packs stand in the inputs of this library. -/
def site : BlockPos := ⟨⟨0, by decide⟩, ⟨64, by decide⟩, ⟨0, by decide⟩⟩

end BlockPos

namespace Layout

/-! ## Layouts that fit -/

/-- All blocks, line by line. -/
def blocks (l : Layout) : List (Block String) := l.lines.flatten

/-- Every block has coordinates in range. -/
def Fits (l : Layout) : Prop :=
  ∀ (z : Nat) line, l.lines[z]? = some line → ∀ x : Nat, x < line.length →
    l.origin.x.val + x < 0x80000000 ∧ l.origin.z.val + (z + 1) < 0x80000000

variable {origin : BlockPos}

theorem row?_of_fits {z : Nat} (hz : origin.z.val + (z + 1) < 0x80000000) :
    ∀ (x : Nat) (line : List (Block String)),
      (∀ i < line.length, origin.x.val + ((x + i : Nat) : Int) < 0x80000000) →
      ∃ placed, row? origin z x line = some placed
  | _, [], _ => ⟨[], rfl⟩
  | x, block :: line, h => by
    have hx : origin.x.val + (x : Int) < 0x80000000 := h 0 (by simp)
    have htail : ∀ i < line.length, origin.x.val + ((x + 1 + i : Nat) : Int) < 0x80000000 := by
      intro i hi
      have := h (i + 1) (by simpa using hi)
      omega
    obtain ⟨placed, hplaced⟩ := row?_of_fits hz (x + 1) line htail
    have hpos : ∃ pos, origin.offset? x 0 (z + 1) = some pos := by
      have hx' := origin.x.property
      have hz' := origin.z.property
      exact ⟨⟨⟨origin.x.val + x, by omega⟩, origin.y, ⟨origin.z.val + (z + 1), by omega⟩⟩,
        BlockPos.offset?_eq_some.mpr ⟨rfl, (Int.add_zero _).symm, rfl⟩⟩
    obtain ⟨pos, hpos⟩ := hpos
    rw [row?, hpos, hplaced]
    exact ⟨_, rfl⟩

theorem rows?_of_fits : ∀ (z : Nat) (lines : List (List (Block String))),
    (∀ (i : Nat) line, lines[i]? = some line → ∀ x : Nat, x < line.length →
      origin.x.val + x < 0x80000000 ∧ origin.z.val + ((z + i + 1 : Nat) : Int) < 0x80000000) →
    ∃ placed, rows? origin z lines = some placed
  | _, [], _ => ⟨[], rfl⟩
  | z, line :: lines, h => by
    have hrow : ∃ placed, row? origin z 0 line = some placed := by
      by_cases hline : line = []
      · subst hline
        exact ⟨[], rfl⟩
      · have hz := (h 0 line rfl 0 (List.length_pos_iff.mpr hline)).2
        refine row?_of_fits (by omega) 0 line fun i hi => ?_
        have := (h 0 line rfl i hi).1
        omega
    have hrows : ∃ placed, rows? origin (z + 1) lines = some placed := by
      refine rows?_of_fits (z + 1) lines fun i l hl x hx => ?_
      have := h (i + 1) l hl x hx
      omega
    obtain ⟨placed, hplaced⟩ := hrow
    obtain ⟨others, hothers⟩ := hrows
    rw [rows?, hplaced, hothers]
    exact ⟨_, rfl⟩

theorem Fits.positions? {l : Layout} (h : l.Fits) : ∃ placed, l.positions? = some placed := by
  refine rows?_of_fits 0 l.lines fun i line hl x hx => ?_
  have := h i line hl x hx
  omega

theorem rows?_of_empty : ∀ (z : Nat) (lines : List (List (Block String))),
    (∀ line ∈ lines, line = []) → rows? origin z lines = some []
  | _, [], _ => rfl
  | z, line :: lines, h => by
    have hline := h line List.mem_cons_self
    have hlines := rows?_of_empty (z + 1) lines fun l hl => h l (List.mem_cons_of_mem _ hl)
    rw [rows?, hline, hlines]
    rfl

theorem rows?_append_empty {more : List (List (Block String))}
    (hmore : ∀ line ∈ more, line = []) : ∀ (z : Nat) (lines : List (List (Block String))),
    rows? origin z (lines ++ more) = rows? origin z lines
  | z, [] => rows?_of_empty z more hmore
  | z, line :: lines => by
    rw [List.cons_append, rows?, rows?, rows?_append_empty hmore (z + 1) lines]

/-- Lines without blocks move nothing. -/
theorem positions?_of_blocks {l l' : Layout} (ho : l'.origin = l.origin)
    (hl : l.lines <+: l'.lines) (hb : l'.blocks = l.blocks) : l'.positions? = l.positions? := by
  obtain ⟨more, hmore⟩ := hl
  unfold blocks at hb
  rw [← hmore, List.flatten_append, List.append_right_eq_self] at hb
  unfold positions?
  rw [ho, ← hmore]
  exact rows?_append_empty (List.flatten_eq_nil_iff.mp hb) 0 l.lines

/-! ## Where the blocks stand -/

/-- The place of block number `x` of line number `z`. -/
structure PlaceOf (origin : BlockPos) (z x : Nat) (pos : BlockPos) : Prop where
  x : pos.x.val = origin.x.val + x
  y : pos.y = origin.y
  z : pos.z.val = origin.z.val + (z + 1)

/-- The order of places: by line, and in a line by block. -/
def Before (p q : BlockPos) : Prop :=
  p.z.val < q.z.val ∨ p.z.val = q.z.val ∧ p.x.val < q.x.val

theorem placeOf_iff {z x : Nat} {pos : BlockPos} :
    origin.offset? x 0 (z + 1) = some pos ↔ PlaceOf origin z x pos := by
  rw [BlockPos.offset?_eq_some]
  constructor
  · rintro ⟨hx, hy, hz⟩
    exact ⟨hx, Subtype.ext (by omega), hz⟩
  · rintro ⟨hx, hy, hz⟩
    exact ⟨hx, by rw [hy]; omega, hz⟩

/-- The blocks of line number `z`, the first of them being block number `x`, stand at their places.
-/
structure RowPlaced (origin : BlockPos) (z x : Nat) (line : List (Block String))
    (placed : List (BlockPos × Block String)) : Prop where
  blocks : placed.map Prod.snd = line
  place : ∀ (i : Nat) e, placed[i]? = some e → PlaceOf origin z (x + i) e.1

theorem row?_placed {z : Nat} : ∀ {x : Nat} {line : List (Block String)}
    {placed : List (BlockPos × Block String)}, row? origin z x line = some placed →
    RowPlaced origin z x line placed
  | _, [], _, h => by
    cases h
    exact ⟨rfl, by simp⟩
  | x, block :: line, placed, h => by
    rw [row?] at h
    obtain ⟨pos, hpos, h⟩ := Option.bind_eq_some_iff.mp h
    obtain ⟨rest, hrest, h⟩ := Option.bind_eq_some_iff.mp h
    cases h
    have ih := row?_placed hrest
    refine ⟨by rw [List.map_cons, ih.blocks], fun i e he => ?_⟩
    cases i with
    | zero =>
      cases he
      exact placeOf_iff.mp hpos
    | succ i =>
      have hplace := ih.place i e he
      rwa [Nat.add_assoc, Nat.add_comm 1] at hplace

namespace RowPlaced

variable {z x : Nat} {line : List (Block String)} {placed : List (BlockPos × Block String)}

theorem mem (h : RowPlaced origin z x line placed) : ∀ e ∈ placed, ∃ m, PlaceOf origin z m e.1 := by
  intro e he
  obtain ⟨i, hi⟩ := List.mem_iff_getElem?.mp he
  exact ⟨_, h.place i e hi⟩

theorem sorted (h : RowPlaced origin z x line placed) :
    placed.Pairwise fun e e' => Before e.1 e'.1 := by
  rw [List.pairwise_iff_getElem]
  intro i j hi hj hij
  have hp := h.place i _ (List.getElem?_eq_getElem hi)
  have hq := h.place j _ (List.getElem?_eq_getElem hj)
  have hxp := hp.x
  have hxq := hq.x
  exact .inr ⟨by rw [hp.z, hq.z], by omega⟩

theorem getElem? {row : List (Block String)} (h : RowPlaced origin z 0 row placed) {m : Nat}
    {block : Block String} (hm : row[m]? = some block) :
    ∃ pos, placed[m]? = some (pos, block) ∧ PlaceOf origin z m pos := by
  rw [← h.blocks, List.getElem?_map] at hm
  obtain ⟨⟨pos, block⟩, he, rfl⟩ := Option.map_eq_some_iff.mp hm
  have hplace := h.place m _ he
  rw [Nat.zero_add] at hplace
  exact ⟨pos, he, hplace⟩

end RowPlaced

/-- The blocks of some lines, the first of them being line number `z`, stand at their places. -/
structure Placed (origin : BlockPos) (z : Nat) (lines : List (List (Block String)))
    (placed : List (BlockPos × Block String)) : Prop where
  blocks : placed.map Prod.snd = lines.flatten
  /-- A block comes after the blocks of the lines before it and those before it in its line. -/
  place : ∀ (k m : Nat) row block, lines[k]? = some row → row[m]? = some block →
    ∃ pos, placed[(lines.take k).flatten.length + m]? = some (pos, block) ∧
      PlaceOf origin (z + k) m pos
  mem : ∀ e ∈ placed, ∃ k m, PlaceOf origin (z + k) m e.1
  sorted : placed.Pairwise fun e e' => Before e.1 e'.1

/-- A line in front of others. -/
theorem Placed.cons {z : Nat} {line : List (Block String)} {lines : List (List (Block String))}
    {row others : List (BlockPos × Block String)} (hrow : RowPlaced origin z 0 line row)
    (h : Placed origin (z + 1) lines others) : Placed origin z (line :: lines) (row ++ others) where
  blocks := by rw [List.map_append, hrow.blocks, h.blocks, List.flatten_cons]
  place := by
    intro k m line' block hl hm
    cases k with
    | zero =>
      cases hl
      obtain ⟨pos, he, hplace⟩ := hrow.getElem? hm
      refine ⟨pos, ?_, hplace⟩
      rw [List.take_zero, List.flatten_nil, List.length_nil, Nat.zero_add,
        List.getElem?_append_left (List.getElem?_eq_some_iff.mp he).1, he]
    | succ k =>
      obtain ⟨pos, he, hplace⟩ := h.place k m line' block hl hm
      have hlength : row.length = line.length := by rw [← hrow.blocks, List.length_map]
      rw [Nat.add_assoc, Nat.add_comm 1] at hplace
      refine ⟨pos, ?_, hplace⟩
      rw [List.take_succ_cons, List.flatten_cons, List.length_append,
        List.getElem?_append_right (by omega), ← he]
      congr 1
      omega
  mem := by
    intro e he
    rcases List.mem_append.mp he with he | he
    · obtain ⟨m, hplace⟩ := hrow.mem e he
      exact ⟨0, m, hplace⟩
    · obtain ⟨k, m, hplace⟩ := h.mem e he
      rw [Nat.add_assoc] at hplace
      exact ⟨1 + k, m, hplace⟩
  sorted := by
    rw [List.pairwise_append]
    refine ⟨hrow.sorted, h.sorted, fun e he e' he' => .inl ?_⟩
    obtain ⟨m, hplace⟩ := hrow.mem e he
    obtain ⟨k, m', hplace'⟩ := h.mem e' he'
    have hz := hplace.z
    have hz' := hplace'.z
    omega

theorem rows?_placed {z : Nat} {lines : List (List (Block String))}
    {placed : List (BlockPos × Block String)} (h : rows? origin z lines = some placed) :
    Placed origin z lines placed := by
  induction lines generalizing z placed with
  | nil =>
    cases h
    exact ⟨rfl, by simp, by simp, .nil⟩
  | cons line lines ih =>
    rw [rows?] at h
    obtain ⟨row, hrow, h⟩ := Option.bind_eq_some_iff.mp h
    obtain ⟨others, hothers, h⟩ := Option.bind_eq_some_iff.mp h
    cases h
    exact .cons (row?_placed hrow) (ih hothers)

theorem Placed.nodup {z : Nat} {lines : List (List (Block String))}
    {placed : List (BlockPos × Block String)} (h : Placed origin z lines placed) :
    (placed.map Prod.fst).Nodup := by
  rw [List.Nodup, List.pairwise_map]
  refine h.sorted.imp fun {e e'} hbefore heq => ?_
  rw [heq] at hbefore
  unfold Before at hbefore
  omega

/-- All blocks stand at the height of the origin and on one side of it. -/
theorem Placed.beyond {z : Nat} {lines : List (List (Block String))}
    {placed : List (BlockPos × Block String)} (h : Placed origin z lines placed) :
    ∀ e ∈ placed, e.1.y = origin.y ∧ origin.z.val < e.1.z.val := by
  intro e he
  obtain ⟨k, m, hplace⟩ := h.mem e he
  have hz := hplace.z
  exact ⟨hplace.y, by omega⟩

theorem Placed.fits {l : Layout} {placed : List (BlockPos × Block String)}
    (h : Placed l.origin 0 l.lines placed) : l.Fits := by
  intro z line hl x hx
  obtain ⟨pos, -, hplace⟩ := h.place z x line _ hl (List.getElem?_eq_getElem hx)
  have hpx := hplace.x
  have hpz := hplace.z
  have := pos.x.property
  have := pos.z.property
  omega

theorem positions?_eq_none_iff {l : Layout} : l.positions? = none ↔ ¬ l.Fits := by
  constructor
  · intro h hfits
    obtain ⟨placed, hplaced⟩ := hfits.positions?
    rw [h] at hplaced
    cases hplaced
  · intro h
    cases hplaced : l.positions? with
    | none => rfl
    | some placed => exact absurd (rows?_placed hplaced).fits h

/-- The last block of a line is the first to leave the range, and only lines with blocks count. -/
theorem not_fits_iff {l : Layout} :
    ¬ l.Fits ↔ ∃ (k : Nat) (line : List (Block String)), l.lines[k]? = some line ∧ line ≠ [] ∧
      (l.origin.x.val + line.length - 1 > 0x7fffffff ∨ l.origin.z.val + k + 1 > 0x7fffffff) := by
  constructor
  · intro h
    apply Classical.byContradiction
    intro hnone
    refine h fun z line hl x hx => ?_
    have hne : line ≠ [] := List.ne_nil_of_length_pos (by omega)
    have : ¬ (l.origin.x.val + line.length - 1 > 0x7fffffff ∨
        l.origin.z.val + z + 1 > 0x7fffffff) := fun hout => hnone ⟨z, line, hl, hne, hout⟩
    omega
  · rintro ⟨k, line, hl, hne, hout⟩ hfits
    have hpos := List.length_pos_iff.mpr hne
    have := hfits k line hl (line.length - 1) (by omega)
    omega

end Layout

end Datapack
