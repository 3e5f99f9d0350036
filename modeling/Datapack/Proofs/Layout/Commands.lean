import Datapack.Proofs.Layout.Places
import Datapack.Proofs.Text

/-!
# Blocks are set and cleared at the same places

Setting and clearing walk over the same places, so they fail together and act on
the same blocks in the same order.

**Commands.** `ActsAt` reads the position off the text of a command, and a command
acts at one position only (`ActsAt.unique`). Both kinds of commands are a `blockLine`
(`setText_eq`, `clearText_eq`) and differ in what they put there.

**Result.** `blocks_laid_out`: when placing fails, and what the commands act on when
it does not.
-/
namespace Datapack

theorem Text.toString_append_inj {m n : Int} {rest rest' : String}
    (h : toString m ++ " " ++ rest = toString n ++ " " ++ rest') : m = n ∧ rest = rest' := by
  obtain ⟨hnumber, hrest⟩ := Text.append_inj_of_notMem (Text.blank_not_mem_toString m)
    (Text.blank_not_mem_toString n) h
  exact ⟨Text.toString_injective hnumber, hrest⟩

/-- The coordinates can be read off a text that begins with them. -/
theorem BlockPos.text_append_inj {p q : BlockPos} {rest rest' : String}
    (h : p.text ++ " " ++ rest = q.text ++ " " ++ rest') : p = q := by
  have hparts : ∀ (r : BlockPos) (tail : String), r.text ++ " " ++ tail =
      toString r.x.val ++ " " ++ (toString r.y.val ++ " " ++
        (toString r.z.val ++ " " ++ tail)) := by
    intro r tail
    unfold text
    simp only [String.append_assoc]
  rw [hparts, hparts] at h
  obtain ⟨hx, h⟩ := Text.toString_append_inj h
  obtain ⟨hy, h⟩ := Text.toString_append_inj h
  obtain ⟨hz, -⟩ := Text.toString_append_inj h
  exact ext_vals hx hy hz

namespace Layout

/-! ## What the commands act on -/

/-- The command sets the block at a position. -/
def ActsAt (command : String) (pos : BlockPos) : Prop :=
  ∃ what, command = "setblock " ++ pos.text ++ " " ++ what

theorem ActsAt.unique {command : String} {p q : BlockPos} (hp : ActsAt command p)
    (hq : ActsAt command q) : p = q := by
  obtain ⟨what, rfl⟩ := hp
  obtain ⟨what', h⟩ := hq
  have htexts : p.text ++ " " ++ what = q.text ++ " " ++ what' := by
    simpa only [String.append_assoc, String.append_right_inj] using h
  exact BlockPos.text_append_inj htexts

/-- The command that puts something at the coordinates of a block. -/
def blockLine (pos : BlockPos) (what : String) : String :=
  "setblock " ++ toString pos.x.val ++ " " ++ toString pos.y.val ++ " " ++ toString pos.z.val ++
    " " ++ what

theorem setText_eq (pos : BlockPos) (block : Block String) :
    setText pos block = blockLine pos (block.mode.blockId ++ "[facing=east,conditional=" ++
      (if block.conditional then "true" else "false") ++ "]\x7bCommand:" ++
      Text.Json.quote block.command ++ ",auto:1b\x7d") := by
  unfold setText BlockPos.text blockLine
  simp only [String.append_assoc]

theorem clearText_eq (pos : BlockPos) : clearText pos = blockLine pos "minecraft:air" := by
  unfold clearText BlockPos.text blockLine
  simp only [String.append_assoc]
  rfl

theorem actsAt_blockLine (pos : BlockPos) (what : String) : ActsAt (blockLine pos what) pos := by
  unfold ActsAt blockLine BlockPos.text
  simp only [String.append_assoc]
  exact ⟨what, rfl⟩

theorem actsAt_setText (pos : BlockPos) (block : Block String) :
    ActsAt (setText pos block) pos := by
  rw [setText_eq]
  exact actsAt_blockLine pos _

theorem actsAt_clearText (pos : BlockPos) : ActsAt (clearText pos) pos := by
  rw [clearText_eq]
  exact actsAt_blockLine pos _

/-! ## Commands of a layout -/

variable {l : Layout} {placed : List (BlockPos × Block String)}

theorem setCommands?_eq_none_iff : l.setCommands? = none ↔ ¬ l.Fits :=
  Option.map_eq_none_iff.trans positions?_eq_none_iff

theorem clearCommands?_eq_none_iff : l.clearCommands? = none ↔ ¬ l.Fits :=
  Option.map_eq_none_iff.trans positions?_eq_none_iff

/-- Whatever is set or cleared is a block that was placed. -/
theorem exists_actsAt {command : String}
    (h : command ∈ (placed.map fun e => setText e.1 e.2) ++ placed.map fun e => clearText e.1) :
    ∃ e ∈ placed, ActsAt command e.1 := by
  rcases List.mem_append.mp h with h | h
  · obtain ⟨e, he, rfl⟩ := List.mem_map.mp h
    exact ⟨e, he, actsAt_setText e.1 e.2⟩
  · obtain ⟨e, he, rfl⟩ := List.mem_map.mp h
    exact ⟨e, he, actsAt_clearText e.1⟩

/-- Numbers of lines and blocks can be kept in 32 bits: they do not wrap around. -/
theorem PlaceOf.offset32 {origin pos : BlockPos} {k m : Nat} (h : PlaceOf origin k m pos)
    (hk : k + 1 < 0x80000000) (hm : m < 0x80000000) :
    origin.offset? (Int32.ofNat m).toInt 0 (Int32.ofNat k + 1).toInt = some pos := by
  have hcolumn : (Int32.ofNat m).toInt = m := Int32.toInt_ofNat_of_lt hm
  have hrow : (Int32.ofNat k + 1).toInt = k + 1 := by
    have hsum : Int32.ofNat (k + 1) = Int32.ofNat k + 1 := Int32.ofNat_add k 1
    rw [← hsum, Int32.toInt_ofNat_of_lt hk]
    rfl
  rw [hcolumn, hrow]
  exact placeOf_iff.mpr h

/-- **Blocks are laid out apart.** Take a layout whose lines and blocks can be counted in 32 bits.
Setting its blocks fails exactly if clearing them does, and exactly if the last block of some line
or the line itself is out of range. Otherwise there is one command of each kind for each block. The
commands number `i` of the two kinds act at the same position, and different numbers at different
positions, none of which is the origin: all of them have its height and lie beyond it. They come
line by line and block by block, where the block number `m` of the line number `k` is `m` steps
along and `k + 1` steps beside the origin, counted in 32 bits. -/
theorem blocks_laid_out (l : Layout) (hlines : l.lines.length < 0x7fffffff)
    (hblocks : ∀ line ∈ l.lines, line.length < 0x80000000) :
    (l.setCommands? = none ↔ l.clearCommands? = none) ∧
    (l.setCommands? = none ↔ ∃ (k : Nat) (line : List (Block String)),
      l.lines[k]? = some line ∧ line ≠ [] ∧
      (l.origin.x.val + line.length - 1 > 0x7fffffff ∨ l.origin.z.val + k + 1 > 0x7fffffff)) ∧
    ∀ up down, l.setCommands? = some up → l.clearCommands? = some down →
      ∃ sites : List BlockPos,
        up.length = l.blocks.length ∧ down.length = l.blocks.length ∧
        sites.length = l.blocks.length ∧
        (∀ (i : Nat) set clear, up[i]? = some set → down[i]? = some clear →
          ∃ pos, sites[i]? = some pos ∧ ActsAt set pos ∧ ActsAt clear pos) ∧
        sites.Nodup ∧
        (∀ pos ∈ sites, pos.y = l.origin.y ∧ l.origin.z.val < pos.z.val) ∧
        (∀ command ∈ up ++ down, ¬ ActsAt command l.origin) ∧
        ∀ (k m : Nat) row block, l.lines[k]? = some row → row[m]? = some block →
          ∃ pos, l.origin.offset? (Int32.ofNat m).toInt 0 (Int32.ofNat k + 1).toInt = some pos ∧
            sites[(l.lines.take k).flatten.length + m]? = some pos ∧
            up[(l.lines.take k).flatten.length + m]? = some (setText pos block) ∧
            down[(l.lines.take k).flatten.length + m]? = some (clearText pos) := by
  refine ⟨setCommands?_eq_none_iff.trans clearCommands?_eq_none_iff.symm,
    setCommands?_eq_none_iff.trans not_fits_iff, fun up down hup hdown => ?_⟩
  obtain ⟨placed, hplaced, rfl⟩ := Option.map_eq_some_iff.mp hup
  obtain ⟨placed', hplaced', rfl⟩ := Option.map_eq_some_iff.mp hdown
  rw [hplaced] at hplaced'
  cases hplaced'
  have h := rows?_placed hplaced
  have hlength : placed.length = l.blocks.length := by
    rw [blocks, ← h.blocks, List.length_map]
  refine ⟨placed.map Prod.fst, by rw [List.length_map, hlength], by rw [List.length_map, hlength],
    by rw [List.length_map, hlength], ?_, h.nodup, ?_, ?_, ?_⟩
  · intro i set clear hset hclear
    rw [List.getElem?_map] at hset hclear
    obtain ⟨e, he, rfl⟩ := Option.map_eq_some_iff.mp hset
    rw [he] at hclear
    cases hclear
    exact ⟨e.1, by rw [List.getElem?_map, he]; rfl, actsAt_setText e.1 e.2, actsAt_clearText e.1⟩
  · intro pos hpos
    obtain ⟨e, he, rfl⟩ := List.mem_map.mp hpos
    exact h.beyond e he
  · intro command hcommand horigin
    obtain ⟨e, he, hacts⟩ := exists_actsAt hcommand
    have hz := (h.beyond e he).2
    rw [hacts.unique horigin] at hz
    omega
  · intro k m row block hl hm
    obtain ⟨pos, he, hplace⟩ := h.place k m row block hl hm
    rw [Nat.zero_add] at hplace
    have hk : k < l.lines.length := (List.getElem?_eq_some_iff.mp hl).1
    have hm : m < row.length := (List.getElem?_eq_some_iff.mp hm).1
    have hrow := hblocks row (List.mem_of_getElem? hl)
    refine ⟨pos, hplace.offset32 (by omega) (by omega), ?_, ?_, ?_⟩ <;>
      rw [List.getElem?_map, he] <;> rfl

/-- The last block that fits in both directions, with an empty line behind it that does not; a block
in that line is refused. -/
theorem blocks_laid_out_frontier :
    ∃ l l' : Layout, l.lines = [[⟨"say a", false, .impulse⟩], [],
        [⟨"say b", true, .chain⟩, ⟨"say c", false, .repeating⟩], []] ∧
      (∃ up down, l.setCommands? = some up ∧ l.clearCommands? = some down ∧ up.length = 3 ∧
        down[2]? = some "setblock 2147483647 4 2147483647 minecraft:air" ∧
        ∀ command ∈ up ++ down, ¬ ActsAt command l.origin) ∧
      l' = { l with lines := l.lines.take 3 ++ [[⟨"say d", false, .impulse⟩]] } ∧
      l'.setCommands? = none := by
  let l : Layout := {
    origin := ⟨⟨0x7ffffffe, by decide⟩, ⟨4, by decide⟩, ⟨0x7ffffffc, by decide⟩⟩
    lines := [[⟨"say a", false, .impulse⟩], [],
      [⟨"say b", true, .chain⟩, ⟨"say c", false, .repeating⟩], []] }
  let l' : Layout := { l with lines := l.lines.take 3 ++ [[⟨"say d", false, .impulse⟩]] }
  obtain ⟨-, -, hsites⟩ := blocks_laid_out l (by decide) (by decide)
  obtain ⟨-, hfails, -⟩ := blocks_laid_out l' (by decide) (by decide)
  have hup : l.setCommands?.isSome = true := by decide +kernel
  have hdown : l.clearCommands? = some ["setblock 2147483646 4 2147483645 minecraft:air",
      "setblock 2147483646 4 2147483647 minecraft:air",
      "setblock 2147483647 4 2147483647 minecraft:air"] := by decide +kernel
  obtain ⟨up, hup⟩ := Option.isSome_iff_exists.mp hup
  obtain ⟨sites, hlength, -, -, -, -, -, horigin, -⟩ := hsites up _ hup hdown
  exact ⟨l, l', rfl, ⟨up, _, hup, hdown, hlength, rfl, horigin⟩, rfl,
    hfails.mpr ⟨3, _, rfl, by decide, .inr (by decide)⟩⟩

end Layout

end Datapack
