import Mathlib.Data.List.TakeWhile
import Datapack.Text.Split

/-!
# Texts that can be taken apart again

A text that was put together from parts is known by its parts when it can be
cut at a mark that they do not hold.

**The first separator.** `splitFirst?_append`: a text is cut where its first part
ends, if that part does not hold the separator. So two such texts are equal only
part by part (`append_inj_of_notMem`).

**Every separator.** `splitOn` is the split of the library (`splitOn_eq`), so it and
`joinWith` undo each other on pieces that do not hold the separator; the pieces of
a text are such (`notMem_of_mem_splitOn`).

**The last mark.** `behindLast_lastChars`: what stands behind the last mark of a
text survives the cut of `lastChars` when it is at most as long as what is kept.
If it is shorter, the mark in front of it survives as well; if not, no mark is
left, and what is left is it.

**Numbers.** The digits of a number tell it apart from others, in hexadecimals and
in decimals (`toDigits_injective`), and so does its text (`toString_injective`),
which holds no blank. A number of 64 bits has at most sixteen hexadecimal digits.
-/
namespace Datapack

namespace Text

/-! ## Cutting at the first separator -/

variable {sep : Char}

theorem splitFirst?_of_notMem {text : String} (h : sep ∉ text.toList) :
    splitFirst? sep text = none := by
  have hdrop : text.toList.dropWhile (· ≠ sep) = [] := by
    rw [List.dropWhile_eq_nil_iff]
    intro c hc
    exact decide_eq_true fun e => h (e ▸ hc)
  unfold splitFirst?
  rw [hdrop]

theorem splitFirst?_append {a b : String} (h : sep ∉ a.toList) :
    splitFirst? sep (a ++ String.singleton sep ++ b) = some (a, b) := by
  have hall : ∀ c ∈ a.toList, decide (c ≠ sep) = true :=
    fun c hc => decide_eq_true fun e => h (e ▸ hc)
  have htext : (a ++ String.singleton sep ++ b).toList = a.toList ++ sep :: b.toList := by simp
  unfold splitFirst?
  rw [htext, List.dropWhile_append_of_pos hall, List.takeWhile_append_of_pos hall]
  simp

/-- A text with a separator is cut at the first one. -/
theorem exists_split_of_mem {text : String} (h : sep ∈ text.toList) :
    ∃ a b : String, sep ∉ a.toList ∧ text = a ++ String.singleton sep ++ b := by
  obtain ⟨as, bs, htext, has⟩ := List.eq_append_cons_of_mem h
  refine ⟨String.ofList as, String.ofList bs, by simpa using has, ?_⟩
  apply String.toList_inj.mp
  simp [htext]

theorem append_inj_of_notMem {a a' b b' : String} (h : sep ∉ a.toList) (h' : sep ∉ a'.toList)
    (he : a ++ String.singleton sep ++ b = a' ++ String.singleton sep ++ b') :
    a = a' ∧ b = b' := by
  have hsplit := splitFirst?_append (b := b) h
  rw [he, splitFirst?_append h'] at hsplit
  cases hsplit
  exact ⟨rfl, rfl⟩

/-! ## Cutting at every separator -/

theorem splitOn_eq (sep : Char) (cs : List Char) : splitOn sep cs = cs.splitOn sep := by
  induction cs with
  | nil => rfl
  | cons c cs ih =>
    rw [splitOn, List.splitOn_cons_eq_if_modifyHead, ih]
    obtain ⟨piece, pieces, h⟩ := List.exists_cons_of_ne_nil (List.splitOn_ne_nil sep cs)
    rw [h]
    by_cases hc : c = sep <;> simp [hc, consFirst]

theorem splitOn_ne_nil (sep : Char) (cs : List Char) : splitOn sep cs ≠ [] := by
  rw [splitOn_eq]
  exact List.splitOn_ne_nil sep cs

theorem joinWith_splitOn (sep : Char) (cs : List Char) : joinWith sep (splitOn sep cs) = cs := by
  rw [splitOn_eq, joinWith, List.intercalate_splitOn]

theorem splitOn_joinWith {pieces : List (List Char)}
    (hpieces : ∀ piece ∈ pieces, sep ∉ piece) (hne : pieces ≠ []) :
    splitOn sep (joinWith sep pieces) = pieces := by
  rw [splitOn_eq, joinWith, List.splitOn_intercalate sep hpieces hne]

theorem notMem_of_mem_splitOn {cs : List Char} :
    ∀ piece ∈ splitOn sep cs, sep ∉ piece := by
  induction cs with
  | nil => simp [splitOn]
  | cons c cs ih =>
    rw [splitOn]
    split
    · exact List.forall_mem_cons.mpr ⟨List.not_mem_nil, ih⟩
    · rename_i hc
      cases h : splitOn sep cs with
      | nil => simpa [consFirst] using Ne.symm hc
      | cons piece pieces =>
        rw [h, List.forall_mem_cons] at ih
        refine List.forall_mem_cons.mpr ⟨?_, ih.2⟩
        exact fun hmem => (List.mem_cons.mp hmem).elim (fun e => hc e.symm) ih.1

/-! ## Keeping the end -/

theorem lastChars_isSuffix (n : Nat) (text : String) :
    (lastChars n text).toList <:+ text.toList := by
  rw [lastChars, String.toList_ofList]
  exact List.drop_suffix _ _

theorem length_lastChars_eq (n : Nat) (text : String) :
    (lastChars n text).length = min n text.length := by
  rw [lastChars, String.length_ofList, List.length_drop, String.length_toList]
  omega

theorem length_lastChars (n : Nat) (text : String) : (lastChars n text).length ≤ n := by
  rw [length_lastChars_eq]
  exact Nat.min_le_left _ _

/-- The characters behind the last `mark`, or all of them if there is none. -/
def behindLast (mark : Char) (cs : List Char) : List Char :=
  (cs.reverse.takeWhile (· ≠ mark)).reverse

theorem behindLast_lastChars {mark : Char} {text : String} {front back : List Char} {n : Nat}
    (htext : text.toList = front ++ mark :: back) (hmark : mark ∉ back) (hn : back.length ≤ n) :
    behindLast mark (lastChars n text).toList = back := by
  have hkept : (lastChars n text).toList.reverse =
      back.reverse ++ (mark :: front.reverse).take (n - back.length) := by
    rw [lastChars, String.toList_ofList, ← List.take_reverse, htext, List.reverse_append,
      List.reverse_cons, List.append_assoc, List.take_append, List.length_reverse,
      List.take_of_length_le (by rw [List.length_reverse]; exact hn)]
    rfl
  -- Read from the end, the mark comes next, or nothing.
  have hrest : ((mark :: front.reverse).take (n - back.length)).takeWhile (· ≠ mark) = [] := by
    cases n - back.length <;> simp
  unfold behindLast
  rw [hkept, List.takeWhile_append_of_pos, hrest, List.append_nil, List.reverse_reverse]
  intro c hc
  have : c ≠ mark := fun e => hmark (e ▸ List.mem_reverse.mp hc)
  simpa using this

/-! ## Numbers -/

theorem digitChar_injective : ∀ d < 16, ∀ e < 16, Nat.digitChar d = Nat.digitChar e → d = e := by
  decide

theorem toDigits_injective {b m n : Nat} (hb : 1 < b) (hb' : b ≤ 16)
    (h : Nat.toDigits b m = Nat.toDigits b n) : m = n := by
  induction m using Nat.strongRecOn generalizing n with
  | ind m ih =>
    rw [Nat.toDigits_eq_if hb, Nat.toDigits_eq_if (n := n) hb] at h
    split at h <;> split at h
    · rename_i hm hn
      exact digitChar_injective m (by omega) n (by omega) (List.head_eq_of_cons_eq h)
    · -- One digit against two or more.
      have hlength := congrArg List.length h
      simp at hlength
    · have hlength := congrArg List.length h
      simp at hlength
    · obtain ⟨hfront, hlast⟩ := List.append_inj' h rfl
      have hquotient := ih (m / b) (Nat.div_lt_self (by omega) hb) hfront
      have hdigit : ∀ k, k % b < 16 := fun k => (Nat.mod_lt k (by omega)).trans_le hb'
      have hremainder := digitChar_injective (m % b) (hdigit m) (n % b) (hdigit n)
        (List.head_eq_of_cons_eq hlast)
      rw [← Nat.div_add_mod m b, ← Nat.div_add_mod n b, hquotient, hremainder]

theorem mark_not_mem_toDigits (n : Nat) : 'x' ∉ Nat.toDigits 16 n := by
  induction n using Nat.strongRecOn with
  | ind n ih =>
    have hdigit : ∀ d : Nat, 'x' ≠ Nat.digitChar d := fun d => (Nat.digitChar_ne 'x' rfl).symm
    rw [Nat.toDigits_eq_if (by decide)]
    split
    · simp [hdigit]
    · have := ih (n / 16) (by omega)
      simp [hdigit, this]

theorem length_toDigits_le (n : UInt64) : (Nat.toDigits 16 n.toNat).length ≤ 16 := by
  rw [Nat.length_toDigits_le_iff (by decide) (by decide)]
  exact n.toNat_lt

theorem notMem_decimal {c : Char} (hc : c.isDigit = false) (n : Nat) : c ∉ Nat.toDigits 10 n := by
  intro h
  rw [Nat.isDigit_of_mem_toDigits (by decide) (by decide) h] at hc
  cases hc

theorem toList_toString (n : Int) : (toString n).toList =
    if 0 ≤ n then Nat.toDigits 10 n.toNat else '-' :: Nat.toDigits 10 (-n).toNat := by
  rw [Int.toString_eq_repr, Int.repr_eq_if]
  split <;> simp [Nat.repr_eq_ofList_toDigits]

theorem blank_not_mem_toString (n : Int) : ' ' ∉ (toString n).toList := by
  rw [toList_toString]
  split <;> simp [notMem_decimal]

theorem toString_injective {m n : Int} (h : toString m = toString n) : m = n := by
  have hsign : ∀ k, '-' ∉ Nat.toDigits 10 k := notMem_decimal rfl
  have hdigits := congrArg String.toList h
  rw [toList_toString, toList_toString] at hdigits
  split at hdigits <;> split at hdigits
  · have := toDigits_injective (by decide) (by decide) hdigits
    omega
  · exact absurd (hdigits ▸ List.mem_cons_self) (hsign m.toNat)
  · exact absurd (hdigits ▸ List.mem_cons_self) (hsign n.toNat)
  · have := toDigits_injective (by decide) (by decide) (List.cons.inj hdigits).2
    omega

end Text

end Datapack
