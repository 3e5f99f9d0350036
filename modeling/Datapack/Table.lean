/-!
# Tables that keep the order of insertion

A table maps keys to values. A new key goes to the end; a key that is set again keeps its place.
The list view is `entries`, and no key occurs twice in it.
-/
namespace Datapack

variable {κ α : Type} [DecidableEq κ]

namespace Assoc

/-- The first value under a key. -/
def get? (key : κ) : List (κ × α) → Option α
  | [] => none
  | (k, v) :: rest => if k = key then some v else get? key rest

/-- The list with `key` set to `value`, in place if it is there and at the end if not. -/
def put (key : κ) (value : α) : List (κ × α) → List (κ × α)
  | [] => [(key, value)]
  | (k, v) :: rest => if k = key then (k, value) :: rest else (k, v) :: put key value rest

theorem keys_put (key : κ) (value : α) (l : List (κ × α)) :
    (put key value l).map Prod.fst =
      if key ∈ l.map Prod.fst then l.map Prod.fst else l.map Prod.fst ++ [key] := by
  induction l with
  | nil => simp [put]
  | cons entry rest ih =>
    obtain ⟨k, v⟩ := entry
    by_cases h : k = key
    · simp [put, h]
    · have h' : ¬ key = k := fun e => h e.symm
      simp only [put, h, if_false, List.map_cons, ih, List.mem_cons, h', false_or]
      split <;> simp

theorem nodup_put (key : κ) (value : α) {l : List (κ × α)} (h : (l.map Prod.fst).Nodup) :
    ((put key value l).map Prod.fst).Nodup := by
  rw [keys_put]
  split
  · exact h
  · rename_i hk
    rw [List.nodup_append]
    refine ⟨h, by simp, ?_⟩
    intro a ha b hb
    simp only [List.mem_singleton] at hb
    rintro rfl
    exact hk (hb ▸ ha)

end Assoc

/-- A table in the order of first insertion. -/
structure Table (κ α : Type) where
  entries : List (κ × α)
  nodup : (entries.map Prod.fst).Nodup

namespace Table

def empty : Table κ α := ⟨[], by simp⟩

instance : EmptyCollection (Table κ α) := ⟨empty⟩

instance : Inhabited (Table κ α) := ⟨empty⟩

def get? (t : Table κ α) (key : κ) : Option α := Assoc.get? key t.entries

def insert (t : Table κ α) (key : κ) (value : α) : Table κ α :=
  ⟨Assoc.put key value t.entries, Assoc.nodup_put key value t.nodup⟩

/-- Insertion of several entries in order. -/
def insertAll (t : Table κ α) (entries : List (κ × α)) : Table κ α :=
  entries.foldl (fun t (key, value) => t.insert key value) t

def ofList (entries : List (κ × α)) : Table κ α := insertAll empty entries

end Table

end Datapack
