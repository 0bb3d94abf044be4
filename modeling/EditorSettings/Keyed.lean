/-
# Ordered collections with a key

`Keyed α key` is a list of values whose keys differ.  There are two ways to add a value, and
they differ in what they do to one that is already there under the same key:

* `insert` lets the new value win, and it takes the place of the old one;
* `add` lets the old value win.

Both put a value with a new key at the end (`toList_insert`, `toList_add`).
-/

namespace EditorSettings

variable {α : Type} {key : α → String}

/-! ## 1. Replacing in a list -/

/-- Put `x` in the place of the value with its key, or at the end. -/
def replaceOrAppend (key : α → String) (x : α) : List α → List α
  | [] => [x]
  | y :: rest => if key y = key x then x :: rest else y :: replaceOrAppend key x rest

theorem map_replaceOrAppend (x : α) (l : List α) :
    (replaceOrAppend key x l).map key =
      if key x ∈ l.map key then l.map key else l.map key ++ [key x] := by
  induction l with
  | nil => simp [replaceOrAppend]
  | cons y rest ih =>
    by_cases h : key y = key x
    · simp [replaceOrAppend, h]
    · have h' : ¬ key x = key y := fun e => h e.symm
      simp only [replaceOrAppend, h, if_false, List.map_cons, ih, List.mem_cons, h', false_or]
      split <;> simp

theorem nodup_append_singleton {l : List String} {k : String} (hl : l.Nodup) (hk : k ∉ l) :
    (l ++ [k]).Nodup := by
  rw [List.nodup_append]
  refine ⟨hl, by simp, ?_⟩
  intro a ha b hb e
  exact hk (by simp_all)

/-! ## 2. The collection -/

/-- Values with different keys, in the order in which the keys first came. -/
structure Keyed (α : Type) (key : α → String) where
  toList : List α
  nodup : (toList.map key).Nodup

namespace Keyed

/-- No values. -/
def empty : Keyed α key := ⟨[], by simp⟩

instance : Inhabited (Keyed α key) := ⟨empty⟩

/-- The value under a key. -/
def find? (m : Keyed α key) (k : String) : Option α := m.toList.find? (key · == k)

/-- The number of values. -/
def size (m : Keyed α key) : Nat := m.toList.length

/-- The new value wins, in the old one's place. -/
def insert (m : Keyed α key) (x : α) : Keyed α key where
  toList := replaceOrAppend key x m.toList
  nodup := by
    rw [map_replaceOrAppend]
    split
    · exact m.nodup
    · exact nodup_append_singleton m.nodup ‹_›

/-- The old value wins. -/
def add (m : Keyed α key) (x : α) : Keyed α key :=
  if h : key x ∈ m.toList.map key then m
  else ⟨m.toList ++ [x], by simpa using nodup_append_singleton m.nodup h⟩

/-- Insert all values, in order. -/
def insertAll (m : Keyed α key) (xs : List α) : Keyed α key := xs.foldl insert m

/-- Add all values, in order. -/
def addAll (m : Keyed α key) (xs : List α) : Keyed α key := xs.foldl add m

@[simp] theorem toList_empty : (empty : Keyed α key).toList = [] := rfl

theorem toList_insert (m : Keyed α key) (x : α) :
    (m.insert x).toList = replaceOrAppend key x m.toList := rfl

theorem toList_add (m : Keyed α key) (x : α) :
    (m.add x).toList = if key x ∈ m.toList.map key then m.toList else m.toList ++ [x] := by
  unfold add
  split <;> rfl

end Keyed
end EditorSettings
