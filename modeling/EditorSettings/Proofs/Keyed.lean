/-
# What ordered collections hold, and in which order

A collection is known by two things: what it holds under each key (`find?`), and the order of its
keys (`keys`).  `insert` and `add` are described by these two alone, and so are whole lists of
values put in one after the other:

* `insertAll` overwrites: under a key stands the last value that has it (`find?_insertAll`);
* `addAll` fills in: what is there stays (`find?_addAll`);
* both append the keys that are new, in the order in which they first come (`keys_insertAll`,
  `keys_addAll`), and `adjoinAll` is associative, so that it does not matter whether a list is
  put in directly or collected first (`adjoinAll_adjoinAll`).
-/
import EditorSettings.Keyed
import Mathlib.Data.List.Induction
import Mathlib.Data.List.Nodup
import Mathlib.Logic.Function.Basic

namespace EditorSettings

variable {α : Type} {key : α → String}

/-! ## 1. Names in the order in which they first come -/

/-- The names with one more, unless it is there already. -/
def adjoin (names : List String) (n : String) : List String :=
  if n ∈ names then names else names ++ [n]

/-- The names with those of a second list that are new. -/
def adjoinAll (names more : List String) : List String := more.foldl adjoin names

@[simp] theorem adjoinAll_nil (names : List String) : adjoinAll names [] = names := rfl

theorem adjoinAll_append (names a b : List String) :
    adjoinAll names (a ++ b) = adjoinAll (adjoinAll names a) b := List.foldl_append

theorem adjoinAll_concat (names more : List String) (n : String) :
    adjoinAll names (more ++ [n]) = adjoin (adjoinAll names more) n := by
  simp [adjoinAll]

theorem mem_adjoin {names : List String} {n k : String} :
    k ∈ adjoin names n ↔ k ∈ names ∨ k = n := by
  unfold adjoin
  split
  · rename_i h
    constructor
    · exact Or.inl
    · rintro (hk | rfl)
      · exact hk
      · exact h
  · simp

theorem mem_adjoinAll {more : List String} :
    ∀ {names : List String} {k : String}, k ∈ adjoinAll names more ↔ k ∈ names ∨ k ∈ more := by
  induction more with
  | nil => simp
  | cons n rest ih =>
    intro names k
    rw [adjoinAll, List.foldl_cons, ← adjoinAll, ih, mem_adjoin, List.mem_cons, or_assoc]

/-- A list of names may be collected before it is adjoined. -/
theorem adjoinAll_adjoinAll (names a b : List String) :
    adjoinAll names (adjoinAll a b) = adjoinAll (adjoinAll names a) b := by
  induction b using List.reverseRecOn with
  | nil => rfl
  | append_singleton b n ih =>
    rw [adjoinAll_concat, adjoinAll_concat, ← ih]
    by_cases h : n ∈ adjoinAll a b
    · have h' : n ∈ adjoinAll names (adjoinAll a b) := mem_adjoinAll.mpr (Or.inr h)
      rw [adjoin, if_pos h, adjoin, if_pos h']
    · rw [adjoin, if_neg h, adjoinAll_concat]

/-- What is adjoined is the new names without their repetitions. -/
theorem adjoinAll_eq_append (more : List String) :
    ∀ names, adjoinAll names more = names ++ (more.removeAll names).eraseDups := by
  induction more with
  | nil => intro names; simp [List.removeAll]
  | cons n rest ih =>
    intro names
    rw [adjoinAll, List.foldl_cons, ← adjoinAll, ih]
    by_cases h : n ∈ names
    · simp [adjoin, h, List.removeAll]
    · have hswap : ∀ b : String,
          (!(decide (b ∈ names)) && !(decide (b = n))) = (!(b == n) && !(decide (b ∈ names))) := by
        intro b
        rw [Bool.and_comm, beq_eq_decide]
      simp [adjoin, h, List.removeAll, List.eraseDups_cons, List.filter_filter, hswap]

theorem adjoinAll_nil_left (names : List String) : adjoinAll [] names = names.eraseDups := by
  rw [adjoinAll_eq_append, List.nil_append, List.removeAll,
    List.filter_eq_self.mpr (by simp)]

/-! ## 2. One value -/

namespace Keyed

/-- The keys, in order. -/
def keys (m : Keyed α key) : List String := m.toList.map key

@[simp] theorem keys_empty : (empty : Keyed α key).keys = [] := rfl

@[simp] theorem find?_empty (k : String) : (empty : Keyed α key).find? k = none := rfl

theorem ext {m n : Keyed α key} (h : m.toList = n.toList) : m = n := by
  cases m
  cases n
  cases h
  rfl

theorem find?_eq_none_iff {m : Keyed α key} {k : String} : m.find? k = none ↔ k ∉ m.keys := by
  simp only [find?, keys, List.find?_eq_none, List.mem_map, beq_iff_eq, not_exists, not_and]

theorem find?_isSome_iff {m : Keyed α key} {k : String} :
    (m.find? k).isSome = true ↔ k ∈ m.keys := by
  rw [← Option.ne_none_iff_isSome, ne_eq, find?_eq_none_iff, not_not]

theorem key_of_find? {m : Keyed α key} {k : String} {x : α} (h : m.find? k = some x) :
    key x = k := by
  simpa using List.find?_some h

/-- Every value stands under its key. -/
theorem find?_of_mem {m : Keyed α key} {x : α} (h : x ∈ m.toList) : m.find? (key x) = some x := by
  obtain ⟨y, hy⟩ := Option.isSome_iff_exists.mp
    (find?_isSome_iff.mpr (List.mem_map_of_mem h : key x ∈ m.keys))
  have hsame : y = x :=
    List.inj_on_of_nodup_map m.nodup (List.mem_of_find?_eq_some hy) h (key_of_find? hy)
  rw [hy, hsame]

theorem keys_insert (m : Keyed α key) (x : α) : (m.insert x).keys = adjoin m.keys (key x) :=
  map_replaceOrAppend x m.toList

theorem keys_add (m : Keyed α key) (x : α) : (m.add x).keys = adjoin m.keys (key x) := by
  by_cases h : key x ∈ m.toList.map key
  · rw [keys, toList_add, if_pos h, keys, adjoin, if_pos h]
  · rw [keys, toList_add, if_neg h, keys, adjoin, if_neg h, List.map_append, List.map_singleton]

theorem find?_replaceOrAppend (x : α) (l : List α) (k : String) :
    (replaceOrAppend key x l).find? (key · == k) =
      if key x = k then some x else l.find? (key · == k) := by
  induction l with
  | nil => by_cases h : key x = k <;> simp [replaceOrAppend, h]
  | cons y rest ih =>
    by_cases hy : key y = key x
    · by_cases h : key x = k <;> simp [replaceOrAppend, hy, h]
    · rw [replaceOrAppend, if_neg hy, List.find?_cons, List.find?_cons, ih]
      by_cases h : key x = k
      · have hne : (key y == k) = false := beq_eq_false_iff_ne.mpr fun e => hy (e.trans h.symm)
        simp [hne, h]
      · simp [h]

/-- The inserted value stands under its key, and nothing else changes. -/
theorem find?_insert (m : Keyed α key) (x : α) :
    (m.insert x).find? = Function.update m.find? (key x) (some x) := by
  funext k
  rw [Function.update_apply]
  simp only [find?, toList_insert, find?_replaceOrAppend, @eq_comm _ k]

/-- A value is only added where there is none. -/
theorem find?_add (m : Keyed α key) (x : α) (k : String) :
    (m.add x).find? k = (m.find? k).or (if key x = k then some x else none) := by
  simp only [find?, toList_add]
  split
  · rename_i hmem
    by_cases h : key x = k
    · have hs : (m.find? k).isSome = true := find?_isSome_iff.mpr (h ▸ hmem)
      obtain ⟨y, hy⟩ := Option.isSome_iff_exists.mp hs
      rw [find?] at hy
      simp [hy]
    · simp [h]
  · by_cases h : key x = k <;> simp [List.find?_append, h]

theorem mem_of_mem_replaceOrAppend {x y : α} {l : List α} (h : y ∈ replaceOrAppend key x l) :
    y ∈ l ∨ y = x := by
  induction l with
  | nil => exact Or.inr (List.mem_singleton.mp h)
  | cons z rest ih =>
    unfold replaceOrAppend at h
    split at h
    · rcases List.mem_cons.mp h with rfl | h
      · exact Or.inr rfl
      · exact Or.inl (List.mem_cons_of_mem _ h)
    · rcases List.mem_cons.mp h with rfl | h
      · exact Or.inl List.mem_cons_self
      · rcases ih h with h | h
        · exact Or.inl (List.mem_cons_of_mem _ h)
        · exact Or.inr h

/-- What holds of all values still holds with one more of which it holds. -/
theorem forall_mem_insert {p : α → Prop} {m : Keyed α key} {x : α} (h : ∀ y ∈ m.toList, p y)
    (hx : p x) : ∀ y ∈ (m.insert x).toList, p y := by
  intro y hy
  rcases mem_of_mem_replaceOrAppend hy with hy | rfl
  · exact h y hy
  · exact hx

theorem replaceOrAppend_of_not_mem {x : α} {l : List α} (h : key x ∉ l.map key) :
    replaceOrAppend key x l = l ++ [x] := by
  induction l with
  | nil => rfl
  | cons y rest ih =>
    rw [List.map_cons, List.mem_cons, not_or] at h
    rw [replaceOrAppend, if_neg (Ne.symm h.1), ih h.2, List.cons_append]

/-- In a list where it has a value with its key, the new value takes the place of that one. -/
theorem replaceOrAppend_of_mem {x : α} {l : List α} (hnodup : (l.map key).Nodup)
    (h : key x ∈ l.map key) :
    replaceOrAppend key x l = l.map fun y => if key y = key x then x else y := by
  induction l with
  | nil => cases h
  | cons y rest ih =>
    obtain ⟨hy, hrest⟩ := List.nodup_cons.mp hnodup
    by_cases hx : key y = key x
    · have hsame : rest.map (fun y => if key y = key x then x else y) = rest := by
        refine (List.map_congr_left fun z hz => if_neg fun hzx => ?_).trans (List.map_id' rest)
        exact hy (hx ▸ hzx ▸ List.mem_map_of_mem hz)
      rw [replaceOrAppend, if_pos hx, List.map_cons, if_pos hx, hsame]
    · have hmem : key x ∈ rest.map key := (List.mem_cons.mp h).resolve_left (Ne.symm hx)
      rw [replaceOrAppend, if_neg hx, List.map_cons, if_neg hx, ih hrest hmem]

theorem replaceOrAppend_replaceOrAppend {x y : α} (h : key x = key y) (l : List α) :
    replaceOrAppend key y (replaceOrAppend key x l) = replaceOrAppend key y l := by
  induction l with
  | nil => simp [replaceOrAppend, h]
  | cons z rest ih =>
    by_cases hz : key z = key x
    · simp [replaceOrAppend, hz, h]
    · have hz' : key z ≠ key y := fun e => hz (e.trans h.symm)
      simp [replaceOrAppend, hz, hz', ih]

/-- A value with a new key comes behind the others. -/
theorem toList_insert_of_find?_eq_none {m : Keyed α key} {x : α} (h : m.find? (key x) = none) :
    (m.insert x).toList = m.toList ++ [x] :=
  replaceOrAppend_of_not_mem (find?_eq_none_iff.mp h)

/-- A value whose key is there takes the place of the old one. -/
theorem toList_insert_of_isSome {m : Keyed α key} {x : α} (h : (m.find? (key x)).isSome = true) :
    (m.insert x).toList = m.toList.map fun y => if key y = key x then x else y :=
  replaceOrAppend_of_mem m.nodup (find?_isSome_iff.mp h)

/-- A value that is there already may be inserted again. -/
theorem insert_of_find? {m : Keyed α key} {x : α} (h : m.find? (key x) = some x) :
    m.insert x = m := by
  refine ext ((toList_insert_of_isSome (Option.isSome_of_eq_some h)).trans ?_)
  refine (List.map_congr_left fun y hy => ?_).trans (List.map_id' m.toList)
  split
  · rename_i hkey
    exact Option.some.inj (by rw [← h, ← hkey, find?_of_mem hy])
  · rfl

/-- Of two values with one key, the second one is left. -/
theorem insert_insert (m : Keyed α key) {x y : α} (h : key x = key y) :
    (m.insert x).insert y = m.insert y :=
  ext (replaceOrAppend_replaceOrAppend h m.toList)

/-! ## 3. Lists of values -/

/-- What stands under each key after the values have been written over `f`, in order. -/
def overwrite (key : α → String) (f : String → Option α) (xs : List α) : String → Option α :=
  xs.foldl (fun f x => Function.update f (key x) (some x)) f

theorem overwrite_append (f : String → Option α) (xs ys : List α) :
    overwrite key f (xs ++ ys) = overwrite key (overwrite key f xs) ys := List.foldl_append

/-- Where the values say nothing, what was there before is seen. -/
theorem overwrite_eq_or (xs : List α) :
    ∀ (f : String → Option α) (k : String),
      overwrite key f xs k = (overwrite key (fun _ => none) xs k).or (f k) := by
  induction xs using List.reverseRecOn with
  | nil => intro f k; rfl
  | append_singleton xs x ih =>
    intro f k
    rw [overwrite_append, overwrite_append]
    simp only [overwrite, List.foldl_cons, List.foldl_nil, Function.update_apply]
    by_cases h : k = key x
    · simp [h]
    · simpa [h, overwrite] using ih f k

theorem find?_insertAll (xs : List α) :
    ∀ m : Keyed α key, (m.insertAll xs).find? = overwrite key m.find? xs := by
  induction xs with
  | nil => intro m; rfl
  | cons x rest ih =>
    intro m
    rw [insertAll, List.foldl_cons, ← insertAll, ih, find?_insert]
    rfl

/-- Written into an empty collection, the last value with a key stands under it. -/
theorem find?_insertAll_empty (xs : List α) (k : String) :
    ((empty : Keyed α key).insertAll xs).find? k = (xs.filter (key · == k)).getLast? := by
  induction xs using List.reverseRecOn with
  | nil => rfl
  | append_singleton xs x ih =>
    have hlast : (empty : Keyed α key).insertAll (xs ++ [x]) =
        ((empty : Keyed α key).insertAll xs).insert x := List.foldl_append
    rw [hlast, find?_insert, Function.update_apply, ih, List.filter_append]
    by_cases h : k = key x
    · simp [h]
    · simp [h, Ne.symm h]

theorem forall_mem_insertAll {p : α → Prop} {xs : List α} :
    ∀ {m : Keyed α key}, (∀ y ∈ m.toList, p y) → (∀ x ∈ xs, p x) →
      ∀ y ∈ (m.insertAll xs).toList, p y := by
  induction xs with
  | nil => intro m h _; exact h
  | cons x rest ih =>
    intro m h hxs
    exact ih (forall_mem_insert h (hxs x List.mem_cons_self))
      fun y hy => hxs y (List.mem_cons_of_mem _ hy)

/-- A collection is its values, inserted in order. -/
theorem insertAll_toList (m : Keyed α key) : empty.insertAll m.toList = m := by
  have happend : ∀ (xs : List α) (n : Keyed α key),
      ((n.toList ++ xs).map key).Nodup → (n.insertAll xs).toList = n.toList ++ xs := by
    intro xs
    induction xs with
    | nil => intro n _; rw [List.append_nil]; rfl
    | cons x rest ih =>
      intro n hn
      have hnew : key x ∉ n.keys := by
        rw [List.map_append, List.map_cons] at hn
        exact fun hx => (List.nodup_append.mp hn).2.2 _ hx _ List.mem_cons_self rfl
      have hinsert : (n.insert x).toList = n.toList ++ [x] := replaceOrAppend_of_not_mem hnew
      rw [insertAll, List.foldl_cons, ← insertAll, ih, hinsert, List.append_assoc,
        List.singleton_append]
      rw [hinsert, List.append_assoc, List.singleton_append]
      exact hn
  exact ext (happend m.toList empty m.nodup)

theorem keys_insertAll (xs : List α) :
    ∀ m : Keyed α key, (m.insertAll xs).keys = adjoinAll m.keys (xs.map key) := by
  induction xs with
  | nil => intro m; rfl
  | cons x rest ih =>
    intro m
    rw [insertAll, List.foldl_cons, ← insertAll, ih, keys_insert]
    rfl

theorem insertAll_append (m : Keyed α key) (xs ys : List α) :
    m.insertAll (xs ++ ys) = (m.insertAll xs).insertAll ys := List.foldl_append

theorem find?_addAll (xs : List α) :
    ∀ (m : Keyed α key) (k : String),
      (m.addAll xs).find? k = (m.find? k).or (xs.find? (key · == k)) := by
  induction xs with
  | nil => intro m k; simp [addAll]
  | cons x rest ih =>
    intro m k
    rw [addAll, List.foldl_cons, ← addAll, ih, find?_add, Option.or_assoc]
    by_cases h : key x = k <;> simp [h]

theorem forall_mem_addAll {p : α → Prop} {xs : List α} :
    ∀ {m : Keyed α key}, (∀ y ∈ m.toList, p y) → (∀ x ∈ xs, p x) →
      ∀ y ∈ (m.addAll xs).toList, p y := by
  induction xs with
  | nil => intro m h _; exact h
  | cons x rest ih =>
    intro m h hxs
    refine ih ?_ fun y hy => hxs y (List.mem_cons_of_mem _ hy)
    intro y hy
    rw [toList_add] at hy
    split at hy
    · exact h y hy
    · rcases List.mem_append.mp hy with hy | hy
      · exact h y hy
      · exact List.mem_singleton.mp hy ▸ hxs x List.mem_cons_self

/-- **What is there stays in its place**, and values are only added behind it. -/
theorem prefix_addAll (m : Keyed α key) (xs : List α) : m.toList <+: (m.addAll xs).toList := by
  induction xs generalizing m with
  | nil => exact List.prefix_rfl
  | cons x rest ih =>
    refine List.IsPrefix.trans ?_ (ih (m.add x))
    rw [toList_add]
    split
    · exact List.prefix_rfl
    · exact List.prefix_append _ _

theorem keys_addAll (xs : List α) :
    ∀ m : Keyed α key, (m.addAll xs).keys = adjoinAll m.keys (xs.map key) := by
  induction xs with
  | nil => intro m; rfl
  | cons x rest ih =>
    intro m
    rw [addAll, List.foldl_cons, ← addAll, ih, keys_add]
    rfl

end Keyed
end EditorSettings
