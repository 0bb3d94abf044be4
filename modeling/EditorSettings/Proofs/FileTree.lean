/-
# What a path leads to

A tree is followed along a path one name after the other, and each of these steps needs a directory
to step from.  For a path that is made of names, this comes to a statement about the entries alone:
a directory stands under every beginning of the names, and the entry stands under all of them
(`LeadsTo`, `kind_ofNames_eq_ok_iff`).  What is too long for the file system, or has a null
character in it, leads nowhere, even if something stands there.  In a tree where everything lies
in a directory, all other names lead to what stands under them (`leadsTo_iff_of_isClosed`).
-/
import EditorSettings.Proofs.FileSystem
import EditorSettings.Proofs.Path.Normal

namespace EditorSettings.FileTree

open EditorSettings.Path EditorSettings.Text

/-! ## 1. Entries under names -/

/-- What kind of thing an entry is. -/
def Entry.kind : Entry → FileKind
  | directory => .directory
  | file _ => .file

/-- The file system takes a path that is made of these names. -/
structure Admissible (names : List String) : Prop where
  null : '\x00' ∉ (ofNames names).text.toList
  path : (ofNames names).text.utf8ByteSize ≤ maxPath
  name : ∀ s ∈ names, s.utf8ByteSize ≤ maxName

/-- A path made of these names leads to the entry. -/
structure LeadsTo (t : FileTree) (names : List String) (e : Entry) : Prop where
  admissible : Admissible names
  above : ∀ l, l <+: names → l ≠ names → t.entry? l = some .directory
  entry : t.entry? names = some e

/-- Everything lies in a directory. -/
def IsClosed (t : FileTree) : Prop :=
  ∀ names name, (t.entry? (names ++ [name])).isSome = true → t.entry? names = some .directory

variable {t : FileTree} {names : List String} {e : Entry}

/-- Directories stand under all beginnings of the names but the whole, if they do so under the
names without the last one and under all their beginnings. -/
theorem forall_prefix_concat_iff {s : String} :
    (∀ l, l <+: names ++ [s] → l ≠ names ++ [s] → t.entry? l = some .directory) ↔
      (∀ l, l <+: names → l ≠ names → t.entry? l = some .directory) ∧
        t.entry? names = some .directory := by
  constructor
  · intro h
    have hbelow : ∀ l, l <+: names → t.entry? l = some .directory := fun l hl => by
      refine h l (hl.trans (List.prefix_append names [s])) ?_
      rintro rfl
      exact absurd hl.length_le (by simp)
    exact ⟨fun l hl _ => hbelow l hl, hbelow names List.prefix_rfl⟩
  · rintro ⟨h, hdir⟩ l hl hne
    rcases List.prefix_concat_iff.mp hl with hl | hl
    · exact absurd hl hne
    · by_cases heq : l = names
      · rw [heq, hdir]
      · exact h l hl heq

/-- Above what stands in a closed tree are directories. -/
theorem IsClosed.above (ht : t.IsClosed) (h : (t.entry? names).isSome = true) :
    ∀ l, l <+: names → l ≠ names → t.entry? l = some .directory := by
  induction names using List.reverseRecOn with
  | nil => exact fun l hl hne => absurd (List.prefix_nil.mp hl) hne
  | append_singleton names s ih =>
    have hdir := ht names s h
    exact forall_prefix_concat_iff.mpr ⟨ih (by rw [hdir]; rfl), hdir⟩

/-- **In a closed tree, names lead to what stands under them.** -/
theorem leadsTo_iff_of_isClosed (ht : t.IsClosed) (h : Admissible names) :
    t.LeadsTo names e ↔ t.entry? names = some e :=
  ⟨fun hleads => hleads.entry,
    fun hentry => ⟨h, ht.above (Option.isSome_of_eq_some hentry), hentry⟩⟩

/-! ## 2. Following names -/

theorem bind_eq_ok_iff {ε α β : Type} {x : Except ε α} {f : α → Except ε β} {b : β} :
    x >>= f = .ok b ↔ ∃ a, x = .ok a ∧ f a = .ok b := by
  cases x with
  | error err => simp [bind, Except.bind]
  | ok a => simp [bind, Except.bind]

/-- A step along a name needs a directory, and something in it with this name. -/
theorem step_eq_ok_iff {before after : List String} {s : String} (h : IsFileName s) :
    t.step before s.toList = .ok after ↔
      t.entry? before = some .directory ∧ s.utf8ByteSize ≤ maxName ∧
        (t.entry? (before ++ [s])).isSome = true ∧ before ++ [s] = after := by
  have hup : s.toList ≠ ['.', '.'] := by
    intro hs
    have hproper := h.proper
    rw [hs] at hproper
    cases hproper
  unfold step
  cases t.entry? before with
  | none => simp
  | some entry =>
    cases entry with
    | file content => simp
    | directory =>
      simp only [h.not_void, Bool.false_eq_true, if_false, hup, String.ofList_toList, true_and]
      by_cases hlong : maxName < s.utf8ByteSize
      · simp [hlong, Nat.not_le.mpr hlong]
      · by_cases hthere : (t.entry? (before ++ [s])).isSome = true
        · simp [hlong, hthere, Nat.not_lt.mp hlong]
        · simp [hlong, hthere]

/-- **Steps along names.**  The induction is from the last name backward: the step along it is made
from the directory that the other names lead to. -/
theorem foldlM_step_eq_ok_iff {after : List String} (h : ∀ s ∈ names, IsFileName s) :
    (names.map String.toList).foldlM t.step [] = .ok after ↔
      (∀ s ∈ names, s.utf8ByteSize ≤ maxName) ∧
        (∀ l, l <+: names → l ≠ names → t.entry? l = some .directory) ∧
        (t.entry? names).isSome = true ∧ names = after := by
  induction names using List.reverseRecOn generalizing after with
  | nil => simp [pure, Except.pure, entry?]
  | append_singleton names s ih =>
    obtain ⟨hnames, hs⟩ := List.forall_mem_append.mp h
    have hstep : ∀ before, [s.toList].foldlM t.step before = t.step before s.toList := fun before =>
      bind_pure _
    rw [List.map_append, List.foldlM_append, List.map_singleton, bind_eq_ok_iff,
      forall_prefix_concat_iff, List.forall_mem_append]
    simp only [hstep, step_eq_ok_iff (hs s List.mem_cons_self), ih hnames]
    constructor
    · rintro ⟨mid, ⟨hshort, habove, -, rfl⟩, hdir, hlast, hthere, hafter⟩
      exact ⟨⟨hshort, by simpa using hlast⟩, ⟨habove, hdir⟩, hthere, hafter⟩
    · rintro ⟨⟨hshort, hlast⟩, ⟨habove, hdir⟩, hthere, hafter⟩
      exact ⟨names, ⟨hshort, habove, by rw [hdir]; rfl, rfl⟩, hdir, by simpa using hlast, hthere,
        hafter⟩

/-- The pieces of a path made of names are void, for the root, or they are the names. -/
theorem foldlM_pieces_ofNames (h : ∀ s ∈ names, IsFileName s) :
    (pieces '/' (ofNames names).text.toList).foldlM t.step [] =
      (names.map String.toList).foldlM t.step [] := by
  by_cases hne : names = []
  · subst hne
    rfl
  · have hsplit := split_ofNames h hne
    rw [toList_text_ofNames, split, Prod.mk.injEq] at hsplit
    rw [toList_text_ofNames, pieces, if_pos rfl, hsplit.2]
    rfl

/-- **A path made of names is followed exactly if it leads to something.** -/
theorem follow_ofNames_eq_ok_iff {cwd after : List String} (h : ∀ s ∈ names, IsFileName s) :
    t.follow cwd (ofNames names) = .ok after ↔ (∃ e, t.LeadsTo names e) ∧ names = after := by
  have hnonempty : (ofNames names).text.isEmpty = false := by
    rw [String.isEmpty_eq_false_iff, ne_eq, ← String.toList_inj, toList_text_ofNames]
    exact List.cons_ne_nil _ _
  rw [follow, hnonempty, isAbsolute_ofNames, if_pos rfl, foldlM_pieces_ofNames h]
  constructor
  · intro hfollow
    split at hfollow
    · cases hfollow
    · rename_i hnull
      rw [if_neg (by simp)] at hfollow
      split at hfollow
      · cases hfollow
      · rename_i hpath
        obtain ⟨hname, habove, hthere, hafter⟩ := (foldlM_step_eq_ok_iff h).mp hfollow
        obtain ⟨e, he⟩ := Option.isSome_iff_exists.mp hthere
        exact ⟨⟨e, ⟨by simpa using hnull, Nat.not_lt.mp hpath, hname⟩, habove, he⟩, hafter⟩
  · rintro ⟨⟨e, ⟨hnull, hpath, hname⟩, habove, he⟩, hafter⟩
    rw [if_neg (by simpa using hnull), if_neg (by simp), if_neg (Nat.not_lt.mpr hpath)]
    exact (foldlM_step_eq_ok_iff h).mpr ⟨hname, habove, Option.isSome_of_eq_some he, hafter⟩

/-- **What a path made of names is said to be** is the kind of the entry that it leads to. -/
theorem kind_ofNames_eq_ok_iff {cwd : List String} {kind : FileKind}
    (h : ∀ s ∈ names, IsFileName s) :
    t.kind cwd (ofNames names) = .ok kind ↔ ∃ e, t.LeadsTo names e ∧ e.kind = kind := by
  rw [FileTree.kind, bind_eq_ok_iff]
  simp only [follow_ofNames_eq_ok_iff h]
  constructor
  · rintro ⟨after, ⟨⟨e, he⟩, rfl⟩, hkind⟩
    rw [he.entry] at hkind
    refine ⟨e, he, ?_⟩
    cases e <;> exact Except.ok.inj hkind
  · rintro ⟨e, he, rfl⟩
    refine ⟨names, ⟨⟨e, he⟩, rfl⟩, ?_⟩
    rw [he.entry]
    cases e <;> rfl

end EditorSettings.FileTree
