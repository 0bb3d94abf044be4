/-
# Dropping the escapes of comments

Before a glob is scanned, a backslash is dropped where `#` or `;` stands behind it.  This is done
for one mark after the other, by `unescape`.  Nothing else is changed: all other characters remain,
in their number (`count_unescape`) and in their places (`exists_of_unescape_eq_append`,
`exists_of_unescape_eq_cons`).
-/
import EditorSettings.Glob.Basic
import Mathlib.Data.List.Infix

namespace EditorSettings.Glob

/-! ## 1. One character after the other -/

theorem unescape_cons_of_ne {mark c : Char} (h : c ≠ '\\') (rest : List Char) :
    unescape mark (c :: rest) = c :: unescape mark rest := by
  rw [unescape.eq_2]
  intro d rest' hc
  exact absurd hc h

theorem unescape_backslash {mark : Char} {rest : List Char} (h : rest.head? ≠ some mark) :
    unescape mark ('\\' :: rest) = '\\' :: unescape mark rest := by
  cases rest with
  | nil => rfl
  | cons c rest =>
    rw [unescape, if_neg fun e => h (congrArg some e)]

theorem unescape_mark (mark : Char) (rest : List Char) :
    unescape mark ('\\' :: mark :: rest) = mark :: unescape mark rest := by
  rw [unescape, if_pos rfl]

/-! ## 2. What remains -/

theorem count_unescape {mark c : Char} (hc : c ≠ '\\') (s : List Char) :
    (unescape mark s).count c = s.count c := by
  fun_induction unescape mark s with
  | case1 rest ih => rw [List.count_cons, ih, List.count_cons_of_ne (Ne.symm hc), List.count_cons]
  | case2 d rest _ ih => rw [List.count_cons, ih, List.count_cons (l := d :: rest)]
  | case3 d rest _ ih => rw [List.count_cons, ih, List.count_cons (l := rest)]
  | case4 => rfl

theorem mem_unescape {mark c : Char} (hc : c ≠ '\\') {s : List Char} :
    c ∈ unescape mark s ↔ c ∈ s := by
  rw [← List.count_pos_iff, count_unescape hc, List.count_pos_iff]

/-- What remains of a text is divided as the text is. -/
theorem exists_of_unescape_eq_append {mark : Char} {s a b : List Char}
    (h : unescape mark s = a ++ b) :
    ∃ s₁ s₂, s = s₁ ++ s₂ ∧ unescape mark s₁ = a ∧ unescape mark s₂ = b := by
  induction a generalizing s with
  | nil => exact ⟨[], s, rfl, rfl, h⟩
  | cons x a ih =>
    cases s with
    | nil => cases h
    | cons c s =>
      by_cases hc : c = '\\'
      · subst hc
        by_cases hmark : s.head? = some mark
        · obtain ⟨s, rfl⟩ := List.head?_eq_some_iff.mp hmark
          rw [unescape_mark, List.cons_append, List.cons.injEq] at h
          obtain ⟨rfl, h⟩ := h
          obtain ⟨s₁, s₂, rfl, rfl, hs₂⟩ := ih h
          exact ⟨'\\' :: mark :: s₁, s₂, rfl, unescape_mark mark s₁, hs₂⟩
        · rw [unescape_backslash hmark, List.cons_append, List.cons.injEq] at h
          obtain ⟨rfl, h⟩ := h
          obtain ⟨s₁, s₂, rfl, rfl, hs₂⟩ := ih h
          have hhead : s₁.head? ≠ some mark := by
            intro hs₁
            obtain ⟨t, rfl⟩ := List.head?_eq_some_iff.mp hs₁
            exact hmark rfl
          exact ⟨'\\' :: s₁, s₂, rfl, unescape_backslash hhead, hs₂⟩
      · rw [unescape_cons_of_ne hc, List.cons_append, List.cons.injEq] at h
        obtain ⟨rfl, h⟩ := h
        obtain ⟨s₁, s₂, rfl, rfl, hs₂⟩ := ih h
        exact ⟨c :: s₁, s₂, rfl, unescape_cons_of_ne hc s₁, hs₂⟩

/-- A character that is not the mark has been there before. -/
theorem exists_of_unescape_eq_cons {mark c : Char} (hmark : c ≠ mark) {s t : List Char}
    (h : unescape mark s = c :: t) : ∃ s', s = c :: s' ∧ unescape mark s' = t := by
  cases s with
  | nil => cases h
  | cons d s =>
    by_cases hd : d = '\\'
    · subst hd
      by_cases hnext : s.head? = some mark
      · obtain ⟨s, rfl⟩ := List.head?_eq_some_iff.mp hnext
        rw [unescape_mark] at h
        exact absurd (List.cons.inj h).1.symm hmark
      · rw [unescape_backslash hnext, List.cons.injEq] at h
        exact ⟨s, by rw [h.1], h.2⟩
    · rw [unescape_cons_of_ne hd, List.cons.injEq] at h
      exact ⟨s, by rw [h.1], h.2⟩

/-! ## 3. Texts from which nothing is dropped -/

/-- Where no backslash stands before the mark, nothing is dropped. -/
theorem unescape_eq_self {mark : Char} {s : List Char} (h : ¬ ['\\', mark] <:+: s) :
    unescape mark s = s := by
  have hrest : ∀ {c : Char} {t : List Char}, ¬ ['\\', mark] <:+: c :: t →
      ¬ ['\\', mark] <:+: t := fun hcons ht => hcons (ht.trans (List.suffix_cons _ _).isInfix)
  fun_induction unescape mark s with
  | case1 rest => exact absurd (List.IsPrefix.isInfix ⟨rest, rfl⟩) h
  | case2 c rest hc ih => rw [ih (hrest h)]
  | case3 c rest _ ih => rw [ih (hrest h)]
  | case4 => rfl

theorem unescapeComments_eq_self_of_unmarked {s : List Char} (hash : ¬ ['\\', '#'] <:+: s)
    (semicolon : ¬ ['\\', ';'] <:+: s) : unescapeComments s = s := by
  rw [unescapeComments, unescape_eq_self hash, unescape_eq_self semicolon]

theorem unescapeComments_eq_self {s : List Char} (h : '\\' ∉ s) : unescapeComments s = s := by
  have hnone : ∀ mark, ¬ ['\\', mark] <:+: s := fun mark hmark =>
    h (hmark.subset List.mem_cons_self)
  exact unescapeComments_eq_self_of_unmarked (hnone '#') (hnone ';')

end EditorSettings.Glob
