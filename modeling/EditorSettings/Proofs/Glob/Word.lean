/-
# A word in braces is a glob of its own

The items of a word in braces are read with braces that are plain.  That is how the word would be
scanned by itself (`scan_word`): it has no comma and no closing brace of its own, so a brace that
opens in it is never closed, and its braces are not balanced.

Both hold only outside of escapes, and a set can hide a brace from the scan that the count of braces
sees.  So what is followed through the items is that no comma and no brace stands in the text unless
a backslash stands in front of it (`IsFree.item`).
-/
import EditorSettings.Proofs.Glob.Piece

namespace EditorSettings.Glob

/-- None of the characters stands in the text, unless it is escaped. -/
inductive IsFree (cs : List Char) : List Char → Prop
  | nil : IsFree cs []
  | escaped (c : Char) {s : List Char} (rest : IsFree cs s) : IsFree cs ('\\' :: c :: s)
  | cons {c : Char} {s : List Char} (back : c ≠ '\\') (free : c ∉ cs) (rest : IsFree cs s) :
    IsFree cs (c :: s)

/-! ## 1. Words -/

theorem isFree_of_word? {s w after : List Char} (h : word? s = some (w, after)) :
    IsFree [',', '}'] w := by
  fun_induction word? s generalizing w with
  | case1 => cases h
  | case2 c rest ih =>
    obtain ⟨⟨w', after'⟩, hrest, he⟩ := Option.map_eq_some_iff.mp h
    cases he
    exact .escaped c (ih hrest)
  | case3 => cases h
  | case4 rest =>
    cases h
    exact .nil
  | case5 c rest hpair hcomma hclose ih =>
    obtain ⟨⟨w', after'⟩, hrest, he⟩ := Option.map_eq_some_iff.mp h
    cases he
    have hback : c ≠ '\\' := by
      rintro rfl
      cases rest with
      | nil => cases hrest
      | cons d rest => exact hpair d rest rfl rfl
    exact .cons hback (by simpa using ⟨hcomma, hclose⟩) (ih hrest)

/-- A word is not ended by itself. -/
theorem word?_of_isFree {s : List Char} (h : IsFree [',', '}'] s) : word? s = none := by
  induction h with
  | nil => rfl
  | escaped c _ ih => rw [word?, ih]; rfl
  | cons hback hfree _ ih =>
    simp only [List.mem_cons, List.not_mem_nil, or_false, not_or] at hfree
    rw [word?_cons ⟨hback, hfree.1, hfree.2⟩, ih]
    rfl

/-! ## 2. What items leave -/

section

variable {cs s : List Char}

theorem IsFree.tail {c : Char} (h : IsFree cs (c :: s)) (hc : c ≠ '\\') : IsFree cs s := by
  cases h with
  | escaped => exact absurd rfl hc
  | cons _ _ hrest => exact hrest

theorem IsFree.members? {after : List Char} {ms : List Member} (h : IsFree cs s)
    (hmembers : members? s = some (ms, after)) : IsFree cs after := by
  fun_induction Glob.members? s generalizing ms with
  | case1 => cases hmembers
  | case2 rest =>
    cases hmembers
    exact h.tail (by decide)
  | case3 rest ih =>
    obtain ⟨⟨ms', after'⟩, hrest, he⟩ := Option.map_eq_some_iff.mp hmembers
    cases he
    exact ih (h.tail (by decide)) hrest
  | case4 c rest ih =>
    obtain ⟨⟨ms', after'⟩, hrest, he⟩ := Option.map_eq_some_iff.mp hmembers
    cases he
    cases h with
    | escaped _ h => exact ih h hrest
    | cons hback => exact absurd rfl hback
  | case5 c rest hclose hdash hpair ih =>
    obtain ⟨⟨ms', after'⟩, hrest, he⟩ := Option.map_eq_some_iff.mp hmembers
    cases he
    cases h with
    | escaped d h => exact absurd rfl (hpair d _ rfl)
    | cons _ _ h => exact ih h hrest

theorem IsFree.bracketed (h : IsFree cs s) (negated : Bool) :
    IsFree cs (bracketed negated s).2 := by
  unfold Glob.bracketed
  split
  · exact .nil
  · rename_i ms after hmembers
    split
    · exact h.members? hmembers
    · exact h.members? hmembers

/-- **What an item leaves of a free text is free.** -/
theorem IsFree.item {c : Char} (h : IsFree cs (c :: s)) : IsFree cs (item c s).2 := by
  unfold Glob.item
  split
  case h_1 d rest =>
    cases h with
    | escaped _ h => exact h
    | cons hback => exact absurd rfl hback
  case h_2 => exact (h.tail (by decide)).tail (by decide)
  case h_5 =>
    exact (((h.tail (by decide)).tail (by decide)).tail (by decide)).tail (by decide)
  case h_6 =>
    have hrest := h.tail (by decide)
    split
    · exact hrest
    · split
      · exact (hrest.tail (by decide)).bracketed true
      · exact (hrest.tail (by decide)).bracketed true
      · exact hrest.bracketed false
  case h_7 =>
    rename_i hpair _ _
    cases h with
    | escaped d h => exact absurd rfl (hpair d _ rfl)
    | cons _ _ h => exact h
  all_goals exact h.tail (by decide)

/-! ## 3. Scanning a word -/

/-- Balanced braces that are never closed are none at all. -/
theorem IsFree.of_balanced {depth : Nat} (h : IsFree [',', '}'] s)
    (hbalanced : balanced depth s = true) : depth = 0 ∧ IsFree ['{', ',', '}'] s := by
  induction h generalizing depth with
  | nil => exact ⟨beq_iff_eq.mp hbalanced, .nil⟩
  | escaped c _ ih =>
    obtain ⟨hdepth, hfree⟩ := ih hbalanced
    exact ⟨hdepth, .escaped c hfree⟩
  | @cons c s hback hfree _ ih =>
    simp only [List.mem_cons, List.not_mem_nil, or_false, not_or] at hfree
    by_cases hopen : c = '{'
    · -- Nothing behind it closes this brace, so the count would have to be zero already.
      subst hopen
      exact absurd (ih hbalanced).1 (Nat.succ_ne_zero depth)
    · rw [balanced_cons_of_ne ⟨hback, hopen, hfree.2⟩] at hbalanced
      obtain ⟨hdepth, hrest⟩ := ih hbalanced
      exact ⟨hdepth, .cons hback (by simpa using ⟨hopen, hfree⟩) hrest⟩

/-- In a text without commas and closing braces, braces are plain, if they are not balanced or if
there are none. -/
theorem IsFree.scanFrom_eq_plain {braces : Bool} (h : IsFree [',', '}'] s)
    (hbraces : braces = true → IsFree ['{', ',', '}'] s) (numbers : Nat) :
    scanFrom braces 0 numbers s = ⟨plain s, []⟩ := by
  fun_induction plain s with
  | case1 => rw [scanFrom]
  | case2 c rest ih =>
    have hmore : scanFrom braces 0 numbers (Glob.item c rest).2 =
        ⟨plain (Glob.item c rest).2, []⟩ := ih h.item fun e => (hbraces e).item
    by_cases hopen : c = '{'
    · subst hopen
      have hword : word? rest = none := word?_of_isFree (h.tail (by decide))
      cases braces with
      | true =>
        cases hbraces rfl with
        | cons _ hfree => exact absurd List.mem_cons_self hfree
      | false =>
        rw [scanFrom, if_pos rfl]
        split
        · rename_i hsome
          rw [hword] at hsome
          cases hsome
        · rw [if_neg (by decide)]
          exact congrArg (Scan.after · [.atom (.char '{')]) hmore
    · rw [scanFrom, if_neg hopen, if_neg (by simp), if_neg (by simp), hmore]
      rfl

end

/-- **A word in braces is scanned as it would be by itself**, wherever it stands. -/
theorem scan_word {rest w after : List Char} (h : word? rest = some (w, after)) :
    scan w = ⟨plain w, []⟩ := by
  have hfree : IsFree [',', '}'] w := isFree_of_word? h
  exact hfree.scanFrom_eq_plain (fun hbalanced => (hfree.of_balanced hbalanced).2) 0

end EditorSettings.Glob
