/-
# Lower case, once and again

Lowering a text a second time changes nothing (`lower_lower`): no character that lowering gives
has a small letter of its own.  For the table this is a fact about pairs of runs, whose letters
never meet (`capitals_apart`); it is decided once, and the rest follows for all characters.

Lowering neither makes nor removes blanks at the ends of a text, and it makes no line feed.  All
this comes from one property of single characters, `mem_lowerChar_blank`: a small letter is no
blank, and whatever has no small letter is kept.

What lowering does change is the length of a text, by one for each dotted capital I
(`length_lower`).
-/
import EditorSettings.Text.Blank
import EditorSettings.Text.Lowercase.Basic
import Mathlib.Data.List.Basic

namespace EditorSettings.Text

/-! ## 1. The table -/

namespace CapitalRun

/-- The small letter of the capital `n` of a run. -/
def image (r : CapitalRun) (n : Nat) : Nat := r.small + (n - r.first)

/-- No small letter of `r` is a capital of `q`: they lie apart, or every second character is a
capital and the small letters are those between. -/
def isApart (r q : CapitalRun) : Bool :=
  r.image r.last < q.first || q.last < r.small ||
    (q.step == 2 && (r.step == 2 || r.first == r.last) &&
      q.first ≤ r.small && (r.small - q.first) % 2 == 1)

/-- The small letters of `r` are characters, and none of them is a blank, the capital sigma or
the dotted capital I. -/
def isPlain (r : CapitalRun) : Bool :=
  (r.image r.last < 0xd800 || (0xdfff < r.small && r.image r.last < 0x110000)) &&
    ((0x130, 0x130) :: (0x3a3, 0x3a3) :: blankSpans).all fun span =>
      r.image r.last < span.1 || span.2 < r.small

theorem has_iff {r : CapitalRun} {n : Nat} :
    r.has n = true ↔ r.first ≤ n ∧ n ≤ r.last ∧ (n - r.first) % r.step = 0 := by
  simp [has, and_assoc]

theorem has_image_eq_false {r q : CapitalRun} (h : r.isApart q = true) {n : Nat}
    (hn : r.has n = true) : q.has (r.image n) = false := by
  obtain ⟨h1, h2, h3⟩ := has_iff.mp hn
  rw [Bool.eq_false_iff]
  intro hq
  obtain ⟨q1, q2, q3⟩ := has_iff.mp hq
  simp only [isApart, Bool.or_eq_true, Bool.and_eq_true, decide_eq_true_eq, beq_iff_eq] at h
  simp only [image] at h q1 q2 q3
  rcases h with (h | h) | ⟨⟨⟨hs, hr⟩, hle⟩, hodd⟩
  · omega
  · omega
  · rw [hs] at q3
    rcases hr with hr | hr
    · rw [hr] at h3
      omega
    · omega

theorem isValidChar_image {r : CapitalRun} (h : r.isPlain = true) {n : Nat}
    (hn : r.has n = true) : (r.image n).isValidChar := by
  obtain ⟨h1, h2, -⟩ := has_iff.mp hn
  simp only [isPlain, Bool.and_eq_true, Bool.or_eq_true, decide_eq_true_eq] at h
  simp only [image] at h ⊢
  rcases h.1 with h | h
  · exact Or.inl (by omega)
  · exact Or.inr ⟨by omega, by omega⟩

theorem image_not_mem_span {r : CapitalRun} (h : r.isPlain = true) {n : Nat}
    (hn : r.has n = true) {span : Span}
    (hs : span ∈ (0x130, 0x130) :: (0x3a3, 0x3a3) :: blankSpans) :
    ¬ (span.1 ≤ r.image n ∧ r.image n ≤ span.2) := by
  obtain ⟨h1, h2, -⟩ := has_iff.mp hn
  simp only [isPlain, Bool.and_eq_true] at h
  have := List.all_eq_true.mp h.2 span hs
  simp only [Bool.or_eq_true, decide_eq_true_eq] at this
  simp only [image] at this ⊢
  omega

end CapitalRun

theorem capitals_apart : (capitals.all fun r => capitals.all r.isApart) = true := by
  decide +kernel

theorem capitals_plain : capitals.all CapitalRun.isPlain = true := by decide +kernel

/-! ## 2. One character -/

/-- The character is its own small letter, wherever it stands. -/
def IsSmall (c : Char) : Prop := c ≠ '\u03a3' ∧ lowerChar c = [c]

/-- What lowering makes of a character: the letters of the dotted capital, the small letter of a
run, or the character itself. -/
theorem lowerChar_cases (c : Char) :
    lowerChar c = ['i', '\u0307'] ∨
    (∃ r ∈ capitals, r.has c.toNat = true ∧ lowerChar c = [Char.ofNat (r.image c.toNat)]) ∨
    (capitals.find? (·.has c.toNat) = none ∧ c ≠ '\u0130' ∧ lowerChar c = [c]) := by
  unfold lowerChar
  by_cases hc : c = '\u0130'
  · exact Or.inl (if_pos hc)
  · rw [if_neg hc]
    cases hf : capitals.find? (·.has c.toNat) with
    | none => exact Or.inr (Or.inr ⟨rfl, hc, rfl⟩)
    | some r =>
      have hr : r.has c.toNat = true := by simpa using List.find?_some hf
      exact Or.inr (Or.inl ⟨r, List.mem_of_find?_eq_some hf, hr, rfl⟩)

theorem toNat_ofNat_image {r : CapitalRun} (hr : r ∈ capitals) {n : Nat} (hn : r.has n = true) :
    (Char.ofNat (r.image n)).toNat = r.image n := by
  have hv := CapitalRun.isValidChar_image (List.all_eq_true.mp capitals_plain r hr) hn
  rw [Char.ofNat, dif_pos hv]
  rfl

/-- A small letter of a run lies outside the span of a blank, and is not one of the two special
capitals. -/
theorem inSpans_image_eq_false {r : CapitalRun} (hr : r ∈ capitals) {n : Nat}
    (hn : r.has n = true) :
    inSpans ((0x130, 0x130) :: (0x3a3, 0x3a3) :: blankSpans) (Char.ofNat (r.image n)) = false := by
  rw [Bool.eq_false_iff, ne_eq, inSpans_iff, toNat_ofNat_image hr hn]
  rintro ⟨span, hs, hle⟩
  exact CapitalRun.image_not_mem_span (List.all_eq_true.mp capitals_plain r hr) hn hs hle

theorem isSmall_image {r : CapitalRun} (hr : r ∈ capitals) {n : Nat} (hn : r.has n = true) :
    IsSmall (Char.ofNat (r.image n)) := by
  have hout := inSpans_image_eq_false hr hn
  have hsigma : Char.ofNat (r.image n) ≠ '\u03a3' := by
    intro e
    rw [e] at hout
    exact absurd hout (by decide)
  have hdotted : Char.ofNat (r.image n) ≠ '\u0130' := by
    intro e
    rw [e] at hout
    exact absurd hout (by decide)
  refine ⟨hsigma, ?_⟩
  have hfind : capitals.find? (·.has (Char.ofNat (r.image n)).toNat) = none := by
    rw [List.find?_eq_none]
    intro q hq
    have hrq := List.all_eq_true.mp (List.all_eq_true.mp capitals_apart r hr) q hq
    simp [toNat_ofNat_image hr hn, CapitalRun.has_image_eq_false hrq hn]
  rw [lowerChar, if_neg hdotted, hfind]

/-- **Every letter that lowering gives is small already.** -/
theorem isSmall_of_mem_lowerChar {c x : Char} (hc : c ≠ '\u03a3') (hx : x ∈ lowerChar c) :
    IsSmall x := by
  rcases lowerChar_cases c with h | ⟨r, hr, hn, h⟩ | ⟨-, -, h⟩
  · rw [h] at hx
    simp only [List.mem_cons, List.not_mem_nil, or_false] at hx
    rcases hx with rfl | rfl
    · exact ⟨by decide, by decide +kernel⟩
    · exact ⟨by decide, by decide +kernel⟩
  · rw [h, List.mem_singleton] at hx
    exact hx ▸ isSmall_image hr hn
  · have hx' := hx
    rw [h, List.mem_singleton] at hx'
    exact hx' ▸ ⟨hc, h⟩

theorem isSmall_smallSigma (before after : List Char) : IsSmall (smallSigma before after) := by
  unfold smallSigma
  split
  · exact ⟨by decide, by decide +kernel⟩
  · exact ⟨by decide, by decide +kernel⟩

/-- What lowering makes of a character is no blank, unless it is the character itself. -/
theorem mem_lowerChar_blank {c x : Char} (hx : x ∈ lowerChar c) : x = c ∨ isBlank x = false := by
  rcases lowerChar_cases c with h | ⟨r, hr, hn, h⟩ | ⟨-, -, h⟩
  · rw [h] at hx
    simp only [List.mem_cons, List.not_mem_nil, or_false] at hx
    rcases hx with rfl | rfl
    · exact Or.inr (by decide)
    · exact Or.inr (by decide)
  · rw [h, List.mem_singleton] at hx
    have hout := inSpans_image_eq_false hr hn
    rw [← hx, inSpans, List.any_cons, List.any_cons, Bool.or_eq_false_iff,
      Bool.or_eq_false_iff] at hout
    exact Or.inr hout.2.2
  · rw [h, List.mem_singleton] at hx
    exact Or.inl hx

theorem lowerChar_ne_nil (c : Char) : lowerChar c ≠ [] := by
  rcases lowerChar_cases c with h | ⟨r, -, -, h⟩ | ⟨-, -, h⟩
  all_goals simp [h]

/-! ## 3. A text -/

/-- What one character becomes at its place in a text. -/
def lowerAt (before : List Char) (c : Char) (after : List Char) : List Char :=
  if c = '\u03a3' then [smallSigma before after] else lowerChar c

theorem lowerAfter_cons (before : List Char) (c : Char) (rest : List Char) :
    lowerAfter before (c :: rest) = lowerAt before c rest ++ lowerAfter (c :: before) rest := rfl

theorem lowerAt_ne_nil (before : List Char) (c : Char) (after : List Char) :
    lowerAt before c after ≠ [] := by
  unfold lowerAt
  split
  · simp
  · exact lowerChar_ne_nil c

theorem isSmall_of_mem_lowerAt {before after : List Char} {c x : Char}
    (hx : x ∈ lowerAt before c after) : IsSmall x := by
  unfold lowerAt at hx
  split at hx
  · rw [List.mem_singleton] at hx
    exact hx ▸ isSmall_smallSigma before after
  · exact isSmall_of_mem_lowerChar ‹_› hx

theorem mem_lowerAt_blank {before after : List Char} {c x : Char}
    (hx : x ∈ lowerAt before c after) : x = c ∨ isBlank x = false := by
  unfold lowerAt at hx
  split at hx
  · rw [List.mem_singleton] at hx
    refine Or.inr ?_
    rw [hx, smallSigma]
    split
    · decide
    · decide
  · exact mem_lowerChar_blank hx

theorem isSmall_of_mem_lowerAfter (s : List Char) :
    ∀ before, ∀ x ∈ lowerAfter before s, IsSmall x := by
  induction s with
  | nil => intro before x hx; simp [lowerAfter] at hx
  | cons c rest ih =>
    intro before x hx
    rw [lowerAfter_cons, List.mem_append] at hx
    rcases hx with hx | hx
    · exact isSmall_of_mem_lowerAt hx
    · exact ih _ x hx

/-- A text of small letters is kept. -/
theorem lowerAfter_eq_self (s : List Char) :
    ∀ before, (∀ x ∈ s, IsSmall x) → lowerAfter before s = s := by
  induction s with
  | nil => intro before _; rfl
  | cons c rest ih =>
    intro before h
    obtain ⟨hsigma, hc⟩ := h c List.mem_cons_self
    rw [lowerAfter_cons, lowerAt, if_neg hsigma, hc,
      ih _ fun x hx => h x (List.mem_cons_of_mem _ hx)]
    rfl

/-- **Lower case is reached in one step.** -/
theorem lower_lower (s : String) : lower (lower s) = lower s := by
  unfold lower
  rw [String.toList_ofList, lowerAfter_eq_self _ _ (isSmall_of_mem_lowerAfter _ _)]

/-! ## 4. Blanks and line feeds -/

theorem mem_lowerAfter_blank (s : List Char) :
    ∀ before, ∀ x ∈ lowerAfter before s, x ∈ s ∨ isBlank x = false := by
  induction s with
  | nil => intro before x hx; simp [lowerAfter] at hx
  | cons c rest ih =>
    intro before x hx
    rw [lowerAfter_cons, List.mem_append] at hx
    rcases hx with hx | hx
    · rcases mem_lowerAt_blank hx with rfl | h
      · exact Or.inl List.mem_cons_self
      · exact Or.inr h
    · rcases ih _ x hx with h | h
      · exact Or.inl (List.mem_cons_of_mem _ h)
      · exact Or.inr h

theorem head?_lowerAfter {before s : List Char} (h : ∀ c ∈ s.head?, isBlank c = false) :
    ∀ c ∈ (lowerAfter before s).head?, isBlank c = false := by
  cases s with
  | nil => simp [lowerAfter]
  | cons c rest =>
    intro x hx
    rw [lowerAfter_cons, List.head?_append_of_ne_nil _ (lowerAt_ne_nil _ _ _)] at hx
    rcases mem_lowerAt_blank (List.mem_of_mem_head? hx) with rfl | hx
    · exact h x rfl
    · exact hx

theorem lowerAfter_append (s t : List Char) :
    ∀ before, ∃ u, lowerAfter before (s ++ t) = u ++ lowerAfter (s.reverse ++ before) t := by
  induction s with
  | nil => intro before; exact ⟨[], rfl⟩
  | cons c rest ih =>
    intro before
    obtain ⟨u, hu⟩ := ih (c :: before)
    refine ⟨lowerAt before c (rest ++ t) ++ u, ?_⟩
    rw [List.cons_append, lowerAfter_cons, hu, List.append_assoc, List.reverse_cons,
      List.append_assoc, List.singleton_append]

theorem getLast?_lowerAfter {before s : List Char} (h : ∀ c ∈ s.getLast?, isBlank c = false) :
    ∀ c ∈ (lowerAfter before s).getLast?, isBlank c = false := by
  rcases List.eq_nil_or_concat s with rfl | ⟨init, c, rfl⟩
  · simp [lowerAfter]
  · intro x hx
    obtain ⟨u, hu⟩ := lowerAfter_append init [c] before
    rw [List.concat_eq_append, hu, lowerAfter_cons, lowerAfter, List.append_nil,
      List.getLast?_append_of_ne_nil _ (lowerAt_ne_nil _ _ _)] at hx
    rcases mem_lowerAt_blank (List.mem_of_getLast? hx) with rfl | hx
    · exact h x (by simp)
    · exact hx

/-- Lowering makes no blanks at the ends of a text. -/
theorem trimmed_lower {s : String} (h : Trimmed s.toList) : Trimmed (lower s).toList := by
  unfold lower
  rw [String.toList_ofList]
  exact ⟨head?_lowerAfter h.1, getLast?_lowerAfter h.2⟩

/-- Lowering makes no line feed. -/
theorem newline_not_mem_lower {s : String} (h : '\n' ∉ s.toList) : '\n' ∉ (lower s).toList := by
  unfold lower
  rw [String.toList_ofList]
  intro hx
  rcases mem_lowerAfter_blank _ _ _ hx with hx | hx
  · exact h hx
  · exact absurd hx (by decide)

/-! ## 5. Lengths -/

/-- The dotted capital I becomes two characters, every other character one. -/
theorem length_lowerAt (before : List Char) (c : Char) (after : List Char) :
    (lowerAt before c after).length = if c = '\u0130' then 2 else 1 := by
  unfold lowerAt
  by_cases hsigma : c = '\u03a3'
  · rw [if_pos hsigma, if_neg (hsigma ▸ by decide)]
    rfl
  · rw [if_neg hsigma, lowerChar]
    split
    · rfl
    · split <;> rfl

theorem length_lowerAfter (s : List Char) :
    ∀ before, (lowerAfter before s).length = s.length + s.count '\u0130' := by
  induction s with
  | nil => exact fun _ => rfl
  | cons c rest ih =>
    intro before
    rw [lowerAfter_cons, List.length_append, length_lowerAt, ih, List.length_cons,
      List.count_cons]
    by_cases hc : c = '\u0130'
    · rw [if_pos hc, hc, beq_self_eq_true, if_pos rfl]
      omega
    · rw [if_neg hc, beq_eq_false_iff_ne.mpr hc, if_neg (by decide)]
      omega

/-- **Lowering lengthens a text by its dotted capitals.** -/
theorem length_lower (s : String) : (lower s).length = s.length + s.toList.count '\u0130' := by
  rw [lower, String.length_ofList, length_lowerAfter, String.length_toList]

/-- Each dotted capital leaves its dot. -/
theorem count_lower_le (s : String) :
    s.toList.count '\u0130' ≤ (lower s).toList.count '\u0307' := by
  have h : ∀ (s before : List Char), s.count '\u0130' ≤ (lowerAfter before s).count '\u0307' := by
    intro s
    induction s with
    | nil => exact fun _ => Nat.zero_le _
    | cons c rest ih =>
      intro before
      have hrest := ih (c :: before)
      rw [lowerAfter_cons, List.count_append, List.count_cons]
      by_cases hc : c = '\u0130'
      · subst hc
        have hdot : (lowerAt before '\u0130' rest).count '\u0307' = 1 := rfl
        rw [hdot, beq_self_eq_true, if_pos rfl]
        omega
      · rw [beq_eq_false_iff_ne.mpr hc, if_neg (by decide)]
        omega
  rw [lower, String.toList_ofList]
  exact h _ _

end EditorSettings.Text
