/-
# Patterns as texts

Two things are said of the text of a pattern before it is scanned.  Only the escapes that keep a
comment from beginning are dropped from it (`unescapeComments_text`); a backslash that is itself
written with a backslash is safe because no bare mark of a comment follows it.  And to the eyes of
whoever counts braces or looks for the end of a word in braces, an item is not there: its braces
and commas are all escaped (`not_foreign_of_mem_item`).  So the braces of a pattern are balanced
(`balanced_pattern`), and no alternation is mistaken for a word (`word?_pattern`).
-/
import EditorSettings.Proofs.Glob.Pattern
import EditorSettings.Proofs.Glob.Unescape

namespace EditorSettings.Glob

/-! ## 1. Dropping the escapes of comments -/

/-- Only the marks of comments are dropped. -/
def OnlyMarks (dropped : List Char) : Prop := ∀ c ∈ dropped, c = '#' ∨ c = ';'

theorem onlyMarks_nil : OnlyMarks [] := fun _ hc => absurd hc List.not_mem_nil

theorem OnlyMarks.ne {dropped : List Char} (h : OnlyMarks dropped) {c d : Char} (hc : c ∈ dropped)
    (hd : d ≠ '#' ∧ d ≠ ';') : c ≠ d := by
  rintro rfl
  rcases h c hc with rfl | rfl
  · exact hd.1 rfl
  · exact hd.2 rfl

theorem textOf_cons (dropped : List Char) (g : Glyph) (gs : List Glyph) :
    textOf dropped (g :: gs) = g.text dropped ++ textOf dropped gs := List.flatMap_cons

theorem textOf_append (dropped : List Char) (a b : List Glyph) :
    textOf dropped (a ++ b) = textOf dropped a ++ textOf dropped b := List.flatMap_append

/-- After a backslash with a backslash, the text does not go on with the mark. -/
theorem head?_textOf_ne {mark : Char} (hmark : mark = '#' ∨ mark = ';') {dropped : List Char}
    (hnew : mark ∉ dropped) {gs : List Glyph}
    (hchain : (.escaped '\\' :: gs).IsChain Glyph.MayPrecede) :
    (textOf dropped gs).head? ≠ some mark := by
  cases gs with
  | nil => simp [textOf]
  | cons g gs =>
    obtain ⟨hash, semicolon⟩ := (List.isChain_cons_cons.mp hchain).1 rfl
    cases g with
    | bare c =>
      intro h
      have hc : c = mark := Option.some.inj h
      rcases hmark with rfl | rfl
      · exact hash (congrArg _ hc)
      · exact semicolon (congrArg _ hc)
    | escaped c =>
      rw [textOf_cons, Glyph.text]
      by_cases hc : c ∈ dropped
      · rw [if_pos hc]
        rintro h
        exact hnew (Option.some.inj h ▸ hc)
      · rw [if_neg hc]
        rintro h
        have hm : '\\' = mark := Option.some.inj h
        rcases hmark with rfl | rfl
        · exact absurd hm (by decide)
        · exact absurd hm (by decide)

/-- The backslashes before one mark are dropped where they escape it, and nowhere else. -/
theorem unescape_textOf {mark : Char} (hmark : mark = '#' ∨ mark = ';') {dropped : List Char}
    (hdropped : OnlyMarks dropped) (hnew : mark ∉ dropped) :
    ∀ {gs : List Glyph}, .bare '\\' ∉ gs → gs.IsChain Glyph.MayPrecede →
      unescape mark (textOf dropped gs) = textOf (mark :: dropped) gs
  | [], _, _ => rfl
  | .bare c :: gs, hbare, hchain => by
    have hc : c ≠ '\\' := by
      rintro rfl
      exact hbare List.mem_cons_self
    have ih := unescape_textOf hmark hdropped hnew (fun h => hbare (List.mem_cons_of_mem _ h))
      hchain.of_cons
    rw [textOf_cons, textOf_cons, Glyph.text, Glyph.text, List.singleton_append,
      unescape_cons_of_ne hc, ih]
    rfl
  | .escaped c :: gs, hbare, hchain => by
    have ih := unescape_textOf hmark hdropped hnew (fun h => hbare (List.mem_cons_of_mem _ h))
      hchain.of_cons
    rw [textOf_cons, textOf_cons, Glyph.text, Glyph.text]
    by_cases hc : c ∈ dropped
    · have hne : c ≠ '\\' := hdropped.ne hc (by decide)
      rw [if_pos hc, if_pos (List.mem_cons_of_mem _ hc), List.singleton_append,
        unescape_cons_of_ne hne, ih]
      rfl
    · by_cases hcm : c = mark
      · subst hcm
        rw [if_neg hc, if_pos List.mem_cons_self]
        exact (unescape_mark c _).trans (congrArg (c :: ·) ih)
      · have hnot : c ∉ mark :: dropped := by
          rw [List.mem_cons, not_or]
          exact ⟨hcm, hc⟩
        have hhead : (c :: textOf dropped gs).head? ≠ some mark := fun e => hcm (Option.some.inj e)
        rw [if_neg hc, if_neg hnot]
        refine (unescape_backslash hhead).trans (congrArg ('\\' :: ·) ?_)
        by_cases hb : c = '\\'
        · subst hb
          refine (unescape_backslash ?_).trans (congrArg ('\\' :: ·) ih)
          exact head?_textOf_ne hmark hnew hchain
        · exact (unescape_cons_of_ne hb _).trans (congrArg (c :: ·) ih)

/-! ## 2. Which characters are written -/

/-- The characters that no item is written with. -/
def foreign : List Glyph := [.bare '\\', .bare '{', .bare ',', .bare '}', .escaped '/']

theorem not_foreign_of_isInner {g : Glyph} (h : ClassMember.IsInner g) : g ∉ foreign := by
  cases g with
  | bare c =>
    have hne : ∀ d : Char, d.isAlphanum = false → c ≠ d := by
      rintro d hd rfl
      rw [ClassMember.IsInner, hd] at h
      cases h
    simp only [foreign, List.mem_cons, Glyph.bare.injEq, List.not_mem_nil, or_false, not_or,
      reduceCtorEq]
    exact ⟨hne _ (by decide), hne _ (by decide), hne _ (by decide), hne _ (by decide)⟩
  | escaped c =>
    simp only [foreign, List.mem_cons, Glyph.escaped.injEq, List.not_mem_nil, or_false, not_or,
      reduceCtorEq, not_false_eq_true, true_and]
    exact h

theorem not_foreign_of_mem_member {m : ClassMember} (h : m.IsProper) :
    ∀ g ∈ m.glyphs, g ∉ foreign := by
  intro g hg
  cases m with
  | one g' => exact List.mem_singleton.mp hg ▸ not_foreign_of_isInner h
  | span low high =>
    simp only [ClassMember.glyphs, List.mem_cons, List.not_mem_nil, or_false] at hg
    rcases hg with rfl | rfl | rfl
    · exact not_foreign_of_isInner h.1
    · decide
    · exact not_foreign_of_isInner h.2.1

theorem not_foreign_of_mem_members {ms : List ClassMember} (h : ∀ m ∈ ms, m.IsProper) :
    ∀ g ∈ ms.flatMap ClassMember.glyphs, g ∉ foreign := by
  intro g hg
  obtain ⟨m, hm, hgm⟩ := List.mem_flatMap.mp hg
  exact not_foreign_of_mem_member (h m hm) g hgm

theorem not_foreign_of_mem_item {i : Item} (h : i.IsProper) : ∀ g ∈ i.glyphs, g ∉ foreign := by
  intro g hg
  cases i with
  | char g' =>
    rw [List.mem_singleton.mp hg]
    cases g' with
    | bare c =>
      intro hc
      refine h ?_
      simp only [foreign, List.mem_cons, Glyph.bare.injEq, List.not_mem_nil, or_false,
        reduceCtorEq] at hc
      rcases hc with rfl | rfl | rfl | rfl <;> decide
    | escaped c =>
      intro hc
      simp only [foreign, List.mem_cons, Glyph.escaped.injEq, List.not_mem_nil, or_false,
        reduceCtorEq, false_or] at hc
      exact h hc
  | slash => exact List.mem_singleton.mp hg ▸ by decide
  | one => exact List.mem_singleton.mp hg ▸ by decide
  | run => exact List.mem_singleton.mp hg ▸ by decide
  | any =>
    simp only [Item.glyphs, List.mem_cons, List.not_mem_nil, or_false, or_self] at hg
    exact hg ▸ by decide
  | set negated first more =>
    rw [Item.glyphs, List.mem_append, List.mem_append, List.mem_cons, List.mem_singleton] at hg
    rcases hg with ((rfl | hg) | hg) | rfl
    · decide
    · cases negated with
      | true => exact List.mem_singleton.mp hg ▸ by decide
      | false => exact absurd hg List.not_mem_nil
    · exact not_foreign_of_mem_members h g hg
    · decide
  | depths => exact absurd h not_false

mutual

/-- No backslash is bare, and no slash is escaped. -/
theorem written_pattern : ∀ {p : Pattern}, p.IsProper →
    ∀ g ∈ p.glyphs, g ≠ .bare '\\' ∧ g ≠ .escaped '/'
  | .nil, _, _, hg => absurd hg List.not_mem_nil
  | .cons i rest, ⟨hi, _, hrest⟩, g, hg => by
    rw [Pattern.glyphs, List.mem_append] at hg
    rcases hg with hg | hg
    · have hforeign := not_foreign_of_mem_item hi g hg
      refine ⟨?_, ?_⟩
      · rintro rfl
        exact hforeign (by decide)
      · rintro rfl
        exact hforeign (by decide)
    · exact written_pattern hrest g hg
  | .braces first others rest, ⟨hfirst, hothers, hrest⟩, g, hg => by
    rw [Pattern.glyphs, List.mem_cons, List.mem_append, List.mem_append, List.mem_cons] at hg
    rcases hg with rfl | hg | hg | rfl | hg
    · decide
    · exact written_pattern hfirst g hg
    · exact written_branches hothers g hg
    · decide
    · exact written_pattern hrest g hg

theorem written_branches : ∀ {bs : Branches}, bs.IsProper →
    ∀ g ∈ bs.glyphs, g ≠ .bare '\\' ∧ g ≠ .escaped '/'
  | .last p, hp, g, hg => by
    rw [Branches.glyphs, List.mem_cons] at hg
    rcases hg with rfl | hg
    · decide
    · exact written_pattern hp g hg
  | .more p rest, ⟨hp, hrest⟩, g, hg => by
    rw [Branches.glyphs, List.mem_cons, List.mem_append] at hg
    rcases hg with rfl | hg | hg
    · decide
    · exact written_pattern hp g hg
    · exact written_branches hrest g hg

end

/-- The marks of comments. -/
def marks : List Char := [';', '#']

theorem onlyMarks_marks : OnlyMarks marks := by
  intro c hc
  simpa [marks, or_comm] using hc

/-- The text of a pattern without the escapes of comments. -/
def Pattern.bareText (p : Pattern) : List Char := textOf marks p.glyphs

/-- The text of branches without the escapes of comments. -/
def Branches.bareText (bs : Branches) : List Char := textOf marks bs.glyphs

/-- **Only the escapes of comments are dropped.** -/
theorem unescapeComments_text {p : Pattern} (h : p.WellFormed) :
    unescapeComments p.text = p.bareText := by
  have hbare : .bare '\\' ∉ p.glyphs := fun hg => (written_pattern h.proper _ hg).1 rfl
  have hhash : OnlyMarks ['#'] := fun c hc => Or.inl (List.mem_singleton.mp hc)
  rw [unescapeComments, Pattern.text,
    unescape_textOf (Or.inl rfl) onlyMarks_nil List.not_mem_nil hbare h.comments,
    unescape_textOf (Or.inr rfl) hhash (by decide) hbare h.comments]
  rfl

/-- What is written without a backslash stands for itself or is the mark of a comment. -/
theorem text_cases (g : Glyph) :
    (∃ c, g.text marks = [c] ∧ (g = .bare c ∨ c ∈ marks)) ∨
      (g = .escaped g.char ∧ g.text marks = ['\\', g.char]) := by
  cases g with
  | bare c => exact Or.inl ⟨c, rfl, Or.inl rfl⟩
  | escaped c =>
    by_cases hc : c ∈ marks
    · exact Or.inl ⟨c, if_pos hc, Or.inr hc⟩
    · exact Or.inr ⟨rfl, if_neg hc⟩

/-- A slash in the text is a slash in the pattern. -/
theorem slash_mem_bareText {p : Pattern} (h : p.IsProper) :
    '/' ∈ p.bareText ↔ .bare '/' ∈ p.glyphs := by
  rw [Pattern.bareText, textOf, List.mem_flatMap]
  constructor
  · rintro ⟨g, hg, hslash⟩
    rcases text_cases g with ⟨c, htext, hc⟩ | ⟨hchar, htext⟩
    · rw [htext, List.mem_singleton] at hslash
      subst hslash
      rcases hc with rfl | hc
      · exact hg
      · exact absurd hc (by decide)
    · rw [htext, List.mem_cons, List.mem_singleton] at hslash
      rcases hslash with hslash | hslash
      · exact absurd hslash (by decide)
      · rw [← hslash] at hchar
        exact absurd hchar (written_pattern h _ hg).2
  · intro hg
    exact ⟨_, hg, List.mem_singleton_self _⟩

/-! ## 3. Braces -/

/-- Characters without a meaning for braces are passed over. -/
theorem balanced_cons_of_ne {c : Char} (h : c ≠ '\\' ∧ c ≠ '{' ∧ c ≠ '}') (depth : Nat)
    (rest : List Char) : balanced depth (c :: rest) = balanced depth rest := by
  obtain ⟨hb, ho, hc⟩ := h
  rw [balanced.eq_def]
  split
  · rename_i e
    cases e
  · rename_i e
    exact absurd (List.cons.inj e).1 hb
  · rename_i e
    exact absurd (List.cons.inj e).1 ho
  · rename_i e
    exact absurd (List.cons.inj e).1 hc
  · rename_i e
    exact absurd (List.cons.inj e).1 hc
  · rename_i e
    rw [(List.cons.inj e).2]

theorem word?_cons_of_ne {c : Char} (h : c ≠ '\\' ∧ c ≠ ',' ∧ c ≠ '}') {rest : List Char}
    (hrest : word? rest = none) : word? (c :: rest) = none := by
  obtain ⟨hb, ho, hc⟩ := h
  rw [word?.eq_def]
  split
  · rfl
  · rename_i e
    exact absurd (List.cons.inj e).1 hb
  · rfl
  · rename_i e
    exact absurd (List.cons.inj e).1 hc
  · rename_i e
    rw [← (List.cons.inj e).2, hrest]
    rfl

theorem ne_of_mem_marks {c : Char} (h : c ∈ marks) : c ≠ '\\' ∧ c ≠ '{' ∧ c ≠ ',' ∧ c ≠ '}' := by
  simp only [marks, List.mem_cons, List.not_mem_nil, or_false] at h
  rcases h with rfl | rfl
  · decide
  · decide

/-- What an item writes without a backslash is no brace and no comma. -/
theorem ne_of_not_foreign {c : Char} (h : .bare c ∉ foreign) :
    c ≠ '\\' ∧ c ≠ '{' ∧ c ≠ ',' ∧ c ≠ '}' := by
  simp only [foreign, List.mem_cons, Glyph.bare.injEq, List.not_mem_nil, or_false, not_or,
    reduceCtorEq] at h
  exact h

/-- To whoever looks for braces and commas, a character of an item is neither: it has no meaning for
them, or it stands behind a backslash. -/
theorem text_cases_of_not_foreign {g : Glyph} (h : g ∉ foreign) :
    (∃ c, g.text marks = [c] ∧ c ≠ '\\' ∧ c ≠ '{' ∧ c ≠ ',' ∧ c ≠ '}') ∨
      g.text marks = ['\\', g.char] := by
  rcases text_cases g with ⟨c, htext, rfl | hc⟩ | ⟨-, htext⟩
  · exact Or.inl ⟨c, htext, ne_of_not_foreign h⟩
  · exact Or.inl ⟨c, htext, ne_of_mem_marks hc⟩
  · exact Or.inr htext

theorem balanced_item : ∀ {gs : List Glyph}, (∀ g ∈ gs, g ∉ foreign) → ∀ depth rest,
    balanced depth (textOf marks gs ++ rest) = balanced depth rest
  | [], _, _, _ => rfl
  | g :: gs, h, depth, rest => by
    have ih := balanced_item (fun g' hg => h g' (List.mem_cons_of_mem _ hg)) depth rest
    rw [textOf_cons, List.append_assoc]
    rcases text_cases_of_not_foreign (h g List.mem_cons_self) with ⟨c, htext, hb, ho, -, hc⟩ | htext
    · rw [htext, List.singleton_append, balanced_cons_of_ne ⟨hb, ho, hc⟩, ih]
    · rw [htext]
      exact ih

theorem word?_item : ∀ {gs : List Glyph}, (∀ g ∈ gs, g ∉ foreign) → ∀ {rest},
    word? rest = none → word? (textOf marks gs ++ rest) = none
  | [], _, _, hrest => hrest
  | g :: gs, h, rest, hrest => by
    have ih := word?_item (fun g' hg => h g' (List.mem_cons_of_mem _ hg)) hrest
    rw [textOf_cons, List.append_assoc]
    rcases text_cases_of_not_foreign (h g List.mem_cons_self) with ⟨c, htext, hb, -, hc⟩ | htext
    · rw [htext, List.singleton_append]
      exact word?_cons_of_ne ⟨hb, hc⟩ ih
    · rw [htext, List.cons_append, List.singleton_append, word?, ih]
      rfl

theorem bareText_cons (i : Item) (rest : Pattern) :
    (Pattern.cons i rest).bareText = textOf marks i.glyphs ++ rest.bareText := by
  rw [Pattern.bareText, Pattern.glyphs, textOf_append]
  rfl

theorem bareText_braces (first : Pattern) (others : Branches) (rest : Pattern) :
    (Pattern.braces first others rest).bareText =
      '{' :: (first.bareText ++ (others.bareText ++ '}' :: rest.bareText)) := by
  rw [Pattern.bareText, Pattern.glyphs, textOf_cons, textOf_append, textOf_append, textOf_cons]
  rfl

theorem bareText_last (p : Pattern) : (Branches.last p).bareText = ',' :: p.bareText := rfl

theorem bareText_more (p : Pattern) (rest : Branches) :
    (Branches.more p rest).bareText = ',' :: (p.bareText ++ rest.bareText) := by
  rw [Branches.bareText, Branches.glyphs, textOf_cons, textOf_append]
  rfl

/-- Further branches begin with a comma. -/
theorem exists_bareText_branches (bs : Branches) : ∃ t, bs.bareText = ',' :: t := by
  cases bs with
  | last p => exact ⟨p.bareText, rfl⟩
  | more p rest => exact ⟨_, bareText_more p rest⟩

mutual

/-- **The braces of a pattern are balanced.** -/
theorem balanced_pattern : ∀ {p : Pattern}, p.IsProper → ∀ depth rest,
    balanced depth (p.bareText ++ rest) = balanced depth rest
  | .nil, _, _, _ => rfl
  | .cons i p, ⟨hi, _, hp⟩, depth, rest => by
    rw [bareText_cons, List.append_assoc, balanced_item (not_foreign_of_mem_item hi),
      balanced_pattern hp]
  | .braces first others p, ⟨hfirst, hothers, hp⟩, depth, rest => by
    rw [bareText_braces, List.cons_append, balanced, List.append_assoc, balanced_pattern hfirst,
      List.append_assoc, balanced_branches hothers, List.cons_append, balanced,
      balanced_pattern hp]

theorem balanced_branches : ∀ {bs : Branches}, bs.IsProper → ∀ depth rest,
    balanced depth (bs.bareText ++ rest) = balanced depth rest
  | .last p, hp, depth, rest => by
    rw [bareText_last, List.cons_append, balanced_cons_of_ne (by decide), balanced_pattern hp]
  | .more p bs, ⟨hp, hbs⟩, depth, rest => by
    rw [bareText_more, List.cons_append, balanced_cons_of_ne (by decide), List.append_assoc,
      balanced_pattern hp, balanced_branches hbs]

end

/-- **No word ends within a pattern**: of an alternation, the first comma comes before the closing
brace. -/
theorem word?_pattern : ∀ {p : Pattern}, p.IsProper → ∀ {rest}, word? rest = none →
    word? (p.bareText ++ rest) = none
  | .nil, _, _, hrest => hrest
  | .cons i p, ⟨hi, _, hp⟩, rest, hrest => by
    rw [bareText_cons, List.append_assoc]
    exact word?_item (not_foreign_of_mem_item hi) (word?_pattern hp hrest)
  | .braces first others p, ⟨hfirst, _, _⟩, rest, _ => by
    obtain ⟨t, ht⟩ := exists_bareText_branches others
    rw [bareText_braces, ht, List.cons_append, List.cons_append, List.append_assoc]
    exact word?_cons_of_ne (by decide) (word?_pattern hfirst rfl)

end EditorSettings.Glob
