/-
# Escaping every character with a meaning

A text is escaped by a backslash in front of each character that has a meaning in a glob.  What the
glob says then is the text, except for one thing.  The escapes of `#` and `;` are dropped before the
glob is scanned, and whether a backslash is itself escaped does not matter there.  So a backslash
before one of these two marks is lost: its own escape remains, and now belongs to the mark
(`not_matchesPath_escape`).

Dropping takes two glyphs for one, an escaped backslash and a bare mark for an escaped mark
(`Glyph.merge`).  To the glyphs this is what dropping is to the text that they stand for
(`map_char_merge`); so the glob says the text from which the escapes of comments have been dropped
(`matchesPath_escape`).
-/
import EditorSettings.Proofs.Glob.Row

namespace EditorSettings.Glob

/-! ## 1. Escaping -/

/-- A character, with a backslash if it has a meaning of its own. -/
def Glyph.literal (c : Char) : Glyph := if c ∈ special then .escaped c else .bare c

/-- The text with a backslash in front of each character that has a meaning of its own. -/
def escape (s : List Char) : List Char := textOf [] (s.map Glyph.literal)

theorem Glyph.char_literal (c : Char) : (Glyph.literal c).char = c := by
  unfold Glyph.literal
  split <;> rfl

theorem map_char_literal (s : List Char) : (s.map Glyph.literal).map Glyph.char = s := by
  have hid : Glyph.char ∘ Glyph.literal = id := funext Glyph.char_literal
  rw [List.map_map, hid, List.map_id]

theorem Glyph.literal_ne_bare {c d : Char} (hd : d ∈ special) : Glyph.literal c ≠ .bare d := by
  unfold Glyph.literal
  split
  · exact Glyph.noConfusion
  · rename_i hc
    rintro h
    exact hc (Glyph.bare.inj h ▸ hd)

theorem Glyph.literal_ne_escaped {c d : Char} (hd : d ∉ special) :
    Glyph.literal c ≠ .escaped d := by
  unfold Glyph.literal
  split
  · rename_i hc
    rintro h
    exact hd (Glyph.escaped.inj h ▸ hc)
  · exact Glyph.noConfusion

theorem isProper_literal {c : Char} (hc : c ≠ '/') : (Item.char (Glyph.literal c)).IsProper := by
  unfold Glyph.literal
  split
  · exact hc
  · assumption

/-! ## 2. Dropping the escapes of one mark -/

/-- An escaped backslash and a bare mark become an escaped mark. -/
def Glyph.merge (mark : Char) : List Glyph → List Glyph
  | .escaped '\\' :: .bare c :: rest =>
    if c = mark then .escaped mark :: Glyph.merge mark rest
    else .escaped '\\' :: Glyph.merge mark (.bare c :: rest)
  | g :: rest => g :: Glyph.merge mark rest
  | [] => []

/-- No backslash is bare, and the mark is not escaped. -/
def Unmerged (mark : Char) (gs : List Glyph) : Prop := ∀ g ∈ gs, g ≠ .bare '\\' ∧ g ≠ .escaped mark

theorem Unmerged.of_cons {mark : Char} {g : Glyph} {gs : List Glyph} (h : Unmerged mark (g :: gs)) :
    Unmerged mark gs := fun g' hg' => h g' (List.mem_cons_of_mem g hg')

theorem mem_merge {mark : Char} {g : Glyph} {gs : List Glyph} (h : g ∈ Glyph.merge mark gs) :
    g ∈ gs ∨ g = .escaped mark := by
  fun_induction Glyph.merge mark gs with
  | case1 rest ih =>
    rcases List.mem_cons.mp h with rfl | h
    · exact Or.inr rfl
    · exact (ih h).imp_left fun hg => List.mem_cons_of_mem _ (List.mem_cons_of_mem _ hg)
  | case2 c rest _ ih =>
    rcases List.mem_cons.mp h with rfl | h
    · exact Or.inl List.mem_cons_self
    · exact (ih h).imp_left (List.mem_cons_of_mem _)
  | case3 g' rest _ ih =>
    rcases List.mem_cons.mp h with rfl | h
    · exact Or.inl List.mem_cons_self
    · exact (ih h).imp_left (List.mem_cons_of_mem _)
  | case4 => cases h

/-- A glyph that is not merged with the next one does not stand before a mark. -/
theorem unescape_glyph {mark : Char} {g : Glyph} {gs : List Glyph} (hmark : mark ≠ '\\')
    (h : Unmerged mark (g :: gs))
    (hnext : ∀ c rest, g = .escaped '\\' → gs = .bare c :: rest → c ≠ mark) :
    unescape mark (g.text [] ++ textOf [] gs) = g.text [] ++ unescape mark (textOf [] gs) := by
  obtain ⟨hbare, hescaped⟩ := h g List.mem_cons_self
  cases g with
  | bare c =>
    have hc : c ≠ '\\' := fun hc => hbare (congrArg _ hc)
    exact unescape_cons_of_ne hc _
  | escaped c =>
    have hc : c ≠ mark := fun hc => hescaped (congrArg _ hc)
    have hhead : (c :: textOf [] gs).head? ≠ some mark := fun e => hc (Option.some.inj e)
    refine (unescape_backslash hhead).trans (congrArg ('\\' :: ·) ?_)
    by_cases hback : c = '\\'
    · subst hback
      refine unescape_backslash ?_
      cases gs with
      | nil => exact nofun
      | cons g' rest =>
        cases g' with
        | bare d => exact fun e => hnext d rest rfl rfl (Option.some.inj e)
        | escaped d => exact fun e => hmark (Option.some.inj e).symm
    · exact unescape_cons_of_ne hback _

/-- **Dropping the escapes of a mark merges glyphs.** -/
theorem unescape_textOf_nil {mark : Char} (hmark : mark ≠ '\\') {gs : List Glyph}
    (h : Unmerged mark gs) : unescape mark (textOf [] gs) = textOf [] (Glyph.merge mark gs) := by
  fun_induction Glyph.merge mark gs with
  | case1 rest ih =>
    have htext : textOf [] (.escaped '\\' :: .bare mark :: rest) =
        '\\' :: '\\' :: mark :: textOf [] rest := rfl
    have hhead : ('\\' :: mark :: textOf [] rest).head? ≠ some mark :=
      fun e => hmark (Option.some.inj e).symm
    rw [htext, unescape_backslash hhead, unescape_mark, ih h.of_cons.of_cons]
    rfl
  | case2 c rest hc ih =>
    rw [textOf_cons, unescape_glyph hmark h, ih h.of_cons, textOf_cons]
    rintro d rest' - he
    exact (Glyph.bare.inj (List.cons.inj he).1) ▸ hc
  | case3 g rest hne ih =>
    rw [textOf_cons, unescape_glyph hmark h, ih h.of_cons, textOf_cons]
    rintro d rest' rfl rfl
    exact absurd rfl (hne d rest' rfl)
  | case4 => rfl

/-- **Merging is dropping**, to the text that the glyphs stand for. -/
theorem map_char_merge {mark : Char} {gs : List Glyph} (h : Unmerged mark gs) :
    (Glyph.merge mark gs).map Glyph.char = unescape mark (gs.map Glyph.char) := by
  fun_induction Glyph.merge mark gs with
  | case1 rest ih =>
    have htext : (Glyph.escaped '\\' :: .bare mark :: rest).map Glyph.char =
        '\\' :: mark :: rest.map Glyph.char := rfl
    rw [htext, unescape_mark, ← ih h.of_cons.of_cons]
    rfl
  | case2 c rest hc ih =>
    have hhead : ((Glyph.bare c :: rest).map Glyph.char).head? ≠ some mark :=
      fun e => hc (Option.some.inj e)
    rw [List.map_cons, ih h.of_cons]
    exact (unescape_backslash hhead).symm
  | case3 g rest hne ih =>
    obtain ⟨hbare, -⟩ := h g List.mem_cons_self
    rw [List.map_cons, List.map_cons, ih h.of_cons]
    by_cases hback : g = .escaped '\\'
    · subst hback
      refine (unescape_backslash ?_).symm
      cases rest with
      | nil => exact nofun
      | cons g' rest =>
        cases g' with
        | bare d => exact absurd rfl (hne d rest rfl)
        | escaped d =>
          intro e
          exact (h _ (List.mem_cons_of_mem _ List.mem_cons_self)).2
            (congrArg _ (Option.some.inj e))
    · have hc : g.char ≠ '\\' := by
        cases g with
        | bare c => exact fun hc => hbare (congrArg _ hc)
        | escaped c => exact fun hc => hback (congrArg _ hc)
      exact (unescape_cons_of_ne hc _).symm
  | case4 => rfl

/-! ## 3. Dropping the escapes of comments -/

/-- The glyphs of an escaped text after the escapes of comments have been dropped. -/
def mergedGlyphs (s : List Char) : List Glyph :=
  Glyph.merge ';' (Glyph.merge '#' (s.map Glyph.literal))

theorem unmerged_literal (s : List Char) : Unmerged '#' (s.map Glyph.literal) := by
  intro g hg
  obtain ⟨c, -, rfl⟩ := List.mem_map.mp hg
  exact ⟨Glyph.literal_ne_bare (by decide), Glyph.literal_ne_escaped (by decide)⟩

theorem unmerged_merge (s : List Char) : Unmerged ';' (Glyph.merge '#' (s.map Glyph.literal)) := by
  intro g hg
  rcases mem_merge hg with hg | rfl
  · obtain ⟨c, -, rfl⟩ := List.mem_map.mp hg
    exact ⟨Glyph.literal_ne_bare (by decide), Glyph.literal_ne_escaped (by decide)⟩
  · decide

theorem unescapeComments_escape (s : List Char) :
    unescapeComments (escape s) = textOf [] (mergedGlyphs s) := by
  rw [unescapeComments, escape, unescape_textOf_nil (by decide) (unmerged_literal s),
    unescape_textOf_nil (by decide) (unmerged_merge s), mergedGlyphs]

theorem map_char_mergedGlyphs (s : List Char) :
    (mergedGlyphs s).map Glyph.char = unescapeComments s := by
  rw [mergedGlyphs, map_char_merge (unmerged_merge s), map_char_merge (unmerged_literal s),
    map_char_literal, unescapeComments]

theorem isProper_of_mem_mergedGlyphs {s : List Char} (hs : '/' ∉ s) :
    ∀ g ∈ mergedGlyphs s, (Item.char g).IsProper := by
  intro g hg
  rcases mem_merge hg with hg | rfl
  · rcases mem_merge hg with hg | rfl
    · obtain ⟨c, hc, rfl⟩ := List.mem_map.mp hg
      exact isProper_literal fun hslash => hs (hslash ▸ hc)
    · simp [Item.IsProper]
  · simp [Item.IsProper]

/-! ## 4. The glob of an escaped text -/

theorem slash_not_mem_textOf {gs : List Glyph} (h : ∀ g ∈ gs, (Item.char g).IsProper) :
    '/' ∉ textOf [] gs := by
  intro hmem
  obtain ⟨g, hg, hslash⟩ := List.mem_flatMap.mp hmem
  have hproper := h g hg
  cases g with
  | bare c =>
    rw [Glyph.text, List.mem_singleton] at hslash
    exact hproper (hslash ▸ by decide)
  | escaped c =>
    rw [Glyph.text, if_neg List.not_mem_nil] at hslash
    exact hproper (by simpa [eq_comm] using hslash)

/-- The matcher of an escaped text is a row of characters, at any depth. -/
theorem matcher?_escape (dir : List Char) {s : List Char} (hs : '/' ∉ s) :
    matcher? dir (unescapeComments (escape s)) =
      some ⟨rowExpr dir (.depths :: charTokens (unescapeComments s)), []⟩ := by
  have hproper := isProper_of_mem_mergedGlyphs hs
  rw [unescapeComments_escape]
  refine matcher?_row_of_le dir (scan_anchor (slash_not_mem_textOf hproper) fun braces => ?_) ?_ ?_
  · have hscan := scanFrom_glyphs onlyMarks_nil hproper braces 0 0 []
    rw [List.append_nil, map_char_mergedGlyphs, scanFrom, Scan.after, List.append_nil] at hscan
    exact hscan
  · rw [List.forall_mem_cons]
    exact ⟨Or.inl rfl, fun t ht => (isItem_of_mem_charTokens ht).1⟩
  · rw [List.forall_mem_cons]
    exact ⟨by decide, fun t ht => (isItem_of_mem_charTokens ht).2 ▸ Nat.zero_le 5⟩

/-- The glob matches the text without the backslashes before `#` and `;`. -/
theorem matchesPath_unescapeComments (dir : String) {s : List Char} (hs : '/' ∉ s)
    (hlength : (escape s).length ≤ maxLength) (path : String) :
    (compile dir (String.ofList (escape s))).matchesPath path = true ↔
      ∃ v, path.toList = dir.toList.rdropWhile (· == '/') ++ (v ++ unescapeComments s) ∧
        (v = ['/'] ∨ ∃ w, v = '/' :: (w ++ ['/'])) := by
  have hmatcher := matcher?_escape (directoryText dir) hs
  rw [← String.toList_ofList (l := escape s)] at hmatcher
  rw [matchesPath_row (by rwa [String.length_ofList]) hmatcher]
  constructor
  · rintro ⟨t, ht, hpath⟩
    obtain ⟨v, hv, name, hname, rfl⟩ := mem_itemsLanguage_depths.mp ht
    rw [itemsLanguage_charTokens] at hname
    rw [Set.mem_singleton_iff.mp hname] at hpath
    exact ⟨v, hpath, hv⟩
  · rintro ⟨v, hpath, hv⟩
    refine ⟨_, mem_itemsLanguage_depths.mpr ⟨v, hv, _, ?_, rfl⟩, hpath⟩
    rw [itemsLanguage_charTokens]
    rfl

/-- **An escaped text is literal, but for the escapes of comments.**  The glob is valid, and it
matches a path if and only if the path is the directory, without the slashes at its end, then a
slash or two slashes with anything between them, and then the text without the backslashes before
`#` and `;`.  If there are none, this is the text. -/
theorem matchesPath_escape (dir : String) {s : List Char} (hs : '/' ∉ s)
    (hlength : (escape s).length ≤ maxLength) :
    (compile dir (String.ofList (escape s))).isValid = true ∧
    (∀ path : String, (compile dir (String.ofList (escape s))).matchesPath path = true ↔
      ∃ v, path.toList = dir.toList.rdropWhile (· == '/') ++ (v ++ unescapeComments s) ∧
        (v = ['/'] ∨ ∃ w, v = '/' :: (w ++ ['/']))) ∧
    (¬ ['\\', '#'] <:+: s → ¬ ['\\', ';'] <:+: s →
      ∀ path : String, (compile dir (String.ofList (escape s))).matchesPath path = true ↔
        ∃ v, path.toList = dir.toList.rdropWhile (· == '/') ++ (v ++ s) ∧
          (v = ['/'] ∨ ∃ w, v = '/' :: (w ++ ['/']))) := by
  have hmatches := matchesPath_unescapeComments dir hs hlength
  refine ⟨?_, hmatches, fun hash semicolon => ?_⟩
  · rw [isValid_compile, String.length_ofList, String.toList_ofList, matcher?_escape _ hs]
    exact ⟨hlength, rfl⟩
  · rwa [unescapeComments_eq_self_of_unmarked hash semicolon] at hmatches

/-- Every character with a meaning is there, and a backslash stands before one of them. -/
theorem matchesPath_escape_specials :
    escape "a\\*?[;]\x7b#,\x7d".toList = "a\\\\\\*\\?\\[;\\]\\\x7b#\\,\\\x7d".toList ∧
    (compile "/project/" "a\\\\\\*\\?\\[;\\]\\\x7b#\\,\\\x7d").isValid = true ∧
    ∀ path : String,
      (compile "/project/" "a\\\\\\*\\?\\[;\\]\\\x7b#\\,\\\x7d").matchesPath path = true ↔
        ∃ v, path.toList = "/project/".toList.rdropWhile (· == '/') ++
          (v ++ "a\\*?[;]\x7b#,\x7d".toList) ∧ (v = ['/'] ∨ ∃ w, v = '/' :: (w ++ ['/'])) := by
  obtain ⟨hvalid, -, hmatches⟩ := matchesPath_escape "/project/"
    (s := "a\\*?[;]\x7b#,\x7d".toList) (by decide) (by decide)
  exact ⟨by decide, hvalid, hmatches (by decide) (by decide)⟩

/-- **A backslash before the mark of a comment is lost.**  The glob with its characters escaped as
they have to be does not match the text, but the mark alone. -/
theorem not_matchesPath_escape :
    '/' ∉ "\\#".toList ∧ escape "\\#".toList = "\\\\#".toList ∧
    "/project/\\#".toList = "/project".toList.rdropWhile (· == '/') ++ (['/'] ++ "\\#".toList) ∧
    (compile "/project" "\\\\#").matchesPath "/project/\\#" = false ∧
    (compile "/project" "\\\\#").matchesPath "/project/#" = true := by
  have hmatches := matchesPath_unescapeComments "/project" (s := "\\#".toList) (by decide) (by decide)
  have hmark : unescapeComments "\\#".toList = ['#'] := by decide
  have hglob : String.ofList (escape "\\#".toList) = "\\\\#" := by decide
  rw [hmark, hglob] at hmatches
  refine ⟨by decide, by decide, by decide, ?_, (hmatches _).mpr ⟨['/'], by decide, Or.inl rfl⟩⟩
  rw [Bool.eq_false_iff, ne_eq, hmatches]
  rintro ⟨v, hpath, hv⟩
  have hlost : ['/', '\\'] ++ ['#'] = v ++ ['#'] := by
    have hbehind : "/project".toList ++ (['/', '\\'] ++ ['#']) =
        "/project".toList ++ (v ++ ['#']) := hpath
    exact List.append_cancel_left hbehind
  rw [← List.append_cancel_right hlost] at hv
  rcases hv with hv | ⟨w, hw⟩
  · cases hv
  · cases w with
    | nil => simp at hw
    | cons c w => simp at hw

end EditorSettings.Glob
