/-
# Globs without a slash

A glob without a slash applies at any depth below its directory: it matches what it matches as the
name of an entry of the directory, when a slash is written in front of it, and what it so matches
behind any more slashes (`matchesPath_anyDepth`).

The same text is anchored in two ways, so it stands behind two leads, `/**/` and `/`.  Neither of
them has a brace or an opening bracket, so the text is scanned alike behind both
(`scan_anchor_eq_after`, `scan_anchor_slash`), and what is left is one token or another in front of
the same tokens.  Those form no expression in both cases or continue the sequence by the same
expressions (`matcher?_of_lead`); this needs no account of how the text is written, so it holds of
malformed texts too.
-/
import EditorSettings.Proofs.Glob.Row
import EditorSettings.Proofs.Glob.Unescape

namespace EditorSettings.Glob

/-! ## 1. The two leads -/

/-- With a slash in front of it, a text without a slash is anchored as it is. -/
theorem scan_anchor_slash {s : List Char} (hslash : '/' ∉ s) :
    scan (anchor ('/' :: s)) = (scanFrom (balanced 0 s) 0 0 s).after [.atom (.char '/')] := by
  have hanchor : anchor ('/' :: s) = '/' :: s := if_pos rfl
  have hitem : item '/' s = (.atom (.char '/'), s) := by
    refine item_slash fun t ht => hslash ?_
    rw [ht]
    simp
  have hbalanced : balanced 0 ('/' :: s) = balanced 0 s :=
    balanced_append_of_not_brace (u := ['/']) (by simp) 0 s
  rw [scan, hanchor, scanFrom_item (by decide), hitem, hbalanced]

/-- With `**/` in front of it, it is anchored as if that were not there. -/
theorem anchor_stars {s : List Char} (hslash : '/' ∉ s) :
    anchor ('*' :: '*' :: '/' :: s) = anchor s := by
  have hanchor : anchor s = '/' :: '*' :: '*' :: '/' :: s :=
    if_neg fun h => hslash (List.contains_iff_mem.mp h)
  rw [hanchor]
  exact if_pos (by simp)

/-- Where there is no backslash in front, nothing is dropped. -/
theorem unescapeComments_append {u : List Char} (hu : '\\' ∉ u) (s : List Char) :
    unescapeComments (u ++ s) = u ++ unescapeComments s := by
  induction u with
  | nil => rfl
  | cons c u ih =>
    rw [List.mem_cons, not_or] at hu
    have hc : c ≠ '\\' := Ne.symm hu.1
    rw [List.cons_append, unescapeComments, unescape_cons_of_ne hc, unescape_cons_of_ne hc,
      ← unescapeComments, ih hu.2, List.cons_append]

/-! ## 2. What globs with these leads match -/

/-- A glob is valid under a condition, and matches what a lead and a language say, one after the
other, behind the directory. -/
structure HasLanguage (g : Glob) (dir : List Char) (lead : Expr) (valid : Prop)
    (l : Language Char) : Prop where
  isValid : g.isValid = true ↔ valid
  matchesPath : ∀ path : String, g.matchesPath path = true ↔
    ∃ v ∈ lead.language, ∃ w ∈ l, path.toList = dir ++ (v ++ w)

/-- Behind their leads, globs with the same tokens say the same. -/
theorem exists_hasLanguage_of_lead {rest : Scan} (hranges : rest.ranges = [])
    {read : Option (List Expr)}
    (hread : ∀ e : Expr, Expr.ofTokensIn? [] ⟨none, e⟩ rest.tokens = read.map e.followedBy) :
    ∃ valid l, ∀ {t : Token} {x : Expr} {pattern : String}, t.IsLead x →
      pattern.length ≤ maxLength →
      scan (anchor (unescapeComments pattern.toList)) = rest.after [t] → ∀ dir,
        HasLanguage (compile dir pattern) (directoryText dir) x valid l := by
  let accepted := read.filter fun xs => (Expr.empty.followedBy xs).nesting ≤ Expr.maxNesting
  refine ⟨accepted.isSome = true, {w | ∃ xs ∈ accepted, w ∈ (xs.map Expr.language).prod}, ?_⟩
  intro t x pattern ht hlength hscan dir
  have hmatcher := matcher?_of_lead ht hscan hread (directoryText dir)
  rw [hranges] at hmatcher
  refine ⟨?_, fun path => ?_⟩
  · rw [isValid_compile, hmatcher, Option.isSome_map]
    exact and_iff_right hlength
  · rw [matchesPath_compile, hmatcher]
    constructor
    · rintro ⟨-, m, hm, haccepts⟩
      obtain ⟨xs, hxs, rfl⟩ := Option.map_eq_some_iff.mp hm
      rw [accepts_iff, language_followedBy, language_directoryExpr, mem_singleton_mul,
        List.map_cons, List.prod_cons] at haccepts
      obtain ⟨s, hs, hpath⟩ := haccepts
      obtain ⟨v, hv, w, hw, rfl⟩ := Language.mem_mul.mp hs
      exact ⟨v, hv, w, ⟨xs, hxs, hw⟩, hpath⟩
    · rintro ⟨v, hv, w, ⟨xs, hxs, hw⟩, hpath⟩
      refine ⟨hlength, _, Option.map_eq_some_iff.mpr ⟨xs, hxs, rfl⟩, ?_⟩
      rw [accepts_iff, language_followedBy, language_directoryExpr, mem_singleton_mul,
        List.map_cons, List.prod_cons]
      exact ⟨v ++ w, Language.append_mem_mul hv hw, hpath⟩

/-- **A text without a slash says the same behind all leads that can be given to it.** -/
theorem exists_hasLanguage {pattern : String} (hlength : pattern.length ≤ 4093)
    (hslash : '/' ∉ pattern.toList)
    (hranges : (scan (anchor (unescapeComments pattern.toList))).ranges = []) :
    ∃ valid l, ∀ dir,
      HasLanguage (compile dir pattern) (directoryText dir) .depths valid l ∧
      HasLanguage (compile dir ("/" ++ pattern)) (directoryText dir) (.atom (.char '/')) valid l ∧
      HasLanguage (compile dir ("**/" ++ pattern)) (directoryText dir) .depths valid l := by
  have hs : '/' ∉ unescapeComments pattern.toList := by
    rwa [unescapeComments, mem_unescape (by decide), mem_unescape (by decide)]
  have hscan := scan_anchor_eq_after hs
  have hrest : (scanFrom (balanced 0 (unescapeComments pattern.toList)) 0 0
      (unescapeComments pattern.toList)).ranges = [] := by
    rw [hscan] at hranges
    exact hranges
  obtain ⟨read, hread⟩ := exists_ofTokensIn?_scanFrom
    (balanced 0 (unescapeComments pattern.toList)) (unescapeComments pattern.toList)
  obtain ⟨valid, l, hglob⟩ := exists_hasLanguage_of_lead hrest hread
  refine ⟨valid, l, fun dir => ⟨hglob (Or.inr ⟨rfl, rfl⟩) ?_ hscan dir,
    hglob (Or.inl ⟨rfl, rfl⟩) ?_ ?_ dir, hglob (Or.inr ⟨rfl, rfl⟩) ?_ ?_ dir⟩⟩
  · exact hlength.trans (by decide)
  · have hlead : "/".length = 1 := rfl
    rw [String.length_append, maxLength]
    omega
  · rw [String.toList_append, unescapeComments_append (by decide)]
    exact scan_anchor_slash hs
  · have hlead : "**/".length = 3 := rfl
    rw [String.length_append, maxLength]
    omega
  · rw [String.toList_append, unescapeComments_append (by decide), ← hscan]
    exact congrArg scan (anchor_stars hs)

/-! ## 3. Paths below the directory -/

/-- The path of `t` in a directory. -/
def below (dir t : String) : String :=
  String.ofList (dir.toList.rdropWhile (· == '/')) ++ "/" ++ t

theorem toList_below (dir t : String) :
    (below dir t).toList = directoryText dir ++ '/' :: t.toList := by
  rw [below, String.toList_append, String.toList_append, String.toList_ofList, List.append_assoc]
  rfl

section

variable {g : Glob} {dir : String} {valid : Prop} {l : Language Char}

theorem HasLanguage.below_slash (h : HasLanguage g (directoryText dir) (.atom (.char '/')) valid l)
    (t : String) : g.matchesPath (below dir t) = true ↔ t.toList ∈ l := by
  rw [h.matchesPath, toList_below]
  constructor
  · rintro ⟨v, ⟨c, -, rfl⟩, w, hw, hpath⟩
    rw [(List.cons.inj (List.append_cancel_left hpath)).2]
    exact hw
  · intro ht
    exact ⟨['/'], ⟨'/', rfl, rfl⟩, t.toList, ht, rfl⟩

theorem HasLanguage.below_depths (h : HasLanguage g (directoryText dir) .depths valid l)
    (t : String) : g.matchesPath (below dir t) = true ↔
      t.toList ∈ l ∨ ∃ x u, t = x ++ "/" ++ u ∧ u.toList ∈ l := by
  rw [h.matchesPath, toList_below, language_depths]
  constructor
  · rintro ⟨v, rfl | ⟨x, rfl⟩, w, hw, hpath⟩
    · rw [(List.cons.inj (List.append_cancel_left hpath)).2]
      exact Or.inl hw
    · refine Or.inr ⟨String.ofList x, String.ofList w, ?_, by rwa [String.toList_ofList]⟩
      rw [← String.toList_inj, (List.cons.inj (List.append_cancel_left hpath)).2]
      simp
  · rintro (ht | ⟨x, u, rfl, hu⟩)
    · exact ⟨['/'], Or.inl rfl, t.toList, ht, rfl⟩
    · exact ⟨'/' :: x.toList ++ ['/'], Or.inr ⟨x.toList, rfl⟩, u.toList, hu, by simp⟩

/-- Nothing else is matched: a path begins with the directory and a slash. -/
theorem HasLanguage.exists_below (h : HasLanguage g (directoryText dir) .depths valid l)
    {path : String} (hpath : g.matchesPath path = true) : ∃ t, path = below dir t := by
  obtain ⟨v, hv, w, -, hpath⟩ := (h.matchesPath path).mp hpath
  rw [language_depths] at hv
  obtain ⟨y, rfl⟩ : ∃ y, v = '/' :: y := by
    rcases hv with rfl | ⟨x, rfl⟩
    · exact ⟨[], rfl⟩
    · exact ⟨x ++ ['/'], rfl⟩
  refine ⟨String.ofList (y ++ w), ?_⟩
  rw [← String.toList_inj, toList_below, String.toList_ofList, hpath]
  rfl

end

/-- **A glob without a slash applies at every depth, and nowhere else.**  It is valid if and only if
it is with a slash in front of it; `**/` in front of it says nothing; and it matches the paths below
its directory that the glob with the slash matches, there or behind one more slash.  The glob may be
malformed, but it has no ranges, whose numbers depend on how the path is read. -/
theorem matchesPath_anyDepth (dir pattern : String) (hlength : pattern.length ≤ 4093)
    (hslash : '/' ∉ pattern.toList)
    (hranges : (scan (anchor (unescapeComments pattern.toList))).ranges = []) :
    ((compile dir pattern).isValid = true ↔ (compile dir ("/" ++ pattern)).isValid = true) ∧
    (∀ path, (compile dir pattern).matchesPath path =
      (compile dir ("**/" ++ pattern)).matchesPath path) ∧
    (∀ t, (compile dir pattern).matchesPath (below dir t) = true ↔
      (compile dir ("/" ++ pattern)).matchesPath (below dir t) = true ∨
      ∃ x u, t = x ++ "/" ++ u ∧
        (compile dir ("/" ++ pattern)).matchesPath (below dir u) = true) ∧
    ∀ path, (compile dir pattern).matchesPath path = true → ∃ t, path = below dir t := by
  obtain ⟨valid, l, hglob⟩ := exists_hasLanguage hlength hslash hranges
  obtain ⟨hany, hhere, hstars⟩ := hglob dir
  refine ⟨hany.isValid.trans hhere.isValid.symm, fun path => ?_, fun t => ?_,
    fun path hpath => hany.exists_below hpath⟩
  · rw [Bool.eq_iff_iff, hany.matchesPath, hstars.matchesPath]
  · simp only [hany.below_depths, hhere.below_slash]

theorem matchesPath_anyDepth_unclosed :
    (compile "/p/" "[!x]\x7by,z").isValid = true ∧
    (compile "/p/" "[!x]\x7by,z").matchesPath "/p/deep/a\x7by,z" = true := by
  obtain ⟨hvalid, -, hmatches, -⟩ := matchesPath_anyDepth "/p/" "[!x]\x7by,z" (by decide)
    (by decide) (by decide +kernel)
  have hbelow : below "/p/" "deep/a\x7by,z" = "/p/deep/a\x7by,z" := by decide +kernel
  have hdeep := (hmatches "deep/a\x7by,z").mpr
    (Or.inr ⟨"deep", "a\x7by,z", by decide +kernel, by decide +kernel⟩)
  rw [hbelow] at hdeep
  exact ⟨hvalid.mpr (by decide +kernel), hdeep⟩

end EditorSettings.Glob
