/-
# Rows of items

Where a glob has no alternations, its tokens are items, one after the other.  Its expression is the
row of their expressions behind the directory (`matcher?_row`), and it says what they say, in order
(`language_rowExpr`).  It is refused only if an item is nested too deeply, and only a set can be.

Two kinds of text are scanned without a look at what follows: characters that stand for themselves,
however they are written (`scanFrom_glyphs`), and texts without an opening brace
(`scanFrom_eq_plain`).  A glob without a slash has one item in front of its own, which stands for
slashes at any depth (`scan_anchor`).
-/
import EditorSettings.Proofs.Glob.Directory
import EditorSettings.Proofs.Glob.Piece

namespace EditorSettings.Glob

/-! ## 1. Globs and matchers -/

/-- A glob matches by its matcher, if it has one. -/
theorem matchesPath_compile {dir pattern path : String} :
    (compile dir pattern).matchesPath path = true ↔
      pattern.length ≤ maxLength ∧
        ∃ m, matcher? (directoryText dir) (unescapeComments pattern.toList) = some m ∧
          m.accepts path.toList = true := by
  unfold matchesPath compile
  by_cases hlong : maxLength < pattern.length
  · simp [hlong, Nat.not_le.mpr hlong]
  · rw [if_neg hlong]
    dsimp only
    cases matcher? (directoryText dir) (unescapeComments pattern.toList) with
    | none => simp
    | some m => simp [Nat.not_lt.mp hlong]

/-- A glob is valid if it has a matcher. -/
theorem isValid_compile {dir pattern : String} :
    (compile dir pattern).isValid = true ↔
      pattern.length ≤ maxLength ∧
        (matcher? (directoryText dir) (unescapeComments pattern.toList)).isSome = true := by
  unfold isValid defect? compile
  by_cases hlong : maxLength < pattern.length
  · simp [hlong, Nat.not_le.mpr hlong]
  · rw [if_neg hlong]
    dsimp only
    cases matcher? (directoryText dir) (unescapeComments pattern.toList) with
    | none => simp
    | some m => simp [Nat.not_lt.mp hlong]

/-! ## 2. The row of the tokens -/

/-- The expression of a token. -/
def Token.expr : Token → Expr
  | .atom a => .atom a
  | .depths => .depths
  | .malformed => .empty
  | .opening => .empty
  | .bar => .empty
  | .closing => .empty

/-- The token is an atom or a slash at any depth. -/
def Token.IsItem (t : Token) : Prop := t = .depths ∨ ∃ a, t = .atom a

/-- Items continue the branch by their expressions. -/
theorem ofTokensIn?_items (outer : List Frame) (ts : List Token) :
    ∀ {us : List Token}, (∀ t ∈ us, t.IsItem) → ∀ f : Frame,
      Expr.ofTokensIn? outer f (us ++ ts) =
        Expr.ofTokensIn? outer ⟨f.done, f.current.followedBy (us.map Token.expr)⟩ ts
  | [], _, _ => rfl
  | t :: us, h, f => by
    obtain ⟨ht, hus⟩ := List.forall_mem_cons.mp h
    have hpush : Expr.ofTokensIn? outer f (t :: (us ++ ts)) =
        Expr.ofTokensIn? outer (f.push t.expr) (us ++ ts) := by
      rcases ht with rfl | ⟨a, rfl⟩
      · rfl
      · rfl
    rw [List.cons_append, hpush, ofTokensIn?_items outer ts hus]
    rfl

/-- The expression of a directory with the items of a glob behind it. -/
def rowExpr (dir : List Char) (ts : List Token) : Expr :=
  (directoryExpr dir).followedBy (ts.map Token.expr)

/-- The items of a glob form the row of their expressions. -/
theorem ofTokens?_row (dir : List Char) {ts : List Token} (h : ∀ t ∈ ts, t.IsItem) :
    Expr.ofTokens? (dir.map (Token.atom ∘ Atom.char) ++ ts) = some (rowExpr dir ts) := by
  have hitems := ofTokensIn?_items [] [] h ⟨none, directoryExpr dir⟩
  rw [List.append_nil] at hitems
  rw [Expr.ofTokens?, ofTokensIn?_directory]
  exact hitems

theorem innerNesting_followedBy_le {n : Nat} {e : Expr} (he : e.innerNesting ≤ n)
    {xs : List Expr} (hxs : ∀ x ∈ xs, x.innerNesting ≤ n) : (e.followedBy xs).innerNesting ≤ n := by
  induction xs generalizing e with
  | nil => exact he
  | cons x xs ih =>
    obtain ⟨hx, hxs⟩ := List.forall_mem_cons.mp hxs
    exact ih (e := .seq e x) (max_le he hx) hxs

theorem innerNesting_directoryExpr (dir : List Char) : (directoryExpr dir).innerNesting = 0 :=
  innerNesting_foldl dir .empty

/-- A row is nested as deeply as its items. -/
theorem innerNesting_rowExpr_le (dir : List Char) {n : Nat} {ts : List Token}
    (h : ∀ t ∈ ts, t.expr.innerNesting ≤ n) : (rowExpr dir ts).innerNesting ≤ n := by
  refine innerNesting_followedBy_le ?_ (List.forall_mem_map.mpr h)
  rw [innerNesting_directoryExpr]
  exact Nat.zero_le n

/-- **The matcher of a glob without alternations** is its row, if that is not nested too deeply. -/
theorem matcher?_row (dir : List Char) {s : List Char} {ts : List Token} {ranges : List Range}
    (hscan : scan (anchor s) = ⟨ts, ranges⟩) (h : ∀ t ∈ ts, t.IsItem) :
    matcher? dir s =
      if (rowExpr dir ts).nesting ≤ Expr.maxNesting then some ⟨rowExpr dir ts, ranges⟩
      else none := by
  unfold matcher?
  rw [hscan]
  dsimp only
  rw [ofTokens?_row dir h]

/-- Characters, wildcards and numbers are not nested deeply. -/
theorem matcher?_row_of_le (dir : List Char) {s : List Char} {ts : List Token}
    {ranges : List Range} (hscan : scan (anchor s) = ⟨ts, ranges⟩) (h : ∀ t ∈ ts, t.IsItem)
    (hnesting : ∀ t ∈ ts, t.expr.innerNesting ≤ 5) :
    matcher? dir s = some ⟨rowExpr dir ts, ranges⟩ := by
  have hrow : (rowExpr dir ts).innerNesting ≤ 5 := innerNesting_rowExpr_le dir hnesting
  rw [matcher?_row dir hscan h, if_pos]
  rw [Expr.nesting, Expr.maxNesting]
  omega

/-- What the items of a row say, one after the other. -/
def itemsLanguage (ts : List Token) : Language Char := (ts.map fun t => t.expr.language).prod

theorem itemsLanguage_cons (t : Token) (ts : List Token) :
    itemsLanguage (t :: ts) = t.expr.language * itemsLanguage ts := List.prod_cons

theorem itemsLanguage_append (ts us : List Token) :
    itemsLanguage (ts ++ us) = itemsLanguage ts * itemsLanguage us := by
  rw [itemsLanguage, List.map_append, List.prod_append]
  rfl

theorem language_followedBy_items (e : Expr) (ts : List Token) :
    (e.followedBy (ts.map Token.expr)).language = e.language * itemsLanguage ts := by
  rw [language_followedBy, List.map_map]
  rfl

/-- **A row says what its items say**, behind the directory. -/
theorem language_rowExpr (dir : List Char) (ts : List Token) :
    (rowExpr dir ts).language = ({dir} : Language Char) * itemsLanguage ts := by
  rw [rowExpr, language_followedBy_items, language_directoryExpr]

theorem mem_singleton_mul {d path : List Char} {l : Language Char} :
    path ∈ ({d} : Language Char) * l ↔ ∃ s ∈ l, path = d ++ s := by
  rw [Language.mem_mul]
  constructor
  · rintro ⟨e, he, s, hs, rfl⟩
    exact ⟨s, hs, by rw [Set.mem_singleton_iff.mp he]⟩
  · rintro ⟨s, hs, rfl⟩
    exact ⟨d, rfl, s, hs, rfl⟩

theorem mem_language_rowExpr {dir : List Char} {ts : List Token} {path : List Char} :
    path ∈ (rowExpr dir ts).language ↔ ∃ s ∈ itemsLanguage ts, path = dir ++ s := by
  rw [language_rowExpr, mem_singleton_mul]

/-- **A glob without alternations and ranges matches what its items say**, behind the directory. -/
theorem matchesPath_row {dir pattern : String} (hlength : pattern.length ≤ maxLength)
    {ts : List Token}
    (hmatcher : matcher? (directoryText dir) (unescapeComments pattern.toList) =
      some ⟨rowExpr (directoryText dir) ts, []⟩) (path : String) :
    (compile dir pattern).matchesPath path = true ↔
      ∃ s ∈ itemsLanguage ts, path.toList = directoryText dir ++ s := by
  rw [matchesPath_compile, hmatcher]
  simp only [hlength, true_and, Option.some.injEq, exists_eq_left', accepts_iff,
    mem_language_rowExpr]

/-! ## 3. Texts that are scanned by themselves -/

/-- Characters as tokens. -/
def charTokens (w : List Char) : List Token := w.map (Token.atom ∘ Atom.char)

theorem isItem_of_mem_charTokens {w : List Char} {t : Token} (h : t ∈ charTokens w) :
    t.IsItem ∧ t.expr.innerNesting = 0 := by
  obtain ⟨c, -, rfl⟩ := List.mem_map.mp h
  exact ⟨Or.inr ⟨_, rfl⟩, rfl⟩

theorem itemsLanguage_charTokens (w : List Char) :
    itemsLanguage (charTokens w) = ({w} : Language Char) := by
  induction w with
  | nil => rfl
  | cons c w ih =>
    have hone : (Token.atom (.char c)).expr.language = ({[c]} : Language Char) := by
      ext x
      constructor
      · rintro ⟨d, hd, rfl⟩
        rw [beq_iff_eq.mp hd]
        rfl
      · rintro hx
        exact ⟨c, beq_self_eq_true c, hx⟩
    have hmul : ({[c]} : Language Char) * {w} = ({c :: w} : Language Char) :=
      Set.image2_singleton
    rw [charTokens, List.map_cons, itemsLanguage_cons, Function.comp_apply, hone, ← hmul, ← ih]
    rfl

/-- **Characters that stand for themselves are scanned as such**, with backslashes or without. -/
theorem scanFrom_glyphs {dropped : List Char} (hdropped : OnlyMarks dropped) {gs : List Glyph}
    (h : ∀ g ∈ gs, (Item.char g).IsProper) (braces : Bool) (depth numbers : Nat)
    (rest : List Char) :
    scanFrom braces depth numbers (textOf dropped gs ++ rest) =
      (scanFrom braces depth numbers rest).after (charTokens (gs.map Glyph.char)) := by
  induction gs with
  | nil => rfl
  | cons g gs ih =>
    obtain ⟨hg, hgs⟩ := List.forall_mem_cons.mp h
    obtain ⟨c, t, htext, hc, hitem⟩ := item_glyph hdropped hg (textOf dropped gs ++ rest)
    rw [textOf_cons, List.append_assoc, htext, scanFrom_item hc, hitem]
    dsimp only
    rw [ih hgs, Scan.after_after]
    rfl

theorem textOf_map_bare (w : List Char) : textOf [] (w.map Glyph.bare) = w := by
  rw [textOf, List.flatMap_map]
  exact List.flatMap_singleton' w

/-- Characters without a meaning of their own are scanned as themselves. -/
theorem scanFrom_literal {w : List Char} (hw : ∀ c ∈ w, c ∉ special) (braces : Bool)
    (depth numbers : Nat) (rest : List Char) :
    scanFrom braces depth numbers (w ++ rest) =
      (scanFrom braces depth numbers rest).after (charTokens w) := by
  have hchar : (w.map Glyph.bare).map Glyph.char = w := by
    rw [List.map_map]
    exact List.map_id w
  have hproper : ∀ g ∈ w.map Glyph.bare, (Item.char g).IsProper :=
    List.forall_mem_map.mpr fun c hc => hw c hc
  have hscan := scanFrom_glyphs onlyMarks_nil hproper braces depth numbers rest
  rwa [textOf_map_bare, hchar] at hscan

/-- Outside of alternations, a text without opening braces is scanned item by item. -/
theorem scanFrom_eq_plain {s : List Char} (hs : '{' ∉ s) (braces : Bool) (numbers : Nat) :
    scanFrom braces 0 numbers s = ⟨plain s, []⟩ := by
  fun_induction plain s with
  | case1 => rw [scanFrom]
  | case2 c rest ih =>
    have hopen : c ≠ '{' := by
      rintro rfl
      exact hs List.mem_cons_self
    rw [scanFrom, if_neg hopen, if_neg (by simp), if_neg (by simp), ih (not_mem_item hs)]
    rfl

/-! ## 4. Globs without a slash -/

/-- A glob without a slash stands at any depth. -/
theorem scan_anchor_eq_after {s : List Char} (hslash : '/' ∉ s) :
    scan (anchor s) = (scanFrom (balanced 0 s) 0 0 s).after [.depths] := by
  have hanchor : anchor s = '/' :: '*' :: '*' :: '/' :: s :=
    if_neg fun h => hslash (List.contains_iff_mem.mp h)
  have hitem : item '/' ('*' :: '*' :: '/' :: s) = (.depths, s) := rfl
  have hbalanced : balanced 0 ('/' :: '*' :: '*' :: '/' :: s) = balanced 0 s :=
    balanced_append_of_not_brace (u := ['/', '*', '*', '/']) (by simp) 0 s
  rw [scan, hanchor, scanFrom_item (by decide), hitem, hbalanced]

theorem scan_anchor {s : List Char} (hslash : '/' ∉ s) {ts : List Token} {ranges : List Range}
    (hscan : ∀ braces, scanFrom braces 0 0 s = ⟨ts, ranges⟩) :
    scan (anchor s) = ⟨.depths :: ts, ranges⟩ := by
  rw [scan_anchor_eq_after hslash, hscan]
  rfl

/-- Such a glob says what its items say, behind a slash at any depth. -/
theorem mem_itemsLanguage_depths {ts : List Token} {s : List Char} :
    s ∈ itemsLanguage (.depths :: ts) ↔
      ∃ v ∈ Item.depths.language, ∃ name ∈ itemsLanguage ts, s = v ++ name := by
  rw [itemsLanguage_cons, Token.expr, language_depths, Language.mem_mul]
  constructor
  · rintro ⟨v, hv, name, hname, rfl⟩
    exact ⟨v, hv, name, hname, rfl⟩
  · rintro ⟨v, hv, name, hname, rfl⟩
    exact ⟨v, hv, name, hname, rfl⟩

end EditorSettings.Glob
