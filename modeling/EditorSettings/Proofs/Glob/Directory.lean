/-
# The directory of a glob is literal text

Whatever characters the name of a directory holds, in a glob they are plain.  What the glob says of
a path is therefore decided by the part of the path behind the directory, and there it is what the
glob says in a directory without a name (`matchesPath_iff_behind`).

The expression of a glob is the expression of the directory, continued by expressions that do not
depend on it (`exists_matcher?_eq`): the tokens behind the directory have no bars at the outermost
level, so the directory cannot get into a branch.  Going through the directory leaves one reading,
which has come to the text behind it and has met no numbers (`readings_directory`), or none.
-/
import EditorSettings.Proofs.Glob.Alternation
import EditorSettings.Proofs.Glob.Meaning

namespace EditorSettings.Glob

/-! ## 1. Sequences -/

theorem readings_nil (e : Expr) : e.readings [] = [] := by
  induction e with
  | empty => rfl
  | atom a => cases a <;> rfl
  | seq e f ihe ihf => rw [Expr.readings, ihe, ihf]
  | either e f ihe ihf =>
    have henter : Reading.enter [] = [] := rfl
    rw [Expr.readings, henter, ihe, ihf, List.nil_merge]
    rfl
  | group e ih => exact ih

theorem readings_followedBy (e : Expr) (xs : List Expr) (rs : List Reading) :
    (e.followedBy xs).readings rs = (Expr.empty.followedBy xs).readings (e.readings rs) := by
  have hfold : ∀ (xs : List Expr) (e : Expr) (rs : List Reading),
      (e.followedBy xs).readings rs = xs.foldl (fun rs x => x.readings rs) (e.readings rs) := by
    intro xs
    induction xs with
    | nil => intro e rs; rfl
    | cons x xs ih => intro e rs; exact ih (.seq e x) rs
  rw [hfold, hfold]
  rfl

theorem innerNesting_followedBy (e : Expr) (xs : List Expr) :
    (e.followedBy xs).innerNesting =
      max e.innerNesting (Expr.empty.followedBy xs).innerNesting := by
  induction xs generalizing e with
  | nil => exact (Nat.max_zero _).symm
  | cons x xs ih =>
    have hcons : ∀ d : Expr, (d.followedBy (x :: xs)).innerNesting =
        max (max d.innerNesting x.innerNesting) (Expr.empty.followedBy xs).innerNesting :=
      fun d => ih (.seq d x)
    rw [hcons, hcons .empty, Expr.innerNesting, Nat.zero_max, max_assoc]

theorem innerNesting_followedBy_congr {d e : Expr} (h : d.innerNesting = e.innerNesting)
    (xs : List Expr) : (d.followedBy xs).innerNesting = (e.followedBy xs).innerNesting := by
  rw [innerNesting_followedBy, h, ← innerNesting_followedBy]

theorem language_followedBy (e : Expr) (xs : List Expr) :
    (e.followedBy xs).language = e.language * (xs.map Expr.language).prod := by
  induction xs generalizing e with
  | nil => exact (mul_one e.language).symm
  | cons x xs ih =>
    rw [List.map_cons, List.prod_cons, ← mul_assoc]
    exact ih (.seq e x)

theorem directoryExpr_eq (dir : List Char) :
    directoryExpr dir = Expr.empty.followedBy (dir.map fun c => .atom (.char c)) :=
  List.foldl_map.symm

/-! ## 2. Going through a directory -/

theorem language_directoryExpr (dir : List Char) :
    (directoryExpr dir).language = ({dir} : Language Char) := by
  rw [directoryExpr, language_foldl, Expr.language, one_mul]

/-- **The directory is read in one way**, and no numbers are met. -/
theorem readings_directory (dir s : List Char) :
    (directoryExpr dir).readings [⟨.start (dir ++ s), [], []⟩] = [⟨.start s, [], []⟩] := by
  rw [directoryExpr_eq]
  induction dir with
  | nil => rfl
  | cons c dir ih =>
    have hone : (Expr.seq .empty (.atom (.char c))).readings [⟨.start (c :: dir ++ s), [], []⟩] =
        [⟨.start (dir ++ s), [], []⟩] := by
      simp [Expr.readings, Atom.readings, Reading.byOne, Place.after?, Place.start, Reading.moveTo]
    rw [← ih, ← hone]
    exact readings_followedBy (.seq .empty (.atom (.char c))) (dir.map fun c => .atom (.char c)) _

/-- A text that does not begin with the directory cannot be read. -/
theorem readings_directory_eq_nil {dir s : List Char} (h : ¬ dir <+: s) :
    (directoryExpr dir).readings [⟨.start s, [], []⟩] = [] := by
  refine List.eq_nil_iff_forall_not_mem.mpr fun r hr => h ?_
  obtain ⟨a, ⟨t, ht, rfl⟩, hreach⟩ :=
    (come_readings (directoryExpr dir) (within_start s) _).mp ⟨r, hr, rfl⟩
  rw [List.mem_singleton.mp ht, language_directoryExpr] at hreach
  obtain ⟨w, rfl, hw⟩ := hreach
  exact ⟨r.place.rest, hw.symm⟩

/-- **What stands behind the directory is read as if there were no directory.** -/
theorem whole?_directory (dir : List Char) (xs : List Expr) (s : List Char) :
    ((directoryExpr dir).followedBy xs).whole? (dir ++ s) =
      (Expr.empty.followedBy xs).whole? s := by
  rw [Expr.whole?, readings_followedBy, readings_directory]
  rfl

theorem whole?_directory_eq_none {dir s : List Char} (h : ¬ dir <+: s) (xs : List Expr) :
    ((directoryExpr dir).followedBy xs).whole? s = none := by
  rw [Expr.whole?, readings_followedBy, readings_directory_eq_nil h, readings_nil]
  rfl

/-! ## 3. The matcher of a glob -/

/-- The expression of a slash, or of slashes at any depth. -/
def IsSlash (x : Expr) : Prop := x = .atom (.char '/') ∨ x = .depths

/-- A token with which a glob begins, and its expression. -/
def Token.IsLead (t : Token) (x : Expr) : Prop :=
  t = .atom (.char '/') ∧ x = .atom (.char '/') ∨ t = .depths ∧ x = .depths

theorem Token.IsLead.isSlash {t : Token} {x : Expr} (h : t.IsLead x) : IsSlash x :=
  h.imp And.right And.right

/-- A glob begins with a slash or with slashes at any depth. -/
theorem exists_scan_anchor (s : List Char) :
    ∃ t x rest, t.IsLead x ∧
      scan (anchor s) = (scanFrom (balanced 0 (anchor s)) 0 0 rest).after [t] := by
  obtain ⟨rest, hrest⟩ : ∃ rest, anchor s = '/' :: rest := by
    unfold anchor
    split
    · split
      · exact ⟨_, rfl⟩
      · exact ⟨_, rfl⟩
    · exact ⟨_, rfl⟩
  obtain ⟨x, hx⟩ : ∃ x, (item '/' rest).1.IsLead x := by
    by_cases hstars : ∃ t, rest = '*' :: '*' :: '/' :: t
    · obtain ⟨t, rfl⟩ := hstars
      exact ⟨_, Or.inr ⟨rfl, rfl⟩⟩
    · rw [item_slash fun t ht => hstars ⟨t, ht⟩]
      exact ⟨_, Or.inl ⟨rfl, rfl⟩⟩
  exact ⟨_, x, (item '/' rest).2, hx, by rw [scan, hrest, scanFrom_item (by decide)]⟩

/-- The tokens of a scan continue every sequence in the same way. -/
theorem exists_ofTokensIn?_scanFrom (braces : Bool) (s : List Char) :
    ∃ read : Option (List Expr), ∀ e : Expr,
      Expr.ofTokensIn? [] ⟨none, e⟩ (scanFrom braces 0 0 s).tokens = read.map e.followedBy := by
  obtain ⟨n, hn⟩ := Option.isSome_iff_exists.mp (levelAfter?_scanFrom braces 0 0 s)
  exact exists_ofTokensIn?_eq_followedBy hn

/-- The directory and the lead do not make an expression too deep. -/
theorem nesting_lead_iff (dir : List Char) {x : Expr} (hx : IsSlash x) (xs : List Expr) :
    ((directoryExpr dir).followedBy (x :: xs)).nesting ≤ Expr.maxNesting ↔
      (Expr.empty.followedBy xs).nesting ≤ Expr.maxNesting := by
  have hlow : x.innerNesting ≤ 4 := by
    rcases hx with rfl | rfl
    · decide
    · decide
  have hdir : (directoryExpr dir).innerNesting = 0 := innerNesting_foldl dir .empty
  have hcons : ((directoryExpr dir).followedBy (x :: xs)).innerNesting =
      max (max (directoryExpr dir).innerNesting x.innerNesting)
        (Expr.empty.followedBy xs).innerNesting :=
    innerNesting_followedBy (.seq (directoryExpr dir) x) xs
  rw [hdir, Nat.zero_max] at hcons
  rw [Expr.nesting, Expr.nesting, Expr.maxNesting, hcons]
  omega

/-- **What follows the lead of a glob decides by itself whether there is a matcher**, and continues
the expression of the directory and the lead. -/
theorem matcher?_of_lead {s : List Char} {t : Token} {x : Expr} (ht : t.IsLead x) {rest : Scan}
    (hscan : scan (anchor s) = rest.after [t]) {read : Option (List Expr)}
    (hread : ∀ e : Expr, Expr.ofTokensIn? [] ⟨none, e⟩ rest.tokens = read.map e.followedBy)
    (dir : List Char) :
    matcher? dir s =
      (read.filter fun xs => (Expr.empty.followedBy xs).nesting ≤ Expr.maxNesting).map fun xs =>
        ⟨(directoryExpr dir).followedBy (x :: xs), rest.ranges⟩ := by
  have htokens : Expr.ofTokens? (dir.map (Token.atom ∘ Atom.char) ++ (scan (anchor s)).tokens) =
      read.map fun xs => (directoryExpr dir).followedBy (x :: xs) := by
    rw [hscan, Expr.ofTokens?, ofTokensIn?_directory]
    rcases ht with ⟨rfl, rfl⟩ | ⟨rfl, rfl⟩
    · exact hread (.seq (directoryExpr dir) (.atom (.char '/')))
    · exact hread (.seq (directoryExpr dir) .depths)
  simp only [matcher?, htokens]
  cases read with
  | none => rfl
  | some xs =>
    simp only [Option.map_some, nesting_lead_iff dir ht.isSlash, Option.filter_some,
      decide_eq_true_eq]
    rw [hscan]
    split
    · rfl
    · rfl

/-- **The expression of a glob is that of the directory, with others behind it.**  Those depend on
the glob alone, and so does its nesting.  The first of them stands for a slash. -/
theorem exists_matcher?_eq (s : List Char) :
    ∃ read : Option (List Expr), (∀ xs ∈ read, ∃ x more, xs = x :: more ∧ IsSlash x) ∧
      ∀ dir, matcher? dir s = read.map fun xs =>
        ⟨(directoryExpr dir).followedBy xs, (scan (anchor s)).ranges⟩ := by
  obtain ⟨t, x, rest, ht, hscan⟩ := exists_scan_anchor s
  obtain ⟨read, hread⟩ := exists_ofTokensIn?_scanFrom (balanced 0 (anchor s)) rest
  refine ⟨(read.filter fun xs =>
    (Expr.empty.followedBy xs).nesting ≤ Expr.maxNesting).map (x :: ·), ?_, fun dir => ?_⟩
  · intro xs hxs
    obtain ⟨more, -, rfl⟩ := Option.map_eq_some_iff.mp hxs
    exact ⟨x, more, rfl, ht.isSlash⟩
  · rw [matcher?_of_lead ht hscan hread, hscan, Option.map_map]
    rfl

/-! ## 4. What the glob says behind the directory -/

theorem head?_of_mem_language {x : Expr} (hx : IsSlash x) (xs : List Expr) {s : List Char}
    (h : s ∈ (Expr.empty.followedBy (x :: xs)).language) : s.head? = some '/' := by
  have hhead : ∀ u ∈ x.language, ∃ v, u = '/' :: v := by
    intro u hu
    rcases hx with rfl | rfl
    · obtain ⟨c, hc, rfl⟩ := hu
      exact ⟨[], by rw [beq_iff_eq.mp hc]⟩
    · rw [language_depths] at hu
      rcases hu with rfl | ⟨v, rfl⟩
      · exact ⟨[], rfl⟩
      · exact ⟨v ++ ['/'], rfl⟩
  rw [language_followedBy, Expr.language, one_mul, List.map_cons, List.prod_cons] at h
  obtain ⟨u, hu, v, -, rfl⟩ := Language.mem_mul.mp h
  obtain ⟨w, rfl⟩ := hhead u hu
  rfl

theorem accepts_directory_iff (dir : List Char) (xs : List Expr) (ranges : List Range)
    (path : List Char) :
    (Matcher.mk ((directoryExpr dir).followedBy xs) ranges).accepts path = true ↔
      ∃ s, path = dir ++ s ∧ (Matcher.mk (Expr.empty.followedBy xs) ranges).accepts s = true := by
  unfold Matcher.accepts
  constructor
  · intro h
    by_cases hprefix : dir <+: path
    · obtain ⟨s, rfl⟩ := hprefix
      rw [whole?_directory] at h
      exact ⟨s, rfl, h⟩
    · rw [whole?_directory_eq_none hprefix] at h
      cases h
  · rintro ⟨s, rfl, h⟩
    rw [whole?_directory]
    exact h

/-- What is accepted is in the language of the expression. -/
theorem mem_language_of_accepts {m : Matcher} {s : List Char} (h : m.accepts s = true) :
    s ∈ m.expr.language := by
  rw [← whole?_isSome_iff]
  unfold Matcher.accepts at h
  split at h
  · rename_i hread
    rw [hread]
    rfl
  · cases h

/-- **The directory of a glob is literal text, and it confines the glob.**  A glob matches a path if
and only if the path is the directory, without the slashes at its end, and behind it a text that
the same glob matches in a directory without a name; and every such text begins with a slash. -/
theorem matchesPath_iff_behind (dir pattern : String) :
    (∀ path : String, (compile dir pattern).matchesPath path = true ↔
      ∃ s : String, path.toList = dir.toList.rdropWhile (· == '/') ++ s.toList ∧
        (compile "" pattern).matchesPath s = true) ∧
    ∀ s : String, (compile "" pattern).matchesPath s = true → s.toList.head? = some '/' := by
  unfold matchesPath compile
  by_cases hlong : maxLength < pattern.length
  · simp [hlong]
  · rw [if_neg hlong, if_neg hlong]
    obtain ⟨read, hslash, hread⟩ := exists_matcher?_eq (unescapeComments pattern.toList)
    simp only [hread]
    cases read with
    | none => simp
    | some xs =>
      obtain ⟨x, more, rfl, hx⟩ := hslash xs rfl
      refine ⟨fun path => (accepts_directory_iff _ _ _ _).trans ?_, fun s h => ?_⟩
      · constructor
        · rintro ⟨s, hpath, h⟩
          refine ⟨String.ofList s, ?_, ?_⟩
          · rw [String.toList_ofList]
            exact hpath
          · rw [String.toList_ofList]
            exact h
        · rintro ⟨s, hpath, h⟩
          exact ⟨s.toList, hpath, h⟩
      · exact head?_of_mem_language hx more (mem_language_of_accepts h)

end EditorSettings.Glob
