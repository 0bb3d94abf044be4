/-
# Globs without braces

A text without braces, classes and escapes is a row of items: characters, wildcards, and slashes at
any depth.  `wild` says what such a text says, item by item, and a glob says just that behind its
directory (`matchesPath_wild`).  Where a text does not continue a row of stars and slashes, it can
be divided (`wild_append`).
-/
import EditorSettings.Proofs.Glob.Row

namespace EditorSettings.Glob

/-! ## 1. What a text without braces says -/

/-- There are no braces, no classes and no escapes. -/
structure IsWild (s : List Char) : Prop where
  bare : IsBare s
  opening : '{' ∉ s
  closing : '}' ∉ s

/-- What a text without braces says. -/
def wild : List Char → Language Char
  | [] => 1
  | '*' :: '*' :: rest => runs (fun _ => true) * wild rest
  | '*' :: rest => runs (· != '/') * wild rest
  | '?' :: rest => ones (· != '/') * wild rest
  | '/' :: '*' :: '*' :: '/' :: rest => Item.depths.language * wild rest
  | c :: rest => ones (· == c) * wild rest

theorem isWild_iff {s : List Char} : IsWild s ↔ IsBare s ∧ '{' ∉ s ∧ '}' ∉ s :=
  ⟨fun h => ⟨h.bare, h.opening, h.closing⟩, fun h => ⟨h.1, h.2.1, h.2.2⟩⟩

instance (s : List Char) : Decidable (IsWild s) := decidable_of_iff' _ isWild_iff

theorem IsWild.append {s t : List Char} (hs : IsWild s) (ht : IsWild t) : IsWild (s ++ t) := by
  refine ⟨hs.bare.append ht.bare, ?_, ?_⟩
  · simp [hs.opening, ht.opening]
  · simp [hs.closing, ht.closing]

theorem IsWild.of_suffix {s t : List Char} (h : IsWild s) (ht : t <:+ s) : IsWild t :=
  ⟨h.bare.of_suffix ht, fun hmem => h.opening (ht.subset hmem),
    fun hmem => h.closing (ht.subset hmem)⟩

theorem IsWild.isPiece {s : List Char} (h : IsWild s) : IsPiece s := by
  refine ⟨h.bare, ?_⟩
  have hs : ∀ c ∈ s, c ≠ '\\' ∧ c ≠ '{' ∧ c ≠ '}' := by
    intro c hc
    refine ⟨?_, ?_, ?_⟩
    · rintro rfl
      exact h.bare.1 hc
    · rintro rfl
      exact h.opening hc
    · rintro rfl
      exact h.closing hc
  have hbalanced := balanced_append_of_not_brace hs 0 []
  rw [List.append_nil] at hbalanced
  exact hbalanced

/-! ## 2. Its expressions -/

/-- The token is a character, a wildcard or a slash at any depth. -/
def Token.IsWild (t : Token) : Prop :=
  (∃ c, t = .atom (.char c)) ∨ t ∈ [Token.atom .one, .atom .run, .atom .any, .depths]

theorem isWild_item {c : Char} {s : List Char} (hs : IsBare (c :: s)) :
    (item c s).1.IsWild := by
  obtain ⟨hback, hopen⟩ := hs.ne
  unfold item
  split
  case h_1 => exact absurd rfl hback
  case h_6 => exact absurd rfl hopen
  case h_7 => exact Or.inl ⟨_, rfl⟩
  all_goals exact Or.inr (by simp)

theorem isWild_of_mem_plain {s : List Char} (hs : IsBare s) : ∀ t ∈ plain s, t.IsWild := by
  fun_induction plain s with
  | case1 => simp
  | case2 c rest ih =>
    intro t ht
    rcases List.mem_cons.mp ht with rfl | ht
    · exact isWild_item hs
    · exact ih (hs.of_cons.of_suffix (item_suffix _ _)) t ht

/-- The expressions of the items. -/
def wildExprs (s : List Char) : List Expr := (plain s).map Token.expr

theorem Token.IsWild.isItem {t : Token} (h : t.IsWild) : t.IsItem := by
  rcases h with ⟨c, rfl⟩ | h
  · exact Or.inr ⟨_, rfl⟩
  · simp only [List.mem_cons, List.not_mem_nil, or_false] at h
    rcases h with rfl | rfl | rfl | rfl
    · exact Or.inr ⟨_, rfl⟩
    · exact Or.inr ⟨_, rfl⟩
    · exact Or.inr ⟨_, rfl⟩
    · exact Or.inl rfl

theorem innerNesting_expr_le {t : Token} (h : t.IsWild) : t.expr.innerNesting ≤ 4 := by
  rcases h with ⟨c, rfl⟩ | h
  · exact Nat.zero_le 4
  · revert t
    decide

/-! ## 3. Its language -/

theorem wild_cons {c : Char} {s : List Char} (hs : IsBare (c :: s)) :
    wild (c :: s) = (item c s).1.expr.language * wild (item c s).2 := by
  obtain ⟨hback, hopen⟩ := hs.ne
  by_cases hstar : c = '*'
  · subst hstar
    by_cases hnext : s.head? = some '*'
    · obtain ⟨t, rfl⟩ := List.head?_eq_some_iff.mp hnext
      rw [wild]
      rfl
    · rw [item_run hnext, wild]
      · rfl
      · rintro t rfl
        exact hnext rfl
  by_cases hone : c = '?'
  · subst hone
    rw [wild]
    rfl
  by_cases hslash : c = '/'
  · subst hslash
    by_cases hstars : ∃ t, s = '*' :: '*' :: '/' :: t
    · obtain ⟨t, rfl⟩ := hstars
      rw [wild, ← language_depths]
      rfl
    · have hnone : ∀ t, s ≠ '*' :: '*' :: '/' :: t := fun t ht => hstars ⟨t, ht⟩
      rw [item_slash hnone, wild]
      · rfl
      all_goals simp_all
  · rw [item_char (by simp [hback, hstar, hone, hslash, hopen]), wild]
    · rfl
    all_goals simp_all

theorem prod_wildExprs {s : List Char} (hs : IsBare s) :
    ((wildExprs s).map Expr.language).prod = wild s := by
  unfold wildExprs
  fun_induction plain s with
  | case1 => rfl
  | case2 c rest ih =>
    rw [List.map_cons, List.map_cons, List.prod_cons, ih (hs.of_cons.of_suffix (item_suffix _ _)),
      wild_cons hs]

theorem itemsLanguage_plain {s : List Char} (hs : IsBare s) : itemsLanguage (plain s) = wild s := by
  rw [← prod_wildExprs hs, wildExprs, List.map_map]
  rfl

theorem plain_append {s : List Char} (hs : IsBare s) {t : List Char} (ht : GoesOn t) :
    plain (s ++ t) = plain s ++ plain t := by
  fun_induction plain s with
  | case1 => rfl
  | case2 c rest ih =>
    rw [List.cons_append, plain, item_append hs ht, ih (hs.of_cons.of_suffix (item_suffix _ _)),
      List.cons_append]

/-- **A text can be divided** where it does not continue a row of stars and slashes. -/
theorem wild_append {s t : List Char} (hs : IsBare s) (ht : IsBare t) (hgoes : GoesOn t) :
    wild (s ++ t) = wild s * wild t := by
  rw [← prod_wildExprs (hs.append ht), ← prod_wildExprs hs, ← prod_wildExprs ht, wildExprs,
    plain_append hs hgoes, List.map_append, List.map_append, List.prod_append]
  rfl

/-! ## 4. Its glob -/

theorem isWild_lead (s : List Char) : IsWild (lead s) := by
  unfold lead
  split
  · split
    · decide
    · decide
  · decide

theorem IsWild.anchor {s : List Char} (hs : IsWild s) : IsWild (anchor s) := by
  rw [anchor_eq]
  exact (isWild_lead s).append hs

/-- The matcher of a glob without braces. -/
theorem matcher?_wild (dir : List Char) {s : List Char} (hs : IsWild s) :
    matcher? dir s = some ⟨(directoryExpr dir).followedBy (wildExprs (anchor s)), []⟩ := by
  have hscan : scan (anchor s) = ⟨plain (anchor s), []⟩ :=
    scanFrom_eq_plain hs.anchor.opening _ 0
  have hwild := isWild_of_mem_plain hs.anchor.bare
  exact matcher?_row_of_le dir hscan (fun t ht => (hwild t ht).isItem)
    fun t ht => (innerNesting_expr_le (hwild t ht)).trans (by decide)

/-- **A glob without braces says what its text says**, behind the directory. -/
theorem matchesPath_wild (dir : String) {s : List Char} (hs : IsWild s)
    (hlength : s.length ≤ maxLength) (path : String) :
    (compile dir (String.ofList s)).matchesPath path = true ↔
      ∃ w ∈ wild (anchor s), path.toList = directoryText dir ++ w := by
  have hmatcher : matcher? (directoryText dir) (unescapeComments (String.ofList s).toList) =
      some ⟨rowExpr (directoryText dir) (plain (anchor s)), []⟩ := by
    rw [String.toList_ofList, unescapeComments_eq_self hs.bare.1]
    exact matcher?_wild _ hs
  rw [matchesPath_row (by rwa [String.length_ofList]) hmatcher, itemsLanguage_plain hs.anchor.bare]

end EditorSettings.Glob
