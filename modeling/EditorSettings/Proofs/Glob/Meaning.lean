/-
# A glob means what its pattern says

The tokens of a pattern form an expression (`ofTokensIn?_pattern`).  It is built from left to right:
`Pattern.onto` is the expression that comes of a pattern behind what has been read already.  Its
language is the language of the pattern (`language_onto`), and it is nested as deeply as the pattern
(`innerNesting_onto`).

Together with the scan of the text and the readings of an expression this gives the main statement,
`glob_pattern`.  It has one condition that the grammar of patterns does not: a pattern of more than
`Expr.maxNesting` levels is refused, and there are such patterns (`not_isValid_nested`).
-/
import EditorSettings.Proofs.Glob.Reading
import EditorSettings.Proofs.Glob.Scanning
import Mathlib.Data.List.DropRight

namespace EditorSettings.Glob

/-! ## 1. The expression of a pattern -/

/-- The expression of an item. -/
def Item.expr : Item → Expr
  | .char g => .atom (.char g.char)
  | .slash => .atom (.char '/')
  | .one => .atom .one
  | .run => .atom .run
  | .any => .atom .any
  | .set negated first more => .atom (.set (classSet negated (first :: more)))
  | .depths => .depths

mutual

/-- The expression of a pattern that continues a sequence. -/
def Pattern.onto : Pattern → Expr → Expr
  | .nil, e => e
  | .cons i rest, e => rest.onto (.seq e i.expr)
  | .braces first others rest, e =>
    rest.onto (.seq e (.group (others.onto (first.onto .empty))))

/-- The expression of branches behind others. -/
def Branches.onto : Branches → Expr → Expr
  | .last p, e => .either e (p.onto .empty)
  | .more p rest, e => rest.onto (.either e (p.onto .empty))

end

theorem ofTokensIn?_item (outer : List Frame) (f : Frame) (i : Item) (ts : List Token) :
    Expr.ofTokensIn? outer f (i.token :: ts) = Expr.ofTokensIn? outer (f.push i.expr) ts := by
  cases i <;> rfl

mutual

/-- **The tokens of a pattern continue the branch that is being read** by its expression. -/
theorem ofTokensIn?_pattern (outer : List Frame) : ∀ (p : Pattern) (f : Frame) (ts : List Token),
    Expr.ofTokensIn? outer f (p.tokens ++ ts) =
      Expr.ofTokensIn? outer ⟨f.done, p.onto f.current⟩ ts
  | .nil, _, _ => rfl
  | .cons i p, f, ts => by
    rw [Pattern.tokens, List.cons_append, ofTokensIn?_item, ofTokensIn?_pattern outer p]
    rfl
  | .braces first others p, f, ts => by
    rw [Pattern.tokens, List.cons_append, Expr.ofTokensIn?, List.append_assoc,
      ofTokensIn?_pattern (f :: outer) first, List.append_assoc, List.cons_append,
      ofTokensIn?_branches f outer others, ofTokensIn?_pattern outer p]
    rfl

/-- The tokens of branches, up to the closing brace, make them a part of the branch outside. -/
theorem ofTokensIn?_branches (f : Frame) (outer : List Frame) :
    ∀ (bs : Branches) (g : Frame) (ts : List Token),
      Expr.ofTokensIn? (f :: outer) g (bs.tokens ++ .closing :: ts) =
        Expr.ofTokensIn? outer (f.push (.group (bs.onto g.toExpr))) ts
  | .last p, g, ts => by
    rw [Branches.tokens, List.cons_append, Expr.ofTokensIn?, ofTokensIn?_pattern (f :: outer) p]
    rfl
  | .more p bs, g, ts => by
    rw [Branches.tokens, List.cons_append, Expr.ofTokensIn?, List.append_assoc,
      ofTokensIn?_pattern (f :: outer) p, ofTokensIn?_branches f outer bs]
    rfl

end

/-- The characters of a directory, one after the other. -/
def directoryExpr (dir : List Char) : Expr :=
  dir.foldl (fun e c => .seq e (.atom (.char c))) .empty

theorem ofTokensIn?_directory (ts : List Token) :
    ∀ (dir : List Char) (f : Frame),
      Expr.ofTokensIn? [] f (dir.map (Token.atom ∘ Atom.char) ++ ts) =
        Expr.ofTokensIn? [] ⟨f.done, dir.foldl (fun e c => .seq e (.atom (.char c))) f.current⟩ ts
  | [], _ => rfl
  | c :: dir, f => by
    rw [List.map_cons, List.cons_append, Function.comp_apply, Expr.ofTokensIn?,
      ofTokensIn?_directory ts dir]
    rfl

/-- **The tokens of a glob form the expression of its pattern**, behind that of the directory. -/
theorem ofTokens?_pattern (dir : List Char) (p : Pattern) :
    Expr.ofTokens? (dir.map (Token.atom ∘ Atom.char) ++ p.tokens) =
      some (p.onto (directoryExpr dir)) := by
  have hp := ofTokensIn?_pattern [] p ⟨none, directoryExpr dir⟩ []
  rw [List.append_nil] at hp
  rw [Expr.ofTokens?, ofTokensIn?_directory]
  exact hp

/-! ## 2. Its language -/

theorem inSpan_toSpan (m : ClassMember) (c : Char) :
    (decide (m.toSpan.1 ≤ c.toNat) && decide (c.toNat ≤ m.toSpan.2)) = m.covers c := by
  cases m with
  | one g =>
    have hchar : c = g.char ↔ g.char.toNat ≤ c.toNat ∧ c.toNat ≤ g.char.toNat := by
      constructor
      · rintro rfl
        exact ⟨le_rfl, le_rfl⟩
      · rintro ⟨h1, h2⟩
        exact Char.toNat_inj.mp (le_antisymm h2 h1)
    rw [ClassMember.covers, ClassMember.toSpan, ← Bool.decide_and, beq_eq_decide]
    exact decide_eq_decide.mpr hchar.symm
  | span low high => rfl

theorem has_classSet (negated : Bool) (ms : List ClassMember) (c : Char) :
    (classSet negated ms).has c = (ms.any (·.covers c) != negated) := by
  have hspans : Text.inSpans (ms.map ClassMember.toSpan) c = ms.any (·.covers c) := by
    rw [Text.inSpans, List.any_map]
    exact congrArg (List.any ms) (funext fun m => inSpan_toSpan m c)
  rw [CharSet.has, classSet, hspans, List.any_nil, Bool.not_false, Bool.and_true]

theorem language_depths : Expr.depths.language = Item.depths.language := by
  ext w
  have hslash : ∀ v, v ∈ ones (· == '/') ↔ v = ['/'] := by
    intro v
    constructor
    · rintro ⟨c, hc, rfl⟩
      rw [beq_iff_eq.mp hc]
    · rintro rfl
      exact ⟨'/', rfl, rfl⟩
  constructor
  · rintro (hw | hw)
    · exact Or.inl ((hslash w).mp hw)
    · obtain ⟨u, hu, b, hb, rfl⟩ := Language.mem_mul.mp hw
      obtain ⟨a, ha, v, -, rfl⟩ := Language.mem_mul.mp hu
      rw [(hslash a).mp ha, (hslash b).mp hb]
      exact Or.inr ⟨v, rfl⟩
  · rintro (rfl | ⟨v, rfl⟩)
    · exact Or.inl ((hslash _).mpr rfl)
    · refine Or.inr (Language.append_mem_mul ?_ ((hslash _).mpr rfl))
      exact Language.append_mem_mul ((hslash ['/']).mpr rfl) fun _ _ => rfl

theorem language_item (i : Item) : i.expr.language = i.language := by
  cases i with
  | set negated first more => exact congrArg ones (funext (has_classSet negated (first :: more)))
  | depths => exact language_depths
  | char g => rfl
  | slash => rfl
  | one => rfl
  | run => rfl
  | any => rfl

mutual

/-- **The expression of a pattern says what the pattern says**, behind what has been read. -/
theorem language_onto : ∀ (p : Pattern) (e : Expr),
    (p.onto e).language = e.language * p.meaning
  | .nil, e => (mul_one e.language).symm
  | .cons i p, e => by
    rw [Pattern.onto, language_onto p, Expr.language, language_item, Pattern.meaning, mul_assoc]
  | .braces first others p, e => by
    rw [Pattern.onto, language_onto p, Expr.language, Expr.language, language_onto_branches others,
      language_onto first, Expr.language, one_mul, Pattern.meaning, mul_assoc]

/-- Further branches are further choices. -/
theorem language_onto_branches : ∀ (bs : Branches) (e : Expr),
    (bs.onto e).language = e.language + bs.meaning
  | .last p, e => by
    rw [Branches.onto, Expr.language, language_onto p, Expr.language, one_mul, Branches.meaning]
  | .more p bs, e => by
    rw [Branches.onto, language_onto_branches bs, Expr.language, language_onto p, Expr.language,
      one_mul, Branches.meaning, add_assoc]

end

theorem language_foldl : ∀ (dir : List Char) (e : Expr),
    (dir.foldl (fun e c => .seq e (.atom (.char c))) e).language =
      e.language * ({dir} : Language Char)
  | [], e => (mul_one e.language).symm
  | c :: dir, e => by
    have hchar : (Expr.atom (.char c)).language * ({dir} : Language Char) = {c :: dir} := by
      ext w
      constructor
      · rintro ⟨u, ⟨d, hd, rfl⟩, v, rfl, rfl⟩
        rw [beq_iff_eq.mp hd]
        rfl
      · rintro rfl
        have hc : [c] ∈ ones (· == c) := ⟨c, beq_self_eq_true c, rfl⟩
        exact Language.append_mem_mul hc (rfl : dir ∈ ({dir} : Language Char))
    rw [List.foldl_cons, language_foldl dir, Expr.language, mul_assoc, hchar]

/-! ## 3. Its nesting -/

/-- Two members are two spans, and several spans are a level below the brackets. -/
theorem nesting_classSet_cons (negated : Bool) (first m : ClassMember) (more : List ClassMember) :
    (classSet negated (first :: m :: more)).nesting = 2 := by
  have hlong : 2 ≤ ((first :: m :: more).map ClassMember.toSpan).length := by
    rw [List.length_map, List.length_cons, List.length_cons]
    omega
  rw [CharSet.nesting, classSet, decide_eq_true hlong]
  rfl

theorem innerNesting_item (i : Item) : i.expr.innerNesting = i.levels := by
  cases i with
  | set negated first more =>
    cases more with
    | nil => rfl
    | cons m more => exact nesting_classSet_cons negated first m more
  | depths => rfl
  | char g => rfl
  | slash => rfl
  | one => rfl
  | run => rfl
  | any => rfl

theorem items_item (i : Item) : i.expr.items = 1 := by
  cases i <;> rfl

theorem items_onto : ∀ (p : Pattern) (e : Expr), (p.onto e).items = e.items + p.size
  | .nil, e => rfl
  | .cons i p, e => by
    rw [Pattern.onto, items_onto p, Expr.items, items_item, Pattern.size, Nat.add_assoc]
  | .braces first others p, e => by
    rw [Pattern.onto, items_onto p, Expr.items, Pattern.size, Nat.add_assoc]
    rfl

theorem sequenceLevel_onto_empty (p : Pattern) : (p.onto .empty).sequenceLevel = p.rowLevel := by
  rw [Expr.sequenceLevel, items_onto, Pattern.rowLevel, Expr.items, Nat.zero_add]

theorem branchLevel_onto : ∀ (bs : Branches) (e : Expr), (bs.onto e).branchLevel = 1
  | .last _, _ => rfl
  | .more p bs, e => branchLevel_onto bs (.either e (p.onto .empty))

theorem sequenceLevel_onto : ∀ (bs : Branches) (e : Expr), (bs.onto e).sequenceLevel = 0
  | .last _, _ => rfl
  | .more p bs, e => sequenceLevel_onto bs (.either e (p.onto .empty))

mutual

/-- **The expression of a pattern is nested as deeply as the pattern**, or as what has been read. -/
theorem innerNesting_onto : ∀ (p : Pattern) (e : Expr),
    (p.onto e).innerNesting = max e.innerNesting p.innerLevels
  | .nil, e => (Nat.max_zero e.innerNesting).symm
  | .cons i p, e => by
    rw [Pattern.onto, innerNesting_onto p, Expr.innerNesting, innerNesting_item,
      Pattern.innerLevels, Nat.max_assoc]
  | .braces first others p, e => by
    have hfirst : (first.onto .empty).innerNesting = first.innerLevels := by
      rw [innerNesting_onto first, Expr.innerNesting, Nat.zero_max]
    rw [Pattern.onto, innerNesting_onto p, Expr.innerNesting, Expr.innerNesting,
      branchLevel_onto, sequenceLevel_onto, innerNesting_onto_branches others, hfirst,
      sequenceLevel_onto_empty, Pattern.innerLevels, Nat.max_assoc]
    rfl

/-- Of branches the deepest counts. -/
theorem innerNesting_onto_branches : ∀ (bs : Branches) (e : Expr),
    (bs.onto e).innerNesting = max (e.innerNesting + e.sequenceLevel) bs.innerLevels
  | .last p, e => by
    rw [Branches.onto, Expr.innerNesting, innerNesting_onto p, Expr.innerNesting, Nat.zero_max,
      sequenceLevel_onto_empty, Branches.innerLevels]
  | .more p bs, e => by
    have hp : (p.onto .empty).innerNesting = p.innerLevels := by
      rw [innerNesting_onto p, Expr.innerNesting, Nat.zero_max]
    have heither : (Expr.either e (p.onto .empty)).sequenceLevel = 0 := rfl
    rw [Branches.onto, innerNesting_onto_branches bs, heither, Expr.innerNesting, hp,
      sequenceLevel_onto_empty, Branches.innerLevels, Nat.add_zero, Nat.max_assoc]

end

theorem innerNesting_foldl : ∀ (dir : List Char) (e : Expr),
    (dir.foldl (fun e c => .seq e (.atom (.char c))) e).innerNesting = e.innerNesting
  | [], _ => rfl
  | c :: dir, e => by
    rw [List.foldl_cons, innerNesting_foldl dir]
    exact Nat.max_zero e.innerNesting

/-! ## 4. Braces in braces -/

/-- The pattern `b` in so many braces, each of which offers an `a` instead. -/
def Pattern.nested : Nat → Pattern
  | 0 => .cons (.char (.bare 'b')) .nil
  | n + 1 => .braces (.cons (.char (.bare 'a')) .nil) (.last (nested n)) .nil

theorem mem_glyphs_nested : ∀ (n : Nat), ∀ g ∈ (Pattern.nested n).glyphs,
    g ∈ ['a', 'b', '{', ',', '}'].map Glyph.bare
  | 0, g, hg => by
    rw [List.mem_singleton.mp hg]
    decide
  | n + 1, g, hg => by
    change g ∈
      .bare '{' :: .bare 'a' :: .bare ',' :: ((Pattern.nested n).glyphs ++ [.bare '}']) at hg
    simp only [List.mem_cons, List.mem_append, List.not_mem_nil, or_false] at hg
    rcases hg with rfl | rfl | rfl | hg | rfl
    · decide
    · decide
    · decide
    · exact mem_glyphs_nested n g hg
    · decide

theorem isProper_nested : ∀ (n : Nat), (Pattern.nested n).IsProper
  | 0 => ⟨(by decide : 'b' ∉ special), fun e => (by cases e), trivial⟩
  | n + 1 =>
    ⟨⟨(by decide : 'a' ∉ special), fun e => (by cases e), trivial⟩, isProper_nested n, trivial⟩

theorem wellFormed_nested (n : Nat) : (Pattern.nested n).WellFormed where
  proper := isProper_nested n
  comments := by
    refine List.Pairwise.isChain (List.pairwise_of_forall_mem_list fun a ha b _ he => ?_)
    have hbare : .escaped '\\' ∉ ['a', 'b', '{', ',', '}'].map Glyph.bare := by decide
    exact absurd (he ▸ mem_glyphs_nested n a ha) hbare

theorem length_text_nested : ∀ (n : Nat), (Pattern.nested n).text.length = 4 * n + 1
  | 0 => rfl
  | n + 1 => by
    have hend := textOf_append [] (Pattern.nested n).glyphs [.bare '}']
    have htext : (Pattern.nested (n + 1)).text =
        '{' :: 'a' :: ',' :: ((Pattern.nested n).text ++ ['}']) :=
      congrArg (fun s => '{' :: 'a' :: ',' :: s) hend
    rw [htext, List.length_cons, List.length_cons, List.length_cons, List.length_append,
      length_text_nested n]
    rfl

theorem joined_nested : ∀ (n : Nat), (Pattern.nested n).joined = Pattern.nested n
  | 0 => rfl
  | n + 1 => by
    rw [Pattern.nested, Pattern.joined, Branches.joined, joined_nested n]
    rfl

/-- Every alternation has two levels. -/
theorem innerLevels_nested : ∀ (n : Nat), (Pattern.nested n).innerLevels = 2 * n
  | 0 => rfl
  | n + 1 => by
    have hrow : (Pattern.nested n).rowLevel = 0 := by cases n <;> rfl
    rw [Pattern.nested, Pattern.innerLevels, Branches.innerLevels, innerLevels_nested n, hrow]
    change max (2 + max 0 (2 * n)) 0 = 2 * (n + 1)
    omega

theorem levels_nested (n : Nat) : (Pattern.nested n).anchored.levels = 1 + max 4 (2 * n) := by
  have hslash : .bare '/' ∉ ['a', 'b', '{', ',', '}'].map Glyph.bare := by decide
  rw [anchored_of_not_slash fun h => hslash (mem_glyphs_nested n _ h), Pattern.levels,
    Pattern.joined, Pattern.innerLevels, joined_nested, innerLevels_nested]
  rfl

theorem a_mem_anchored_nested {n : Nat} (hn : n ≠ 0) :
    ['/', 'a'] ∈ (Pattern.nested n).anchored.language := by
  have hslash : .bare '/' ∉ ['a', 'b', '{', ',', '}'].map Glyph.bare := by decide
  have hroot : ['/'] ∈ Item.depths.language := Or.inl rfl
  have ha : ['a'] ∈ (Pattern.nested n).meaning := by
    obtain ⟨m, rfl⟩ := Nat.exists_eq_succ_of_ne_zero hn
    have hnil : Pattern.nil.meaning = 1 := rfl
    rw [Pattern.nested, Pattern.meaning, hnil, mul_one, Pattern.meaning, hnil, mul_one]
    exact Or.inl ⟨'a', rfl, rfl⟩
  rw [anchored_of_not_slash fun h => hslash (mem_glyphs_nested n _ h), Pattern.language,
    Pattern.joined, joined_nested, Pattern.meaning]
  exact Language.append_mem_mul hroot ha

/-! ## 5. The glob of a pattern -/

/-- The glob that a pattern is in a file of the directory. -/
def Pattern.glob (p : Pattern) (dir : String) : Glob := compile dir (String.ofList p.text)

/-- The expression of that glob. -/
def Pattern.expr (p : Pattern) (dir : String) : Expr :=
  p.anchored.joined.onto (directoryExpr (directoryText dir))

theorem nesting_expr (p : Pattern) (dir : String) :
    (p.expr dir).nesting = p.anchored.levels := by
  have hdir : (directoryExpr (directoryText dir)).innerNesting = 0 :=
    innerNesting_foldl (directoryText dir) .empty
  rw [Expr.nesting, Pattern.expr, innerNesting_onto, hdir, Nat.zero_max, Pattern.levels]

theorem language_expr (p : Pattern) (dir : String) :
    (p.expr dir).language = {directoryText dir} * p.anchored.language := by
  rw [Pattern.expr, language_onto, directoryExpr, language_foldl, Expr.language, one_mul,
    Pattern.language]

/-- **A pattern has a matcher unless it is nested too deeply**, and the matcher is its expression,
without any ranges. -/
theorem matcher?_bareText {p : Pattern} (h : p.IsProper) (dir : String) :
    matcher? (directoryText dir) p.bareText =
      if p.anchored.levels ≤ Expr.maxNesting then some ⟨p.expr dir, []⟩ else none := by
  unfold matcher?
  rw [← bareText_anchored h, scan_text (isProper_anchored h), ← nesting_expr p dir]
  dsimp only
  rw [ofTokens?_pattern]
  rfl

/-- The glob of a pattern that is not too long. -/
theorem matcher_glob {p : Pattern} (hp : p.WellFormed) (hlength : p.text.length ≤ maxLength)
    (dir : String) :
    (p.glob dir).matcher =
      if p.anchored.levels ≤ Expr.maxNesting then .ok ⟨p.expr dir, []⟩
      else .error (.malformed (String.ofList p.bareText)) := by
  unfold Pattern.glob compile
  rw [String.length_ofList, if_neg (Nat.not_lt.mpr hlength), String.toList_ofList,
    unescapeComments_text hp]
  dsimp only
  rw [matcher?_bareText hp.proper]
  by_cases hlevels : p.anchored.levels ≤ Expr.maxNesting
  · rw [if_pos hlevels, if_pos hlevels]
  · rw [if_neg hlevels, if_neg hlevels]

/-- A matcher without ranges accepts the language of its expression. -/
theorem accepts_iff (e : Expr) (s : List Char) :
    (Matcher.mk e []).accepts s = true ↔ s ∈ e.language := by
  rw [← whole?_isSome_iff, Matcher.accepts]
  cases e.whole? s with
  | none => exact Iff.rfl
  | some r => exact Iff.rfl

/-- **A glob means what its pattern says.**  It is valid if and only if its levels of nesting are
not too many.  A valid glob matches those paths that are the directory, without the slashes at its
end, and behind it a text that the anchored pattern says; any other glob matches nothing. -/
theorem glob_pattern (dir : String) {p : Pattern} (hp : p.WellFormed)
    (hlength : p.text.length ≤ maxLength) :
    ((p.glob dir).isValid = true ↔ p.anchored.levels ≤ Expr.maxNesting) ∧
    ∀ path : String, (p.glob dir).matchesPath path = true ↔
      p.anchored.levels ≤ Expr.maxNesting ∧
        ∃ w ∈ p.anchored.language, path.toList = dir.toList.rdropWhile (· == '/') ++ w := by
  have hmatcher := matcher_glob hp hlength dir
  unfold isValid defect? matchesPath
  by_cases hlevels : p.anchored.levels ≤ Expr.maxNesting
  · rw [if_pos hlevels] at hmatcher
    rw [hmatcher]
    refine ⟨⟨fun _ => hlevels, fun _ => rfl⟩, fun path => ?_⟩
    dsimp only
    rw [accepts_iff, language_expr, Language.mem_mul]
    constructor
    · rintro ⟨d, hd, w, hw, he⟩
      rw [Set.mem_singleton_iff.mp hd] at he
      exact ⟨hlevels, w, hw, he.symm⟩
    · rintro ⟨-, w, hw, he⟩
      exact ⟨directoryText dir, rfl, w, hw, he.symm⟩
  · rw [if_neg hlevels] at hmatcher
    rw [hmatcher]
    refine ⟨⟨fun h => ?_, fun h => absurd h hlevels⟩, fun path => ⟨fun h => ?_, ?_⟩⟩
    · cases h
    · cases h
    · rintro ⟨h, -⟩
      exact absurd h hlevels

/-- A pattern with an escape, braces in braces and a class. -/
def mixedPattern : Pattern :=
  .cons (.char (.bare 'a')) (.cons .slash (.cons .any (.cons .slash
    (.braces (.cons (.char (.escaped ';')) .nil)
      (.more .nil (.last (.braces (.cons .one .nil)
        (.last (.cons (.set true (.span (.bare '0') (.bare '9')) [.one (.escaped '-')])
          (.cons .run .nil))) .nil)))
      .nil))))

theorem wellFormed_mixedPattern : mixedPattern.WellFormed := by
  constructor
  · simp [mixedPattern, Pattern.IsProper, Branches.IsProper, Item.IsProper, ClassMember.IsProper,
      ClassMember.IsInner, Pattern.first?, Item.isStar, special]
    decide
  · unfold Glyph.MayPrecede
    decide

theorem glob_mixedPattern :
    mixedPattern.text = "a/**/\x7b\\;,,\x7b?,[!0-9\\-]*\x7d\x7d".toList ∧
    (mixedPattern.glob "/project/").isValid = true ∧
    ∀ path : String, (mixedPattern.glob "/project/").matchesPath path = true ↔
      ∃ w ∈ mixedPattern.anchored.language, path.toList = "/project".toList ++ w := by
  have hlevels : mixedPattern.anchored.levels ≤ Expr.maxNesting := by decide
  obtain ⟨hvalid, hmatches⟩ := glob_pattern "/project/" wellFormed_mixedPattern (by decide)
  refine ⟨by decide, hvalid.mpr hlevels, fun path => (hmatches path).trans ?_⟩
  exact ⟨fun h => h.2, fun h => ⟨hlevels, h⟩⟩

/-- **A proper glob need not be valid.**  The directory and an `a` are what the pattern says, but
the pattern has too many levels. -/
theorem not_isValid_nested :
    (Pattern.nested 125).WellFormed ∧ (Pattern.nested 125).text.length ≤ maxLength ∧
    (∃ w ∈ (Pattern.nested 125).anchored.language,
      "/project/a".toList = "/project".toList.rdropWhile (· == '/') ++ w) ∧
    ((Pattern.nested 125).glob "/project").isValid = false ∧
    ((Pattern.nested 125).glob "/project").matchesPath "/project/a" = false := by
  -- The number keeps a name: with the numeral in it, the pattern is unfolded at every step.
  generalize hn : 125 = n
  have hlength : (Pattern.nested n).text.length ≤ maxLength := by
    rw [length_text_nested, maxLength]
    omega
  have hlevels : ¬ (Pattern.nested n).anchored.levels ≤ Expr.maxNesting := by
    rw [levels_nested, Expr.maxNesting]
    omega
  have hmem : ['/', 'a'] ∈ (Pattern.nested n).anchored.language :=
    a_mem_anchored_nested (by omega)
  have hmatcher := matcher_glob (wellFormed_nested n) hlength "/project"
  rw [if_neg hlevels] at hmatcher
  refine ⟨wellFormed_nested n, hlength, ⟨['/', 'a'], hmem, by decide⟩, ?_, ?_⟩
  · rw [isValid, defect?, hmatcher]
    rfl
  · rw [matchesPath, hmatcher]

end EditorSettings.Glob
