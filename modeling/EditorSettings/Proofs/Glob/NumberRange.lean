/-
# Ranges beside wildcards

A range in a glob stands for an integer between its bounds.  The text of the integer is read first
and compared with the bounds afterwards, and it is read in one way only: of all ways to read the
path, the first one counts.  Where a wildcard stands beside the range, it may take digits of the
number, and then the number is compared that is left (`not_matchesPath_star_range`).

So a glob with a range matches if and only if the first way to read the path leaves a number of
the range (`matchesPath_range`).  If the glob with some integer of the range in its place matches,
there is such a way; and if there is no other one, the range is exact.
-/
import EditorSettings.Proofs.Glob.Priority
import EditorSettings.Proofs.Glob.Wild
import EditorSettings.Proofs.Text.Decimal

namespace EditorSettings.Glob

open EditorSettings.Text

/-! ## 1. Numerals and decimals -/

theorem mem_numerals_iff {w : List Char} : w ∈ numerals ↔ ∃ n : Numeral, n.text = w := by
  constructor
  · rintro ⟨sign, d, ds, hsign, hd, hds, rfl⟩
    have hall : ∀ c ∈ d :: ds, isDigit c = true := List.forall_mem_cons.mpr ⟨hd, hds⟩
    simp only [List.mem_cons, List.not_mem_nil, or_false] at hsign
    rcases hsign with rfl | rfl | rfl
    · exact ⟨⟨.absent, d :: ds, List.cons_ne_nil _ _, hall⟩, rfl⟩
    · exact ⟨⟨.plus, d :: ds, List.cons_ne_nil _ _, hall⟩, rfl⟩
    · exact ⟨⟨.minus, d :: ds, List.cons_ne_nil _ _, hall⟩, rfl⟩
  · rintro ⟨n, rfl⟩
    obtain ⟨d, ds, hdigits, hd, hds⟩ := n.exists_digits_eq_cons
    refine ⟨n.sign.text, d, ds, ?_, hd, hds, by rw [Numeral.text, hdigits]⟩
    cases n.sign <;> simp [Sign.text]

theorem hasNeedlessZero_text (n : Numeral) :
    Range.hasNeedlessZero n.text = false ↔ n.IsCanonical := by
  obtain ⟨d, ds, hdigits, hd, -⟩ := n.exists_digits_eq_cons
  obtain ⟨hplus, hminus⟩ := not_sign_of_isDigit hd
  have hsign : ∀ c ∈ n.sign.text, (c == '+' || c == '-') = true := by
    cases n.sign <;> simp [Sign.text]
  have hdrop : n.text.dropWhile (fun c => c == '+' || c == '-') = d :: ds := by
    rw [Numeral.text, List.dropWhile_append_of_pos hsign, hdigits]
    exact List.dropWhile_cons_of_neg (by simp [hplus, hminus])
  rw [Range.hasNeedlessZero, hdrop, Numeral.IsCanonical, hdigits]
  cases ds with
  | nil => simp
  | cons e es =>
    by_cases hzero : d = '0'
    · simp [hzero]
    · simp [hzero]

/-- A numeral is accepted if it stands for an integer of the range and has no needless zeros. -/
theorem accepts_text (range : Range) (n : Numeral) :
    range.accepts n.text = true ↔
      n.IsCanonical ∧ FitsInt64 n.value ∧ range.low ≤ n.value ∧ n.value ≤ range.high := by
  rw [Range.accepts, Bool.and_eq_true, Bool.not_eq_true', hasNeedlessZero_text]
  refine and_congr_right fun _ => ?_
  by_cases hfits : FitsInt64 n.value
  · rw [int64?_eq_some_iff.mpr ⟨n, rfl, rfl, hfits⟩]
    simp [hfits]
  · have hnone : int64? n.text = none := by
      rw [int64?, integer?_text, Option.filter_some, if_neg]
      simpa [FitsInt64] using hfits
    rw [hnone]
    simp [hfits]

/-- Beside digits, there is at most a dash in a decimal. -/
theorem of_mem_decimal {n : Int} {c : Char} (h : c ∈ decimal n) : c = '-' ∨ isDigit c = true := by
  rcases decimal_cases n with ⟨k, -, hdecimal⟩ | ⟨k, -, -, hdecimal⟩
  · rw [hdecimal] at h
    exact Or.inr (isDigit_of_mem_toDigits h)
  · rw [hdecimal, List.mem_cons] at h
    exact h.imp_right isDigit_of_mem_toDigits

theorem not_mem_decimal {c : Char} (h : c ≠ '-' ∧ isDigit c = false) (n : Int) :
    c ∉ decimal n := by
  intro hc
  rcases of_mem_decimal hc with hdash | hdigit
  · exact h.1 hdash
  · rw [h.2] at hdigit
    cases hdigit

theorem decimal_mem_numerals (n : Int) : decimal n ∈ numerals := by
  obtain ⟨x, htext, -⟩ := exists_numeral_decimal n
  exact mem_numerals_iff.mpr ⟨x, htext⟩

/-- **A range accepts the decimals of its integers**, and of no others. -/
theorem accepts_decimal (range : Range) {n : Int} (hn : FitsInt64 n) :
    range.accepts (decimal n) = true ↔ range.low ≤ n ∧ n ≤ range.high := by
  obtain ⟨x, htext, rfl, hcanonical⟩ := exists_numeral_decimal n
  rw [← htext, accepts_text]
  simp [hcanonical, hn]

/-! ## 2. The text of a range -/

/-- What stands between the braces of a range. -/
def rangeWord (a b : Int) : List Char := decimal a ++ '.' :: '.' :: decimal b

/-- A range between two integers, as it is written. -/
def rangeText (a b : Int) : List Char := '{' :: (rangeWord a b ++ ['}'])

theorem splitDots?_append {w : List Char} (hw : '.' ∉ w) (rest : List Char) :
    Range.splitDots? (w ++ '.' :: '.' :: rest) = some (w, rest) := by
  induction w with
  | nil => rfl
  | cons c w ih =>
    rw [List.mem_cons, not_or] at hw
    rw [List.cons_append, Range.splitDots?, ih hw.2]
    · rfl
    · intro t he
      exact absurd he (Ne.symm hw.1)

/-- The word of a range is read as the range. -/
theorem ofText?_rangeWord {a b : Int} (ha : FitsInt64 a) (hb : FitsInt64 b) :
    Range.ofText? (rangeWord a b) = some ⟨min a b, max a b⟩ := by
  have hdot : '.' ∉ decimal a := not_mem_decimal (by decide) a
  rw [Range.ofText?, rangeWord, splitDots?_append hdot]
  simp only [int64?_decimal ha, int64?_decimal hb]

theorem word?_closing {w : List Char} (hw : ∀ c ∈ w, c ≠ '\\' ∧ c ≠ ',' ∧ c ≠ '}')
    (rest : List Char) : word? (w ++ '}' :: rest) = some (w, rest) := by
  induction w with
  | nil => rfl
  | cons c w ih =>
    obtain ⟨hc, hw⟩ := List.forall_mem_cons.mp hw
    rw [List.cons_append, word?_cons hc, ih hw]
    rfl

/-- The word of a range has no characters with a meaning of their own. -/
theorem ne_of_mem_rangeWord {a b : Int} {c : Char} (hc : c ∈ rangeWord a b) :
    c ≠ '\\' ∧ c ≠ '[' ∧ c ≠ '{' ∧ c ≠ ',' ∧ c ≠ '}' ∧ c ≠ '/' := by
  have hdecimal : ∀ n, c ∈ decimal n → c ∉ ['\\', '[', '{', ',', '}', '/'] := by
    intro n hn hmem
    have hnot : ∀ d ∈ ['\\', '[', '{', ',', '}', '/'], d ≠ '-' ∧ isDigit d = false := by
      simp [isDigit]
    exact not_mem_decimal (hnot c hmem) n hn
  have hne : c ∉ ['\\', '[', '{', ',', '}', '/'] := by
    simp only [rangeWord, List.mem_append, List.mem_cons] at hc
    rcases hc with hc | rfl | rfl | hc
    · exact hdecimal a hc
    · decide
    · decide
    · exact hdecimal b hc
  simpa using hne

theorem rangeText_append (a b : Int) (rest : List Char) :
    rangeText a b ++ rest = '{' :: (rangeWord a b ++ '}' :: rest) := by
  simp [rangeText]

theorem rangeText_ne_nil (a b : Int) : rangeText a b ≠ [] := List.cons_ne_nil _ _

theorem slash_not_mem_rangeText (a b : Int) : '/' ∉ rangeText a b := by
  have hword : '/' ∉ rangeWord a b := fun h => (ne_of_mem_rangeWord h).2.2.2.2.2 rfl
  simp [rangeText, hword]

theorem word?_range (a b : Int) (rest : List Char) :
    word? (rangeWord a b ++ '}' :: rest) = some (rangeWord a b, rest) := by
  refine word?_closing (fun c hc => ?_) rest
  obtain ⟨hback, -, -, hcomma, hclose, -⟩ := ne_of_mem_rangeWord hc
  exact ⟨hback, hcomma, hclose⟩

theorem isPiece_rangeText (a b : Int) : IsPiece (rangeText a b) := by
  have hback : '\\' ∉ rangeWord a b := fun h => (ne_of_mem_rangeWord h).1 rfl
  have hclass : '[' ∉ rangeWord a b := fun h => (ne_of_mem_rangeWord h).2.1 rfl
  have hplain : ∀ c ∈ rangeWord a b, c ≠ '\\' ∧ c ≠ '{' ∧ c ≠ '}' := by
    intro c hc
    obtain ⟨hback, -, hopen, -, hclose, -⟩ := ne_of_mem_rangeWord hc
    exact ⟨hback, hopen, hclose⟩
  refine ⟨by simp [IsBare, rangeText, hback, hclass], ?_⟩
  rw [rangeText, balanced, balanced_append_of_not_brace hplain]
  rfl

/-! ## 3. The glob around a number -/

/-- What stands before a number in a glob, relative to the directory. -/
def front (A B : List Char) : List Char :=
  (if '/' ∈ A ++ B then if A.head? = some '/' then [] else ['/'] else ['/', '*', '*', '/']) ++ A

/-- A number and a range have no influence on how the glob is anchored. -/
theorem anchor_front (A B : List Char) {m : List Char} (hm : m ≠ []) (hslash : '/' ∉ m) :
    anchor (A ++ (m ++ B)) = front A B ++ (m ++ B) := by
  have hmem : '/' ∈ A ++ (m ++ B) ↔ '/' ∈ A ++ B := by simp [hslash]
  have hhead : (A ++ (m ++ B)).head? = some '/' ↔ A.head? = some '/' := by
    cases A with
    | cons c A => exact Iff.rfl
    | nil =>
      cases m with
      | nil => exact absurd rfl hm
      | cons c m =>
        have hc : c ≠ '/' := fun hc => hslash (hc ▸ List.mem_cons_self)
        simp [hc]
  rw [anchor_eq, front, lead, List.append_assoc]
  simp only [hmem, hhead]

theorem IsWild.front {A B : List Char} (hA : IsWild A) : IsWild (front A B) := by
  refine IsWild.append ?_ hA
  split
  · split
    · decide
    · decide
  · decide

theorem scan_range {A B : List Char} (hA : IsWild A) (hB : IsWild B) {a b : Int}
    (ha : FitsInt64 a) (hb : FitsInt64 b) :
    scan (anchor (A ++ (rangeText a b ++ B))) =
      ⟨plain (front A B) ++ .atom (.number 0) :: plain B, [⟨min a b, max a b⟩]⟩ := by
  have hfront : IsPiece (front A B) := hA.front.isPiece
  have hbalanced : balanced 0 (front A B ++ (rangeText a b ++ B)) = true :=
    (hfront.append ((isPiece_rangeText a b).append hB.isPiece)).balanced
  have hgoes : GoesOn (rangeText a b ++ B) := goesOn_cons (by decide) _
  rw [anchor_front A B (rangeText_ne_nil a b) (slash_not_mem_rangeText a b), scan, hbalanced,
    scanFrom_outside hfront hgoes, scanFrom_eq_plain hA.front.opening, rangeText_append,
    scanFrom_range (word?_range a b B) (ofText?_rangeWord ha hb), scanFrom_eq_plain hB.opening]
  rfl

/-- The expression of a directory and a glob with a number. -/
def rangeExpr (dir A B : List Char) : Expr :=
  (Expr.seq ((directoryExpr dir).followedBy (wildExprs (front A B)))
    (.atom (.number 0))).followedBy (wildExprs B)

theorem rangeExpr_eq_rowExpr (dir A B : List Char) :
    rangeExpr dir A B = rowExpr dir (plain (front A B) ++ .atom (.number 0) :: plain B) := by
  rw [rangeExpr, rowExpr, List.map_append, List.map_cons, Expr.followedBy, Expr.followedBy,
    Expr.followedBy, List.foldl_append, List.foldl_cons]
  rfl

theorem matcher?_range (dir : List Char) {A B : List Char} (hA : IsWild A) (hB : IsWild B)
    {a b : Int} (ha : FitsInt64 a) (hb : FitsInt64 b) :
    matcher? dir (A ++ (rangeText a b ++ B)) =
      some ⟨rangeExpr dir A B, [⟨min a b, max a b⟩]⟩ := by
  have hitems : ∀ t ∈ plain (front A B) ++ .atom (.number 0) :: plain B,
      t.IsWild ∨ t = .atom (.number 0) := by
    intro t ht
    rcases List.mem_append.mp ht with ht | ht
    · exact Or.inl (isWild_of_mem_plain hA.front.bare t ht)
    · rcases List.mem_cons.mp ht with rfl | ht
      · exact Or.inr rfl
      · exact Or.inl (isWild_of_mem_plain hB.bare t ht)
  rw [rangeExpr_eq_rowExpr]
  refine matcher?_row_of_le dir (scan_range hA hB ha hb) (fun t ht => ?_) fun t ht => ?_
  · rcases hitems t ht with hwild | rfl
    · exact hwild.isItem
    · exact Or.inr ⟨_, rfl⟩
  · rcases hitems t ht with hwild | rfl
    · exact (innerNesting_expr_le hwild).trans (by decide)
    · exact le_rfl

theorem language_rangeExpr (dir : List Char) {A B : List Char} (hA : IsWild A) (hB : IsWild B) :
    (rangeExpr dir A B).language =
      ({dir} : Language Char) * wild (front A B) * numerals * wild B := by
  rw [rangeExpr, language_followedBy, Expr.language, language_followedBy, language_directoryExpr,
    prod_wildExprs hA.front.bare, prod_wildExprs hB.bare]
  rfl

/-! ## 4. Expressions without numbers -/

/-- No number is read. -/
def Expr.Numberless : Expr → Prop
  | .empty => True
  | .atom a => ∀ index, a ≠ .number index
  | .seq a b => a.Numberless ∧ b.Numberless
  | .either a b => a.Numberless ∧ b.Numberless
  | .group e => e.Numberless

theorem Expr.Numberless.numbers {e : Expr} (he : e.Numberless) {r t : Reading}
    (h : t ∈ e.tries r) : t.numbers = r.numbers := by
  induction e generalizing r t with
  | empty => rw [List.mem_singleton.mp h]
  | atom a =>
    have hone : ∀ p, t ∈ r.tryOne p → t.numbers = r.numbers := by
      intro p ht
      obtain ⟨x, -, rfl⟩ := Option.map_eq_some_iff.mp (Option.mem_toList.mp ht)
      rfl
    have hrun : ∀ p, t ∈ r.tryRun p → t.numbers = r.numbers := by
      intro p ht
      obtain ⟨x, -, rfl⟩ := List.mem_map.mp ht
      rfl
    cases a with
    | char c => exact hone _ h
    | set s => exact hone _ h
    | one => exact hone _ h
    | run => exact hrun _ h
    | any => exact hrun _ h
    | number index => exact absurd rfl (he index)
  | seq a b iha ihb =>
    obtain ⟨u, hu, ht⟩ := List.mem_flatMap.mp h
    rw [ihb he.2 ht, iha he.1 hu]
  | either a b iha ihb =>
    rcases List.mem_append.mp h with h | h
    · exact iha he.1 h
    · exact ihb he.2 h
  | group e ih => exact ih he h

theorem Expr.Numberless.followedBy {e : Expr} (he : e.Numberless) {xs : List Expr}
    (hxs : ∀ x ∈ xs, x.Numberless) : (e.followedBy xs).Numberless := by
  induction xs generalizing e with
  | nil => exact he
  | cons x xs ih =>
    obtain ⟨hx, hxs⟩ := List.forall_mem_cons.mp hxs
    exact ih (e := .seq e x) ⟨he, hx⟩ hxs

theorem numberless_directoryExpr (dir : List Char) : (directoryExpr dir).Numberless := by
  rw [directoryExpr_eq]
  have hempty : Expr.empty.Numberless := trivial
  refine hempty.followedBy fun x hx => ?_
  obtain ⟨c, -, rfl⟩ := List.mem_map.mp hx
  intro index h
  cases h

theorem Token.numberless_expr {t : Token} (h : ∀ index, t ≠ .atom (.number index)) :
    t.expr.Numberless := by
  cases t with
  | atom a => exact fun index ha => h index (congrArg _ ha)
  | depths => simp [Token.expr, Expr.depths, Expr.Numberless]
  | malformed => exact trivial
  | opening => exact trivial
  | bar => exact trivial
  | closing => exact trivial

theorem numberless_wildExprs {s : List Char} (hs : IsBare s) :
    ∀ x ∈ wildExprs s, x.Numberless := by
  intro x hx
  obtain ⟨t, ht, rfl⟩ := List.mem_map.mp hx
  refine Token.numberless_expr fun index hindex => ?_
  subst hindex
  rcases isWild_of_mem_plain hs _ ht with ⟨c, hc⟩ | hmem
  · cases hc
  · simp at hmem

/-! ## 5. The number that counts -/

theorem tries_followedBy (e : Expr) (xs : List Expr) (r : Reading) :
    (e.followedBy xs).tries r = (e.tries r).flatMap (Expr.empty.followedBy xs).tries := by
  induction xs generalizing e r with
  | nil => exact (List.flatMap_singleton' _).symm
  | cons x xs ih =>
    have hseq : (e.followedBy (x :: xs)).tries r =
        ((e.tries r).flatMap x.tries).flatMap (Expr.empty.followedBy xs).tries :=
      ih (.seq e x) r
    have hempty : (Expr.empty.followedBy (x :: xs)).tries =
        fun u => (x.tries u).flatMap (Expr.empty.followedBy xs).tries := by
      refine funext fun u => (ih (.seq .empty x) u).trans ?_
      rw [Expr.tries, Expr.tries, List.flatMap_singleton]
    rw [hseq, hempty, List.flatMap_assoc]

/-- The text that the first way to read the path takes for the number. -/
def firstNumber? (dir A B path : List Char) : Option (List Char) :=
  (((rangeExpr dir A B).tries ⟨.start path, [], []⟩).find? (·.place.rest.isEmpty)).bind
    (·.numbers.lookup 0)

/-- The path is the directory, what is said in front of the number, the number and what is said
behind it. -/
def IsWay (dir A B path number : List Char) : Prop :=
  number ∈ numerals ∧ ∃ u ∈ wild (front A B), ∃ v ∈ wild B, path = dir ++ (u ++ (number ++ v))

theorem Place.textTo_eq {a b : Place} {w : List Char} (h : a.rest = w ++ b.rest) :
    a.textTo b = w := by
  rw [Place.textTo, a.left_eq, b.left_eq, h, List.length_append, Nat.add_sub_cancel,
    List.take_left]

/-- A number is read from the text, and kept. -/
theorem numbers_of_mem_tryNumber {r t : Reading} {index : Nat} (h : t ∈ r.tryNumber index) :
    ∃ w ∈ numerals, r.place.rest = w ++ t.place.rest ∧ t.numbers = (index, w) :: r.numbers := by
  have hreach : Reaches numerals r.place.rest t.place.rest :=
    Atom.reaches_of_mem_tries (a := .number index) h
  obtain ⟨w, hw, hrest⟩ := hreach
  refine ⟨w, hw, hrest, ?_⟩
  rw [Reading.tryNumber] at h
  split at h
  · obtain ⟨x, -, rfl⟩ := List.mem_map.mp h
    have htext : r.place.textTo x = w := Place.textTo_eq hrest
    rw [Reading.numberTo, htext]
  · cases h

/-- **Every way to read the path takes one text for the number.** -/
theorem isWay_of_mem_tries {dir A B path : List Char} (hA : IsWild A) (hB : IsWild B)
    {r : Reading} (h : r ∈ (rangeExpr dir A B).tries ⟨.start path, [], []⟩)
    (hend : r.place.rest = []) : ∃ w, IsWay dir A B path w ∧ r.numbers = [(0, w)] := by
  rw [rangeExpr, tries_followedBy] at h
  obtain ⟨t, ht, hr⟩ := List.mem_flatMap.mp h
  obtain ⟨u, hu, ht⟩ := List.mem_flatMap.mp ht
  obtain ⟨w, hw, hrest, hnumbers⟩ := numbers_of_mem_tryNumber ht
  have hnone : u.numbers = [] := ((numberless_directoryExpr dir).followedBy
    (numberless_wildExprs hA.front.bare)).numbers hu
  have hsame : r.numbers = t.numbers := (Expr.Numberless.followedBy (e := .empty) trivial
    (numberless_wildExprs hB.bare)).numbers hr
  have hbefore := reaches_of_mem_tries hu
  have hbehind := reaches_of_mem_tries hr
  rw [language_followedBy, language_directoryExpr, prod_wildExprs hA.front.bare,
    reaches_mul] at hbefore
  rw [language_followedBy, Expr.language, one_mul, prod_wildExprs hB.bare, hend,
    reaches_nil] at hbehind
  obtain ⟨c, ⟨d, hd, hdir⟩, ⟨v, hv, hfront⟩⟩ := hbefore
  refine ⟨w, ⟨hw, v, hv, t.place.rest, hbehind, ?_⟩, ?_⟩
  · have hpath : path = d ++ c := hdir
    rw [hpath, hfront, hrest, Set.mem_singleton_iff.mp hd]
  · rw [hsame, hnumbers, hnone]

/-- **The first way to read the path decides.** -/
theorem exists_firstNumber? {dir A B path : List Char} (hA : IsWild A) (hB : IsWild B)
    (hpath : path ∈ (rangeExpr dir A B).language) (range : Range) :
    ∃ w, firstNumber? dir A B path = some w ∧ IsWay dir A B path w ∧
      (Matcher.mk (rangeExpr dir A B) [range]).accepts path = range.accepts w := by
  obtain ⟨r, hr⟩ := Option.isSome_iff_exists.mp ((whole?_isSome_iff _ _).mpr hpath)
  have hfind := hr
  rw [whole?_eq_find?] at hfind
  have hend : r.place.rest.isEmpty = true := by
    have hsome := List.find?_some hfind
    exact hsome
  obtain ⟨w, hway, hnumbers⟩ := isWay_of_mem_tries hA hB (List.mem_of_find?_eq_some hfind)
    (List.isEmpty_iff.mp hend)
  refine ⟨w, ?_, hway, ?_⟩
  · rw [firstNumber?, hfind, Option.bind_some, hnumbers]
    rfl
  · rw [Matcher.accepts, hr]
    simp [Range.acceptsIn, hnumbers]

/-! ## 6. Globs with a range -/

theorem mem_language_rangeExpr {dir A B path w : List Char} (hA : IsWild A) (hB : IsWild B)
    (h : IsWay dir A B path w) : path ∈ (rangeExpr dir A B).language := by
  obtain ⟨hw, u, hu, v, hv, rfl⟩ := h
  rw [language_rangeExpr dir hA hB, mul_assoc, mul_assoc]
  exact Language.append_mem_mul rfl
    (Language.append_mem_mul hu (Language.append_mem_mul hw hv))

theorem isWild_decimal (n : Int) : IsWild (decimal n) := by
  refine ⟨⟨?_, ?_⟩, ?_, ?_⟩
  · exact not_mem_decimal (by decide) n
  · exact not_mem_decimal (by decide) n
  · exact not_mem_decimal (by decide) n
  · exact not_mem_decimal (by decide) n

theorem decimal_ne_nil (n : Int) : decimal n ≠ [] := by
  rcases decimal_cases n with ⟨k, -, hdecimal⟩ | ⟨k, -, -, hdecimal⟩
  · rw [hdecimal]
    exact Nat.toDigits_ne_nil
  · rw [hdecimal]
    exact List.cons_ne_nil _ _

/-- Plain characters say themselves. -/
theorem mem_wild_append {w : List Char} (hw : ∀ c ∈ w, c ≠ '*' ∧ c ≠ '?' ∧ c ≠ '/')
    {t x : List Char} (h : x ∈ wild (w ++ t)) : ∃ v ∈ wild t, x = w ++ v := by
  induction w generalizing x with
  | nil => exact ⟨x, h, rfl⟩
  | cons c w ih =>
    obtain ⟨⟨hstar, hone, hslash⟩, hw⟩ := List.forall_mem_cons.mp hw
    rw [List.cons_append, wild] at h
    · obtain ⟨y, ⟨d, hd, rfl⟩, z, hz, rfl⟩ := Language.mem_mul.mp h
      obtain ⟨v, hv, rfl⟩ := ih hw hz
      exact ⟨v, hv, by rw [beq_iff_eq.mp hd]; rfl⟩
    all_goals simp_all

/-- The glob with a decimal in the place of the range reads the path in a way that takes the
decimal. -/
theorem isWay_decimal {dir : String} {A B : List Char} (hA : IsWild A) (hB : IsWild B) {n : Int}
    (hlength : (A ++ (decimal n ++ B)).length ≤ maxLength) {path : String}
    (h : (compile dir (String.ofList (A ++ (decimal n ++ B)))).matchesPath path = true) :
    IsWay (directoryText dir) A B path.toList (decimal n) := by
  have hwild : IsWild (A ++ (decimal n ++ B)) := hA.append ((isWild_decimal n).append hB)
  have hchar : ∀ c ∈ decimal n, c ≠ '*' ∧ c ≠ '?' ∧ c ≠ '/' := by
    intro c hc
    refine ⟨?_, ?_, ?_⟩
    · rintro rfl
      exact not_mem_decimal (by decide) n hc
    · rintro rfl
      exact not_mem_decimal (by decide) n hc
    · rintro rfl
      exact not_mem_decimal (by decide) n hc
  have hgoes : GoesOn (decimal n ++ B) := by
    cases hdecimal : decimal n with
    | nil => exact absurd hdecimal (decimal_ne_nil n)
    | cons c w =>
      obtain ⟨hstar, -, hslash⟩ := hchar c (by rw [hdecimal]; exact List.mem_cons_self)
      exact goesOn_cons ⟨hstar, hslash⟩ _
  obtain ⟨x, hx, hpath⟩ := (matchesPath_wild dir hwild hlength path).mp h
  rw [anchor_front A B (decimal_ne_nil n) (not_mem_decimal (by decide) n),
    wild_append hA.front.bare ((isWild_decimal n).append hB).bare hgoes] at hx
  obtain ⟨u, hu, y, hy, rfl⟩ := Language.mem_mul.mp hx
  obtain ⟨v, hv, rfl⟩ := mem_wild_append hchar hy
  exact ⟨decimal_mem_numerals n, u, hu, v, hv, hpath⟩

/-- What a glob with a range says of a path. -/
theorem matchesPath_rangeText (dir : String) {A B : List Char} (hA : IsWild A) (hB : IsWild B)
    {a b : Int} (ha : FitsInt64 a) (hb : FitsInt64 b)
    (hlength : (A ++ (rangeText a b ++ B)).length ≤ maxLength) (path : String) :
    (compile dir (String.ofList (A ++ (rangeText a b ++ B)))).matchesPath path =
      (Matcher.mk (rangeExpr (directoryText dir) A B) [⟨min a b, max a b⟩]).accepts
        path.toList := by
  have hback : '\\' ∉ A ++ (rangeText a b ++ B) := by
    simp [hA.bare.1, hB.bare.1, (isPiece_rangeText a b).bare.1]
  unfold matchesPath compile
  rw [String.length_ofList, if_neg (Nat.not_lt.mpr hlength), String.toList_ofList,
    unescapeComments_eq_self hback]
  dsimp only
  rw [matcher?_range _ hA hB ha hb]

/-- **Beside wildcards, the first way to read the path decides about a range.**  Suppose that a glob
matches a path with a decimal between the bounds in the place of the range.  Then there is a way to
read the path in which the range takes this decimal; but it is the first way that counts, and the
range matches if and only if it accepts the number of that way.  So it matches if all ways lead to
the same number. -/
theorem matchesPath_range (dir : String) {A B : List Char} (hA : IsWild A) (hB : IsWild B)
    {a b n : Int} (ha : FitsInt64 a) (hb : FitsInt64 b) (hn : FitsInt64 n)
    (hmin : min a b ≤ n) (hmax : n ≤ max a b)
    (hdecimal : (A ++ (decimal n ++ B)).length ≤ maxLength)
    (hrange : (A ++ (rangeText a b ++ B)).length ≤ maxLength) {path : String}
    (h : (compile dir (String.ofList (A ++ (decimal n ++ B)))).matchesPath path = true) :
    IsWay (directoryText dir) A B path.toList (decimal n) ∧
    (∃ w, firstNumber? (directoryText dir) A B path.toList = some w ∧
      IsWay (directoryText dir) A B path.toList w ∧
      ((compile dir (String.ofList (A ++ (rangeText a b ++ B)))).matchesPath path = true ↔
        (Range.mk (min a b) (max a b)).accepts w = true)) ∧
    ((∀ w, IsWay (directoryText dir) A B path.toList w → w = decimal n) →
      (compile dir (String.ofList (A ++ (rangeText a b ++ B)))).matchesPath path = true) := by
  have hway := isWay_decimal hA hB hdecimal h
  obtain ⟨w, hfirst, hw, haccepts⟩ := exists_firstNumber? hA hB
    (mem_language_rangeExpr hA hB hway) ⟨min a b, max a b⟩
  rw [← matchesPath_rangeText dir hA hB ha hb hrange path] at haccepts
  refine ⟨hway, ⟨w, hfirst, hw, by rw [haccepts]⟩, fun hone => ?_⟩
  rw [haccepts, hone w hw]
  exact (accepts_decimal _ hn).mpr ⟨hmin, hmax⟩

/-- A star before the range, and a character that it cannot take between them. -/
theorem matchesPath_range_behind_dash :
    ∃ w, firstNumber? "/project".toList "/*-".toList ".?".toList "/project/a-11.b".toList = some w ∧
      ((compile "/project" "/*-\x7b12..10\x7d.?").matchesPath "/project/a-11.b" = true ↔
        (Range.mk 10 12).accepts w = true) := by
  have hmatch : (compile "/project" (String.ofList ("/*-".toList ++ (decimal 11 ++
      ".?".toList)))).matchesPath "/project/a-11.b" = true := by decide +kernel
  obtain ⟨-, ⟨w, hfirst, -, hiff⟩, -⟩ := matchesPath_range "/project" (by decide) (by decide)
    (a := 12) (b := 10) (n := 11) (by decide) (by decide) (by decide) (by decide) (by decide)
    (by decide +kernel) (by decide +kernel) hmatch
  exact ⟨w, hfirst, hiff⟩

/-- **A star beside a range takes digits of its number.**  It takes all of them but the last one,
and a number of one digit is not in the range. -/
theorem not_matchesPath_star_range :
    IsWild "/*".toList ∧ IsWild [] ∧ FitsInt64 10 ∧ FitsInt64 12 ∧
    "/*12".toList = "/*".toList ++ (decimal 12 ++ []) ∧
    "/*\x7b10..12\x7d".toList = "/*".toList ++ (rangeText 10 12 ++ []) ∧
    (compile "/project" "/*12").matchesPath "/project/x12" = true ∧
    (compile "/project" "/*\x7b10..12\x7d").matchesPath "/project/x12" = false := by
  decide +kernel

end EditorSettings.Glob
