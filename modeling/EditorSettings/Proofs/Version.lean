/-
# The order of versions

Two lists of numbers are compared as if the shorter one went on in zeros: both are filled up to
one length, and compared lexicographically (`compareParts_eq_compareLex`).  Any length that is long
enough will do.  So three versions may be filled up to one length, and what holds of the
lexicographic order holds of versions: it is total, and it is transitive (`compareTexts_trans`).
Different texts may be equal in it, since whatever is no number counts as zero.

A `.0` behind a text is one more zero (`parts_append_zeros`), provided that no blank is shut in
between, and numbers that are written with digits are read as what they stand for
(`parts_written`).

The first of the rules for widths asks whether a version has come up to a fixed one.  Since the
order is transitive, it applies at every later version too (`styleGivesSize_of_le`).

The main statement is `compareTexts_preorder`.
-/
import EditorSettings.Proofs.Derivation.Frame
import EditorSettings.Proofs.Path.Normal
import EditorSettings.Proofs.Text.Decimal
import EditorSettings.Proofs.Text.Line

namespace EditorSettings

open EditorSettings.Text

namespace Version

/-! ## 1. Lists of numbers -/

/-- A list without a first number has a zero there. -/
theorem compareParts_eq_then (as bs : List Nat) :
    compareParts as bs =
      (Ord.compare (as.headD 0) (bs.headD 0)).then (compareParts as.tail bs.tail) := by
  cases as with
  | nil =>
    cases bs with
    | nil => rfl
    | cons b bs => rw [compareParts]; rfl
  | cons a as =>
    cases bs with
    | nil => rw [compareParts]; rfl
    | cons b bs => rw [compareParts]; rfl

theorem rightpad_succ (n : Nat) (as : List Nat) :
    as.rightpad (n + 1) 0 = as.headD 0 :: as.tail.rightpad n 0 := by
  cases as with
  | nil => rfl
  | cons a as => rw [List.rightpad, List.length_cons, Nat.add_sub_add_right]; rfl

/-- **Lists of numbers are compared lexicographically**, filled up with zeros to one length. -/
theorem compareParts_eq_compareLex {n : Nat} {as bs : List Nat} (has : as.length ≤ n)
    (hbs : bs.length ≤ n) :
    compareParts as bs = List.compareLex Ord.compare (as.rightpad n 0) (bs.rightpad n 0) := by
  induction n generalizing as bs with
  | zero =>
    obtain rfl := List.eq_nil_of_length_eq_zero (Nat.le_zero.mp has)
    obtain rfl := List.eq_nil_of_length_eq_zero (Nat.le_zero.mp hbs)
    rw [compareParts]
    rfl
  | succ n ih =>
    have has' : as.tail.length ≤ n := by rw [List.length_tail]; omega
    have hbs' : bs.tail.length ≤ n := by rw [List.length_tail]; omega
    rw [compareParts_eq_then, rightpad_succ, rightpad_succ, List.compareLex_cons_cons,
      ih has' hbs']

theorem compareParts_eq_max (as bs : List Nat) :
    compareParts as bs = List.compareLex Ord.compare
      (as.rightpad (max as.length bs.length) 0) (bs.rightpad (max as.length bs.length) 0) :=
  compareParts_eq_compareLex (Nat.le_max_left _ _) (Nat.le_max_right _ _)

theorem compareParts_self (as : List Nat) : compareParts as as = .eq := by
  rw [compareParts_eq_max]
  exact Std.ReflCmp.compare_self

theorem compareParts_swap (as bs : List Nat) : compareParts bs as = (compareParts as bs).swap := by
  rw [compareParts_eq_max bs as, compareParts_eq_max as bs, Nat.max_comm]
  exact Std.OrientedCmp.eq_swap

theorem compareParts_trans {as bs cs : List Nat} (hab : (compareParts as bs).isLE = true)
    (hbc : (compareParts bs cs).isLE = true) : (compareParts as cs).isLE = true := by
  -- the two comparisons are of different lengths, so all three lists are filled up to one
  obtain ⟨n, has, hbs, hcs⟩ : ∃ n, as.length ≤ n ∧ bs.length ≤ n ∧ cs.length ≤ n :=
    ⟨as.length + bs.length + cs.length, by omega, by omega, by omega⟩
  rw [compareParts_eq_compareLex has hbs] at hab
  rw [compareParts_eq_compareLex hbs hcs] at hbc
  rw [compareParts_eq_compareLex has hcs]
  exact Std.TransCmp.isLE_trans hab hbc

/-- Zeros at the end of a list are not seen. -/
theorem compareParts_append_zeros (as bs : List Nat) (k : Nat) :
    compareParts (as ++ List.replicate k 0) bs = compareParts as bs := by
  obtain ⟨n, has, hbs⟩ : ∃ n, as.length + k ≤ n ∧ bs.length ≤ n :=
    ⟨as.length + k + bs.length, by omega, by omega⟩
  have hlong : (as ++ List.replicate k 0).length ≤ n := by
    rwa [List.length_append, List.length_replicate]
  have hfilled : (as ++ List.replicate k 0).rightpad n 0 = as.rightpad n 0 := by
    have hzeros : k + (n - (as.length + k)) = n - as.length := by omega
    rw [List.rightpad, List.rightpad, List.length_append, List.length_replicate,
      List.append_assoc, List.replicate_append_replicate, hzeros]
  rw [compareParts_eq_compareLex hlong hbs, hfilled,
    compareParts_eq_compareLex (Nat.le_of_add_right_le has) hbs]

/-! ## 2. Texts as versions -/

/-- The order of the versions that two texts denote. -/
def compareTexts (a b : String) : Ordering := (ofString a).compare (ofString b)

theorem compareTexts_self (a : String) : compareTexts a a = .eq := compareParts_self _

theorem compareTexts_swap (a b : String) : compareTexts b a = (compareTexts a b).swap :=
  compareParts_swap _ _

/-- **The order is transitive**, whatever the texts are. -/
theorem compareTexts_trans {a b c : String} (hab : compareTexts a b ≠ .gt)
    (hbc : compareTexts b c ≠ .gt) : compareTexts a c ≠ .gt :=
  Ordering.ne_gt_iff_isLE.mpr
    (compareParts_trans (Ordering.ne_gt_iff_isLE.mp hab) (Ordering.ne_gt_iff_isLE.mp hbc))

theorem isGE_compareTexts_iff {a b : String} :
    (compareTexts a b).isGE = true ↔ compareTexts b a ≠ .gt := by
  rw [compareTexts_swap a b, ne_eq, Ordering.ne_gt_iff_isLE, Ordering.isLE_swap]

/-! ## 3. Zeros behind a text -/

/-- `.0`, so many times. -/
def zeros (k : Nat) : String := String.join (List.replicate k ".0")

theorem toList_zeros_succ (k : Nat) : (zeros (k + 1)).toList = (zeros k).toList ++ ['.', '0'] := by
  rw [zeros, zeros, List.replicate_succ', String.join_append, String.toList_append]
  rfl

theorem endsWithoutBlank_zero (s : List Char) : EndsWithoutBlank (s ++ ['.', '0']) := by
  intro c hc
  rw [List.getLast?_append, Option.mem_def] at hc
  cases hc
  decide

/-- One zero behind a text is one zero behind its numbers. -/
theorem parts_append_zero {s : List Char} (h : EndsWithoutBlank s) :
    (pieces '.' (trim (s ++ ['.', '0']))).map part = (pieces '.' (trim s)).map part ++ [0] := by
  have hzero : Trimmed ['.', '0'] := by decide +kernel
  rw [trim_append h hzero, Path.pieces_eq_splitOn, Path.pieces_eq_splitOn,
    List.splitOn_append_cons_self, List.map_append]
  rfl

/-- **Every `.0` behind a text is a zero behind its numbers.** -/
theorem parts_append_zeros {a : String} (h : EndsWithoutBlank a.toList) (k : Nat) :
    (ofString (a ++ zeros k)).parts = (ofString a).parts ++ List.replicate k 0 := by
  -- the text that the next zero stands behind must not end in a blank either
  suffices hk : EndsWithoutBlank (a ++ zeros k).toList ∧
      (ofString (a ++ zeros k)).parts = (ofString a).parts ++ List.replicate k 0 from hk.2
  induction k with
  | zero =>
    have hnone : a ++ zeros 0 = a := String.append_empty
    rw [hnone, List.replicate_zero, List.append_nil]
    exact ⟨h, rfl⟩
  | succ k ih =>
    obtain ⟨hends, hparts⟩ := ih
    have hnext : (a ++ zeros (k + 1)).toList = (a ++ zeros k).toList ++ ['.', '0'] := by
      rw [String.toList_append, toList_zeros_succ, ← List.append_assoc, String.toList_append]
    refine ⟨hnext ▸ endsWithoutBlank_zero _, ?_⟩
    rw [List.replicate_succ', ← List.append_assoc, ← hparts]
    unfold ofString
    rw [hnext]
    exact parts_append_zero hends

theorem compareTexts_append_zeros {a : String} (h : EndsWithoutBlank a.toList) (b : String)
    (k : Nat) : compareTexts (a ++ zeros k) b = compareTexts a b := by
  rw [compareTexts, compare, parts_append_zeros h, compareParts_append_zeros]
  rfl

/-! ## 4. Versions written with digits -/

/-- A number of a version, as it is written: digits, and no number too large for 64 bits. -/
structure Part where
  digits : List Char
  digits_ne_nil : digits ≠ []
  isDigit_of_mem : ∀ c ∈ digits, isDigit c = true
  fits : Nat.ofDigitChars 10 digits 0 ≤ maxPart

/-- The number that stands there. -/
def Part.value (x : Part) : Nat := Nat.ofDigitChars 10 x.digits 0

/-- The version as it is written. -/
def written (xs : List Part) : String := String.ofList (['.'].intercalate (xs.map Part.digits))

theorem part_digits (x : Part) : part x.digits = x.value := by
  have hread : natural? x.digits = some x.value :=
    natural?_eq_some_iff.mpr ⟨x.digits_ne_nil, x.isDigit_of_mem, rfl⟩
  have hle : x.value ≤ maxPart := x.fits
  have hplus : ∀ rest, x.digits ≠ '+' :: rest := fun rest h =>
    (not_sign_of_isDigit (x.isDigit_of_mem '+' (by rw [h]; exact List.mem_cons_self))).1 rfl
  unfold part
  split
  · rename_i rest h
    exact absurd h (hplus rest)
  · simp only [hread, Option.filter_some, decide_eq_true hle, if_pos, Option.getD_some]

theorem isBlank_of_isDigit {c : Char} (h : isDigit c = true) : isBlank c = false := by
  rw [isDigit, Bool.and_eq_true, decide_eq_true_eq, decide_eq_true_eq] at h
  have hlow : '0'.toNat ≤ c.toNat := h.1
  have hhigh : c.toNat ≤ '9'.toNat := h.2
  rw [← Bool.not_eq_true, isBlank, inSpans_iff]
  rintro ⟨span, hspan, hfrom, hto⟩
  -- the spans end below the digits, or begin above them
  have houtside : ∀ span ∈ blankSpans, span.2 < '0'.toNat ∨ '9'.toNat < span.1 := by decide
  have := houtside span hspan
  omega

/-- No character of a version that is written with digits is a blank. -/
theorem isBlank_of_mem_written {xs : List Part} {c : Char} (h : c ∈ (written xs).toList) :
    isBlank c = false := by
  rw [written, String.toList_ofList] at h
  rcases mem_intercalate h with h | ⟨piece, hpiece, h⟩
  · rw [List.mem_singleton.mp h]
    decide
  · obtain ⟨x, -, rfl⟩ := List.mem_map.mp hpiece
    exact isBlank_of_isDigit (x.isDigit_of_mem c h)

theorem trimmed_written (xs : List Part) : Trimmed (written xs).toList :=
  ⟨fun _ hc => isBlank_of_mem_written (List.mem_of_mem_head? hc),
    fun _ hc => isBlank_of_mem_written (List.mem_of_getLast? hc)⟩

/-- **Numbers are read as what they stand for.** -/
theorem parts_written {xs : List Part} (hne : xs ≠ []) :
    (ofString (written xs)).parts = xs.map Part.value := by
  have hdot : ∀ piece ∈ xs.map Part.digits, '.' ∉ piece := by
    intro piece hpiece hmem
    obtain ⟨x, -, rfl⟩ := List.mem_map.mp hpiece
    exact absurd (x.isDigit_of_mem '.' hmem) (by decide)
  rw [ofString, trim_eq_self (trimmed_written xs), written, String.toList_ofList,
    Path.pieces_eq_splitOn, List.splitOn_intercalate '.' hdot (mt List.map_eq_nil_iff.mp hne),
    List.map_map]
  exact List.map_congr_left fun x _ => part_digits x

/-- The order of versions that are written with digits is the one of their numbers. -/
theorem compareTexts_written {xs ys : List Part} (hxs : xs ≠ []) (hys : ys ≠ []) :
    compareTexts (written xs) (written ys) =
      List.compareLex Ord.compare
        ((xs.map Part.value).rightpad (max xs.length ys.length) 0)
        ((ys.map Part.value).rightpad (max xs.length ys.length) 0) := by
  rw [compareTexts, compare, parts_written hxs, parts_written hys, compareParts_eq_max,
    List.length_map, List.length_map]

end Version

namespace Settings

open EditorSettings.Setting Version

/-! ## 5. The first rule at later versions -/

/-- Where no size is set, the size is `tab` after the first rule exactly if the rule applies. -/
theorem value?_deriveSizeFromStyle_iff {r : Registry} {version : String} {m : Settings}
    (hsize : m.value? Name.indentSize = none) :
    (m.deriveSizeFromStyle r version).value? Name.indentSize = some "tab" ↔
      styleGivesSize version m = true := by
  rw [deriveSizeFromStyle]
  split
  · rename_i hgives
    rw [declare_size, value?_insert, if_pos rfl, lower_tab]
    exact iff_of_true rfl hgives
  · rename_i hgives
    rw [hsize]
    exact iff_of_false (by simp) hgives

/-- **The first rule applies at every later version**, if it does at one. -/
theorem styleGivesSize_of_le {a b : String} {m : Settings} (hab : compareTexts a b ≠ .gt)
    (h : styleGivesSize a m = true) : styleGivesSize b m = true := by
  obtain ⟨hstyle, hsize, hsince⟩ := styleGivesSize_iff.mp h
  have hsince' : compareTexts "0.10.0" a ≠ .gt := isGE_compareTexts_iff.mp hsince
  exact styleGivesSize_iff.mpr
    ⟨hstyle, hsize, isGE_compareTexts_iff.mpr (compareTexts_trans hsince' hab)⟩

end Settings

/-! ## 6. The statement -/

open Settings Setting Version

/-- **Versions are in a total preorder**, the lexicographic one of their numbers, and the rule that
asks for a version is monotone in it. -/
theorem Version.compareTexts_preorder (a b c : String) :
    compareTexts a a = .eq ∧
    compareTexts b a = (compareTexts a b).swap ∧
    (compareTexts a b ≠ .gt → compareTexts b c ≠ .gt → compareTexts a c ≠ .gt) ∧
    (EndsWithoutBlank a.toList → ∀ k,
      compareTexts (a ++ zeros k) b = compareTexts a b ∧
      compareTexts b (a ++ zeros k) = compareTexts b a) ∧
    (∀ xs ys : List Part, xs ≠ [] → ys ≠ [] →
      compareTexts (written xs) (written ys) =
        List.compareLex Ord.compare
          ((xs.map Part.value).rightpad (max xs.length ys.length) 0)
          ((ys.map Part.value).rightpad (max xs.length ys.length) 0)) ∧
    (compareTexts a b ≠ .gt → ∀ (r : Registry) (m : Settings),
      m.value? Name.indentSize = none →
      (m.deriveSizeFromStyle r a).value? Name.indentSize = some "tab" →
      (m.deriveSizeFromStyle r b).value? Name.indentSize = some "tab" ∧
        m.derive r b = m.derive r a) := by
  refine ⟨compareTexts_self a, compareTexts_swap a b, compareTexts_trans, ?zeros,
    fun xs ys => compareTexts_written, ?rule⟩
  case zeros =>
    intro hends k
    have hzeros := compareTexts_append_zeros hends b k
    refine ⟨hzeros, ?_⟩
    rw [compareTexts_swap _ b, hzeros, ← compareTexts_swap]
  case rule =>
    intro hab r m hsize htab
    have hgives := (value?_deriveSizeFromStyle_iff hsize).mp htab
    have hgives' := styleGivesSize_of_le hab hgives
    refine ⟨(value?_deriveSizeFromStyle_iff hsize).mpr hgives', ?_⟩
    rw [derive_eq_settle, derive_eq_settle, deriveSizeFromStyle, deriveSizeFromStyle, hgives,
      hgives']

/-- A plain version, one behind a blank, and one with a part that is no number. -/
theorem Version.compareTexts_preorder_ten :
    compareTexts "0.10" "1.x" ≠ .gt ∧
    compareTexts ("0.10" ++ zeros 3) " 0.12.0" = compareTexts "0.10" " 0.12.0" ∧
    compareTexts (written [⟨['1', '0'], by decide, List.all_eq_true.mp rfl, by decide⟩])
      (written [⟨['0', '9'], by decide, List.all_eq_true.mp rfl, by decide⟩,
        ⟨['1'], by decide, List.all_eq_true.mp rfl, by decide⟩]) = .gt ∧
    ((declareAll .builtin [("indent_style", "tab")]).deriveSizeFromStyle .builtin
      " 0.12.0").value? Name.indentSize = some "tab" := by
  obtain ⟨-, -, htrans, hzeros, hlex, hrule⟩ := compareTexts_preorder "0.10" " 0.12.0" "1.x"
  have hab : compareTexts "0.10" " 0.12.0" ≠ .gt := by
    rw [compareTexts, compare, compareParts_eq_max]
    decide +kernel
  have hbc : compareTexts " 0.12.0" "1.x" ≠ .gt := by
    rw [compareTexts, compare, compareParts_eq_max]
    decide +kernel
  have hsince : ((ofString "0.10").compare (ofString "0.10.0")).isGE = true := by
    rw [compare, compareParts_eq_max]
    decide +kernel
  have hnone : (declareAll .builtin [("indent_style", "tab")]).value? Name.indentSize = none := by
    decide +kernel
  have hgives : styleGivesSize "0.10" (declareAll .builtin [("indent_style", "tab")]) = true :=
    styleGivesSize_iff.mpr ⟨by decide +kernel, hnone, hsince⟩
  refine ⟨htrans hab hbc, (hzeros (by decide) 3).1, ?_, ?_⟩
  · rw [hlex _ _ (List.cons_ne_nil _ _) (List.cons_ne_nil _ _)]
    decide +kernel
  · exact (hrule hab .builtin _ hnone ((value?_deriveSizeFromStyle_iff hnone).mpr hgives)).1

end EditorSettings
