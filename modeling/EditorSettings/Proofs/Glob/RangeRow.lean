/-
# Ranges between plain texts

In a glob that has ranges and plain text only, and no wildcards, every range is exact.  Such a glob
is a text and a list of slots, each a range with the text behind it.  It matches the names that
have, in the place of each range, an integer of that range without needless zeros
(`matchesPath_slots`).

A matcher keeps the numbers of one way to read a path, and compares them with the ranges afterwards.
Every way keeps the numbers that it takes, each at the index of its slot
(`exists_filled_of_mem_tries`).  And all ways take the same numbers (`filled_inj`): a number takes
all the digits that there are, because the text that goes on does not begin with a digit, and the
last one ends where the last text begins.
-/
import EditorSettings.Proofs.Glob.NumberRange

namespace EditorSettings.Glob

open EditorSettings.Text

/-! ## 1. Slots -/

/-- A range as it is written in a glob, and the plain text behind it. -/
structure Slot where
  first : Numeral
  last : Numeral
  behind : List Char
  fits_first : FitsInt64 first.value
  fits_last : FitsInt64 last.value
  not_special : ∀ c ∈ behind, c ∉ special

namespace Slot

/-- What stands between the braces. -/
def word (x : Slot) : List Char := x.first.text ++ '.' :: '.' :: x.last.text

/-- How the slot is written. -/
def text (x : Slot) : List Char := '{' :: (x.word ++ '}' :: x.behind)

/-- The range between the two bounds, whichever is the greater one. -/
def range (x : Slot) : Range :=
  ⟨min x.first.value x.last.value, max x.first.value x.last.value⟩

/-- The numeral stands for an integer of the range, and has no needless zeros. -/
def Accepts (x : Slot) (n : Numeral) : Prop :=
  n.IsCanonical ∧ FitsInt64 n.value ∧
    min x.first.value x.last.value ≤ n.value ∧ n.value ≤ max x.first.value x.last.value

end Slot

/-- The glob of plain text with slots behind it. -/
def slotText (before : List Char) (xs : List Slot) : List Char := before ++ xs.flatMap Slot.text

/-- The slots with numerals in the place of their ranges. -/
def filled : List Slot → List Numeral → List Char
  | x :: xs, n :: ns => n.text ++ (x.behind ++ filled xs ns)
  | [], _ => []
  | _ :: _, [] => []

/-- Between two ranges stands a text that does not begin with a digit. -/
def Separated (xs : List Slot) : Prop :=
  ∀ x ∈ xs.dropLast, ∃ c ∈ x.behind.head?, isDigit c = false

theorem ne_of_mem_word {x : Slot} {c : Char} (hc : c ∈ x.word) :
    c ≠ '\\' ∧ c ≠ ',' ∧ c ≠ '}' ∧ c ≠ '/' := by
  have hnot : ∀ d ∈ ['\\', ',', '}', '/'], d ≠ '+' ∧ d ≠ '-' ∧ isDigit d = false := by
    simp [isDigit]
  have hne : c ∉ ['\\', ',', '}', '/'] := by
    simp only [Slot.word, List.mem_append, List.mem_cons] at hc
    rcases hc with hc | rfl | rfl | hc
    · exact fun hmem => Numeral.not_mem_text (hnot c hmem) _ hc
    · decide
    · decide
    · exact fun hmem => Numeral.not_mem_text (hnot c hmem) _ hc
  simpa using hne

theorem not_mem_slotText {before : List Char} (hbefore : ∀ c ∈ before, c ∉ special) (xs : List Slot)
    {c : Char} (hc : c = '\\' ∨ c = '/') : c ∉ slotText before xs := by
  have hspecial : c ∈ special := by
    rcases hc with rfl | rfl
    · decide
    · decide
  have hbrace : c ≠ '{' ∧ c ≠ '}' := by
    rcases hc with rfl | rfl
    · decide
    · decide
  rw [slotText, List.mem_append, List.mem_flatMap, not_or]
  refine ⟨fun h => hbefore c h hspecial, ?_⟩
  rintro ⟨x, -, hx⟩
  simp only [Slot.text, List.mem_cons, List.mem_append] at hx
  rcases hx with h | h | h | h
  · exact hbrace.1 h
  · obtain ⟨hback, -, -, hslash⟩ := ne_of_mem_word h
    exact hc.elim hback hslash
  · exact hbrace.2 h
  · exact x.not_special c h hspecial

/-! ## 2. How slots are scanned -/

/-- The tokens of slots, of which the first one has the number `index`. -/
def slotTokens : Nat → List Slot → List Token
  | _, [] => []
  | index, x :: xs =>
    .atom (.number index) :: (charTokens x.behind ++ slotTokens (index + 1) xs)

theorem ofText?_word (x : Slot) : Range.ofText? x.word = some x.range := by
  have hdot : '.' ∉ x.first.text := Numeral.not_mem_text (by decide) _
  rw [Range.ofText?, Slot.word, splitDots?_append hdot]
  simp only [int64?_eq_some_iff.mpr ⟨x.first, rfl, rfl, x.fits_first⟩,
    int64?_eq_some_iff.mpr ⟨x.last, rfl, rfl, x.fits_last⟩]
  rfl

theorem scanFrom_slots (braces : Bool) (depth : Nat) :
    ∀ (index : Nat) (xs : List Slot),
      scanFrom braces depth index (xs.flatMap Slot.text) =
        ⟨slotTokens index xs, xs.map Slot.range⟩
  | index, [] => by rw [List.flatMap_nil, scanFrom]; rfl
  | index, x :: xs => by
    have htext : (x :: xs).flatMap Slot.text =
        '{' :: (x.word ++ '}' :: (x.behind ++ xs.flatMap Slot.text)) := by
      rw [List.flatMap_cons, Slot.text, List.cons_append, List.append_assoc, List.cons_append]
    have hword : word? (x.word ++ '}' :: (x.behind ++ xs.flatMap Slot.text)) =
        some (x.word, x.behind ++ xs.flatMap Slot.text) := by
      refine word?_closing (fun c hc => ?_) _
      obtain ⟨hback, hcomma, hclose, -⟩ := ne_of_mem_word hc
      exact ⟨hback, hcomma, hclose⟩
    rw [htext, scanFrom_range hword (ofText?_word x), scanFrom_literal x.not_special,
      scanFrom_slots braces depth (index + 1) xs]
    rfl

/-- The items of a glob with slots. -/
def slotRow (before : List Char) (xs : List Slot) : List Token :=
  .depths :: (charTokens before ++ slotTokens 0 xs)

theorem scan_slots {before : List Char} (hbefore : ∀ c ∈ before, c ∉ special) (xs : List Slot) :
    scan (anchor (slotText before xs)) = ⟨slotRow before xs, xs.map Slot.range⟩ := by
  refine scan_anchor (not_mem_slotText hbefore xs (Or.inr rfl)) fun braces => ?_
  rw [slotText, scanFrom_literal hbefore, scanFrom_slots]
  rfl

theorem isItem_of_mem_slotTokens {index : Nat} {xs : List Slot} {t : Token}
    (h : t ∈ slotTokens index xs) : t.IsItem ∧ t.expr.innerNesting ≤ 5 := by
  induction xs generalizing index with
  | nil => cases h
  | cons x xs ih =>
    rw [slotTokens, List.mem_cons, List.mem_append] at h
    rcases h with rfl | h | h
    · exact ⟨Or.inr ⟨_, rfl⟩, le_rfl⟩
    · obtain ⟨hitem, hnesting⟩ := isItem_of_mem_charTokens h
      exact ⟨hitem, hnesting ▸ Nat.zero_le 5⟩
    · exact ih h

/-- The matcher of a glob with slots. -/
theorem matcher?_slots (dir : List Char) {before : List Char}
    (hbefore : ∀ c ∈ before, c ∉ special) (xs : List Slot) :
    matcher? dir (slotText before xs) =
      some ⟨rowExpr dir (slotRow before xs), xs.map Slot.range⟩ := by
  have hitems : ∀ t ∈ slotRow before xs, t.IsItem ∧ t.expr.innerNesting ≤ 5 := by
    intro t ht
    rw [slotRow, List.mem_cons, List.mem_append] at ht
    rcases ht with rfl | ht | ht
    · exact ⟨Or.inl rfl, by decide⟩
    · obtain ⟨hitem, hnesting⟩ := isItem_of_mem_charTokens ht
      exact ⟨hitem, hnesting ▸ Nat.zero_le 5⟩
    · exact isItem_of_mem_slotTokens ht
  exact matcher?_row_of_le dir (scan_slots hbefore xs) (fun t ht => (hitems t ht).1)
    fun t ht => (hitems t ht).2

/-! ## 3. The numbers that are kept -/

theorem followedBy_append (e : Expr) (xs ys : List Expr) :
    e.followedBy (xs ++ ys) = (e.followedBy xs).followedBy ys := List.foldl_append

theorem numberless_charTokens (w : List Char) :
    ∀ x ∈ (charTokens w).map Token.expr, x.Numberless := by
  intro x hx
  obtain ⟨t, ht, rfl⟩ := List.mem_map.mp hx
  refine Token.numberless_expr fun index hindex => ?_
  obtain ⟨c, -, hc⟩ := List.mem_map.mp ht
  rw [hindex] at hc
  cases hc

/-- Plain text is read as it is, and the numbers stay as they are. -/
theorem of_mem_tries_charTokens {w : List Char} {r t : Reading}
    (h : t ∈ (Expr.empty.followedBy ((charTokens w).map Token.expr)).tries r) :
    r.place.rest = w ++ t.place.rest ∧ t.numbers = r.numbers := by
  refine ⟨?_, Expr.Numberless.numbers
    (Expr.Numberless.followedBy (e := .empty) trivial (numberless_charTokens w)) h⟩
  obtain ⟨u, hu, hrest⟩ := reaches_of_mem_tries h
  rw [language_followedBy_items, Expr.language, one_mul, itemsLanguage_charTokens] at hu
  rw [hrest, Set.mem_singleton_iff.mp hu]

/-- **Slots keep their numbers.**  A way to read slots takes a numeral for each of them, and keeps it
at the index of the slot; what was kept at lower indices stays. -/
theorem exists_filled_of_mem_tries {xs : List Slot} {index : Nat} {r t : Reading}
    (h : t ∈ (Expr.empty.followedBy ((slotTokens index xs).map Token.expr)).tries r) :
    ∃ ns : List Numeral, ns.length = xs.length ∧
      r.place.rest = filled xs ns ++ t.place.rest ∧
      (∀ j < index, t.numbers.lookup j = r.numbers.lookup j) ∧
      ∀ k n, ns[k]? = some n → t.numbers.lookup (index + k) = some n.text := by
  induction xs generalizing index r with
  | nil =>
    rw [List.mem_singleton.mp h]
    exact ⟨[], rfl, rfl, fun j _ => rfl, fun k n hn => by simp at hn⟩
  | cons x xs ih =>
    rw [slotTokens, List.map_cons, List.map_append] at h
    have hsplit := followedBy_append (.seq .empty (.atom (.number index)))
      ((charTokens x.behind).map Token.expr) ((slotTokens (index + 1) xs).map Token.expr)
    rw [Expr.followedBy, List.foldl_cons, ← Expr.followedBy, Token.expr, hsplit,
      tries_followedBy] at h
    obtain ⟨v, hv, ht⟩ := List.mem_flatMap.mp h
    rw [tries_followedBy] at hv
    obtain ⟨u, hu, hv⟩ := List.mem_flatMap.mp hv
    -- the number is read up to `u`, the text behind it up to `v`, and the other slots up to `t`
    have hnumber : u ∈ r.tryNumber index := by simpa [Expr.tries, Atom.tries] using hu
    obtain ⟨w, hw, hrest, hnumbers⟩ := numbers_of_mem_tryNumber hnumber
    obtain ⟨n, rfl⟩ := mem_numerals_iff.mp hw
    obtain ⟨hbehind, hsame⟩ := of_mem_tries_charTokens hv
    obtain ⟨ns, hlength, hfilled, hlower, hkept⟩ := ih ht
    refine ⟨n :: ns, congrArg (· + 1) hlength, ?_, fun j hj => ?_, fun k m hm => ?_⟩
    · rw [hrest, hbehind, hfilled, filled, List.append_assoc, List.append_assoc]
    · have hne : (j == index) = false := beq_false_of_ne (by omega)
      rw [hlower j (by omega), hsame, hnumbers, List.lookup_cons, hne]
    · cases k with
      | zero =>
        cases hm
        rw [Nat.add_zero, hlower index (by omega), hsame, hnumbers, List.lookup_cons_self]
      | succ k =>
        rw [← hkept k m hm]
        congr 1
        omega

/-- A way to read a path goes through the directory, slashes at any depth, and the slots. -/
theorem exists_filled_of_reads {dir before path : List Char} {xs : List Slot} {r : Reading}
    (h : r ∈ (rowExpr dir (slotRow before xs)).tries ⟨.start path, [], []⟩)
    (hend : r.place.rest = []) :
    ∃ v ∈ Item.depths.language, ∃ ns : List Numeral, ns.length = xs.length ∧
      path = dir ++ (v ++ (before ++ filled xs ns)) ∧
      ∀ k n, ns[k]? = some n → r.numbers.lookup k = some n.text := by
  have hsplit : rowExpr dir (slotRow before xs) =
      (rowExpr dir (.depths :: charTokens before)).followedBy
        ((slotTokens 0 xs).map Token.expr) := by
    rw [rowExpr, slotRow, ← List.cons_append, List.map_append, followedBy_append]
    rfl
  rw [hsplit, tries_followedBy] at h
  obtain ⟨u, hu, hr⟩ := List.mem_flatMap.mp h
  obtain ⟨ns, hlength, hfilled, -, hkept⟩ := exists_filled_of_mem_tries hr
  obtain ⟨w, hw, hpath⟩ := reaches_of_mem_tries hu
  obtain ⟨s, hs, rfl⟩ := mem_language_rowExpr.mp hw
  obtain ⟨v, hv, name, hname, rfl⟩ := mem_itemsLanguage_depths.mp hs
  rw [itemsLanguage_charTokens] at hname
  refine ⟨v, hv, ns, hlength, ?_, fun k n hn => ?_⟩
  · have hstart : path = dir ++ (v ++ name) ++ u.place.rest := hpath
    rw [hstart, hfilled, hend, List.append_nil, Set.mem_singleton_iff.mp hname]
    simp only [List.append_assoc]
  · rw [← hkept k n hn, Nat.zero_add]

/-! ## 4. There is one way only -/

theorem slash_not_mem_filled (xs : List Slot) (ns : List Numeral) : '/' ∉ filled xs ns := by
  fun_induction filled xs ns with
  | case1 x xs n ns ih =>
    have hbehind : '/' ∉ x.behind := fun h => x.not_special _ h (by decide)
    have hnumeral : '/' ∉ n.text := Numeral.not_mem_text (by decide) n
    simp [hnumeral, hbehind, ih]
  | case2 => exact List.not_mem_nil
  | case3 => exact List.not_mem_nil

/-- **The numerals can be seen from the text**, if the ranges are separated. -/
theorem filled_inj {xs : List Slot} (hsep : Separated xs) {ns ms : List Numeral}
    (hns : ns.length = xs.length) (hms : ms.length = xs.length)
    (h : filled xs ns = filled xs ms) : ns = ms := by
  induction xs generalizing ns ms with
  | nil => rw [List.length_eq_zero_iff.mp hns, List.length_eq_zero_iff.mp hms]
  | cons x xs ih =>
    obtain ⟨n, ns, rfl⟩ := List.exists_cons_of_length_eq_add_one hns
    obtain ⟨m, ms, rfl⟩ := List.exists_cons_of_length_eq_add_one hms
    rw [filled, filled] at h
    have htext : n.text = m.text := by
      cases xs with
      | nil =>
        rw [filled, filled] at h
        exact List.append_cancel_right h
      | cons y ys =>
        obtain ⟨c, hc, hdigit⟩ := hsep x (by simp)
        obtain ⟨rest, hbehind⟩ := List.head?_eq_some_iff.mp hc
        have hnext : ∀ t : List Char, ∀ d ∈ (x.behind ++ t).head?, isDigit d = false := by
          intro t d hd
          rw [hbehind] at hd
          exact Option.some.inj hd ▸ hdigit
        rcases Nat.le_total m.text.length n.text.length with hle | hle
        · exact Numeral.text_prefix_unique (hnext _) h hle
        · exact (Numeral.text_prefix_unique (hnext _) h.symm hle).symm
    have hrest : filled xs ns = filled xs ms := by
      rw [htext, List.append_cancel_left_eq, List.append_cancel_left_eq] at h
      exact h
    have hsep' : Separated xs := by
      intro y hy
      cases xs with
      | nil => cases hy
      | cons z zs => exact hsep y (List.mem_cons_of_mem _ hy)
    rw [Numeral.text_inj htext, ih hsep' (Nat.succ.inj hns) (Nat.succ.inj hms) hrest]

/-- A name without a slash is what stands behind the last one. -/
theorem eq_of_depths_append {v v' name name' : List Char} (hv : v ∈ Item.depths.language)
    (hv' : v' ∈ Item.depths.language) (hname : '/' ∉ name) (hname' : '/' ∉ name')
    (h : v ++ name = v' ++ name') : name = name' := by
  have hlast : ∀ {u : List Char}, u ∈ Item.depths.language → ∃ a, u = a ++ ['/'] := by
    rintro u (rfl | ⟨a, rfl⟩)
    · exact ⟨[], rfl⟩
    · exact ⟨'/' :: a, rfl⟩
  obtain ⟨a, rfl⟩ := hlast hv
  obtain ⟨a', rfl⟩ := hlast hv'
  have hcut : ∀ {a s : List Char}, '/' ∉ s →
      (a ++ ['/'] ++ s).rtakeWhile (· != '/') = s := by
    intro a s hs
    rw [List.rtakeWhile, List.reverse_append, List.reverse_append, List.takeWhile_append_of_pos]
    · simp
    · intro c hc
      simpa using fun hslash : c = '/' => hs (hslash ▸ List.mem_reverse.mp hc)
  rw [← hcut hname, h, hcut hname']

/-! ## 5. Globs with slots -/

theorem filled_mem_itemsLanguage (index : Nat) {xs : List Slot} {ns : List Numeral}
    (h : ns.length = xs.length) : filled xs ns ∈ itemsLanguage (slotTokens index xs) := by
  induction xs generalizing index ns with
  | nil => exact Language.nil_mem_one
  | cons x xs ih =>
    obtain ⟨n, ns, rfl⟩ := List.exists_cons_of_length_eq_add_one h
    rw [filled, slotTokens, itemsLanguage_cons, itemsLanguage_append, itemsLanguage_charTokens]
    exact Language.append_mem_mul (mem_numerals_iff.mpr ⟨n, rfl⟩)
      (Language.append_mem_mul rfl (ih (index + 1) (Nat.succ.inj h)))

theorem mem_language_slotRow {dir before v : List Char} {xs : List Slot} {ns : List Numeral}
    (hv : v ∈ Item.depths.language) (hlength : ns.length = xs.length) :
    dir ++ (v ++ (before ++ filled xs ns)) ∈ (rowExpr dir (slotRow before xs)).language := by
  refine mem_language_rowExpr.mpr ⟨_, mem_itemsLanguage_depths.mpr ⟨v, hv, _, ?_, rfl⟩, rfl⟩
  rw [itemsLanguage_append, itemsLanguage_charTokens]
  exact Language.append_mem_mul rfl (filled_mem_itemsLanguage 0 hlength)

/-- A matcher accepts a text if the reading that counts has a number for every range, and the range
accepts it. -/
theorem accepts_eq_true_iff {m : Matcher} {s : List Char} :
    m.accepts s = true ↔ ∃ r, m.expr.whole? s = some r ∧
      ∀ (k : Nat) (range : Range), m.ranges[k]? = some range →
        range.acceptsIn r.numbers k = true := by
  unfold Matcher.accepts
  cases m.expr.whole? s with
  | none => simp
  | some r =>
    simp only [List.all_eq_true, Option.some.injEq, exists_eq_left', Prod.forall,
      List.mem_zipIdx_iff_getElem?]
    exact forall_comm

/-- The ranges accept the numbers that are kept for them if the slots accept the numerals. -/
theorem forall_acceptsIn_iff {xs : List Slot} {ns : List Numeral} (hlength : ns.length = xs.length)
    {numbers : List (Nat × List Char)}
    (hkept : ∀ k n, ns[k]? = some n → numbers.lookup k = some n.text) :
    (∀ (k : Nat) (range : Range), (xs.map Slot.range)[k]? = some range →
        range.acceptsIn numbers k = true) ↔
      List.Forall₂ Slot.Accepts xs ns := by
  have hslot : ∀ k (hx : k < xs.length) (hn : k < ns.length),
      xs[k].range.acceptsIn numbers k = true ↔ xs[k].Accepts ns[k] := by
    intro k hx hn
    rw [Range.acceptsIn, hkept k ns[k] (List.getElem?_eq_getElem hn)]
    exact accepts_text xs[k].range ns[k]
  rw [List.forall₂_iff_get]
  constructor
  · intro h
    refine ⟨hlength.symm, fun k hx hn => (hslot k hx hn).mp (h k _ ?_)⟩
    rw [List.getElem?_map, List.getElem?_eq_getElem hx]
    rfl
  · rintro ⟨-, h⟩ k range hrange
    rw [List.getElem?_map, Option.map_eq_some_iff] at hrange
    obtain ⟨x, hx, rfl⟩ := hrange
    obtain ⟨hk, rfl⟩ := List.getElem?_eq_some_iff.mp hx
    exact (hslot k hk (hlength ▸ hk)).mpr (h k hk (hlength ▸ hk))

/-- The reading that counts takes a numeral for each slot, and keeps it. -/
theorem exists_filled_of_whole? {dir before path : List Char} {xs : List Slot} {r : Reading}
    (h : (rowExpr dir (slotRow before xs)).whole? path = some r) :
    ∃ v ∈ Item.depths.language, ∃ ns : List Numeral, ns.length = xs.length ∧
      path = dir ++ (v ++ (before ++ filled xs ns)) ∧
      ∀ k n, ns[k]? = some n → r.numbers.lookup k = some n.text := by
  rw [whole?_eq_find?] at h
  have hend := List.find?_some h
  exact exists_filled_of_reads (List.mem_of_find?_eq_some h) (List.isEmpty_iff.mp hend)

theorem accepts_slots_iff {dir before : List Char} (hbefore : ∀ c ∈ before, c ∉ special)
    {xs : List Slot} (hsep : Separated xs) {path : List Char} :
    (Matcher.mk (rowExpr dir (slotRow before xs)) (xs.map Slot.range)).accepts path = true ↔
      ∃ v ∈ Item.depths.language, ∃ ns, List.Forall₂ Slot.Accepts xs ns ∧
        path = dir ++ (v ++ (before ++ filled xs ns)) := by
  rw [accepts_eq_true_iff]
  have hname : ∀ ns, '/' ∉ before ++ filled xs ns := by
    intro ns h
    rcases List.mem_append.mp h with h | h
    · exact hbefore _ h (by decide)
    · exact slash_not_mem_filled xs ns h
  constructor
  · rintro ⟨r, hr, haccepts⟩
    obtain ⟨v, hv, ns, hlength, hpath, hkept⟩ := exists_filled_of_whole? hr
    exact ⟨v, hv, ns, (forall_acceptsIn_iff hlength hkept).mp haccepts, hpath⟩
  · rintro ⟨v, hv, ns, haccepts, hpath⟩
    have hlength : ns.length = xs.length := haccepts.length_eq.symm
    obtain ⟨r, hr⟩ := Option.isSome_iff_exists.mp
      ((whole?_isSome_iff _ path).mpr (hpath ▸ mem_language_slotRow hv hlength))
    obtain ⟨v', hv', ns', hlength', hpath', hkept⟩ := exists_filled_of_whole? hr
    -- the reading that counts has taken the same numerals
    rw [hpath, List.append_cancel_left_eq] at hpath'
    have hsame := eq_of_depths_append hv hv' (hname ns) (hname ns') hpath'
    rw [List.append_cancel_left_eq] at hsame
    have hns : ns' = ns := filled_inj hsep hlength' hlength hsame.symm
    subst hns
    exact ⟨r, hr, (forall_acceptsIn_iff hlength hkept).mpr haccepts⟩

/-- **Between plain texts, ranges are exact.**  A glob of plain text and ranges that are separated by
text matches a path if and only if the path is the directory, without the slashes at its end, then
a slash or two slashes with anything between them, and then the glob with an integer of each range
in its place, written without needless zeros. -/
theorem matchesPath_slots (dir : String) {before : List Char} {xs : List Slot}
    (hbefore : ∀ c ∈ before, c ∉ special) (hsep : Separated xs)
    (hlength : (slotText before xs).length ≤ maxLength) (path : String) :
    (compile dir (String.ofList (slotText before xs))).matchesPath path = true ↔
      ∃ v name, path.toList = dir.toList.rdropWhile (· == '/') ++ (v ++ name) ∧
        (v = ['/'] ∨ ∃ w, v = '/' :: (w ++ ['/'])) ∧ '/' ∉ name ∧
        ∃ ns, List.Forall₂ Slot.Accepts xs ns ∧ name = before ++ filled xs ns := by
  have hback : '\\' ∉ slotText before xs := not_mem_slotText hbefore xs (Or.inl rfl)
  rw [matchesPath_compile, String.length_ofList, String.toList_ofList,
    unescapeComments_eq_self hback, matcher?_slots _ hbefore]
  simp only [Option.some.injEq, exists_eq_left', accepts_slots_iff hbefore hsep]
  constructor
  · rintro ⟨-, v, hv, ns, haccepts, hpath⟩
    refine ⟨v, _, hpath, hv, ?_, ns, haccepts, rfl⟩
    rw [List.mem_append, not_or]
    exact ⟨fun h => hbefore _ h (by decide), slash_not_mem_filled xs ns⟩
  · rintro ⟨v, name, hpath, hv, -, ns, haccepts, rfl⟩
    exact ⟨hlength, v, hv, ns, haccepts, hpath⟩

/-- Two ranges, the first with its greater bound in front, with signs and needless zeros. -/
def versionSlots : List Slot :=
  [{ first := ⟨.absent, ['1', '2'], by decide, by simp [isDigit]⟩
     last := ⟨.minus, ['0', '3'], by decide, by simp [isDigit]⟩
     behind := ['-', 'r']
     fits_first := by decide
     fits_last := by decide
     not_special := by simp [special] },
   { first := ⟨.plus, ['7'], by decide, by simp [isDigit]⟩
     last := ⟨.absent, ['9'], by decide, by simp [isDigit]⟩
     behind := []
     fits_first := by decide
     fits_last := by decide
     not_special := by simp }]

theorem matchesPath_versionSlots :
    slotText ['v'] versionSlots = "v\x7b12..-03\x7d-r\x7b+7..9\x7d".toList ∧
    ∀ path : String, (compile "/project/"
      (String.ofList (slotText ['v'] versionSlots))).matchesPath path = true ↔
      ∃ v name, path.toList = "/project/".toList.rdropWhile (· == '/') ++ (v ++ name) ∧
        (v = ['/'] ∨ ∃ w, v = '/' :: (w ++ ['/'])) ∧ '/' ∉ name ∧
        ∃ ns, List.Forall₂ Slot.Accepts versionSlots ns ∧ name = ['v'] ++ filled versionSlots ns := by
  have hsep : Separated versionSlots := by
    intro x hx
    rw [List.mem_singleton.mp hx]
    exact ⟨'-', rfl, rfl⟩
  exact ⟨by decide, matchesPath_slots "/project/" (by simp [special]) hsep (by decide)⟩

end EditorSettings.Glob
