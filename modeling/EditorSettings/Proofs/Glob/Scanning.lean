/-
# Scanning what has been written

The tokens of a proper pattern are the tokens of its parts, in order (`scan_text`).  The scan goes
from left to right and does not know the pattern.  That every item ends where it was meant to end
(`endsBefore_of_cons`) rests on two conditions: no stars stand side by side, and a slash, two
stars and a slash have been joined before.  The induction is over the way in which they are
joined, with one lemma for each case.
-/
import EditorSettings.Proofs.Glob.Item

namespace EditorSettings.Glob

/-! ## 1. Where a pattern goes on -/

/-- The text ends, or a branch of it. -/
def Ends (rest : List Char) : Prop := ∀ c ∈ rest.head?, c = ',' ∨ c = '}'

theorem ends_nil : Ends [] := fun _ hc => by cases hc

theorem Ends.head?_ne {rest : List Char} (h : Ends rest) {c : Char} (hc : c ≠ ',' ∧ c ≠ '}') :
    rest.head? ≠ some c := by
  intro hhead
  rcases h c hhead with rfl | rfl
  · exact hc.1 rfl
  · exact hc.2 rfl

/-- An item that begins with a star is written with stars, and only a slash begins with one. -/
theorem head_item {i : Item} (h : i.IsProper) :
    ∃ c t, textOf marks i.glyphs = c :: t ∧ (c = '*' → i.isStar = true) ∧
      (c = '/' → i = .slash) := by
  cases i with
  | char g =>
    have htext : textOf marks (Item.char g).glyphs = g.text marks := List.append_nil _
    rw [htext]
    have hone : ∀ {c : Char}, c ≠ '*' ∧ c ≠ '/' → (c = '*' → (Item.char g).isStar = true) ∧
        (c = '/' → Item.char g = .slash) := fun hc =>
      ⟨fun e => absurd e hc.1, fun e => absurd e hc.2⟩
    cases g with
    | bare c =>
      refine ⟨c, [], rfl, hone ⟨?_, ?_⟩⟩
      · rintro rfl
        exact h (by decide)
      · rintro rfl
        exact h (by decide)
    | escaped c =>
      by_cases hc : c ∈ marks
      · refine ⟨c, [], if_pos hc, hone ⟨?_, ?_⟩⟩
        · rintro rfl
          exact absurd hc (by decide)
        · rintro rfl
          exact absurd hc (by decide)
      · exact ⟨'\\', [c], if_neg hc, hone (by decide)⟩
  | slash => exact ⟨'/', [], rfl, fun e => absurd e (by decide), fun _ => rfl⟩
  | one => exact ⟨'?', [], rfl, fun e => absurd e (by decide), fun e => absurd e (by decide)⟩
  | run => exact ⟨'*', [], rfl, fun _ => rfl, fun e => absurd e (by decide)⟩
  | any => exact ⟨'*', ['*'], rfl, fun _ => rfl, fun e => absurd e (by decide)⟩
  | set negated first more =>
    exact ⟨'[', _, rfl, fun e => absurd e (by decide), fun e => absurd e (by decide)⟩
  | depths => exact absurd h not_false

/-- What a pattern begins with can be seen from the first character. -/
theorem head_pattern {p : Pattern} (h : p.IsProper) {rest : List Char} (hrest : Ends rest) :
    ((p.bareText ++ rest).head? = some '*' → ∃ i r, p = .cons i r ∧ i.isStar = true) ∧
      ((p.bareText ++ rest).head? = some '/' → ∃ r, p = .cons .slash r) := by
  cases p with
  | nil =>
    refine ⟨?_, ?_⟩
    · intro hhead
      exact absurd hhead (hrest.head?_ne (by decide))
    · intro hhead
      exact absurd hhead (hrest.head?_ne (by decide))
  | cons i r =>
    obtain ⟨c, t, htext, hstar, hslash⟩ := head_item h.1
    rw [bareText_cons, htext]
    refine ⟨?_, ?_⟩
    · intro hhead
      exact ⟨i, r, rfl, hstar (Option.some.inj hhead)⟩
    · intro hhead
      rw [hslash (Option.some.inj hhead)]
      exact ⟨r, rfl⟩
  | braces first others r =>
    rw [bareText_braces]
    refine ⟨?_, ?_⟩
    · intro hhead
      exact absurd (Option.some.inj hhead) (by decide)
    · intro hhead
      exact absurd (Option.some.inj hhead) (by decide)

/-- Two stars and a slash are written by two items. -/
theorem eq_of_bareText_eq {p : Pattern} (h : p.IsProper) {rest t : List Char} (hrest : Ends rest)
    (htext : p.bareText ++ rest = '*' :: '*' :: '/' :: t) :
    ∃ r, p = .cons .any (.cons .slash r) := by
  obtain ⟨i, r, rfl, hi⟩ := (head_pattern h hrest).1 (by rw [htext]; rfl)
  obtain ⟨-, hstars, hr⟩ := h
  rw [bareText_cons, List.append_assoc] at htext
  cases i with
  | run =>
    -- one star is left over, but no star stands beside another one
    have hnext : r.bareText ++ rest = '*' :: '/' :: t := (List.cons.inj htext).2
    obtain ⟨j, r', rfl, hj⟩ := (head_pattern hr hrest).1 (by rw [hnext]; rfl)
    rw [hstars rfl j rfl] at hj
    cases hj
  | any =>
    have hnext : r.bareText ++ rest = '/' :: t := (List.cons.inj (List.cons.inj htext).2).2
    obtain ⟨r', rfl⟩ := (head_pattern hr hrest).2 (by rw [hnext]; rfl)
    exact ⟨r', rfl⟩
  | char g => cases hi
  | slash => cases hi
  | one => cases hi
  | set negated first more => cases hi
  | depths => cases hi

/-- An item that is not joined with others ends where the next one begins. -/
theorem endsBefore_of_cons {i : Item} {p : Pattern} (h : (Pattern.cons i p).IsProper)
    (hjoin : ∀ r, i = .slash → p = .cons .any (.cons .slash r) → False) {rest : List Char}
    (hrest : Ends rest) : EndsBefore i (p.bareText ++ rest) := by
  obtain ⟨-, hstars, hp⟩ := h
  refine ⟨?_, ?_⟩
  · intro hi hhead
    obtain ⟨j, r, rfl, hj⟩ := (head_pattern hp hrest).1 hhead
    rw [hstars hi j rfl] at hj
    cases hj
  · intro hi t ht
    obtain ⟨r, hr⟩ := eq_of_bareText_eq hp hrest ht
    exact hjoin r hi hr

/-! ## 2. Patterns -/

mutual

/-- The tokens of a pattern. -/
def Pattern.tokens : Pattern → List Token
  | .nil => []
  | .cons i rest => i.token :: rest.tokens
  | .braces first others rest =>
    .opening :: (first.tokens ++ (others.tokens ++ .closing :: rest.tokens))

/-- The tokens of further branches. -/
def Branches.tokens : Branches → List Token
  | .last p => .bar :: p.tokens
  | .more p rest => .bar :: (p.tokens ++ rest.tokens)

end

theorem Scan.after_after (s : Scan) (a b : List Token) :
    (s.after a).after b = s.after (b ++ a) := by
  simp only [Scan.after, List.append_assoc]

/-- The pattern is scanned as its tokens, wherever it stands. -/
def Pattern.Scans (p : Pattern) : Prop :=
  p.IsProper → ∀ depth numbers rest, Ends rest →
    scanFrom true depth numbers (p.bareText ++ rest) =
      (scanFrom true depth numbers rest).after p.joined.tokens

/-- The branches are scanned as their tokens, wherever an alternation is open. -/
def Branches.Scans (bs : Branches) : Prop :=
  bs.IsProper → ∀ depth numbers rest, Ends rest →
    scanFrom true (depth + 1) numbers (bs.bareText ++ rest) =
      (scanFrom true (depth + 1) numbers rest).after bs.joined.tokens

theorem scanFrom_bar (depth numbers : Nat) (rest : List Char) :
    scanFrom true (depth + 1) numbers (',' :: rest) =
      (scanFrom true (depth + 1) numbers rest).after [.bar] := by
  rw [scanFrom, if_neg (by decide), if_pos ⟨rfl, Nat.succ_pos depth⟩]

theorem scanFrom_closing (depth numbers : Nat) (rest : List Char) :
    scanFrom true (depth + 1) numbers ('}' :: rest) =
      (scanFrom true depth numbers rest).after [.closing] := by
  rw [scanFrom, if_neg (by decide), if_neg fun e => absurd e.1 (by decide),
    if_pos ⟨rfl, Nat.succ_pos depth⟩]
  rfl

theorem scanFrom_opening {rest : List Char} (h : word? rest = none) (depth numbers : Nat) :
    scanFrom true depth numbers ('{' :: rest) =
      (scanFrom true (depth + 1) numbers rest).after [.opening] := by
  rw [scanFrom, if_pos rfl]
  split
  · rename_i h'
    rw [h] at h'
    cases h'
  · rfl

theorem ends_bar (rest : List Char) : Ends (',' :: rest) :=
  fun _ hc => Or.inl (Option.some.inj hc).symm

theorem ends_closing (rest : List Char) : Ends ('}' :: rest) :=
  fun _ hc => Or.inr (Option.some.inj hc).symm

theorem scans_nil : Pattern.nil.Scans := fun _ _ _ _ _ => rfl

/-- The three items that are read as one. -/
theorem scans_joined {p : Pattern} (ih : p.Scans) :
    (Pattern.cons .slash (.cons .any (.cons .slash p))).Scans := by
  rintro ⟨-, -, -, -, -, -, hp⟩ depth numbers rest hrest
  have htext : (Pattern.cons .slash (.cons .any (.cons .slash p))).bareText ++ rest =
      '/' :: '*' :: '*' :: '/' :: (p.bareText ++ rest) := rfl
  rw [htext, scanFrom_item (by decide)]
  have hitem : item '/' ('*' :: '*' :: '/' :: (p.bareText ++ rest)) =
      (.depths, p.bareText ++ rest) := rfl
  rw [hitem, ih hp depth numbers rest hrest, Scan.after_after, Pattern.joined]
  rfl

theorem scans_cons {i : Item} {p : Pattern}
    (hjoin : ∀ r, i = .slash → p = .cons .any (.cons .slash r) → False) (ih : p.Scans) :
    (Pattern.cons i p).Scans := by
  intro h depth numbers rest hrest
  rw [bareText_cons, List.append_assoc, scan_item h.1 (endsBefore_of_cons h hjoin hrest),
    ih h.2.2 depth numbers rest hrest, Scan.after_after, Pattern.joined]
  · rfl
  · exact hjoin

theorem scans_braces {first : Pattern} {others : Branches} {p : Pattern} (ihfirst : first.Scans)
    (ihothers : others.Scans) (ih : p.Scans) : (Pattern.braces first others p).Scans := by
  rintro ⟨hfirst, hothers, hp⟩ depth numbers rest hrest
  obtain ⟨t, ht⟩ := exists_bareText_branches others
  have htext : (Pattern.braces first others p).bareText ++ rest =
      '{' :: (first.bareText ++ (others.bareText ++ '}' :: (p.bareText ++ rest))) := by
    rw [bareText_braces, List.cons_append, List.append_assoc, List.append_assoc, List.cons_append]
  have hcomma : others.bareText ++ '}' :: (p.bareText ++ rest) =
      ',' :: (t ++ '}' :: (p.bareText ++ rest)) := by
    rw [ht, List.cons_append]
  have hword :
      word? (first.bareText ++ (others.bareText ++ '}' :: (p.bareText ++ rest))) = none := by
    rw [hcomma]
    exact word?_pattern hfirst rfl
  have hends : Ends (others.bareText ++ '}' :: (p.bareText ++ rest)) := by
    rw [hcomma]
    exact ends_bar _
  rw [htext, scanFrom_opening hword, ihfirst hfirst _ _ _ hends,
    ihothers hothers _ _ _ (ends_closing _), scanFrom_closing, ih hp _ _ _ hrest]
  simp only [Scan.after_after, Pattern.joined, Pattern.tokens]
  rfl

theorem scans_last {p : Pattern} (ih : p.Scans) : (Branches.last p).Scans := by
  intro hp depth numbers rest hrest
  rw [bareText_last, List.cons_append, scanFrom_bar, ih hp _ _ _ hrest, Scan.after_after]
  rfl

theorem scans_more {p : Pattern} {bs : Branches} (ih : p.Scans) (ihbs : bs.Scans) :
    (Branches.more p bs).Scans := by
  rintro ⟨hp, hbs⟩ depth numbers rest hrest
  obtain ⟨t, ht⟩ := exists_bareText_branches bs
  have hends : Ends (bs.bareText ++ rest) := by
    rw [ht]
    exact ends_bar _
  rw [bareText_more, List.cons_append, List.append_assoc, scanFrom_bar, ih hp _ _ _ hends,
    ihbs hbs _ _ _ hrest, Scan.after_after, Scan.after_after]
  rfl

/-- **Every pattern is scanned as its tokens.**  The induction follows the way in which items are
joined. -/
theorem scans (p : Pattern) : p.Scans :=
  (Pattern.joined.mutual_induct Pattern.Scans Branches.Scans scans_nil
    (fun _ ih => scans_joined ih) (fun _ _ hjoin ih => scans_cons hjoin ih)
    (fun _ _ _ ihfirst ihothers ih => scans_braces ihfirst ihothers ih)
    (fun _ ih => scans_last ih) (fun _ _ ih ihbs => scans_more ih ihbs)).1 p

/-- The tokens of a whole text are those of its pattern, and there are no ranges. -/
theorem scan_text {p : Pattern} (h : p.IsProper) : scan p.bareText = ⟨p.joined.tokens, []⟩ := by
  have hbalanced : balanced 0 p.bareText = true := by
    have hnil := balanced_pattern h 0 []
    rw [List.append_nil] at hnil
    rw [hnil]
    rfl
  have hscan := scans p h 0 0 [] ends_nil
  rw [List.append_nil] at hscan
  rw [scan, hbalanced, hscan, scanFrom, Scan.after, List.append_nil]

/-! ## 3. Anchored patterns -/

/-- A pattern with a slash is anchored by a slash in front, unless one is there. -/
theorem anchored_of_slash {p : Pattern} (h : .bare '/' ∈ p.glyphs) :
    (∃ r, p = .cons .slash r ∧ p.anchored = p) ∨
      (∀ r, p ≠ .cons .slash r) ∧ p.anchored = .cons .slash p := by
  unfold Pattern.anchored
  rw [if_pos h]
  split
  · exact Or.inl ⟨_, rfl, rfl⟩
  · rename_i hne
    exact Or.inr ⟨hne, rfl⟩

theorem anchored_of_not_slash {p : Pattern} (h : .bare '/' ∉ p.glyphs) :
    p.anchored = .cons .slash (.cons .any (.cons .slash p)) := by
  unfold Pattern.anchored
  rw [if_neg h]

theorem isProper_anchored {p : Pattern} (h : p.IsProper) : p.anchored.IsProper := by
  have hslash : (Pattern.cons .slash p).IsProper := ⟨trivial, fun e => (by cases e), h⟩
  by_cases hp : .bare '/' ∈ p.glyphs
  · rcases anchored_of_slash hp with ⟨-, -, he⟩ | ⟨-, he⟩
    · rw [he]
      exact h
    · rw [he]
      exact hslash
  · rw [anchored_of_not_slash hp]
    refine ⟨trivial, fun e => (by cases e), trivial, ?_, hslash⟩
    intro _ j hj
    cases hj
    rfl

/-- **Anchoring the text of a pattern gives the text of the anchored pattern.** -/
theorem bareText_anchored {p : Pattern} (h : p.IsProper) :
    p.anchored.bareText = anchor p.bareText := by
  have hslash := slash_mem_bareText h
  unfold anchor
  by_cases hp : .bare '/' ∈ p.glyphs
  · rw [if_pos (List.contains_iff_mem.mpr (hslash.mpr hp))]
    rcases anchored_of_slash hp with ⟨r, rfl, he⟩ | ⟨hne, he⟩
    · rw [he]
      rfl
    · rw [he]
      split
      · rename_i hhead
        have hfirst : (p.bareText ++ []).head? = some '/' := by
          rw [List.append_nil, hhead]
          rfl
        obtain ⟨r, hr⟩ := (head_pattern h ends_nil).2 hfirst
        exact absurd hr (hne r)
      · rfl
  · rw [if_neg fun hmem => hp (hslash.mp (List.contains_iff_mem.mp hmem)),
      anchored_of_not_slash hp]
    rfl

end EditorSettings.Glob
