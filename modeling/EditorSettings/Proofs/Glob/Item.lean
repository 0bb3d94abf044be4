/-
# Items are read one by one

An item is read as its token, if it ends where the rest of the text begins (`scan_item`).  Most of
this module is about classes: their members are read up to the closing bracket
(`members?_class`), no slash stands in between (`slash_not_mem_class`), and the spans of the set
are those of the members (`ofMembers?_class`).
-/
import EditorSettings.Proofs.Glob.Writing

namespace EditorSettings.Glob

/-! ## 1. Classes -/

namespace ClassMember

/-- What is read of the member. -/
def read : ClassMember → List Member
  | one g => [.char g.char]
  | span low high => [.char low.char, .dash, .char high.char]

/-- The characters that the member stands for, as a span. -/
def toSpan : ClassMember → Text.Span
  | one g => (g.char.toNat, g.char.toNat)
  | span low high => (low.char.toNat, high.char.toNat)

end ClassMember

theorem members?_cons_of_ne {c : Char} (h : c ≠ ']' ∧ c ≠ '-' ∧ c ≠ '\\') (rest : List Char) :
    members? (c :: rest) =
      (members? rest).map fun (ms, after) => (.char c :: ms, after) := by
  obtain ⟨hclose, hdash, hback⟩ := h
  rw [members?.eq_def]
  split
  · rename_i e
    cases e
  · rename_i e
    exact absurd (List.cons.inj e).1 hclose
  · rename_i e
    exact absurd (List.cons.inj e).1 hdash
  · rename_i e
    exact absurd (List.cons.inj e).1 hback
  · rename_i e
    rw [(List.cons.inj e).1, (List.cons.inj e).2]

/-- An inner character neither ends a class nor joins others, and no class is negated by it. -/
theorem ne_of_isInner {c : Char} (h : c.isAlphanum = true ∨ c ∈ marks) :
    c ∉ [']', '-', '\\', '!', '^', '/'] := by
  intro hc
  simp only [List.mem_cons, List.not_mem_nil, or_false] at hc
  rcases h with h | h
  · rcases hc with rfl | rfl | rfl | rfl | rfl | rfl <;> revert h <;> decide
  · rcases hc with rfl | rfl | rfl | rfl | rfl | rfl <;> revert h <;> decide

/-- An inner character is written by itself or with a backslash. -/
theorem text_inner {g : Glyph} (h : ClassMember.IsInner g) :
    (g.text marks = [g.char] ∧ (g.char.isAlphanum = true ∨ g.char ∈ marks)) ∨
      (g.text marks = ['\\', g.char] ∧ g.char ≠ '/') := by
  cases g with
  | bare c => exact Or.inl ⟨rfl, Or.inl h⟩
  | escaped c =>
    by_cases hc : c ∈ marks
    · exact Or.inl ⟨if_pos hc, Or.inr hc⟩
    · exact Or.inr ⟨if_neg hc, h⟩

theorem members?_inner {g : Glyph} (h : ClassMember.IsInner g) {rest after : List Char}
    {ms : List Member} (hrest : members? rest = some (ms, after)) :
    members? (g.text marks ++ rest) = some (.char g.char :: ms, after) := by
  rcases text_inner h with ⟨htext, hc⟩ | ⟨htext, -⟩
  · have hne := ne_of_isInner hc
    simp only [List.mem_cons, not_or] at hne
    rw [htext, List.singleton_append, members?_cons_of_ne ⟨hne.1, hne.2.1, hne.2.2.1⟩, hrest]
    rfl
  · rw [htext, List.cons_append, List.singleton_append, members?, hrest]
    rfl

/-- The members of a class are read up to its closing bracket. -/
theorem members?_class (after : List Char) :
    ∀ {ms : List ClassMember}, (∀ m ∈ ms, m.IsProper) →
      members? (textOf marks (ms.flatMap ClassMember.glyphs) ++ ']' :: after) =
        some (ms.flatMap ClassMember.read, after)
  | [], _ => rfl
  | .one g :: ms, h => by
    have ih := members?_class after fun m hm => h m (List.mem_cons_of_mem _ hm)
    have hg : ClassMember.IsInner g := h _ List.mem_cons_self
    rw [List.flatMap_cons, ClassMember.glyphs, List.singleton_append, textOf_cons,
      List.append_assoc]
    exact members?_inner hg ih
  | .span low high :: ms, h => by
    have ih := members?_class after fun m hm => h m (List.mem_cons_of_mem _ hm)
    obtain ⟨hlow, hhigh, -⟩ := h _ List.mem_cons_self
    rw [List.flatMap_cons, ClassMember.glyphs, List.cons_append, textOf_cons, List.cons_append,
      textOf_cons, List.cons_append, textOf_cons, List.append_assoc, List.append_assoc,
      List.append_assoc]
    refine members?_inner hlow ?_
    rw [Glyph.text, List.singleton_append, members?, List.nil_append, members?_inner hhigh ih]
    rfl

/-- The spans of the members are what their characters stand for. -/
theorem spanGroups?_class :
    ∀ {ms : List ClassMember}, (∀ m ∈ ms, m.IsProper) →
      spanGroups? (ms.flatMap ClassMember.read) = some [ms.map ClassMember.toSpan]
  | [], _ => rfl
  | .one g :: ms, h => by
    have ih := spanGroups?_class fun m hm => h m (List.mem_cons_of_mem _ hm)
    have hsingle : spanGroups? (.char g.char :: ms.flatMap ClassMember.read) =
        (spanGroups? (ms.flatMap ClassMember.read)).map
          (addSpan (g.char.toNat, g.char.toNat)) := by
      cases ms with
      | nil => rfl
      | cons m ms => cases m <;> rfl
    rw [List.flatMap_cons]
    exact hsingle.trans (by rw [ih]; rfl)
  | .span low high :: ms, h => by
    have ih := spanGroups?_class fun m hm => h m (List.mem_cons_of_mem _ hm)
    obtain ⟨-, -, hle⟩ := h _ List.mem_cons_self
    have hspan : (Member.char low.char).toChar.toNat ≤ high.char.toNat := hle
    rw [List.flatMap_cons, ClassMember.read, List.cons_append, List.cons_append, List.cons_append,
      List.nil_append, spanGroups?, if_pos hspan, ih]
    · rfl
    · intro e
      cases e

/-- The set of a class. -/
def classSet (negated : Bool) (ms : List ClassMember) : CharSet :=
  ⟨negated, ms.map ClassMember.toSpan, []⟩

theorem ofMembers?_class (negated : Bool) {first : ClassMember} {more : List ClassMember}
    (h : ∀ m ∈ first :: more, m.IsProper) :
    CharSet.ofMembers? negated ((first :: more).flatMap ClassMember.read) =
      some (classSet negated (first :: more)) := by
  have hfirst : ∃ c ms, (first :: more).flatMap ClassMember.read = .char c :: ms := by
    cases first with
    | one g => exact ⟨_, _, rfl⟩
    | span low high => exact ⟨_, _, rfl⟩
  obtain ⟨c, ms, hms⟩ := hfirst
  have hgroups := spanGroups?_class h
  rw [hms] at hgroups ⊢
  unfold CharSet.ofMembers?
  simp only [List.isEmpty_cons, Bool.false_eq_true, if_false]
  have hleading : (Member.char c :: ms).takeWhile (· == .dash) = [] := rfl
  simp only [hleading, List.length_nil, List.drop_zero, hgroups]
  rfl

theorem bracketed_class (negated : Bool) {first : ClassMember} {more : List ClassMember}
    (h : ∀ m ∈ first :: more, m.IsProper) (after : List Char) :
    bracketed negated
        (textOf marks ((first :: more).flatMap ClassMember.glyphs) ++ ']' :: after) =
      (.atom (.set (classSet negated (first :: more))), after) := by
  unfold bracketed
  rw [members?_class after h]
  simp only [ofMembers?_class negated h]

theorem slash_not_mem_class {ms : List ClassMember} (h : ∀ m ∈ ms, m.IsProper) :
    '/' ∉ textOf marks (ms.flatMap ClassMember.glyphs) := by
  have hinner : ∀ {g : Glyph}, ClassMember.IsInner g → '/' ∉ g.text marks := by
    intro g hg
    rcases text_inner hg with ⟨htext, hc⟩ | ⟨htext, hc⟩
    · have hne := ne_of_isInner hc
      rw [htext, List.mem_singleton]
      rintro hslash
      rw [← hslash] at hne
      exact hne (by decide)
    · rw [htext, List.mem_cons, List.mem_singleton, not_or]
      exact ⟨by decide, Ne.symm hc⟩
  intro hmem
  obtain ⟨g, hg, hslash⟩ := List.mem_flatMap.mp hmem
  obtain ⟨m, hm, hgm⟩ := List.mem_flatMap.mp hg
  have hm' := h m hm
  cases m with
  | one g' => exact hinner hm' (List.mem_singleton.mp hgm ▸ hslash)
  | span low high =>
    simp only [ClassMember.glyphs, List.mem_cons, List.not_mem_nil, or_false] at hgm
    rcases hgm with rfl | rfl | rfl
    · exact hinner hm'.1 hslash
    · exact absurd (List.mem_singleton.mp hslash) (by decide)
    · exact hinner hm'.2.1 hslash

theorem crossesSlash_eq_false {body : List Char} (h : '/' ∉ body) (after : List Char) :
    crossesSlash (body ++ ']' :: after) = false := by
  have htake : (body ++ ']' :: after).takeWhile (· != ']') =
      body.takeWhile (· != ']') := by
    induction body with
    | nil => rfl
    | cons c body ih =>
      rw [List.mem_cons, not_or] at h
      rw [List.cons_append, List.takeWhile_cons, List.takeWhile_cons, ih h.2]
  rw [crossesSlash, htake, Bool.eq_false_iff, ne_eq, List.contains_iff_mem]
  exact fun hmem => h (List.takeWhile_prefix _ |>.subset hmem)

/-- A class is not negated by its first member. -/
theorem head_class {first : ClassMember} (h : first.IsProper) (more : List ClassMember) :
    ∃ c t, textOf marks ((first :: more).flatMap ClassMember.glyphs) = c :: t ∧
      c ≠ '!' ∧ c ≠ '^' := by
  have hinner : ∀ {g : Glyph}, ClassMember.IsInner g → ∀ t : List Char,
      ∃ c t', g.text marks ++ t = c :: t' ∧ c ≠ '!' ∧ c ≠ '^' := by
    intro g hg t
    rcases text_inner hg with ⟨htext, hc⟩ | ⟨htext, -⟩
    · have hne := ne_of_isInner hc
      simp only [List.mem_cons, not_or] at hne
      exact ⟨_, _, by rw [htext, List.singleton_append], hne.2.2.2.1, hne.2.2.2.2.1⟩
    · exact ⟨_, _, by rw [htext, List.cons_append], by decide, by decide⟩
  rw [List.flatMap_cons]
  cases first with
  | one g => exact hinner h _
  | span low high => exact hinner h.1 _

/-- **A class is read as its set.** -/
theorem item_class (negated : Bool) {first : ClassMember} {more : List ClassMember}
    (h : ∀ m ∈ first :: more, m.IsProper) (after : List Char) :
    item '[' ((if negated then ['!'] else []) ++
        (textOf marks ((first :: more).flatMap ClassMember.glyphs) ++ ']' :: after)) =
      (.atom (.set (classSet negated (first :: more))), after) := by
  have hbody : '/' ∉ (if negated then ['!'] else []) ++
      textOf marks ((first :: more).flatMap ClassMember.glyphs) := by
    rw [List.mem_append, not_or]
    refine ⟨?_, slash_not_mem_class h⟩
    cases negated <;> decide
  have hcross := crossesSlash_eq_false hbody after
  rw [List.append_assoc] at hcross
  cases negated with
  | true =>
    rw [if_pos rfl, List.singleton_append] at hcross ⊢
    rw [item, hcross, if_neg (by decide)]
    exact bracketed_class true h after
  | false =>
    obtain ⟨c, t, hhead, hbang, hcaret⟩ := head_class (h first List.mem_cons_self) more
    rw [if_neg (by decide), List.nil_append] at hcross ⊢
    rw [item, hcross, if_neg (by decide)]
    · exact bracketed_class false h after
    · intro rest e
      rw [hhead] at e
      exact hbang (List.cons.inj e).1
    · intro rest e
      rw [hhead] at e
      exact hcaret (List.cons.inj e).1

/-! ## 2. Items -/

/-- The token of an item. -/
def Item.token : Item → Token
  | .char g => .atom (.char g.char)
  | .slash => .atom (.char '/')
  | .one => .atom .one
  | .run => .atom .run
  | .any => .atom .any
  | .set negated first more => .atom (.set (classSet negated (first :: more)))
  | .depths => .depths

/-- A character without a meaning of its own is read as itself. -/
theorem item_char {c : Char} (h : c ∉ ['\\', '*', '?', '/', '[']) (rest : List Char) :
    item c rest = (.atom (.char c), rest) := by
  simp only [List.mem_cons, List.not_mem_nil, or_false, not_or] at h
  obtain ⟨hback, hstar, hone, hslash, hopen⟩ := h
  unfold item
  split
  · exact absurd rfl hback
  · exact absurd rfl hstar
  · exact absurd rfl hstar
  · exact absurd rfl hone
  · exact absurd rfl hslash
  · exact absurd rfl hopen
  · rfl

/-- A character is read as itself, whichever way it is written. -/
theorem item_glyph {dropped : List Char} (hdropped : OnlyMarks dropped) {g : Glyph}
    (h : (Item.char g).IsProper) (rest : List Char) :
    ∃ c t, g.text dropped ++ rest = c :: t ∧ (c ≠ '{' ∧ c ≠ ',' ∧ c ≠ '}') ∧
      item c t = (.atom (.char g.char), rest) := by
  have hforeign : g ∉ foreign := not_foreign_of_mem_item h g List.mem_cons_self
  cases g with
  | bare c =>
    have hspecial : c ∉ special := h
    obtain ⟨-, hne⟩ := ne_of_not_foreign hforeign
    refine ⟨c, rest, rfl, hne, item_char (fun hc => hspecial ?_) rest⟩
    simp only [List.mem_cons, List.not_mem_nil, or_false] at hc
    rcases hc with rfl | rfl | rfl | rfl | rfl <;> decide
  | escaped c =>
    by_cases hc : c ∈ dropped
    · have htext : (Glyph.escaped c).text dropped = [c] := if_pos hc
      rw [htext, List.singleton_append]
      rcases hdropped c hc with rfl | rfl
      · exact ⟨_, _, rfl, by decide, item_char (by decide) rest⟩
      · exact ⟨_, _, rfl, by decide, item_char (by decide) rest⟩
    · have htext : (Glyph.escaped c).text dropped = ['\\', c] := if_neg hc
      exact ⟨'\\', c :: rest, by rw [htext]; rfl, by decide, rfl⟩

theorem item_run {rest : List Char} (h : rest.head? ≠ some '*') :
    item '*' rest = (.atom .run, rest) := by
  cases rest with
  | nil => rfl
  | cons c rest =>
    rw [item]
    rintro t e
    exact h (congrArg some (List.cons.inj e).1)

theorem item_slash {rest : List Char} (h : ∀ t, rest ≠ '*' :: '*' :: '/' :: t) :
    item '/' rest = (.atom (.char '/'), rest) := by
  unfold item
  split
  case h_5 t _ => exact absurd rfl (h t)
  case h_7 => rfl
  all_goals contradiction

/-- A character that is no brace and no comma begins an item. -/
theorem scanFrom_item {c : Char} (h : c ≠ '{' ∧ c ≠ ',' ∧ c ≠ '}') (braces : Bool)
    (depth numbers : Nat) (rest : List Char) :
    scanFrom braces depth numbers (c :: rest) =
      (scanFrom braces depth numbers (item c rest).2).after [(item c rest).1] := by
  obtain ⟨ho, hcomma, hc⟩ := h
  rw [scanFrom, if_neg ho, if_neg (fun e => hcomma e.1), if_neg (fun e => hc e.1)]

/-- What stands before it does not run on into the text. -/
structure EndsBefore (i : Item) (rest : List Char) : Prop where
  star : i.isStar = true → rest.head? ≠ some '*'
  slash : i = .slash → ∀ t, rest ≠ '*' :: '*' :: '/' :: t

/-- **An item is read as its token**, if it ends where the rest begins. -/
theorem scan_item {i : Item} (hi : i.IsProper) {rest : List Char} (hrest : EndsBefore i rest)
    (depth numbers : Nat) :
    scanFrom true depth numbers (textOf marks i.glyphs ++ rest) =
      (scanFrom true depth numbers rest).after [i.token] := by
  have hread : ∀ {c : Char} {s : List Char} {token : Token}, c ≠ '{' ∧ c ≠ ',' ∧ c ≠ '}' →
      item c s = (token, rest) →
      scanFrom true depth numbers (c :: s) = (scanFrom true depth numbers rest).after [token] := by
    intro c s token hc hitem
    rw [scanFrom_item hc, hitem]
  cases i with
  | char g =>
    obtain ⟨c, t, htext, hc, hitem⟩ := item_glyph onlyMarks_marks hi rest
    rw [Item.glyphs, textOf_cons, List.append_assoc]
    exact htext ▸ hread hc hitem
  | slash => exact hread (by decide) (item_slash (hrest.slash rfl))
  | one => exact hread (by decide) rfl
  | run => exact hread (by decide) (item_run (hrest.star rfl))
  | any => exact hread (by decide) rfl
  | set negated first more =>
    have htext : textOf marks (Item.set negated first more).glyphs ++ rest =
        '[' :: ((if negated then ['!'] else []) ++
          (textOf marks ((first :: more).flatMap ClassMember.glyphs) ++ ']' :: rest)) := by
      rw [Item.glyphs, textOf_append, textOf_append, textOf_cons, List.append_assoc,
        List.append_assoc, List.append_assoc]
      cases negated <;> rfl
    rw [htext]
    exact hread (by decide) (item_class negated hi rest)
  | depths => exact absurd hi not_false

end EditorSettings.Glob
