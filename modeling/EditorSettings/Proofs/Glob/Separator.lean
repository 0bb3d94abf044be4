/-
# Slashes of a glob stand for slashes of a path

Of the items of a glob, only a class can take a slash of the text without standing for one.  Whether
brackets hold a slash is seen from the text up to the first closing bracket, escaped or not; but the
class goes on to the first one that is not escaped.  So a class with an escaped closing bracket can
hold a slash behind it, and its glob matches paths with fewer slashes than it has itself
(`separator_lost`).

Where no braces open and no two stars stand side by side, every slash of the glob but those in
classes stands for a slash of the path (`count_slash_le_of_matchesPath`).  None is in a class if,
behind an opening bracket, the next closing bracket after an escaped one comes before any slash
(`classSlashes_eq_zero`).
-/
import EditorSettings.Proofs.Glob.Row

namespace EditorSettings.Glob

/-! ## 1. What the escapes of comments leave -/

/-- No stars come together where an escape is dropped. -/
theorem stars_of_unescape {mark : Char} (hmark : '*' ≠ mark) {s : List Char}
    (h : ['*', '*'] <:+: unescape mark s) : ['*', '*'] <:+: s := by
  obtain ⟨a, b, hab⟩ := h
  rw [List.append_assoc] at hab
  obtain ⟨s₁, s₂, rfl, -, h₂⟩ := exists_of_unescape_eq_append hab.symm
  obtain ⟨s₃, rfl, h₃⟩ := exists_of_unescape_eq_cons hmark h₂
  obtain ⟨s₄, rfl, -⟩ := exists_of_unescape_eq_cons hmark h₃
  exact ⟨s₁, s₄, by rw [List.append_assoc]; rfl⟩

/-- The text without one slash at its beginning. -/
def dropSlash : List Char → List Char
  | '/' :: rest => rest
  | s => s

theorem dropSlash_of_ne {s : List Char} (h : s.head? ≠ some '/') : dropSlash s = s := by
  unfold dropSlash
  split
  · exact absurd rfl h
  · rfl

theorem count_dropSlash_unescape {mark : Char} (hmark : '/' ≠ mark) (s : List Char) :
    (dropSlash (unescape mark s)).count '/' = (dropSlash s).count '/' := by
  by_cases hs : s.head? = some '/'
  · obtain ⟨t, rfl⟩ := List.head?_eq_some_iff.mp hs
    rw [unescape_cons_of_ne (by decide)]
    exact count_unescape (by decide) t
  · have hhead : (unescape mark s).head? ≠ some '/' := by
      intro h
      obtain ⟨t, ht⟩ := List.head?_eq_some_iff.mp h
      obtain ⟨s', rfl, -⟩ := exists_of_unescape_eq_cons hmark ht
      exact hs rfl
    rw [dropSlash_of_ne hs, dropSlash_of_ne hhead, count_unescape (by decide)]

/-! ## 2. Brackets -/

theorem crossesSlash_iff {s : List Char} :
    crossesSlash s = true ↔ ∃ a b, s = a ++ '/' :: b ∧ ']' ∉ a := by
  induction s with
  | nil => simp [crossesSlash]
  | cons c s ih =>
    rw [crossesSlash, List.contains_iff_mem] at ih ⊢
    by_cases hclose : c = ']'
    · subst hclose
      rw [List.takeWhile_cons_of_neg (by simp)]
      refine ⟨fun h => absurd h List.not_mem_nil, ?_⟩
      rintro ⟨a, b, hab, ha⟩
      cases a with
      | nil => cases hab
      | cons d a => exact absurd ((List.cons.inj hab).1 ▸ List.mem_cons_self) ha
    · rw [List.takeWhile_cons_of_pos (by simpa using hclose), List.mem_cons, ih]
      constructor
      · rintro (rfl | ⟨a, b, rfl, ha⟩)
        · exact ⟨[], s, rfl, List.not_mem_nil⟩
        · refine ⟨c :: a, b, rfl, ?_⟩
          rw [List.mem_cons, not_or]
          exact ⟨Ne.symm hclose, ha⟩
      · rintro ⟨a, b, hab, ha⟩
        cases a with
        | nil => exact Or.inl (List.cons.inj hab).1.symm
        | cons d a =>
          exact Or.inr ⟨a, b, (List.cons.inj hab).2, fun h => ha (List.mem_cons_of_mem d h)⟩

theorem crossesSlash_cons {c : Char} (hc : c ≠ ']') {s : List Char}
    (h : c = '/' ∨ crossesSlash s = true) : crossesSlash (c :: s) = true := by
  rw [crossesSlash, List.takeWhile_cons_of_pos (by simpa using hc), List.contains_iff_mem,
    List.mem_cons]
  rw [crossesSlash, List.contains_iff_mem] at h
  exact h.imp_left Eq.symm

/-- A text without closing brackets in front changes nothing. -/
theorem crossesSlash_append {u s : List Char} (hu : ']' ∉ u) (h : crossesSlash s = true) :
    crossesSlash (u ++ s) = true := by
  induction u with
  | nil => exact h
  | cons c u ih =>
    rw [List.mem_cons, not_or] at hu
    exact crossesSlash_cons (Ne.symm hu.1) (Or.inr (ih hu.2))

/-- Behind an opening bracket, the next closing bracket after an escaped one comes before any
slash. -/
def ClosesBeforeSlash (s : List Char) : Prop :=
  ∀ a t, s = a ++ '\\' :: ']' :: t → '[' ∈ a → crossesSlash t = false

/-- Only the beginnings of the text need to be looked at. -/
theorem closesBeforeSlash_iff {s : List Char} :
    ClosesBeforeSlash s ↔ ∀ a ∈ s.inits, s = a ++ '\\' :: ']' :: s.drop (a.length + 2) →
      '[' ∈ a → crossesSlash (s.drop (a.length + 2)) = false := by
  constructor
  · intro h a _ he
    exact h a _ he
  · intro h a t he
    have hdrop : s.drop (a.length + 2) = t := by simp [he]
    have hcut := h a ((List.mem_inits a s).mpr ⟨_, he.symm⟩)
    rw [hdrop] at hcut
    exact hcut he

instance (s : List Char) : Decidable (ClosesBeforeSlash s) :=
  decidable_of_iff' _ closesBeforeSlash_iff

theorem ClosesBeforeSlash.of_suffix {s t : List Char} (h : ClosesBeforeSlash s) (ht : t <:+ s) :
    ClosesBeforeSlash t := by
  obtain ⟨u, rfl⟩ := ht
  intro a b he hopen
  exact h (u ++ a) b (by rw [he, List.append_assoc]) (List.mem_append_right u hopen)

theorem ClosesBeforeSlash.unescape {mark : Char} (hmark : mark ∉ ['\\', ']', '/']) {s : List Char}
    (h : ClosesBeforeSlash s) : ClosesBeforeSlash (unescape mark s) := by
  simp only [List.mem_cons, List.not_mem_nil, or_false, not_or] at hmark
  obtain ⟨hback, hclose, hslash⟩ := hmark
  intro a t he hopen
  obtain ⟨s₁, s₂, rfl, rfl, h₂⟩ := exists_of_unescape_eq_append he
  obtain ⟨s₃, rfl, h₃⟩ := exists_of_unescape_eq_cons (Ne.symm hback) h₂
  obtain ⟨s₄, rfl, rfl⟩ := exists_of_unescape_eq_cons (Ne.symm hclose) h₃
  have hbefore := h s₁ s₄ rfl ((mem_unescape (by decide)).mp hopen)
  rw [Bool.eq_false_iff, ne_eq, crossesSlash_iff] at hbefore ⊢
  rintro ⟨b, d, hbd, hb⟩
  obtain ⟨b', d', rfl, rfl, hd⟩ := exists_of_unescape_eq_append hbd
  obtain ⟨d'', rfl, -⟩ := exists_of_unescape_eq_cons (Ne.symm hslash) hd
  exact hbefore ⟨b', d'', rfl, fun hmem => hb ((mem_unescape (by decide)).mpr hmem)⟩

/-- A slash stands before the first closing bracket, or between an escaped one and the next. -/
def HidesSlash (s : List Char) : Prop :=
  crossesSlash s = true ∨ ∃ a t, s = a ++ '\\' :: ']' :: t ∧ crossesSlash t = true

theorem HidesSlash.cons {c : Char} (hc : c ≠ ']') {s : List Char} (h : HidesSlash s) :
    HidesSlash (c :: s) := by
  rcases h with hcross | ⟨a, t, rfl, ht⟩
  · exact Or.inl (crossesSlash_cons hc (Or.inr hcross))
  · exact Or.inr ⟨c :: a, t, rfl, ht⟩

theorem HidesSlash.escaped (c : Char) {s : List Char} (h : HidesSlash s) :
    HidesSlash ('\\' :: c :: s) := by
  by_cases hc : c = ']'
  · subst hc
    rcases h with hcross | ⟨a, t, rfl, ht⟩
    · exact Or.inr ⟨[], s, rfl, hcross⟩
    · exact Or.inr ⟨'\\' :: ']' :: a, t, rfl, ht⟩
  · exact (h.cons hc).cons (by decide)

/-- **Members with a slash hide it**: it stands before the first closing bracket, or behind an
escaped one. -/
theorem count_slash_members? {s after : List Char} {ms : List Member}
    (h : members? s = some (ms, after)) : s.count '/' = after.count '/' ∨ HidesSlash s := by
  have hslash : ∀ t, HidesSlash ('/' :: t) := fun t =>
    Or.inl (crossesSlash_cons (by decide) (Or.inl rfl))
  fun_induction members? s generalizing ms with
  | case1 => cases h
  | case2 rest =>
    cases h
    exact Or.inl (List.count_cons_of_ne (by decide))
  | case3 rest ih =>
    obtain ⟨⟨ms', after'⟩, hrest, he⟩ := Option.map_eq_some_iff.mp h
    cases he
    exact (ih hrest).imp (List.count_cons_of_ne (by decide)).trans (HidesSlash.cons (by decide))
  | case4 c rest ih =>
    obtain ⟨⟨ms', after'⟩, hrest, he⟩ := Option.map_eq_some_iff.mp h
    cases he
    by_cases hc : c = '/'
    · subst hc
      exact Or.inr ((hslash rest).cons (by decide))
    · refine (ih hrest).imp (fun hcount => ?_) (HidesSlash.escaped c)
      rw [List.count_cons_of_ne (by decide), List.count_cons_of_ne hc, hcount]
  | case5 c rest hclose _ _ ih =>
    obtain ⟨⟨ms', after'⟩, hrest, he⟩ := Option.map_eq_some_iff.mp h
    cases he
    by_cases hc : c = '/'
    · subst hc
      exact Or.inr (hslash rest)
    · exact (ih hrest).imp (List.count_cons_of_ne hc).trans (HidesSlash.cons hclose)

/-! ## 3. Slashes of a text and of its items -/

/-- The item stands for a slash. -/
def Token.isSlash (t : Token) : Bool := t == .atom (.char '/') || t == .depths

/-- The item is a class. -/
def Token.isSet : Token → Bool
  | .atom (.set _) => true
  | _ => false

/-- The number of slashes in the classes of a text. -/
def classSlashes : List Char → Nat
  | [] => 0
  | c :: rest =>
    (if (item c rest).1.isSet then rest.count '/' - (item c rest).2.count '/' else 0) +
      classSlashes (item c rest).2
termination_by s => s.length
decreasing_by have := length_item c rest; simp; omega

theorem exists_members?_of_isSet_bracketed {negated : Bool} {s : List Char}
    (h : (bracketed negated s).1.isSet = true) :
    ∃ ms, members? s = some (ms, (bracketed negated s).2) := by
  unfold bracketed at h ⊢
  split at h
  · cases h
  · rename_i ms after hmembers
    refine ⟨ms, hmembers.trans ?_⟩
    split <;> rfl

theorem isSet_bracketed {negated : Bool} {s : List Char} (h : (bracketed negated s).1.IsItem) :
    (bracketed negated s).1.isSet = true := by
  have hmalformed : ¬ Token.malformed.IsItem := by simp [Token.IsItem]
  unfold bracketed at h ⊢
  split at h
  · exact absurd h hmalformed
  · split at h
    · rfl
    · exact absurd h hmalformed

/-- A class begins with a bracket, and no slash stands before the first closing one. -/
theorem exists_members?_of_isSet {c : Char} {rest : List Char}
    (h : (item c rest).1.isSet = true) :
    c = '[' ∧ crossesSlash rest = false ∧ ∃ u s ms, rest = u ++ s ∧ u ∈ [[], ['!'], ['^']] ∧
      members? s = some (ms, (item c rest).2) := by
  revert h
  fun_cases item c rest with
  | case7 s hcross =>
    intro h
    obtain ⟨ms, hmembers⟩ := exists_members?_of_isSet_bracketed h
    exact ⟨rfl, Bool.eq_false_iff.mpr hcross, ['!'], s, ms, rfl, by simp, hmembers⟩
  | case8 s hcross =>
    intro h
    obtain ⟨ms, hmembers⟩ := exists_members?_of_isSet_bracketed h
    exact ⟨rfl, Bool.eq_false_iff.mpr hcross, ['^'], s, ms, rfl, by simp, hmembers⟩
  | case9 =>
    intro h
    rename_i hcross
    obtain ⟨ms, hmembers⟩ := exists_members?_of_isSet_bracketed h
    exact ⟨rfl, Bool.eq_false_iff.mpr hcross, [], _, ms, rfl, by simp, hmembers⟩
  | _ => exact nofun

theorem count_slash_char (c : Char) (rest : List Char) :
    (c :: rest).count '/' =
      (if (Token.atom (.char c)).isSlash then 1 else 0) + rest.count '/' := by
  by_cases hc : c = '/'
  · subst hc
    rw [List.count_cons_self, Nat.add_comm]
    rfl
  · have hslash : (Token.atom (.char c)).isSlash = false := by simp [Token.isSlash, hc]
    rw [List.count_cons_of_ne hc, hslash]
    exact (Nat.zero_add _).symm

/-- **A slash of the text is in a class, or an item stands for it.** -/
theorem count_slash_item {c : Char} {rest : List Char} (hstars : ¬ ['*', '*'] <:+: c :: rest)
    (hitem : (item c rest).1.IsItem) :
    (c :: rest).count '/' ≤ (if (item c rest).1.isSlash then 1 else 0) +
      (if (item c rest).1.isSet then rest.count '/' - (item c rest).2.count '/' else 0) +
        (item c rest).2.count '/' := by
  by_cases hset : (item c rest).1.isSet = true
  · obtain ⟨rfl, -⟩ := exists_members?_of_isSet hset
    rw [if_pos hset, List.count_cons_of_ne (by decide)]
    omega
  rw [if_neg hset, Nat.add_zero]
  revert hset hitem
  fun_cases item c rest with
  | case1 d rest =>
    intro _ _
    rw [List.count_cons_of_ne (by decide)]
    exact (count_slash_char d rest).le
  | case2 rest => exact absurd (List.IsPrefix.isInfix ⟨rest, rfl⟩) hstars
  | case3 => exact fun _ _ => (count_slash_char '*' rest).le
  | case4 => exact fun _ _ => (count_slash_char '?' rest).le
  | case5 rest => exact absurd ⟨['/'], '/' :: rest, rfl⟩ hstars
  | case6 => exact fun _ _ => (count_slash_char '[' rest).le
  | case7 => exact fun hitem hset => absurd (isSet_bracketed hitem) hset
  | case8 => exact fun hitem hset => absurd (isSet_bracketed hitem) hset
  | case9 => exact fun hitem hset => absurd (isSet_bracketed hitem) hset
  | case10 => exact fun _ _ => (count_slash_char c rest).le

theorem count_slash_plain {s : List Char} (hstars : ¬ ['*', '*'] <:+: s)
    (hitems : ∀ t ∈ plain s, t.IsItem) :
    s.count '/' ≤ (plain s).countP Token.isSlash + classSlashes s := by
  fun_induction plain s with
  | case1 => exact Nat.zero_le _
  | case2 c rest ih =>
    obtain ⟨hitem, hmore⟩ := List.forall_mem_cons.mp hitems
    have hsuffix : (item c rest).2 <:+ c :: rest :=
      (item_suffix c rest).trans (List.suffix_cons c rest)
    have hrest := ih (fun h => hstars (h.trans hsuffix.isInfix)) hmore
    have hfirst := count_slash_item hstars hitem
    rw [List.countP_cons, classSlashes]
    omega

/-- A class has no slash in it, if its escaped closing brackets are followed by others before any
slash. -/
theorem count_slash_of_isSet {c : Char} {rest : List Char} (h : ClosesBeforeSlash (c :: rest))
    (hset : (item c rest).1.isSet = true) : rest.count '/' = (item c rest).2.count '/' := by
  obtain ⟨rfl, hcross, u, s, ms, rfl, hu, hmembers⟩ := exists_members?_of_isSet hset
  have hfront : ']' ∉ u ∧ '/' ∉ u := by
    simp only [List.mem_cons, List.not_mem_nil, or_false] at hu
    rcases hu with rfl | rfl | rfl
    · decide
    · decide
    · decide
  rcases count_slash_members? hmembers with hcount | hcross' | ⟨a, t, rfl, ht⟩
  · rw [List.count_append, List.count_eq_zero.mpr hfront.2, hcount, Nat.zero_add]
  · rw [crossesSlash_append hfront.1 hcross'] at hcross
    cases hcross
  · have hbefore := h ('[' :: (u ++ a)) t (by simp) List.mem_cons_self
    rw [ht] at hbefore
    cases hbefore

/-- **No slash is in a class**, where closing brackets come before slashes. -/
theorem classSlashes_eq_zero {s : List Char} (h : ClosesBeforeSlash s) : classSlashes s = 0 := by
  fun_induction classSlashes s with
  | case1 => rfl
  | case2 c rest ih =>
    have hsuffix : (item c rest).2 <:+ c :: rest :=
      (item_suffix c rest).trans (List.suffix_cons c rest)
    rw [ih (h.of_suffix hsuffix), Nat.add_zero]
    by_cases hset : (item c rest).1.isSet = true
    · rw [if_pos hset, count_slash_of_isSet h hset, Nat.sub_self]
    · rw [if_neg hset]

/-! ## 4. Slashes of a path -/

theorem one_le_count_of_isSlash {t : Token} (ht : t.isSlash = true) {w : List Char}
    (hw : w ∈ t.expr.language) : 1 ≤ w.count '/' := by
  rw [Token.isSlash, Bool.or_eq_true, beq_iff_eq, beq_iff_eq] at ht
  refine List.one_le_count_iff.mpr ?_
  rcases ht with rfl | rfl
  · obtain ⟨c, hc, rfl⟩ := hw
    rw [beq_iff_eq.mp hc]
    exact List.mem_singleton_self _
  · rw [Token.expr, language_depths] at hw
    rcases hw with rfl | ⟨v, rfl⟩
    · exact List.mem_singleton_self _
    · exact List.mem_cons_self

/-- What a row says has a slash for each item that stands for one. -/
theorem countP_isSlash_le {ts : List Token} {w : List Char} (h : w ∈ itemsLanguage ts) :
    ts.countP Token.isSlash ≤ w.count '/' := by
  induction ts generalizing w with
  | nil => exact Nat.zero_le _
  | cons t ts ih =>
    rw [itemsLanguage_cons] at h
    obtain ⟨u, hu, v, hv, rfl⟩ := Language.mem_mul.mp h
    have hmore := ih hv
    rw [List.countP_cons, List.count_append]
    by_cases ht : t.isSlash = true
    · have hone := one_le_count_of_isSlash ht hu
      rw [if_pos ht]
      omega
    · rw [if_neg ht]
      omega

/-- The anchor adds a slash, unless there is one. -/
theorem count_slash_anchor {s : List Char} (hstars : ¬ ['*', '*'] <:+: s)
    (hitems : ∀ t ∈ plain (anchor s), t.IsItem) :
    1 + (dropSlash s).count '/' ≤
      (plain (anchor s)).countP Token.isSlash + classSlashes s := by
  by_cases hslash : '/' ∈ s
  · by_cases hhead : s.head? = some '/'
    · have hanchor : anchor s = s := by rw [anchor_eq, lead, if_pos hslash, if_pos hhead]; rfl
      rw [hanchor] at hitems ⊢
      have hcount := count_slash_plain hstars hitems
      obtain ⟨t, rfl⟩ := List.head?_eq_some_iff.mp hhead
      rw [List.count_cons_self] at hcount
      rw [dropSlash]
      omega
    · have hanchor : anchor s = '/' :: s := by
        rw [anchor_eq, lead, if_pos hslash, if_neg hhead]
        rfl
      have hitem : item '/' s = (.atom (.char '/'), s) := by
        refine item_slash fun t ht => hstars ?_
        exact List.IsPrefix.isInfix ⟨'/' :: t, ht.symm⟩
      rw [hanchor, plain, hitem] at hitems ⊢
      have hcount := count_slash_plain hstars fun t ht => hitems t (List.mem_cons_of_mem _ ht)
      have hfirst : (Token.atom (.char '/')).isSlash = true := by decide
      rw [dropSlash_of_ne hhead, List.countP_cons_of_pos hfirst]
      dsimp only
      omega
  · have hanchor : anchor s = '/' :: '*' :: '*' :: '/' :: s := by
      rw [anchor_eq, lead, if_neg hslash]
      rfl
    have hitem : item '/' ('*' :: '*' :: '/' :: s) = (.depths, s) := rfl
    have hhead : s.head? ≠ some '/' := fun h => hslash (List.mem_of_mem_head? h)
    have hfirst : Token.depths.isSlash = true := by decide
    rw [hanchor, plain, hitem, dropSlash_of_ne hhead, List.count_eq_zero.mpr hslash,
      List.countP_cons_of_pos hfirst]
    omega

/-- Where tokens without alternations form an expression, all of them are items. -/
theorem isItem_of_ofTokensIn? {outer : List Frame} {f : Frame} {ts : List Token} {e : Expr}
    (hparts : ∀ t ∈ ts, t.isPart = true) (h : Expr.ofTokensIn? outer f ts = some e) :
    ∀ t ∈ ts, t.IsItem := by
  induction ts generalizing f with
  | nil => exact fun t ht => absurd ht List.not_mem_nil
  | cons t ts ih =>
    obtain ⟨ht, hmore⟩ := List.forall_mem_cons.mp hparts
    rw [List.forall_mem_cons]
    cases t with
    | atom a => exact ⟨Or.inr ⟨a, rfl⟩, ih hmore h⟩
    | depths => exact ⟨Or.inl rfl, ih hmore h⟩
    | malformed => cases h
    | opening => cases ht
    | bar => cases ht
    | closing => cases ht

/-- The matcher of a glob without opening braces is the row of its items. -/
theorem matcher?_eq_some_plain {dir s : List Char} (hs : '{' ∉ s) {m : Matcher}
    (h : matcher? dir s = some m) :
    (∀ t ∈ plain (anchor s), t.IsItem) ∧ m = ⟨rowExpr dir (plain (anchor s)), []⟩ := by
  have hbrace : '{' ∉ anchor s := by
    have hlead : '{' ∉ lead s := by
      unfold lead
      split
      · split <;> decide
      · decide
    rw [anchor_eq, List.mem_append, not_or]
    exact ⟨hlead, hs⟩
  have hscan : scan (anchor s) = ⟨plain (anchor s), []⟩ := scanFrom_eq_plain hbrace _ 0
  have hitems : ∀ t ∈ plain (anchor s), t.IsItem := by
    unfold matcher? at h
    rw [hscan] at h
    dsimp only at h
    split at h
    · rename_i e he
      rw [Expr.ofTokens?, ofTokensIn?_directory] at he
      exact isItem_of_ofTokensIn? isPart_of_mem_plain he
    · cases h
  refine ⟨hitems, ?_⟩
  rw [matcher?_row dir hscan hitems, Option.ite_none_right_eq_some] at h
  exact (Option.some.inj h.2).symm

/-- **Every slash of a glob stands for a slash of the path, unless it is in a class.**  The glob has
no opening brace, and no two stars side by side.  With the slashes in its classes, a path that it
matches has at least the slashes of the directory, without those at its end, one more, and those
of the glob without a slash at its beginning.  There are none in classes if closing brackets come
before slashes. -/
theorem count_slash_le_of_matchesPath {dir pattern path : String} (hbraces : '{' ∉ pattern.toList)
    (hstars : ¬ ['*', '*'] <:+: pattern.toList)
    (h : (compile dir pattern).matchesPath path = true) :
    (dir.toList.rdropWhile (· == '/')).count '/' + 1 + (dropSlash pattern.toList).count '/' ≤
      path.toList.count '/' + classSlashes (unescapeComments pattern.toList) ∧
    (ClosesBeforeSlash pattern.toList →
      (dir.toList.rdropWhile (· == '/')).count '/' + 1 + (dropSlash pattern.toList).count '/' ≤
        path.toList.count '/') := by
  obtain ⟨-, m, hmatcher, haccepts⟩ := matchesPath_compile.mp h
  have hbraces' : '{' ∉ unescapeComments pattern.toList := by
    rw [unescapeComments, mem_unescape (by decide), mem_unescape (by decide)]
    exact hbraces
  have hstars' : ¬ ['*', '*'] <:+: unescapeComments pattern.toList := fun hinfix =>
    hstars (stars_of_unescape (by decide) (stars_of_unescape (by decide) hinfix))
  have hdrop : (dropSlash (unescapeComments pattern.toList)).count '/' =
      (dropSlash pattern.toList).count '/' := by
    rw [unescapeComments, count_dropSlash_unescape (by decide),
      count_dropSlash_unescape (by decide)]
  obtain ⟨hitems, rfl⟩ := matcher?_eq_some_plain hbraces' hmatcher
  obtain ⟨w, hw, hpath⟩ := mem_language_rowExpr.mp (mem_language_of_accepts haccepts)
  have hpattern := count_slash_anchor hstars' hitems
  have hbehind := countP_isSlash_le hw
  have hbound : (dir.toList.rdropWhile (· == '/')).count '/' + 1 +
      (dropSlash pattern.toList).count '/' ≤
        path.toList.count '/' + classSlashes (unescapeComments pattern.toList) := by
    have hdir : dir.toList.rdropWhile (· == '/') = directoryText dir := rfl
    rw [hpath, List.count_append, hdir, ← hdrop]
    omega
  refine ⟨hbound, fun hcloses => ?_⟩
  have hzero : classSlashes (unescapeComments pattern.toList) = 0 :=
    classSlashes_eq_zero ((hcloses.unescape (by decide)).unescape (by decide))
  rw [hzero] at hbound
  exact hbound

/-- A class with an escaped bracket that is closed before the next slash, and the escape of a
comment. -/
theorem count_slash_le_bracketGlob :
    (compile "/project/" "a/[\\]x]/\\#?").matchesPath "/project/a/]/#b" = true ∧
    ("/project/".toList.rdropWhile (· == '/')).count '/' + 1 +
      (dropSlash "a/[\\]x]/\\#?".toList).count '/' ≤ "/project/a/]/#b".toList.count '/' := by
  have hmatches : (compile "/project/" "a/[\\]x]/\\#?").matchesPath "/project/a/]/#b" = true := by
    decide +kernel
  exact ⟨hmatches, (count_slash_le_of_matchesPath (by decide) (by decide) hmatches).2 (by decide)⟩

/-- **A class can hold a slash.**  The first closing bracket is escaped, so the class goes on to the
second one, and the slash between them is a member of it. -/
theorem separator_lost :
    '{' ∉ "[\\]/]".toList ∧ '}' ∉ "[\\]/]".toList ∧ ¬ ['*', '*'] <:+: "[\\]/]".toList ∧
    (compile "/project" "[\\]/]").matchesPath "/project/]" = true ∧
    ¬ ("/project".toList.rdropWhile (· == '/')).count '/' + 1 +
      (dropSlash "[\\]/]".toList).count '/' ≤ "/project/]".toList.count '/' := by
  decide +kernel

end EditorSettings.Glob
