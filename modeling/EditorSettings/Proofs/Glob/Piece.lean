/-
# Scanning piece by piece

A scan looks ahead: for a second star, for the two stars of `/**/`, for the end of a word in
braces and for the end of a class.  Where no look goes beyond the end of a piece of text, the piece
can be scanned by itself (`scanFrom_append`).  Bare pieces with balanced braces are such: there
are no classes in them, and a brace that opens in them is closed in them, so that a word ends
before they do.

A scan does not count the braces of words, however.  A word may contain braces that open, and the
first one that closes ends it; so behind such a word fewer alternations are open than braces
(`levelAfter?_balanced`).  Only if no word contains braces do the two counts agree
(`levelAfter?_sheltered`).
-/
import EditorSettings.Proofs.Glob.Alternation
import EditorSettings.Proofs.Glob.Scanning

namespace EditorSettings.Glob

/-! ## 1. Bare texts -/

/-- No character is escaped, and there are no classes. -/
def IsBare (s : List Char) : Prop := '\\' ∉ s ∧ '[' ∉ s

instance (s : List Char) : Decidable (IsBare s) := inferInstanceAs (Decidable (_ ∧ _))

theorem IsBare.of_suffix {s t : List Char} (h : IsBare s) (ht : t <:+ s) : IsBare t :=
  ⟨fun hmem => h.1 (ht.subset hmem), fun hmem => h.2 (ht.subset hmem)⟩

theorem IsBare.of_cons {c : Char} {s : List Char} (h : IsBare (c :: s)) : IsBare s :=
  h.of_suffix (List.suffix_cons c s)

theorem IsBare.append {s t : List Char} (hs : IsBare s) (ht : IsBare t) : IsBare (s ++ t) := by
  simp only [IsBare, List.mem_append, not_or]
  exact ⟨⟨hs.1, ht.1⟩, ⟨hs.2, ht.2⟩⟩

theorem IsBare.ne {c : Char} {s : List Char} (h : IsBare (c :: s)) : c ≠ '\\' ∧ c ≠ '[' := by
  refine ⟨?_, ?_⟩
  · rintro rfl
    exact h.1 List.mem_cons_self
  · rintro rfl
    exact h.2 List.mem_cons_self

/-! ## 2. What an item leaves -/

theorem suffix_of_members? {s after : List Char} {ms : List Member}
    (h : members? s = some (ms, after)) : after <:+ s := by
  fun_induction members? s generalizing ms with
  | case1 => cases h
  | case2 rest =>
    cases h
    exact List.suffix_cons _ _
  | case3 rest ih =>
    obtain ⟨⟨ms', after'⟩, hrest, he⟩ := Option.map_eq_some_iff.mp h
    cases he
    exact (ih hrest).trans (List.suffix_cons _ _)
  | case4 c rest ih =>
    obtain ⟨⟨ms', after'⟩, hrest, he⟩ := Option.map_eq_some_iff.mp h
    cases he
    exact (ih hrest).trans ((List.suffix_cons _ _).trans (List.suffix_cons _ _))
  | case5 c rest _ _ _ ih =>
    obtain ⟨⟨ms', after'⟩, hrest, he⟩ := Option.map_eq_some_iff.mp h
    cases he
    exact (ih hrest).trans (List.suffix_cons _ _)

theorem bracketed_suffix (negated : Bool) (s : List Char) : (bracketed negated s).2 <:+ s := by
  unfold bracketed
  split
  · exact List.nil_suffix
  · rename_i ms after hmembers
    split
    · exact suffix_of_members? hmembers
    · exact suffix_of_members? hmembers

theorem item_suffix (c : Char) (s : List Char) : (item c s).2 <:+ s := by
  unfold item
  split
  case h_2 => exact List.suffix_cons _ _
  case h_1 => exact List.suffix_cons _ _
  case h_5 t => exact ⟨['*', '*', '/'], rfl⟩
  case h_6 =>
    split
    · exact List.suffix_rfl
    · split
      · exact (bracketed_suffix true _).trans (List.suffix_cons _ _)
      · exact (bracketed_suffix true _).trans (List.suffix_cons _ _)
      · exact bracketed_suffix false _
  all_goals exact List.suffix_rfl

theorem not_mem_item {x c : Char} {s : List Char} (h : x ∉ c :: s) : x ∉ (item c s).2 :=
  fun hmem => h (List.mem_cons_of_mem c ((item_suffix c s).subset hmem))

/-! ## 3. Looking ahead for stars -/

/-- The text does not continue a row of stars and slashes. -/
def GoesOn (rest : List Char) : Prop := rest.head? ≠ some '*' ∧ rest.head? ≠ some '/'

theorem goesOn_cons {c : Char} (h : c ≠ '*' ∧ c ≠ '/') (rest : List Char) : GoesOn (c :: rest) :=
  ⟨fun e => h.1 (Option.some.inj e), fun e => h.2 (Option.some.inj e)⟩

theorem item_append {c : Char} {s : List Char} (hs : IsBare (c :: s)) {rest : List Char}
    (hrest : GoesOn rest) :
    item c (s ++ rest) = ((item c s).1, (item c s).2 ++ rest) := by
  obtain ⟨hback, hopen⟩ := hs.ne
  by_cases hstar : c = '*'
  · subst hstar
    cases s with
    | nil => exact item_run hrest.1
    | cons d s =>
      by_cases hd : d = '*'
      · subst hd
        rfl
      · have hne : ∀ t : List Char, (d :: t).head? ≠ some '*' :=
          fun t e => hd (Option.some.inj e)
        rw [item_run (hne s), List.cons_append, item_run (hne _)]
  by_cases hslash : c = '/'
  · subst hslash
    by_cases hstars : ∃ t, s = '*' :: '*' :: '/' :: t
    · obtain ⟨t, rfl⟩ := hstars
      rfl
    · rw [item_slash fun t ht => hstars ⟨t, ht⟩, item_slash]
      intro t ht
      match s with
      | [] => exact hrest.1 (congrArg List.head? ht)
      | [a] => exact hrest.1 (congrArg List.head? (List.cons.inj ht).2)
      | [a, b] =>
        exact hrest.2 (congrArg List.head? (List.cons.inj (List.cons.inj ht).2).2)
      | a :: b :: d :: u =>
        simp only [List.cons_append, List.cons.injEq] at ht
        obtain ⟨rfl, rfl, rfl, -⟩ := ht
        exact hstars ⟨u, rfl⟩
  by_cases hone : c = '?'
  · subst hone
    rfl
  · have hplain : c ∉ ['\\', '*', '?', '/', '['] := by
      simp [hback, hstar, hone, hslash, hopen]
    rw [item_char hplain, item_char hplain]

/-- Nothing but stars and slashes is read with a character. -/
theorem exists_eq_append_item {c : Char} (hc : c ≠ '\\' ∧ c ≠ '[') (s : List Char) :
    ∃ u, (∀ x ∈ u, x = '*' ∨ x = '/') ∧ s = u ++ (item c s).2 := by
  obtain ⟨hback, hopen⟩ := hc
  unfold item
  split
  case h_1 => exact absurd rfl hback
  case h_2 => exact ⟨['*'], by simp, rfl⟩
  case h_5 => exact ⟨['*', '*', '/'], by simp, rfl⟩
  case h_6 => exact absurd rfl hopen
  all_goals exact ⟨[], by simp, rfl⟩

/-! ## 4. Looking ahead for the end of a word -/

theorem word?_cons {c : Char} (h : c ≠ '\\' ∧ c ≠ ',' ∧ c ≠ '}') (rest : List Char) :
    word? (c :: rest) = (word? rest).map fun (w, after) => (c :: w, after) := by
  obtain ⟨hback, hcomma, hclose⟩ := h
  rw [word?.eq_def]
  split
  · rename_i e
    cases e
  · rename_i e
    exact absurd (List.cons.inj e).1 hback
  · rename_i e
    exact absurd (List.cons.inj e).1 hcomma
  · rename_i e
    exact absurd (List.cons.inj e).1 hclose
  · rename_i e
    rw [(List.cons.inj e).1, (List.cons.inj e).2]

/-- A word is what stands before the first closing brace, and there is no comma in it. -/
theorem eq_of_word? {s w after : List Char} (hs : '\\' ∉ s) (h : word? s = some (w, after)) :
    s = w ++ '}' :: after ∧ ',' ∉ w ∧ '}' ∉ w := by
  induction s generalizing w with
  | nil => cases h
  | cons c s ih =>
    rw [List.mem_cons, not_or] at hs
    obtain ⟨hback, hs⟩ := hs
    by_cases hcomma : c = ','
    · subst hcomma
      cases h
    by_cases hclose : c = '}'
    · subst hclose
      cases h
      simp
    rw [word?_cons ⟨Ne.symm hback, hcomma, hclose⟩] at h
    obtain ⟨⟨w', after'⟩, hrest, he⟩ := Option.map_eq_some_iff.mp h
    cases he
    obtain ⟨rfl, hwcomma, hwclose⟩ := ih hs hrest
    simp [Ne.symm hcomma, Ne.symm hclose, hwcomma, hwclose]

/-- A word and its closing brace stand in front of what is left. -/
theorem eq_append_of_word? {s w after : List Char} (h : word? s = some (w, after)) :
    s = w ++ '}' :: after := by
  fun_induction word? s generalizing w with
  | case1 => cases h
  | case2 c rest ih =>
    obtain ⟨⟨w', after'⟩, hrest, he⟩ := Option.map_eq_some_iff.mp h
    cases he
    rw [ih hrest]
    rfl
  | case3 => cases h
  | case4 rest =>
    cases h
    rfl
  | case5 c rest _ _ _ ih =>
    obtain ⟨⟨w', after'⟩, hrest, he⟩ := Option.map_eq_some_iff.mp h
    cases he
    rw [ih hrest]
    rfl

theorem suffix_of_word? {s w after : List Char} (h : word? s = some (w, after)) : after <:+ s := by
  rw [eq_append_of_word? h]
  exact (List.suffix_cons _ after).trans (List.suffix_append w _)

theorem not_mem_after_word {x c : Char} {rest w after : List Char} (h : x ∉ c :: rest)
    (hword : word? rest = some (w, after)) : x ∉ after :=
  fun hmem => h (List.mem_cons_of_mem c ((suffix_of_word? hword).subset hmem))

/-- Where the end of a word has been looked for, it does not matter what follows. -/
theorem word?_append {s : List Char} (hs : '\\' ∉ s) (hclose : '}' ∈ s) (t : List Char) :
    word? (s ++ t) = (word? s).map fun (w, after) => (w, after ++ t) := by
  induction s with
  | nil => cases hclose
  | cons c s ih =>
    rw [List.mem_cons, not_or] at hs
    obtain ⟨hback, hs⟩ := hs
    by_cases hcomma : c = ','
    · subst hcomma
      rfl
    by_cases hc : c = '}'
    · subst hc
      rfl
    have hmem : '}' ∈ s := (List.mem_cons.mp hclose).resolve_left (Ne.symm hc)
    have hne : c ≠ '\\' ∧ c ≠ ',' ∧ c ≠ '}' := ⟨Ne.symm hback, hcomma, hc⟩
    rw [List.cons_append, word?_cons hne, word?_cons hne, ih hs hmem, Option.map_map,
      Option.map_map]
    rfl

/-! ## 5. Counting braces -/

theorem balanced_append_of_not_brace {u : List Char}
    (hu : ∀ x ∈ u, x ≠ '\\' ∧ x ≠ '{' ∧ x ≠ '}') (depth : Nat) (s : List Char) :
    balanced depth (u ++ s) = balanced depth s := by
  induction u with
  | nil => rfl
  | cons c u ih =>
    obtain ⟨hc, hu⟩ := List.forall_mem_cons.mp hu
    rw [List.cons_append, balanced_cons_of_ne hc, ih hu]

/-- The braces that open in a word are all left open. -/
theorem balanced_word {w : List Char} (hback : '\\' ∉ w) (hclose : '}' ∉ w) (depth : Nat)
    (s : List Char) : balanced depth (w ++ s) = balanced (depth + w.count '{') s := by
  induction w generalizing depth with
  | nil => rfl
  | cons c w ih =>
    rw [List.mem_cons, not_or] at hback hclose
    by_cases hc : c = '{'
    · subst hc
      rw [List.cons_append, balanced, ih hback.2 hclose.2, List.count_cons_self]
      congr 1
      omega
    · rw [List.cons_append, balanced_cons_of_ne ⟨Ne.symm hback.1, hc, Ne.symm hclose.1⟩,
        ih hback.2 hclose.2, List.count_cons_of_ne hc]

/-- A brace that is open has to be closed. -/
theorem closing_mem_of_balanced {depth : Nat} {s : List Char} (hs : '\\' ∉ s)
    (h : balanced (depth + 1) s = true) : '}' ∈ s := by
  by_contra hclose
  have hall := balanced_word hs hclose (depth + 1) []
  rw [List.append_nil, h, balanced] at hall
  have hzero := beq_iff_eq.mp hall.symm
  omega

/-- Behind a balanced text the count goes on. -/
theorem balanced_append {depth : Nat} {s : List Char} (hs : '\\' ∉ s)
    (h : balanced depth s = true) (more : Nat) (t : List Char) :
    balanced (depth + more) (s ++ t) = balanced more t := by
  induction s generalizing depth with
  | nil =>
    rw [balanced, beq_iff_eq] at h
    rw [h, Nat.zero_add, List.nil_append]
  | cons c s ih =>
    rw [List.mem_cons, not_or] at hs
    by_cases hopen : c = '{'
    · subst hopen
      rw [List.cons_append, balanced, ← ih hs.2 h]
      congr 1
      omega
    by_cases hclose : c = '}'
    · subst hclose
      cases depth with
      | zero => cases h
      | succ depth =>
        rw [List.cons_append, Nat.add_right_comm, balanced, ih hs.2 h]
    · have hne : c ≠ '\\' ∧ c ≠ '{' ∧ c ≠ '}' := ⟨Ne.symm hs.1, hopen, hclose⟩
      rw [balanced_cons_of_ne hne] at h
      rw [List.cons_append, balanced_cons_of_ne hne, ih hs.2 h]

/-- Behind a word, the braces that open in it are left open. -/
theorem balanced_after_word {rest w after : List Char} (hrest : '\\' ∉ rest)
    (hword : word? rest = some (w, after)) (depth : Nat) :
    balanced depth ('{' :: rest) = balanced (depth + w.count '{') after := by
  obtain ⟨rfl, -, hclose⟩ := eq_of_word? hrest hword
  have hback : '\\' ∉ w := fun hmem => hrest (List.mem_append_left _ hmem)
  rw [balanced, balanced_word hback hclose, Nat.add_right_comm, balanced]

theorem exists_balanced_of_cons {c : Char} {s : List Char} (hs : '\\' ∉ c :: s) {depth : Nat}
    (h : balanced depth (c :: s) = true) : ∃ depth', balanced depth' s = true := by
  rw [List.mem_cons, not_or] at hs
  by_cases hopen : c = '{'
  · subst hopen
    exact ⟨depth + 1, h⟩
  by_cases hclose : c = '}'
  · subst hclose
    cases depth with
    | zero => cases h
    | succ depth => exact ⟨depth, h⟩
  · rw [balanced_cons_of_ne ⟨Ne.symm hs.1, hopen, hclose⟩] at h
    exact ⟨depth, h⟩

/-- The braces are counted in the same way behind an item. -/
theorem balanced_item_rest {c : Char} (hc : c ≠ '\\' ∧ c ≠ '[') (s : List Char) (depth : Nat) :
    balanced depth s = balanced depth (item c s).2 := by
  obtain ⟨u, hu, hsu⟩ := exists_eq_append_item hc s
  have hplain : ∀ x ∈ u, x ≠ '\\' ∧ x ≠ '{' ∧ x ≠ '}' := by
    intro x hx
    rcases hu x hx with rfl | rfl
    · decide
    · decide
  conv_lhs => rw [hsu]
  exact balanced_append_of_not_brace hplain depth _

/-- An item that is no class has no braces to count, escaped ones apart. -/
theorem balanced_cons_item {c : Char} (hc : c ≠ '{' ∧ c ≠ '}' ∧ c ≠ '[') (s : List Char)
    (depth : Nat) : balanced depth (c :: s) = balanced depth (item c s).2 := by
  obtain ⟨hopen, hclose, hbracket⟩ := hc
  by_cases hback : c = '\\'
  · subst hback
    cases s with
    | nil => rfl
    | cons d s => rfl
  · rw [balanced_cons_of_ne ⟨hback, hopen, hclose⟩, balanced_item_rest ⟨hback, hbracket⟩]

/-- Behind a word no fewer braces are open than before it. -/
theorem exists_balanced_after_word {rest w after : List Char}
    (hword : word? rest = some (w, after)) :
    ∃ more, ∀ depth, balanced depth ('{' :: rest) = balanced (depth + more) after := by
  have hinner : ∃ more, ∀ depth, balanced (depth + 1) rest = balanced (depth + more) after := by
    fun_induction word? rest generalizing w with
    | case1 => cases hword
    | case2 c rest ih =>
      obtain ⟨⟨w', after'⟩, hrest, he⟩ := Option.map_eq_some_iff.mp hword
      cases he
      exact ih hrest
    | case3 => cases hword
    | case4 rest =>
      cases hword
      exact ⟨0, fun depth => rfl⟩
    | case5 c rest hpair hcomma hclose ih =>
      obtain ⟨⟨w', after'⟩, hrest, he⟩ := Option.map_eq_some_iff.mp hword
      cases he
      obtain ⟨more, hmore⟩ := ih hrest
      by_cases hopen : c = '{'
      · subst hopen
        refine ⟨more + 1, fun depth => ?_⟩
        rw [balanced, hmore, Nat.add_right_comm, Nat.add_assoc]
      · have hback : c ≠ '\\' := by
          rintro rfl
          cases rest with
          | nil => cases hrest
          | cons d rest => exact hpair d rest rfl rfl
        refine ⟨more, fun depth => ?_⟩
        rw [balanced_cons_of_ne ⟨hback, hopen, hclose⟩, hmore]
  exact hinner

/-! ## 6. Scanning a piece -/

/-- A bare text in which every brace that closes has its opening one, and all are closed. -/
structure IsPiece (s : List Char) : Prop where
  bare : IsBare s
  balanced : Glob.balanced 0 s = true

theorem isPiece_iff {s : List Char} : IsPiece s ↔ IsBare s ∧ balanced 0 s = true :=
  ⟨fun h => ⟨h.bare, h.balanced⟩, fun h => ⟨h.1, h.2⟩⟩

instance (s : List Char) : Decidable (IsPiece s) := decidable_of_iff' _ isPiece_iff

theorem IsPiece.append {s t : List Char} (hs : IsPiece s) (ht : IsPiece t) : IsPiece (s ++ t) := by
  refine ⟨hs.bare.append ht.bare, ?_⟩
  exact (balanced_append hs.bare.1 hs.balanced 0 t).trans ht.balanced

/-- A scan with another one behind it. -/
def Scan.append (a b : Scan) : Scan := ⟨a.tokens ++ b.tokens, a.ranges ++ b.ranges⟩

theorem Scan.after_append (a b : Scan) (ts : List Token) :
    (a.after ts).append b = (a.append b).after ts := by
  simp [Scan.append, Scan.after]

theorem scanFrom_range {rest w after : List Char} {range : Range}
    (hword : word? rest = some (w, after)) (hrange : Range.ofText? w = some range)
    (braces : Bool) (depth numbers : Nat) :
    scanFrom braces depth numbers ('{' :: rest) =
      ⟨.atom (.number numbers) :: (scanFrom braces depth (numbers + 1) after).tokens,
        range :: (scanFrom braces depth (numbers + 1) after).ranges⟩ := by
  rw [scanFrom, if_pos rfl]
  split
  · rename_i h
    rw [hword] at h
    cases h
    simp only [hrange]
  · rename_i h
    rw [hword] at h
    cases h

theorem scanFrom_word {rest w after : List Char} (hword : word? rest = some (w, after))
    (hrange : Range.ofText? w = none) (braces : Bool) (depth numbers : Nat) :
    scanFrom braces depth numbers ('{' :: rest) =
      (scanFrom braces depth numbers after).after
        (.atom (.char '{') :: plain w ++ [.atom (.char '}')]) := by
  rw [scanFrom, if_pos rfl]
  split
  · rename_i h
    rw [hword] at h
    cases h
    simp only [hrange]
  · rename_i h
    rw [hword] at h
    cases h

/-- **A bare piece with balanced braces is scanned by itself**, and the scan goes on behind it with
as many alternations and ranges as it has left. -/
theorem scanFrom_append {s rest : List Char} (hs : IsBare s) {level : Nat}
    (hbalanced : balanced level s = true) (hrest : GoesOn rest) {depth numbers depth' : Nat}
    (hdepth : levelAfter? false depth (scanFrom true depth numbers s).tokens = some depth') :
    scanFrom true depth numbers (s ++ rest) =
      (scanFrom true depth numbers s).append
        (scanFrom true depth' (numbers + (scanFrom true depth numbers s).ranges.length) rest) := by
  fun_induction scanFrom true depth numbers s generalizing level with
  | case1 depth numbers =>
    cases hdepth
    rfl
  | case2 depth numbers rest' w after hword range hrange more ih =>
    have hback : '\\' ∉ rest' := hs.of_cons.1
    have hafter : IsBare after := hs.of_cons.of_suffix (suffix_of_word? hword)
    have hmem : '}' ∈ rest' := closing_mem_of_balanced hback hbalanced
    have hword' : word? (rest' ++ rest) = some (w, after ++ rest) := by
      rw [word?_append hback hmem, hword]
      rfl
    rw [balanced_after_word hback hword] at hbalanced
    have hmore := ih hafter hbalanced hdepth
    rw [List.cons_append, scanFrom_range hword' hrange, hmore, Nat.add_assoc, Nat.add_comm 1]
    rfl
  | case3 depth numbers rest' w after hword hrange ih =>
    have hback : '\\' ∉ rest' := hs.of_cons.1
    have hafter : IsBare after := hs.of_cons.of_suffix (suffix_of_word? hword)
    have hmem : '}' ∈ rest' := closing_mem_of_balanced hback hbalanced
    have hword' : word? (rest' ++ rest) = some (w, after ++ rest) := by
      rw [word?_append hback hmem, hword]
      rfl
    rw [balanced_after_word hback hword] at hbalanced
    rw [Scan.after, levelAfter?_append, levelAfter?_of_isPart false depth isPart_of_mem_word]
      at hdepth
    rw [List.cons_append, scanFrom_word hword' hrange, ih hafter hbalanced hdepth,
      Scan.after_append]
    rfl
  | case4 depth numbers rest' hword hbraces ih =>
    have hback : '\\' ∉ rest' := hs.of_cons.1
    have hmem : '}' ∈ rest' := closing_mem_of_balanced hback hbalanced
    have hword' : word? (rest' ++ rest) = none := by
      rw [word?_append hback hmem, hword]
      rfl
    rw [List.cons_append, scanFrom_opening hword', ih hs.of_cons hbalanced hdepth,
      Scan.after_append]
    rfl
  | case5 depth numbers rest' hword hbraces ih => exact absurd rfl hbraces
  | case6 depth numbers c rest' hopen hbar ih =>
    obtain ⟨rfl, hpos⟩ := hbar
    obtain ⟨depth, rfl⟩ := Nat.exists_eq_add_one.mpr hpos
    rw [balanced_cons_of_ne (by decide)] at hbalanced
    rw [List.cons_append, scanFrom_bar, ih hs.of_cons hbalanced hdepth, Scan.after_append]
    rfl
  | case7 depth numbers c rest' hopen hbar hclose ih =>
    obtain ⟨rfl, hpos⟩ := hclose
    obtain ⟨depth, rfl⟩ := Nat.exists_eq_add_one.mpr hpos
    cases level with
    | zero => cases hbalanced
    | succ level =>
      rw [Nat.add_sub_cancel] at ih ⊢
      rw [List.cons_append, scanFrom_closing, ih hs.of_cons hbalanced hdepth, Scan.after_append]
      rfl
  | case8 depth numbers c rest' hopen hbar hclose ih =>
    have hitem : IsBare (item c rest').2 := hs.of_cons.of_suffix (item_suffix _ _)
    obtain ⟨level', hlevel'⟩ := exists_balanced_of_cons hs.1 hbalanced
    rw [balanced_item_rest hs.ne] at hlevel'
    rw [Scan.after, List.singleton_append, levelAfter?_cons_of_isPart (isPart_item c rest')]
      at hdepth
    rw [List.cons_append, scanFrom, if_neg hopen, if_neg hbar, if_neg hclose,
      item_append hs hrest, ih hitem hlevel' hdepth, Scan.after_append]
    rfl

/-! ## 7. How many alternations a piece leaves open -/

/-- **Behind balanced braces no alternation is open**, if there were no more of them than braces
before.  Characters may be escaped, but there are no classes, which braces could be hidden in. -/
theorem levelAfter?_balanced {s : List Char} (hs : '[' ∉ s) {level : Nat}
    (hbalanced : balanced level s = true) {depth : Nat} (hle : depth ≤ level) (numbers : Nat) :
    levelAfter? false depth (scanFrom true depth numbers s).tokens = some 0 := by
  fun_induction scanFrom true depth numbers s generalizing level with
  | case1 depth numbers =>
    have hlevel : level = 0 := beq_iff_eq.mp hbalanced
    have hdepth : depth = 0 := by omega
    rw [hdepth]
    rfl
  | case2 depth numbers rest w after hword range hrange more ih =>
    -- Braces that open in the word raise the count, but open no alternation: hence `depth ≤ level`.
    obtain ⟨open', hopen'⟩ := exists_balanced_after_word hword
    rw [hopen'] at hbalanced
    exact ih (not_mem_after_word hs hword) hbalanced (by omega)
  | case3 depth numbers rest w after hword hrange ih =>
    obtain ⟨open', hopen'⟩ := exists_balanced_after_word hword
    rw [hopen'] at hbalanced
    rw [Scan.after, levelAfter?_append, levelAfter?_of_isPart false depth isPart_of_mem_word]
    exact ih (not_mem_after_word hs hword) hbalanced (by omega)
  | case4 depth numbers rest hword hbraces ih =>
    have hinner : balanced (level + 1) rest = true := hbalanced
    exact ih (fun hmem => hs (List.mem_cons_of_mem _ hmem)) hinner (by omega)
  | case5 depth numbers rest hword hbraces ih => exact absurd rfl hbraces
  | case6 depth numbers c rest hopen hbar ih =>
    obtain ⟨rfl, hpos⟩ := hbar
    rw [balanced_cons_of_ne (by decide)] at hbalanced
    rw [Scan.after, List.singleton_append, levelAfter?, if_pos (by simp [hpos])]
    exact ih (fun hmem => hs (List.mem_cons_of_mem _ hmem)) hbalanced hle
  | case7 depth numbers c rest hopen hbar hclose ih =>
    obtain ⟨rfl, hpos⟩ := hclose
    cases level with
    | zero => cases hbalanced
    | succ level =>
      rw [Scan.after, List.singleton_append, levelAfter?, if_pos hpos]
      exact ih (fun hmem => hs (List.mem_cons_of_mem _ hmem)) hbalanced (by omega)
  | case8 depth numbers c rest hopen hbar hclose ih =>
    rw [Scan.after, List.singleton_append, levelAfter?_cons_of_isPart (isPart_item c rest)]
    by_cases hc : c = '}'
    · subst hc
      have hdepth : depth = 0 := Nat.eq_zero_of_not_pos fun hpos => hclose ⟨rfl, hpos⟩
      cases level with
      | zero => cases hbalanced
      | succ level =>
        rw [balanced, balanced_item_rest (c := '}') (by decide)] at hbalanced
        exact ih (not_mem_item hs) hbalanced (by omega)
    · have hbracket : c ≠ '[' := fun hbracket => hs (hbracket ▸ List.mem_cons_self)
      rw [balanced_cons_item ⟨hopen, hc, hbracket⟩] at hbalanced
      exact ih (not_mem_item hs) hbalanced hle

/-- A piece outside of all alternations leaves none open. -/
theorem scanFrom_outside {s rest : List Char} (hs : IsPiece s) (hrest : GoesOn rest)
    (numbers : Nat) :
    scanFrom true 0 numbers (s ++ rest) = (scanFrom true 0 numbers s).append
      (scanFrom true 0 (numbers + (scanFrom true 0 numbers s).ranges.length) rest) :=
  scanFrom_append hs.bare hs.balanced hrest (levelAfter?_balanced hs.bare.2 hs.balanced le_rfl _)

/-- No word in braces contains braces: behind a brace that opens, a comma comes before the first one
that closes, or else no further one opens before it. -/
def Sheltered (s : List Char) : Prop :=
  ∀ w after, '{' :: (w ++ '}' :: after) <:+ s → ',' ∉ w → '}' ∉ w → '{' ∉ w

/-- Only the ends of the text need to be looked at, and of each end only its beginnings. -/
theorem sheltered_iff {s : List Char} :
    Sheltered s ↔ ∀ t ∈ s.tails, ∀ w ∈ t.tail.inits,
      t = '{' :: (w ++ '}' :: t.drop (w.length + 2)) → ',' ∉ w → '}' ∉ w → '{' ∉ w := by
  constructor
  · intro h t ht w _ he
    exact h w _ (he ▸ (List.mem_tails t s).mp ht)
  · intro h w after hsuffix
    refine h _ ((List.mem_tails _ s).mpr hsuffix) w ((List.mem_inits w _).mpr ?_) ?_
    · exact List.prefix_append w _
    · simp

instance (s : List Char) : Decidable (Sheltered s) := decidable_of_iff' _ sheltered_iff

theorem Sheltered.of_suffix {s t : List Char} (h : Sheltered s) (ht : t <:+ s) : Sheltered t :=
  fun w after hw => h w after (hw.trans ht)

theorem Sheltered.balanced_after_word {rest w after : List Char} (h : Sheltered ('{' :: rest))
    (hrest : '\\' ∉ rest) (hword : word? rest = some (w, after)) (depth : Nat) :
    balanced depth ('{' :: rest) = balanced depth after := by
  obtain ⟨hsplit, hcomma, hclose⟩ := eq_of_word? hrest hword
  have hopen : '{' ∉ w := h w after (by rw [hsplit]) hcomma hclose
  rw [Glob.balanced_after_word hrest hword, List.count_eq_zero_of_not_mem hopen, Nat.add_zero]

/-- **Within an alternation, a sheltered piece closes the alternations that it opens**, and no
others. -/
theorem levelAfter?_sheltered {s : List Char} (hs : IsBare s) (hsheltered : Sheltered s)
    {level : Nat} (hbalanced : balanced level s = true) (numbers : Nat) :
    levelAfter? true level (scanFrom true (level + 1) numbers s).tokens = some 0 := by
  generalize hdepth : level + 1 = depth
  fun_induction scanFrom true depth numbers s generalizing level with
  | case1 depth numbers =>
    rw [beq_iff_eq.mp hbalanced]
    rfl
  | case2 depth numbers rest w after hword range hrange more ih =>
    have hback : '\\' ∉ rest := hs.of_cons.1
    have hsuffix : after <:+ '{' :: rest :=
      (suffix_of_word? hword).trans (List.suffix_cons _ rest)
    rw [hsheltered.balanced_after_word hback hword] at hbalanced
    exact ih (hs.of_suffix hsuffix) (hsheltered.of_suffix hsuffix) hbalanced hdepth
  | case3 depth numbers rest w after hword hrange ih =>
    have hback : '\\' ∉ rest := hs.of_cons.1
    have hsuffix : after <:+ '{' :: rest :=
      (suffix_of_word? hword).trans (List.suffix_cons _ rest)
    rw [hsheltered.balanced_after_word hback hword] at hbalanced
    rw [Scan.after, levelAfter?_append, levelAfter?_of_isPart true level isPart_of_mem_word]
    exact ih (hs.of_suffix hsuffix) (hsheltered.of_suffix hsuffix) hbalanced hdepth
  | case4 depth numbers rest hword hbraces ih =>
    have hsuffix : rest <:+ '{' :: rest := List.suffix_cons _ rest
    have hinner : balanced (level + 1) rest = true := hbalanced
    exact ih hs.of_cons (hsheltered.of_suffix hsuffix) hinner (by omega)
  | case5 depth numbers rest hword hbraces ih => exact absurd rfl hbraces
  | case6 depth numbers c rest hopen hbar ih =>
    obtain ⟨rfl, hpos⟩ := hbar
    have hsuffix : rest <:+ ',' :: rest := List.suffix_cons _ rest
    rw [balanced_cons_of_ne (by decide)] at hbalanced
    exact ih hs.of_cons (hsheltered.of_suffix hsuffix) hbalanced hdepth
  | case7 depth numbers c rest hopen hbar hclose ih =>
    obtain ⟨rfl, hpos⟩ := hclose
    have hsuffix : rest <:+ '}' :: rest := List.suffix_cons _ rest
    cases level with
    | zero => cases hbalanced
    | succ level =>
      exact ih hs.of_cons (hsheltered.of_suffix hsuffix) hbalanced (by omega)
  | case8 depth numbers c rest hopen hbar hclose ih =>
    have hsuffix : (item c rest).2 <:+ c :: rest := (item_suffix _ _).trans (List.suffix_cons c rest)
    have hc : c ≠ '}' := fun hc => hclose ⟨hc, by omega⟩
    rw [balanced_cons_item ⟨hopen, hc, hs.ne.2⟩] at hbalanced
    rw [Scan.after, List.singleton_append, levelAfter?_cons_of_isPart (isPart_item c rest)]
    exact ih (hs.of_suffix hsuffix) (hsheltered.of_suffix hsuffix) hbalanced hdepth

/-- What stands within an alternation may have bars. -/
theorem levelAfter?_succ {depth n : Nat} {ts : List Token}
    (h : levelAfter? true depth ts = some n) : levelAfter? false (depth + 1) ts = some (n + 1) := by
  induction ts generalizing depth with
  | nil =>
    cases h
    rfl
  | cons t ts ih =>
    cases t with
    | closing =>
      cases depth with
      | zero => cases h
      | succ depth => exact ih h
    | atom a => exact ih h
    | depths => exact ih h
    | malformed => exact ih h
    | opening => exact ih h
    | bar =>
      rw [levelAfter?, if_pos (by simp)]
      exact ih h

/-! ## 8. Anchored globs -/

/-- What stands in front of a glob in its directory. -/
def lead (s : List Char) : List Char :=
  if '/' ∈ s then if s.head? = some '/' then [] else ['/'] else ['/', '*', '*', '/']

theorem anchor_eq (s : List Char) : anchor s = lead s ++ s := by
  unfold anchor lead
  by_cases hslash : '/' ∈ s
  · rw [if_pos (List.contains_iff_mem.mpr hslash), if_pos hslash]
    split
    · rfl
    · rename_i hne
      have hhead : s.head? ≠ some '/' := by
        intro h
        obtain ⟨t, rfl⟩ := List.head?_eq_some_iff.mp h
        exact hne t rfl
      rw [if_neg hhead]
      rfl
  · rw [if_neg fun h => hslash (List.contains_iff_mem.mp h), if_neg hslash]
    rfl

theorem isPiece_lead (s : List Char) : IsPiece (lead s) := by
  unfold lead
  split
  · split
    · exact ⟨by simp [IsBare], rfl⟩
    · exact ⟨by simp [IsBare], by decide⟩
  · exact ⟨by simp [IsBare], by decide⟩

end EditorSettings.Glob
