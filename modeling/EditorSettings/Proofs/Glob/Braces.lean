/-
# Braces do not spoil a glob

However braces, commas, escapes and ranges are nested, left open or crossed in a glob, they cannot
make it malformed; only brackets can.  A glob without an opening bracket always forms an
expression, in which each of its ranges has one number (`matcher_withoutBrackets`).

An alternation begins only if the braces are balanced in the whole glob, and then the scan never has
more alternations open than the glob has braces (`levelAfter?_balanced`): so it closes all that it
opens, even though it does not count the braces of words.  Tokens that close what they open can be
read to the end (`exists_readTokens`).  Reading them keeps their numbers in order
(`indices_readTokens`), and the expression becomes deeper only where an alternation is closed
(`isWithin_readTokens`).  So a glob with few braces cannot reach the limit of nesting, which is all
that an expression can still fail by.
-/
import EditorSettings.Proofs.Glob.Row
import EditorSettings.Proofs.Glob.Unescape

namespace EditorSettings.Glob

/-! ## 1. Well-formed tokens -/

/-- The index of a number. -/
def Atom.index? : Atom → Option Nat
  | .number index => some index
  | _ => none

/-- The index of the number that the token is. -/
def Token.index? : Token → Option Nat
  | .atom a => a.index?
  | _ => none

/-- Tokens that form an expression, with one number for each range. -/
structure Scan.IsWellFormed (s : Scan) : Prop where
  /-- Every alternation that is opened is closed, none is closed that was not opened, and there are
  no branches outside of them. -/
  closed : levelAfter? false 0 s.tokens = some 0
  /-- No brackets are malformed. -/
  formed : .malformed ∉ s.tokens
  /-- The numbers have indices of their own, which are those of the ranges. -/
  numbered : s.tokens.filterMap Token.index? = List.range s.ranges.length

/-- The token is no set, neither a well-formed nor a malformed one. -/
def Token.IsSimple : Token → Prop
  | .malformed => False
  | .atom (.set _) => False
  | _ => True

theorem isSimple_item {c : Char} (hc : c ≠ '[') (rest : List Char) :
    (item c rest).1.IsSimple := by
  unfold item
  split
  case h_6 => exact absurd rfl hc
  all_goals trivial

theorem isSimple_of_mem_plain {s : List Char} (hs : '[' ∉ s) : ∀ t ∈ plain s, t.IsSimple := by
  fun_induction plain s with
  | case1 => exact fun t ht => absurd ht List.not_mem_nil
  | case2 c rest ih =>
    have hc : c ≠ '[' := fun hc => hs (hc ▸ List.mem_cons_self)
    exact List.forall_mem_cons.mpr ⟨isSimple_item hc rest, ih (not_mem_item hs)⟩

/-- The tokens of a word in braces are simple. -/
theorem isSimple_of_mem_word {w : List Char} (hw : '[' ∉ w) :
    ∀ t ∈ Token.atom (.char '{') :: plain w ++ [.atom (.char '}')], t.IsSimple := by
  intro t ht
  rcases List.mem_append.mp ht with ht | ht
  · rcases List.mem_cons.mp ht with rfl | ht
    · trivial
    · exact isSimple_of_mem_plain hw t ht
  · rw [List.mem_singleton.mp ht]
    trivial

/-- **Where no bracket opens, there are no sets.** -/
theorem isSimple_of_mem_scanFrom {s : List Char} (hs : '[' ∉ s) (braces : Bool)
    (depth numbers : Nat) : ∀ t ∈ (scanFrom braces depth numbers s).tokens, t.IsSimple := by
  fun_induction scanFrom braces depth numbers s with
  | case1 => exact fun t ht => absurd ht List.not_mem_nil
  | case2 depth numbers rest w after hword range hrange more ih =>
    exact List.forall_mem_cons.mpr ⟨trivial, ih (not_mem_after_word hs hword)⟩
  | case3 depth numbers rest w after hword hrange ih =>
    have hrest : rest = w ++ '}' :: after := eq_append_of_word? hword
    have hw : '[' ∉ w := fun hmem =>
      hs (List.mem_cons_of_mem _ (hrest ▸ List.mem_append_left _ hmem))
    exact List.forall_mem_append.mpr ⟨isSimple_of_mem_word hw, ih (not_mem_after_word hs hword)⟩
  | case4 depth numbers rest hword hbraces ih =>
    exact List.forall_mem_cons.mpr ⟨trivial, ih fun hmem => hs (List.mem_cons_of_mem _ hmem)⟩
  | case5 depth numbers rest hword hbraces ih =>
    exact List.forall_mem_cons.mpr ⟨trivial, ih fun hmem => hs (List.mem_cons_of_mem _ hmem)⟩
  | case6 depth numbers c rest hopen hbar ih =>
    exact List.forall_mem_cons.mpr ⟨trivial, ih fun hmem => hs (List.mem_cons_of_mem _ hmem)⟩
  | case7 depth numbers c rest hopen hbar hclose ih =>
    exact List.forall_mem_cons.mpr ⟨trivial, ih fun hmem => hs (List.mem_cons_of_mem _ hmem)⟩
  | case8 depth numbers c rest hopen hbar hclose ih =>
    have hc : c ≠ '[' := fun hc => hs (hc ▸ List.mem_cons_self)
    exact List.forall_mem_cons.mpr ⟨isSimple_item hc rest, ih (not_mem_item hs)⟩

/-! ## 2. The numbers of a scan -/

theorem index?_bracketed (negated : Bool) (s : List Char) :
    (bracketed negated s).1.index? = none := by
  unfold bracketed
  split
  · rfl
  · split <;> rfl

theorem index?_item (c : Char) (rest : List Char) : (item c rest).1.index? = none := by
  unfold item
  split
  case h_6 rest =>
    split
    · rfl
    · split <;> exact index?_bracketed _ _
  all_goals rfl

theorem index?_of_mem_plain {s : List Char} : ∀ t ∈ plain s, t.index? = none := by
  fun_induction plain s with
  | case1 => exact fun t ht => absurd ht List.not_mem_nil
  | case2 c rest ih => exact List.forall_mem_cons.mpr ⟨index?_item c rest, ih⟩

/-- A word in braces has no numbers, even if there are braces in it. -/
theorem indices_word (w : List Char) :
    (Token.atom (.char '{') :: plain w ++ [Token.atom (.char '}')]).filterMap Token.index? = [] := by
  refine List.filterMap_eq_nil_iff.mpr fun t ht => ?_
  rcases List.mem_append.mp ht with ht | ht
  · rcases List.mem_cons.mp ht with rfl | ht
    · rfl
    · exact index?_of_mem_plain t ht
  · rw [List.mem_singleton.mp ht]
    rfl

/-- **The numbers of a scan are counted up**, one for each range. -/
theorem indices_scanFrom (braces : Bool) (depth numbers : Nat) (s : List Char) :
    (scanFrom braces depth numbers s).tokens.filterMap Token.index? =
      List.range' numbers (scanFrom braces depth numbers s).ranges.length := by
  fun_induction scanFrom braces depth numbers s with
  | case1 => rfl
  | case2 depth numbers rest w after hword range hrange more ih =>
    exact congrArg (List.cons numbers) ih
  | case3 depth numbers rest w after hword hrange ih =>
    rw [Scan.after, List.filterMap_append, indices_word, List.nil_append]
    exact ih
  | case4 depth numbers rest hword hbraces ih => exact ih
  | case5 depth numbers rest hword hbraces ih => exact ih
  | case6 depth numbers c rest hopen hbar ih => exact ih
  | case7 depth numbers c rest hopen hbar hclose ih => exact ih
  | case8 depth numbers c rest hopen hbar hclose ih =>
    rw [Scan.after, List.singleton_append, List.filterMap_cons_none (index?_item c rest)]
    exact ih

theorem count_closing_of_isPart {ts : List Token} (h : ∀ t ∈ ts, t.isPart = true) :
    ts.count .closing = 0 := by
  refine List.count_eq_zero_of_not_mem fun hmem => ?_
  cases h _ hmem

theorem count_after_word_le {c : Char} {rest w after : List Char}
    (hword : word? rest = some (w, after)) (x : Char) :
    after.count x ≤ (c :: rest).count x :=
  ((suffix_of_word? hword).trans (List.suffix_cons c rest)).sublist.count_le x

/-- An alternation is closed by a closing brace of the text. -/
theorem count_closing_scanFrom_le (braces : Bool) (depth numbers : Nat) (s : List Char) :
    (scanFrom braces depth numbers s).tokens.count .closing ≤ s.count '}' := by
  fun_induction scanFrom braces depth numbers s with
  | case1 => exact Nat.zero_le _
  | case2 depth numbers rest w after hword range hrange more ih =>
    have hnumber : Token.atom (.number numbers) ≠ .closing := by simp
    exact (List.count_cons_of_ne hnumber).le.trans (ih.trans (count_after_word_le hword '}'))
  | case3 depth numbers rest w after hword hrange ih =>
    rw [Scan.after, List.count_append, count_closing_of_isPart isPart_of_mem_word, Nat.zero_add]
    exact ih.trans (count_after_word_le hword '}')
  | case4 depth numbers rest hword hbraces ih => exact ih
  | case5 depth numbers rest hword hbraces ih => exact ih
  | case6 depth numbers c rest hopen hbar ih =>
    rw [hbar.1, List.count_cons_of_ne (by decide)]
    exact ih
  | case7 depth numbers c rest hopen hbar hclose ih =>
    rw [Scan.after, List.singleton_append, List.count_cons_self, hclose.1, List.count_cons_self]
    omega
  | case8 depth numbers c rest hopen hbar hclose ih =>
    have hitem : (item c rest).2.count '}' ≤ (c :: rest).count '}' :=
      ((item_suffix c rest).trans (List.suffix_cons c rest)).sublist.count_le _
    have hpart : (item c rest).1 ≠ .closing := by
      intro h
      have hpart := isPart_item c rest
      rw [h] at hpart
      cases hpart
    rw [Scan.after, List.singleton_append, List.count_cons_of_ne hpart]
    exact ih.trans hitem

/-! ## 3. Reading well-formed tokens -/

section

variable {bars : Bool} {n : Nat} {t : Token} {ts : List Token} {fs fs' : List Frame}

/-- A token that closes what is open, if anything, can be read. -/
theorem exists_step {f : Frame} {below : List Frame} (ht : t ≠ .malformed)
    (h : levelAfter? bars below.length (t :: ts) = some n) :
    ∃ f' below', t.step (f :: below) = some (f' :: below') ∧
      levelAfter? bars below'.length ts = some n := by
  cases t with
  | atom a => exact ⟨_, below, rfl, h⟩
  | depths => exact ⟨_, below, rfl, h⟩
  | malformed => exact absurd rfl ht
  | opening => exact ⟨_, f :: below, rfl, h⟩
  | bar =>
    rw [levelAfter?, Option.ite_none_right_eq_some] at h
    exact ⟨_, below, rfl, h.2⟩
  | closing =>
    rw [levelAfter?, Option.ite_none_right_eq_some] at h
    -- The level is the number of frames below: if it is not zero, one of them takes the alternation.
    cases below with
    | nil => exact absurd h.1 (Nat.lt_irrefl 0)
    | cons g below => exact ⟨_, below, rfl, h.2⟩

/-- **Well-formed tokens can be read to the end.** -/
theorem exists_readTokens {f : Frame} {below : List Frame} (hts : .malformed ∉ ts)
    (h : levelAfter? bars below.length ts = some n) :
    ∃ f' below', readTokens ts (f :: below) = some (f' :: below') ∧ below'.length = n := by
  induction ts generalizing f below with
  | nil => exact ⟨f, below, rfl, Option.some.inj h⟩
  | cons t ts ih =>
    rw [List.mem_cons, not_or] at hts
    obtain ⟨g, below', hstep, hlevel⟩ := exists_step (Ne.symm hts.1) h
    rw [readTokens, hstep]
    exact ih hts.2 hlevel

/-! ### Numbers -/

/-- The indices of the numbers of an expression, from left to right. -/
def Expr.indices : Expr → List Nat
  | .empty => []
  | .atom a => a.index?.toList
  | .seq a b => a.indices ++ b.indices
  | .either a b => a.indices ++ b.indices
  | .group e => e.indices

/-- The indices of the numbers that have been read into frames, the outermost one first. -/
def frameIndices : List Frame → List Nat
  | [] => []
  | f :: outer => frameIndices outer ++ f.toExpr.indices

theorem indices_toExpr_push (f : Frame) (e : Expr) :
    (f.push e).toExpr.indices = f.toExpr.indices ++ e.indices := by
  obtain ⟨_ | d, current⟩ := f
  · rfl
  · exact (List.append_assoc _ _ _).symm

theorem indices_toExpr_next (f : Frame) : f.next.toExpr.indices = f.toExpr.indices :=
  List.append_nil _

/-- A token adds its own number to those that have been read. -/
theorem indices_step (h : t.step fs = some fs') :
    frameIndices fs' = frameIndices fs ++ t.index?.toList := by
  unfold Token.step at h
  split at h
  · rename_i a f outer
    cases h
    rw [frameIndices, indices_toExpr_push, ← List.append_assoc]
    rfl
  · rename_i f outer
    cases h
    rw [frameIndices, indices_toExpr_push, ← List.append_assoc]
    rfl
  · cases h
    rfl
  · rename_i f outer
    cases h
    rw [frameIndices, indices_toExpr_next]
    exact (List.append_nil _).symm
  · rename_i f g outer
    cases h
    rw [frameIndices, indices_toExpr_push, ← List.append_assoc]
    exact (List.append_nil _).symm
  · cases h

/-- **Reading keeps the numbers, in their order.** -/
theorem indices_readTokens (h : readTokens ts fs = some fs') :
    frameIndices fs' = frameIndices fs ++ ts.filterMap Token.index? := by
  induction ts generalizing fs with
  | nil =>
    cases h
    exact (List.append_nil _).symm
  | cons t ts ih =>
    obtain ⟨gs, hstep, hread⟩ := Option.bind_eq_some_iff.mp h
    rw [ih hread, indices_step hstep, List.append_assoc]
    cases hindex : t.index? with
    | none => rw [List.filterMap_cons_none hindex]; rfl
    | some index => rw [List.filterMap_cons_some hindex]; rfl

/-! ### Depth -/

theorem sequenceLevel_le_one (e : Expr) : e.sequenceLevel ≤ 1 := by
  unfold Expr.sequenceLevel
  split <;> decide

theorem branchLevel_le_one (e : Expr) : e.branchLevel ≤ 1 := by
  unfold Expr.branchLevel
  split <;> decide

/-- The present branch of the frame is nested no more than `n` deep, and so are the complete ones,
as sequences. -/
structure Frame.IsWithin (f : Frame) (n : Nat) : Prop where
  current : f.current.innerNesting ≤ n
  done : ∀ e ∈ f.done, e.innerNesting + e.sequenceLevel ≤ n + 1

namespace Frame.IsWithin

variable {f : Frame} {m : Nat}

theorem mono (h : f.IsWithin n) (hle : n ≤ m) : f.IsWithin m :=
  ⟨h.current.trans hle, fun e he => (h.done e he).trans (Nat.add_le_add_right hle 1)⟩

theorem new (n : Nat) : IsWithin {} n := ⟨Nat.zero_le n, nofun⟩

theorem push (h : f.IsWithin n) {e : Expr} (he : e.innerNesting ≤ n) : (f.push e).IsWithin n :=
  ⟨max_le h.current he, h.done⟩

theorem toExpr (h : f.IsWithin n) :
    f.toExpr.innerNesting + f.toExpr.sequenceLevel ≤ n + 1 := by
  obtain ⟨done, current⟩ := f
  have hcurrent : current.innerNesting + current.sequenceLevel ≤ n + 1 :=
    Nat.add_le_add h.current (sequenceLevel_le_one current)
  cases done with
  | none => exact hcurrent
  | some d => exact max_le (h.done d rfl) hcurrent

theorem next (h : f.IsWithin n) : f.next.IsWithin n := by
  refine ⟨Nat.zero_le n, ?_⟩
  rintro e ⟨⟩
  exact h.toExpr

/-- An alternation is three levels deeper than its branches. -/
theorem group (h : f.IsWithin n) : (Expr.group f.toExpr).innerNesting ≤ n + 3 := by
  have hexpr := h.toExpr
  have hbranch := branchLevel_le_one f.toExpr
  rw [Expr.innerNesting]
  omega

end Frame.IsWithin

theorem nesting_atom_le {a : Atom} (h : (Token.atom a).IsSimple) : a.nesting ≤ 5 := by
  cases a with
  | set s => exact absurd h not_false
  | char c => exact Nat.zero_le 5
  | one => decide
  | run => decide
  | any => decide
  | number index => exact le_rfl

/-- Only where an alternation is closed does what is read become deeper. -/
theorem isWithin_step (ht : t.IsSimple) (hn : 5 ≤ n) (hfs : ∀ f ∈ fs, f.IsWithin n)
    (h : t.step fs = some fs') :
    ∀ f ∈ fs', f.IsWithin (n + 3 * [t].count .closing) := by
  unfold Token.step at h
  split at h
  · rename_i a f outer
    cases h
    obtain ⟨hf, houter⟩ := List.forall_mem_cons.mp hfs
    exact List.forall_mem_cons.mpr ⟨hf.push ((nesting_atom_le ht).trans hn), houter⟩
  · rename_i f outer
    cases h
    obtain ⟨hf, houter⟩ := List.forall_mem_cons.mp hfs
    have hdepths : Expr.depths.innerNesting ≤ 5 := by decide
    exact List.forall_mem_cons.mpr ⟨hf.push (hdepths.trans hn), houter⟩
  · cases h
    exact List.forall_mem_cons.mpr ⟨Frame.IsWithin.new n, hfs⟩
  · rename_i f outer
    cases h
    obtain ⟨hf, houter⟩ := List.forall_mem_cons.mp hfs
    exact List.forall_mem_cons.mpr ⟨hf.next, houter⟩
  · rename_i f g outer
    cases h
    obtain ⟨hf, hg, houter⟩ := by simpa only [List.forall_mem_cons] using hfs
    have hle : n ≤ n + 3 := Nat.le_add_right n 3
    exact List.forall_mem_cons.mpr
      ⟨(hg.mono hle).push hf.group, fun f' hf' => (houter f' hf').mono hle⟩
  · cases h

theorem isWithin_readTokens (hts : ∀ t ∈ ts, t.IsSimple) (hn : 5 ≤ n)
    (hfs : ∀ f ∈ fs, f.IsWithin n) (h : readTokens ts fs = some fs') :
    ∀ f ∈ fs', f.IsWithin (n + 3 * ts.count .closing) := by
  induction ts generalizing fs n with
  | nil =>
    cases h
    exact hfs
  | cons t ts ih =>
    obtain ⟨ht, hts⟩ := List.forall_mem_cons.mp hts
    obtain ⟨gs, hstep, hread⟩ := Option.bind_eq_some_iff.mp h
    have hgs := isWithin_step ht hn hfs hstep
    have hrest := ih hts (by omega) hgs hread
    rw [← List.singleton_append, List.count_append, Nat.mul_add, ← Nat.add_assoc]
    exact hrest

/-! ### Expressions -/

/-- **Well-formed tokens form an expression**, which has their numbers. -/
theorem exists_ofTokens? {s : Scan} (h : s.IsWellFormed) :
    ∃ e, Expr.ofTokens? s.tokens = some e ∧ e.indices = List.range s.ranges.length := by
  obtain ⟨f, below, hread, hlength⟩ : ∃ f below, readTokens s.tokens [{}] = some (f :: below) ∧
      below.length = 0 := exists_readTokens h.formed h.closed
  obtain rfl := List.length_eq_zero_iff.mp hlength
  refine ⟨f.toExpr, ?_, ?_⟩
  · rw [Expr.ofTokens?, ofTokensIn?_eq_readTokens, hread]
    rfl
  · rw [← h.numbered]
    exact indices_readTokens hread

/-- An expression is nested no deeper than the alternations that are closed in it allow. -/
theorem nesting_le {e : Expr} (hts : ∀ t ∈ ts, t.IsSimple) (h : Expr.ofTokens? ts = some e) :
    e.nesting ≤ 7 + 3 * ts.count .closing := by
  rw [Expr.ofTokens?, ofTokensIn?_eq_readTokens] at h
  obtain ⟨fs, hread, houter⟩ := Option.bind_eq_some_iff.mp h
  obtain ⟨f, rfl, rfl⟩ : ∃ f, fs = [f] ∧ f.toExpr = e := by
    unfold outermost? at houter
    split at houter
    · rename_i f
      exact ⟨f, rfl, Option.some.inj houter⟩
    · cases houter
  have hstart : ∀ f ∈ [({} : Frame)], f.IsWithin 5 := by
    simpa using Frame.IsWithin.new 5
  have hexpr := (isWithin_readTokens hts le_rfl hstart hread f List.mem_cons_self).toExpr
  rw [Expr.nesting]
  omega

end

/-! ## 4. Globs without brackets -/

/-- Unbalanced braces are plain: outside of alternations, none begins. -/
theorem isPart_of_mem_scanFrom_plain (numbers : Nat) (s : List Char) :
    ∀ t ∈ (scanFrom false 0 numbers s).tokens, t.isPart = true := by
  generalize hdepth : 0 = depth
  fun_induction scanFrom false depth numbers s with
  | case1 => exact fun t ht => absurd ht List.not_mem_nil
  | case2 depth numbers rest w after hword range hrange more ih =>
    exact List.forall_mem_cons.mpr ⟨rfl, ih hdepth⟩
  | case3 depth numbers rest w after hword hrange ih =>
    exact List.forall_mem_append.mpr ⟨isPart_of_mem_word, ih hdepth⟩
  | case4 depth numbers rest hword hbraces ih => cases hbraces
  | case5 depth numbers rest hword hbraces ih =>
    exact List.forall_mem_cons.mpr ⟨rfl, ih hdepth⟩
  | case6 depth numbers c rest hopen hbar ih => exact absurd hbar.2 (by omega)
  | case7 depth numbers c rest hopen hbar hclose ih => exact absurd hclose.2 (by omega)
  | case8 depth numbers c rest hopen hbar hclose ih =>
    exact List.forall_mem_cons.mpr ⟨isPart_item c rest, ih hdepth⟩

/-- **A text without brackets has well-formed tokens.** -/
theorem isWellFormed_scan {s : List Char} (hs : '[' ∉ s) : (scan s).IsWellFormed := by
  refine ⟨?_, fun hmem => isSimple_of_mem_scanFrom hs _ 0 0 _ hmem, ?_⟩
  · rw [scan]
    cases hbalanced : balanced 0 s with
    | true => exact levelAfter?_balanced hs hbalanced le_rfl 0
    | false => exact levelAfter?_of_isPart false 0 (isPart_of_mem_scanFrom_plain 0 s)
  · rw [scan, indices_scanFrom, List.range_eq_range']

/-- A character is a simple part of a glob, and no number. -/
theorem of_mem_charTokens {w : List Char} {t : Token} (h : t ∈ charTokens w) :
    t.isPart = true ∧ t.IsSimple ∧ t.index? = none := by
  obtain ⟨c, -, rfl⟩ := List.mem_map.mp h
  exact ⟨rfl, trivial, rfl⟩

/-- Characters in front of well-formed tokens leave them so. -/
theorem Scan.IsWellFormed.after_charTokens {s : Scan} (h : s.IsWellFormed) (w : List Char) :
    (s.after (charTokens w)).IsWellFormed := by
  refine ⟨?_, ?_, ?_⟩
  · rw [Scan.after, levelAfter?_append,
      levelAfter?_of_isPart false 0 fun t ht => (of_mem_charTokens ht).1]
    exact h.closed
  · rw [Scan.after, List.mem_append, not_or]
    exact ⟨fun hmem => (of_mem_charTokens hmem).2.1, h.formed⟩
  · rw [Scan.after, List.filterMap_append,
      List.filterMap_eq_nil_iff.mpr fun t ht => (of_mem_charTokens ht).2.2]
    exact h.numbered

/-- The whole of a glob as it is scanned: its directory, and the glob itself behind it. -/
def wholeScan (dir pattern : String) : Scan :=
  (scan (anchor (unescapeComments pattern.toList))).after (charTokens (directoryText dir))

section

variable {dir pattern : String}

theorem bracket_not_mem_anchor (h : '[' ∉ pattern.toList) :
    '[' ∉ anchor (unescapeComments pattern.toList) := by
  rw [anchor_eq, List.mem_append, not_or, unescapeComments, mem_unescape (by decide),
    mem_unescape (by decide)]
  exact ⟨(isPiece_lead _).bare.2, h⟩

theorem count_closing_anchor :
    (anchor (unescapeComments pattern.toList)).count '}' = pattern.toList.count '}' := by
  have hlead : ∀ s, (lead s).count '}' = 0 := by
    intro s
    unfold lead
    split
    · split <;> rfl
    · rfl
  rw [anchor_eq, List.count_append, hlead, Nat.zero_add, unescapeComments,
    count_unescape (by decide), count_unescape (by decide)]

theorem isWellFormed_wholeScan (h : '[' ∉ pattern.toList) :
    (wholeScan dir pattern).IsWellFormed :=
  (isWellFormed_scan (bracket_not_mem_anchor h)).after_charTokens _

theorem isSimple_of_mem_wholeScan (h : '[' ∉ pattern.toList) :
    ∀ t ∈ (wholeScan dir pattern).tokens, t.IsSimple :=
  List.forall_mem_append.mpr ⟨fun _ ht => (of_mem_charTokens ht).2.1,
    isSimple_of_mem_scanFrom (bracket_not_mem_anchor h) _ 0 0⟩

theorem count_closing_wholeScan_le :
    (wholeScan dir pattern).tokens.count .closing ≤ pattern.toList.count '}' := by
  rw [wholeScan, Scan.after, List.count_append,
    count_closing_of_isPart fun t ht => (of_mem_charTokens ht).1, Nat.zero_add,
    ← count_closing_anchor]
  exact count_closing_scanFrom_le _ 0 0 _

/-- A glob that is short enough is compiled from its tokens. -/
theorem matcher_compile (hlength : pattern.length ≤ maxLength) {e : Expr}
    (he : Expr.ofTokens? (wholeScan dir pattern).tokens = some e) :
    (compile dir pattern).matcher =
      if e.nesting ≤ Expr.maxNesting then .ok ⟨e, (wholeScan dir pattern).ranges⟩
      else .error (.malformed (String.ofList (unescapeComments pattern.toList))) := by
  have hmatcher : matcher? (directoryText dir) (unescapeComments pattern.toList) =
      if e.nesting ≤ Expr.maxNesting then some ⟨e, (wholeScan dir pattern).ranges⟩ else none := by
    have hparts : Expr.ofTokens? ((directoryText dir).map (Token.atom ∘ Atom.char) ++
        (scan (anchor (unescapeComments pattern.toList))).tokens) = some e := he
    simp only [matcher?, hparts]
    rfl
  rw [compile]
  dsimp only
  rw [if_neg (Nat.not_lt.mpr hlength), hmatcher]
  by_cases hnesting : e.nesting ≤ Expr.maxNesting
  · rw [if_pos hnesting, if_pos hnesting]
  · rw [if_neg hnesting, if_neg hnesting]

end

/-- **Braces cannot make a glob malformed.**  However they are nested, left open or crossed, the
tokens of a glob without an opening bracket close every alternation that they open and no other
one, and form an expression.  Its numbers, from left to right, are counted up with the ranges, so
that each range has one number, and each number its range.  The glob is then refused only if the
expression is nested too deeply; a glob with at most 81 closing braces never is, since each of them
adds no more than three levels. -/
theorem matcher_withoutBrackets (dir pattern : String) (hlength : pattern.length ≤ maxLength)
    (hbracket : '[' ∉ pattern.toList) :
    (wholeScan dir pattern).IsWellFormed ∧
    (∃ e : Expr, Expr.ofTokens? (wholeScan dir pattern).tokens = some e ∧
      e.indices = List.range (wholeScan dir pattern).ranges.length ∧
      (compile dir pattern).matcher =
        if e.nesting ≤ Expr.maxNesting then .ok ⟨e, (wholeScan dir pattern).ranges⟩
        else .error (.malformed (String.ofList (unescapeComments pattern.toList)))) ∧
    (pattern.toList.count '}' ≤ 81 → (compile dir pattern).isValid = true) := by
  have hwell : (wholeScan dir pattern).IsWellFormed := isWellFormed_wholeScan hbracket
  obtain ⟨e, he, hindices⟩ := exists_ofTokens? hwell
  have hmatcher := matcher_compile hlength he
  refine ⟨hwell, ⟨e, he, hindices, hmatcher⟩, fun hcount => ?_⟩
  have hdeep := nesting_le (isSimple_of_mem_wholeScan hbracket) he
  have hclosing : (wholeScan dir pattern).tokens.count .closing ≤ pattern.toList.count '}' :=
    count_closing_wholeScan_le
  have hnesting : e.nesting ≤ Expr.maxNesting := by
    -- The limit is `7 + 3 * 81`.
    rw [Expr.maxNesting]
    omega
  rw [isValid, defect?, hmatcher, if_pos hnesting]
  rfl

/-- Braces that open in a word, a closing one that is left over, an escaped one, and two ranges. -/
def crossedBraces : String :=
  "\x7ba,\x7bb\x7bc\x7dd\x7de\x7d\x7b1..3\x7d\\\x7d,\x7b-2..+4\x7d"

theorem matcher_withoutBrackets_crossed :
    (wholeScan "/p[/" crossedBraces).IsWellFormed ∧
    (wholeScan "/p[/" crossedBraces).ranges = [⟨1, 3⟩, ⟨-2, 4⟩] ∧
    (compile "/p[/" crossedBraces).isValid = true := by
  obtain ⟨hwell, -, hvalid⟩ := matcher_withoutBrackets "/p[/" crossedBraces (by decide) (by decide)
  exact ⟨hwell, by decide +kernel, hvalid (by decide)⟩

end EditorSettings.Glob
