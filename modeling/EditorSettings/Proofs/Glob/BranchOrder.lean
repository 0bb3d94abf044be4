/-
# The order of branches

Of two branches of an alternation either may come first, as long as the scan does not lose count of
the braces in them (`alternation_comm`).  It does where a word contains braces, and then the order
matters (`alternation_not_comm`): the first brace that closes ends the word, the next one ends the
alternation, and what follows it is text.

Two expressions are `Alike` if they have one language and one nesting; that is all that a matcher
without ranges knows of them.  The branches of an alternation in the other order are alike
(`alternation_alike`), and expressions that are alike remain so when a sequence goes on.
-/
import EditorSettings.Proofs.Glob.Directory
import EditorSettings.Proofs.Glob.Piece

namespace EditorSettings.Glob

/-! ## 1. Expressions that are alike -/

/-- The expressions match the same texts and are nested as deeply. -/
structure Expr.Alike (d e : Expr) : Prop where
  language : d.language = e.language
  innerNesting : d.innerNesting = e.innerNesting

namespace Expr.Alike

theorem seq {d e : Expr} (h : d.Alike e) (c : Expr) : (Expr.seq c d).Alike (.seq c e) := by
  refine ⟨?_, ?_⟩
  · rw [Expr.language, h.language, Expr.language]
  · rw [Expr.innerNesting, h.innerNesting, Expr.innerNesting]

theorem followedBy {d e : Expr} (h : d.Alike e) (xs : List Expr) :
    (d.followedBy xs).Alike (e.followedBy xs) := by
  refine ⟨?_, innerNesting_followedBy_congr h.innerNesting xs⟩
  rw [language_followedBy, language_followedBy, h.language]

/-- Tokens continue sequences that are alike in the same way. -/
theorem ofTokensIn? {d e : Expr} (h : d.Alike e) {ts : List Token} {n : Nat}
    (hts : levelAfter? false 0 ts = some n) :
    Option.Rel Alike (Expr.ofTokensIn? [] ⟨none, d⟩ ts) (Expr.ofTokensIn? [] ⟨none, e⟩ ts) := by
  obtain ⟨read, hread⟩ := exists_ofTokensIn?_eq_followedBy hts
  rw [hread, hread]
  cases read with
  | none => exact Option.Rel.none
  | some xs => exact Option.Rel.some (h.followedBy xs)

end Expr.Alike

/-! ## 2. The branches of an alternation -/

/-- An alternation whose branches come from two texts with a comma between them. -/
def alternation (first second : List (Option Expr)) : Expr :=
  .group ((({} : Frame).grow first).next.grow second).toExpr

/-- What is counted of the branches of a frame, branch by branch, does not depend on where the
frame has been taken up. -/
theorem toExpr_grow {α : Type} (op : α → α → α) [Std.Associative op] {count : Expr → α}
    (hcount : ∀ d e, count (.either d e) = op (count d) (count e))
    (parts : List (Option Expr)) (d e : Expr) :
    count ((⟨some d, e⟩ : Frame).grow parts).toExpr =
      op (count d) (count ((⟨none, e⟩ : Frame).grow parts).toExpr) := by
  induction parts generalizing d e with
  | nil => exact hcount d e
  | cons part parts ih =>
    cases part with
    | some x => exact ih d (.seq e x)
    | none =>
      have hleft : count ((⟨some d, e⟩ : Frame).grow (none :: parts)).toExpr =
          op (op (count d) (count e)) (count (({} : Frame).grow parts).toExpr) := by
        rw [← hcount]
        exact ih (.either d e) .empty
      have hright : count ((⟨none, e⟩ : Frame).grow (none :: parts)).toExpr =
          op (count e) (count (({} : Frame).grow parts).toExpr) := ih e .empty
      rw [hleft, hright]
      exact Std.Associative.assoc _ _ _

theorem toExpr_alternation {α : Type} (op : α → α → α) [Std.Associative op] {count : Expr → α}
    (hcount : ∀ d e, count (.either d e) = op (count d) (count e))
    (a b : List (Option Expr)) :
    count ((({} : Frame).grow a).next.grow b).toExpr =
      op (count (({} : Frame).grow a).toExpr) (count (({} : Frame).grow b).toExpr) :=
  toExpr_grow op hcount b _ .empty

theorem branchLevel_grow (parts : List (Option Expr)) (d e : Expr) :
    ((⟨some d, e⟩ : Frame).grow parts).toExpr.branchLevel = 1 := by
  induction parts generalizing d e with
  | nil => rfl
  | cons part parts ih =>
    cases part with
    | some x => exact ih d (.seq e x)
    | none => exact ih (.either d e) .empty

theorem innerNesting_alternation (a b : List (Option Expr)) :
    (alternation a b).innerNesting =
      2 + max
        ((({} : Frame).grow a).toExpr.innerNesting + (({} : Frame).grow a).toExpr.sequenceLevel)
        ((({} : Frame).grow b).toExpr.innerNesting +
          (({} : Frame).grow b).toExpr.sequenceLevel) := by
  have hcount : ∀ d e : Expr, (Expr.either d e).innerNesting + (Expr.either d e).sequenceLevel =
      max (d.innerNesting + d.sequenceLevel) (e.innerNesting + e.sequenceLevel) := fun d e => rfl
  have hlevel : ((({} : Frame).grow a).next.grow b).toExpr.branchLevel = 1 :=
    branchLevel_grow b _ .empty
  rw [alternation, Expr.innerNesting, hlevel, Nat.add_assoc (1 + 1)]
  exact congrArg (2 + ·)
    (@toExpr_alternation _ max _ (fun e => e.innerNesting + e.sequenceLevel) hcount a b)

/-- **The branches of an alternation may come in either order.** -/
theorem alternation_alike (a b : List (Option Expr)) :
    (alternation a b).Alike (alternation b a) := by
  refine ⟨?_, ?_⟩
  · have hcount : ∀ d e : Expr, (Expr.either d e).language = d.language + e.language :=
      fun d e => rfl
    rw [alternation, alternation, Expr.language, Expr.language,
      toExpr_alternation (· + ·) hcount, toExpr_alternation (· + ·) hcount]
    exact add_comm _ _
  · rw [innerNesting_alternation, innerNesting_alternation, max_comm]

/-! ## 3. The tokens of an alternation -/

/-- What tokens add to the frame that they begin in. -/
def parts? (ts : List Token) : Option (List (Option Expr)) := (Growth.read ts {}).map (·.parts)

/-- Tokens that close what they open come back to the frame that they began in. -/
theorem readTokens_closed {bars : Bool} {ts : List Token} (h : levelAfter? bars 0 ts = some 0)
    (f : Frame) (below : List Frame) :
    readTokens ts (f :: below) = (parts? ts).map (f.grow · :: below) := by
  have hframes : readTokens ts (f :: below) = (Growth.read ts {}).map (·.frames f below) :=
    Growth.readTokens_frames (g := {}) f below h
  rw [hframes, parts?, Option.map_map]
  cases hread : Growth.read ts {} with
  | none => rfl
  | some g =>
    have hinner : g.inner = [] := List.length_eq_zero_iff.mp (Growth.length_inner_read hread h)
    simp [Growth.frames, hinner]

/-- Tokens around those of an alternation with two parts. -/
def aroundAlternation (before first second after : List Token) : List Token :=
  before ++ .opening :: (first ++ .bar :: (second ++ .closing :: after))

section

variable {before first second after : List Token}

/-- **An alternation is read part by part.** -/
theorem readTokens_aroundAlternation (hbefore : levelAfter? false 0 before = some 0)
    (hfirst : levelAfter? true 0 first = some 0) (hsecond : levelAfter? true 0 second = some 0)
    (f : Frame) :
    readTokens (aroundAlternation before first second after) [f] =
      (parts? before).bind fun p => (parts? first).bind fun a => (parts? second).bind fun b =>
        readTokens after [(f.grow p).push (alternation a b)] := by
  rw [aroundAlternation, readTokens_append, readTokens_closed hbefore, Option.bind_map]
  refine congrArg (Option.bind _) (funext fun p => ?_)
  rw [Function.comp_apply, readTokens, Token.step, Option.bind_some, readTokens_append,
    readTokens_closed hfirst, Option.bind_map]
  refine congrArg (Option.bind _) (funext fun a => ?_)
  rw [Function.comp_apply, readTokens, Token.step, Option.bind_some, readTokens_append,
    readTokens_closed hsecond, Option.bind_map]
  rfl

/-- Tokens without bars of their own add expressions to the frame, and no branches. -/
theorem none_not_mem_parts? {ts : List Token} (h : levelAfter? false 0 ts = some 0)
    {parts : List (Option Expr)} (hparts : parts? ts = some parts) : none ∉ parts := by
  obtain ⟨g, hread, rfl⟩ := Option.map_eq_some_iff.mp hparts
  exact Growth.none_not_mem_read hread h List.not_mem_nil

/-- **The two parts of an alternation may come in either order.** -/
theorem ofTokensIn?_aroundAlternation {n : Nat} (hbefore : levelAfter? false 0 before = some 0)
    (hfirst : levelAfter? true 0 first = some 0) (hsecond : levelAfter? true 0 second = some 0)
    (hafter : levelAfter? false 0 after = some n) (e : Expr) :
    Option.Rel Expr.Alike
      (Expr.ofTokensIn? [] ⟨none, e⟩ (aroundAlternation before first second after))
      (Expr.ofTokensIn? [] ⟨none, e⟩ (aroundAlternation before second first after)) := by
  rw [ofTokensIn?_eq_readTokens, ofTokensIn?_eq_readTokens,
    readTokens_aroundAlternation hbefore hfirst hsecond,
    readTokens_aroundAlternation hbefore hsecond hfirst]
  cases hparts : parts? before with
  | none => exact Option.Rel.none
  | some p =>
    obtain ⟨xs, rfl⟩ := exists_eq_map_some (none_not_mem_parts? hbefore hparts)
    cases parts? first with
    | none =>
      cases parts? second with
      | none => exact Option.Rel.none
      | some b => exact Option.Rel.none
    | some a =>
      cases parts? second with
      | none => exact Option.Rel.none
      | some b =>
        have halike := ((alternation_alike a b).seq (e.followedBy xs)).ofTokensIn? hafter
        rw [ofTokensIn?_eq_readTokens, ofTokensIn?_eq_readTokens] at halike
        simp only [Option.bind_some, grow_map_some]
        exact halike

end

/-! ## 4. The text of an alternation -/

/-- Texts around an alternation with two parts. -/
def alternationText (pre s₁ s₂ post : List Char) : List Char :=
  pre ++ '{' :: (s₁ ++ ',' :: (s₂ ++ '}' :: post))

/-- The brace of an alternation begins no word, if its first part is sheltered. -/
theorem word?_alternation {s : List Char} (hs : IsPiece s) (hsheltered : Sheltered ('{' :: s))
    {rest : List Char} (hrest : '\\' ∉ rest) : word? (s ++ ',' :: rest) = none := by
  by_contra hword
  obtain ⟨⟨w, after⟩, hword⟩ := Option.ne_none_iff_exists'.mp hword
  have hback : '\\' ∉ s ++ ',' :: rest := by simp [hs.bare.1, hrest]
  obtain ⟨hsplit, hcomma, hclose⟩ := eq_of_word? hback hword
  rcases List.append_eq_append_iff.mp hsplit with ⟨u, hw, hu⟩ | ⟨u, hu, hafter⟩
  · -- the word goes beyond the comma
    cases u with
    | nil => cases hu
    | cons c u =>
      obtain ⟨rfl, -⟩ := List.cons.inj hu
      exact hcomma (by simp [hw])
  · -- the word ends before the comma
    cases u with
    | nil => cases hafter
    | cons c u =>
      obtain ⟨rfl, -⟩ := List.cons.inj hafter
      have hopen : '{' ∉ w := hsheltered w u (by rw [hu]) hcomma hclose
      have hbalanced := hs.balanced
      have hw : '\\' ∉ w := fun hmem => hs.bare.1 (by simp [hu, hmem])
      rw [hu, balanced_word hw hclose, List.count_eq_zero_of_not_mem hopen] at hbalanced
      cases hbalanced

/-- A sheltered part of an alternation is scanned within it. -/
theorem scanFrom_part {s rest : List Char} (hs : IsPiece s) (hsheltered : Sheltered s)
    (hrest : GoesOn rest) (numbers : Nat) :
    scanFrom true 1 numbers (s ++ rest) = (scanFrom true 1 numbers s).append
      (scanFrom true 1 (numbers + (scanFrom true 1 numbers s).ranges.length) rest) :=
  scanFrom_append hs.bare hs.balanced hrest
    (levelAfter?_succ (levelAfter?_sheltered hs.bare hsheltered hs.balanced numbers))

section

variable {pre s₁ s₂ post : List Char}

/-- An alternation with two parts, between two texts, where nothing is mistaken for a word. -/
structure IsAlternation (pre s₁ s₂ post : List Char) : Prop where
  pre : IsPiece pre
  first : IsPiece s₁
  second : IsPiece s₂
  post : IsPiece post
  shelteredFirst : Sheltered ('{' :: s₁)
  shelteredSecond : Sheltered ('{' :: s₂)

theorem IsAlternation.swap (h : IsAlternation pre s₁ s₂ post) : IsAlternation pre s₂ s₁ post :=
  ⟨h.pre, h.second, h.first, h.post, h.shelteredSecond, h.shelteredFirst⟩

theorem IsAlternation.behind {t : List Char} (ht : IsPiece t) (h : IsAlternation pre s₁ s₂ post) :
    IsAlternation (t ++ pre) s₁ s₂ post :=
  ⟨ht.append h.pre, h.first, h.second, h.post, h.shelteredFirst, h.shelteredSecond⟩

theorem IsAlternation.isPiece (h : IsAlternation pre s₁ s₂ post) :
    IsPiece (alternationText pre s₁ s₂ post) := by
  have hbare : IsBare ('{' :: (s₁ ++ ',' :: (s₂ ++ '}' :: post))) := by
    simp [IsBare, h.first.bare.1, h.first.bare.2, h.second.bare.1, h.second.bare.2,
      h.post.bare.1, h.post.bare.2]
  refine h.pre.append ⟨hbare, ?_⟩
  have hfirst := balanced_append h.first.bare.1 h.first.balanced 1 (',' :: (s₂ ++ '}' :: post))
  have hsecond := balanced_append h.second.bare.1 h.second.balanced 1 ('}' :: post)
  rw [Nat.zero_add] at hfirst hsecond
  rw [balanced, hfirst, balanced_cons_of_ne (by decide), hsecond]
  exact h.post.balanced

/-- **An alternation is scanned part by part.** -/
theorem scanFrom_alternationText (h : IsAlternation pre s₁ s₂ post) :
    ∃ n₁ n₂ n₃ : Nat, n₁ = (scanFrom true 0 0 pre).ranges.length ∧
      n₂ = n₁ + (scanFrom true 1 n₁ s₁).ranges.length ∧
      n₃ = n₂ + (scanFrom true 1 n₂ s₂).ranges.length ∧
      scanFrom true 0 0 (alternationText pre s₁ s₂ post) =
        ⟨aroundAlternation (scanFrom true 0 0 pre).tokens (scanFrom true 1 n₁ s₁).tokens
            (scanFrom true 1 n₂ s₂).tokens (scanFrom true 0 n₃ post).tokens,
          (scanFrom true 0 0 pre).ranges ++ ((scanFrom true 1 n₁ s₁).ranges ++
            ((scanFrom true 1 n₂ s₂).ranges ++ (scanFrom true 0 n₃ post).ranges))⟩ := by
  have hsuffix : ∀ s : List Char, s <:+ '{' :: s := fun s => List.suffix_cons _ s
  have hrest : '\\' ∉ s₂ ++ '}' :: post := by simp [h.second.bare.1, h.post.bare.1]
  refine ⟨_, _, _, rfl, rfl, rfl, ?_⟩
  rw [alternationText, scanFrom_outside h.pre (goesOn_cons (by decide) _), Nat.zero_add,
    scanFrom_opening (word?_alternation h.first h.shelteredFirst hrest), Nat.zero_add,
    scanFrom_part h.first (h.shelteredFirst.of_suffix (hsuffix s₁)) (goesOn_cons (by decide) _),
    scanFrom_bar 0,
    scanFrom_part h.second (h.shelteredSecond.of_suffix (hsuffix s₂)) (goesOn_cons (by decide) _),
    scanFrom_closing]
  rfl

/-- No part of the alternation has ranges, nor has the text around it. -/
structure HasNoRanges (pre s₁ s₂ post : List Char) : Prop where
  pre : (scanFrom true 0 0 pre).ranges = []
  first : (scanFrom true 1 0 s₁).ranges = []
  second : (scanFrom true 1 0 s₂).ranges = []
  post : (scanFrom true 0 0 post).ranges = []

theorem HasNoRanges.swap (h : HasNoRanges pre s₁ s₂ post) : HasNoRanges pre s₂ s₁ post :=
  ⟨h.pre, h.second, h.first, h.post⟩

theorem scan_alternationText (h : IsAlternation pre s₁ s₂ post)
    (hranges : HasNoRanges pre s₁ s₂ post) :
    scan (alternationText pre s₁ s₂ post) =
      ⟨aroundAlternation (scanFrom true 0 0 pre).tokens (scanFrom true 1 0 s₁).tokens
        (scanFrom true 1 0 s₂).tokens (scanFrom true 0 0 post).tokens, []⟩ := by
  obtain ⟨n₁, n₂, n₃, h₁, h₂, h₃, hscan⟩ := scanFrom_alternationText h
  rw [hranges.pre, List.length_nil] at h₁
  subst h₁
  rw [hranges.first, List.length_nil] at h₂
  subst h₂
  rw [hranges.second, List.length_nil] at h₃
  subst h₃
  rw [scan, h.isPiece.balanced, hscan, hranges.pre, hranges.first, hranges.second, hranges.post]
  rfl

theorem hasNoRanges_of_scan (h : IsAlternation pre s₁ s₂ post)
    (hranges : (scan (alternationText pre s₁ s₂ post)).ranges = []) :
    HasNoRanges pre s₁ s₂ post := by
  obtain ⟨n₁, n₂, n₃, h₁, h₂, h₃, hscan⟩ := scanFrom_alternationText h
  rw [scan, h.isPiece.balanced, hscan] at hranges
  simp only [List.append_eq_nil_iff] at hranges
  obtain ⟨hpre, hfirst, hsecond, hpost⟩ := hranges
  rw [hpre, List.length_nil] at h₁
  subst h₁
  rw [hfirst, List.length_nil] at h₂
  subst h₂
  rw [hsecond, List.length_nil] at h₃
  subst h₃
  exact ⟨hpre, hfirst, hsecond, hpost⟩

/-- **Scanned in either order, the expressions are alike.** -/
theorem ofTokensIn?_alternationText (h : IsAlternation pre s₁ s₂ post)
    (hranges : HasNoRanges pre s₁ s₂ post) (e : Expr) :
    Option.Rel Expr.Alike
      (Expr.ofTokensIn? [] ⟨none, e⟩ (scan (alternationText pre s₁ s₂ post)).tokens)
      (Expr.ofTokensIn? [] ⟨none, e⟩ (scan (alternationText pre s₂ s₁ post)).tokens) := by
  have hsuffix : ∀ s : List Char, s <:+ '{' :: s := fun s => List.suffix_cons _ s
  rw [scan_alternationText h hranges, scan_alternationText h.swap hranges.swap]
  have hpre := levelAfter?_balanced h.pre.bare.2 h.pre.balanced le_rfl 0
  have hfirst := levelAfter?_sheltered h.first.bare (h.shelteredFirst.of_suffix (hsuffix s₁))
    h.first.balanced 0
  have hsecond := levelAfter?_sheltered h.second.bare (h.shelteredSecond.of_suffix (hsuffix s₂))
    h.second.balanced 0
  have hpost := levelAfter?_balanced h.post.bare.2 h.post.balanced le_rfl 0
  exact ofTokensIn?_aroundAlternation hpre hfirst hsecond hpost e

end

/-! ## 5. Globs with an alternation -/

theorem append_alternationText (t pre s₁ s₂ post : List Char) :
    t ++ alternationText pre s₁ s₂ post = alternationText (t ++ pre) s₁ s₂ post :=
  (List.append_assoc t pre _).symm

theorem lead_alternationText (pre s₁ s₂ post : List Char) :
    lead (alternationText pre s₁ s₂ post) = lead (alternationText pre s₂ s₁ post) := by
  have hslash : '/' ∈ alternationText pre s₁ s₂ post ↔ '/' ∈ alternationText pre s₂ s₁ post := by
    simp only [alternationText, List.mem_append, List.mem_cons]
    tauto
  have hhead : (alternationText pre s₁ s₂ post).head? = (alternationText pre s₂ s₁ post).head? := by
    cases pre with
    | nil => rfl
    | cons c pre => rfl
  simp only [lead, hslash, hhead]

/-- Without ranges, a matcher knows no more of its expression than the language. -/
theorem Expr.Alike.accepts {d e : Expr} (h : d.Alike e) (s : List Char) :
    (Matcher.mk d []).accepts s = (Matcher.mk e []).accepts s := by
  rw [Bool.eq_iff_iff, accepts_iff, accepts_iff, h.language]

/-- Expressions that are alike make the same of a glob without ranges. -/
theorem matcher?_alike {dir s t : List Char} (hs : (scan (anchor s)).ranges = [])
    (ht : (scan (anchor t)).ranges = [])
    (halike : Option.Rel Expr.Alike
      (Expr.ofTokensIn? [] ⟨none, directoryExpr dir⟩ (scan (anchor s)).tokens)
      (Expr.ofTokensIn? [] ⟨none, directoryExpr dir⟩ (scan (anchor t)).tokens)) :
    Option.Rel (fun m n => ∀ u, m.accepts u = n.accepts u) (matcher? dir s) (matcher? dir t) := by
  have hdir : ∀ ts, Expr.ofTokens? (dir.map (Token.atom ∘ Atom.char) ++ ts) =
      Expr.ofTokensIn? [] ⟨none, directoryExpr dir⟩ ts := fun ts => ofTokensIn?_directory ts dir {}
  simp only [matcher?, hdir, hs, ht]
  revert halike
  generalize Expr.ofTokensIn? [] ⟨none, directoryExpr dir⟩ (scan (anchor s)).tokens = first
  generalize Expr.ofTokensIn? [] ⟨none, directoryExpr dir⟩ (scan (anchor t)).tokens = second
  intro halike
  cases halike with
  | none => exact Option.Rel.none
  | @some d e h =>
    have hnesting : d.nesting = e.nesting := congrArg (1 + ·) h.innerNesting
    simp only [hnesting]
    split
    · exact Option.Rel.some h.accepts
    · exact Option.Rel.none

theorem matcher?_alternationText (dir : List Char) {pre s₁ s₂ post : List Char}
    (h : IsAlternation pre s₁ s₂ post)
    (hranges : (scan (anchor (alternationText pre s₁ s₂ post))).ranges = []) :
    Option.Rel (fun m n => ∀ u, m.accepts u = n.accepts u)
      (matcher? dir (alternationText pre s₁ s₂ post))
      (matcher? dir (alternationText pre s₂ s₁ post)) := by
  have hanchor : anchor (alternationText pre s₁ s₂ post) =
      alternationText (lead (alternationText pre s₁ s₂ post) ++ pre) s₁ s₂ post := by
    rw [anchor_eq, append_alternationText]
  have hanchor' : anchor (alternationText pre s₂ s₁ post) =
      alternationText (lead (alternationText pre s₁ s₂ post) ++ pre) s₂ s₁ post := by
    rw [anchor_eq, append_alternationText, lead_alternationText]
  have hbehind := h.behind (isPiece_lead (alternationText pre s₁ s₂ post))
  rw [hanchor] at hranges
  have hno := hasNoRanges_of_scan hbehind hranges
  have hranges' := congrArg Scan.ranges (scan_alternationText hbehind.swap hno.swap)
  have halike := ofTokensIn?_alternationText hbehind hno (directoryExpr dir)
  rw [← hanchor] at hranges halike
  rw [← hanchor'] at hranges' halike
  exact matcher?_alike hranges hranges' halike

/-- **The branches of an alternation may come in either order.**  In a glob without ranges, two
parts of an alternation are exchanged.  If no word in them contains braces, the globs are both valid
or both invalid, and they match the same paths. -/
theorem alternation_comm (dir : String) {pre s₁ s₂ post : List Char}
    (h : IsAlternation pre s₁ s₂ post)
    (hranges : (scan (anchor (alternationText pre s₁ s₂ post))).ranges = []) :
    (compile dir (String.ofList (alternationText pre s₁ s₂ post))).isValid =
        (compile dir (String.ofList (alternationText pre s₂ s₁ post))).isValid ∧
      ∀ path, (compile dir (String.ofList (alternationText pre s₁ s₂ post))).matchesPath path =
        (compile dir (String.ofList (alternationText pre s₂ s₁ post))).matchesPath path := by
  have hmatcher := matcher?_alternationText (directoryText dir) h hranges
  have hlength : (alternationText pre s₂ s₁ post).length =
      (alternationText pre s₁ s₂ post).length := by
    simp only [alternationText, List.length_append, List.length_cons]
    omega
  simp only [isValid, defect?, matchesPath, compile, String.length_ofList, String.toList_ofList,
    unescapeComments_eq_self h.isPiece.bare.1, unescapeComments_eq_self h.swap.isPiece.bare.1,
    hlength]
  by_cases hlong : maxLength < (alternationText pre s₁ s₂ post).length
  · simp [hlong]
  · simp only [if_neg hlong]
    revert hmatcher
    generalize matcher? (directoryText dir) (alternationText pre s₁ s₂ post) = m
    generalize matcher? (directoryText dir) (alternationText pre s₂ s₁ post) = n
    intro hmatcher
    cases hmatcher with
    | none => simp
    | some haccepts =>
      refine ⟨rfl, fun path => ?_⟩
      exact haccepts path.toList

/-- A word and an alternation in the parts of an alternation, each behind a comma. -/
theorem alternation_comm_nested :
    IsAlternation "lib/".toList "a,\x7bb,c\x7d".toList "?,\x7bd\x7d*".toList ".rs".toList ∧
    ∀ path, (compile "/project" "lib/\x7ba,\x7bb,c\x7d,?,\x7bd\x7d*\x7d.rs").matchesPath path =
      (compile "/project" "lib/\x7b?,\x7bd\x7d*,a,\x7bb,c\x7d\x7d.rs").matchesPath path := by
  have h : IsAlternation "lib/".toList "a,\x7bb,c\x7d".toList "?,\x7bd\x7d*".toList
      ".rs".toList := by
    constructor
    all_goals decide +kernel
  exact ⟨h, (alternation_comm "/project" h (by decide +kernel)).2⟩

/-- **Where a word contains braces, the order matters.**  In the first glob the brace behind `a`
ends a word, and nothing is left of the alternation; in the second one the word ends there as well,
but the next brace ends the alternation. -/
theorem alternation_not_comm :
    IsPiece "/".toList ∧ IsPiece "\x7ba\x7d".toList ∧ IsPiece "b".toList ∧ IsPiece [] ∧
    (scan (anchor "/\x7b\x7ba\x7d,b\x7d".toList)).ranges = [] ∧
    (scan (anchor "/\x7bb,\x7ba\x7d\x7d".toList)).ranges = [] ∧
    (compile "/project" "/\x7b\x7ba\x7d,b\x7d").matchesPath "/project/b" = false ∧
    (compile "/project" "/\x7bb,\x7ba\x7d\x7d").matchesPath "/project/b" = true := by
  refine ⟨by decide, by decide, by decide, by decide, by decide +kernel, by decide +kernel,
    by decide +kernel, ?_⟩
  have hread : (matcher? "/project".toList "/\x7bb,\x7ba\x7d\x7d".toList).map
      (fun m => (m.expr, m.ranges)) =
        some (.seq (.seq (directoryExpr "/project".toList) (.atom (.char '/')))
          (.group (.either (.seq .empty (.atom (.char 'b')))
            (.seq (.seq (.seq .empty (.atom (.char '{'))) (.atom (.char 'a')))
              (.atom (.char '}'))))), []) := by
    decide +kernel
  obtain ⟨⟨e, ranges⟩, hmatcher, he⟩ := Option.map_eq_some_iff.mp hread
  cases he
  have hdirectory : "/project".toList ∈ (directoryExpr "/project".toList).language := by
    rw [language_directoryExpr]
    rfl
  have hslash : ['/'] ∈ (Expr.atom (.char '/')).language := ⟨'/', rfl, rfl⟩
  have hb : ['b'] ∈ (Expr.seq .empty (.atom (.char 'b'))).language :=
    Language.append_mem_mul Language.nil_mem_one ⟨'b', rfl, rfl⟩
  have hdir : directoryText "/project" = "/project".toList := by decide
  have hunescape : unescapeComments "/\x7bb,\x7ba\x7d\x7d".toList = "/\x7bb,\x7ba\x7d\x7d".toList :=
    unescapeComments_eq_self (by decide)
  have hlength : ¬ maxLength < "/\x7bb,\x7ba\x7d\x7d".length := by decide
  simp only [matchesPath, compile, if_neg hlength, hdir, hunescape, hmatcher]
  have hpath : "/project/b".toList = "/project".toList ++ ['/'] ++ ['b'] := by decide
  rw [hpath, accepts_iff]
  exact Language.append_mem_mul (Language.append_mem_mul hdirectory hslash) (Or.inl hb)

end EditorSettings.Glob
