/-
# Alternations among the tokens of a glob

An expression is built from tokens with a stack of frames, one for each alternation that is open.
Here the building is taken apart.  `Token.step` is what one token does to the frames, and
`readTokens` what several do, so that tokens can be read piece by piece (`readTokens_append`).

Tokens that close no alternation but their own do not look below the frame that they begin in, and
they do not look at that frame either.  All they do to it is to continue its branch by expressions
and to begin further branches (`Frame.grow`), and this can be said once for all frames: a `Growth`
is what tokens do, whatever the frame (`Growth.readTokens_frames`).

How many alternations are open after some tokens is counted by `levelAfter?`.  The tokens of a scan
never close more than they have opened, and outside of all alternations they have no bars
(`levelAfter?_scanFrom`).
-/
import EditorSettings.Glob.Expr

namespace EditorSettings.Glob

/-! ## 1. How many alternations are open -/

/-- The number of alternations that are open after the tokens, `depth` being open before.  There
is none if the tokens close one that they have not opened, nor if they divide the outermost level
into branches and `bars` are not allowed there. -/
def levelAfter? (bars : Bool) : Nat → List Token → Option Nat
  | depth, [] => some depth
  | depth, .opening :: ts => levelAfter? bars (depth + 1) ts
  | depth, .bar :: ts => if bars || 0 < depth then levelAfter? bars depth ts else none
  | depth, .closing :: ts => if 0 < depth then levelAfter? bars (depth - 1) ts else none
  | depth, .atom _ :: ts => levelAfter? bars depth ts
  | depth, .depths :: ts => levelAfter? bars depth ts
  | depth, .malformed :: ts => levelAfter? bars depth ts

/-- The token has nothing to do with alternations. -/
def Token.isPart : Token → Bool
  | .atom _ => true
  | .depths => true
  | .malformed => true
  | .opening => false
  | .bar => false
  | .closing => false

theorem levelAfter?_cons_of_isPart {t : Token} (h : t.isPart = true) (bars : Bool) (depth : Nat)
    (ts : List Token) : levelAfter? bars depth (t :: ts) = levelAfter? bars depth ts := by
  cases t with
  | atom a => rfl
  | depths => rfl
  | malformed => rfl
  | opening => cases h
  | bar => cases h
  | closing => cases h

theorem levelAfter?_append (bars : Bool) (depth : Nat) (ts us : List Token) :
    levelAfter? bars depth (ts ++ us) =
      (levelAfter? bars depth ts).bind (levelAfter? bars · us) := by
  fun_induction levelAfter? bars depth ts with
  | _ => simp_all [levelAfter?]

theorem levelAfter?_of_isPart (bars : Bool) (depth : Nat) {ts : List Token}
    (h : ∀ t ∈ ts, t.isPart = true) : levelAfter? bars depth ts = some depth := by
  induction ts with
  | nil => simp [levelAfter?]
  | cons t ts ih =>
    rw [levelAfter?_cons_of_isPart (h t List.mem_cons_self),
      ih fun u hu => h u (List.mem_cons_of_mem t hu)]

/-! ## 2. The tokens of a scan -/

theorem isPart_bracketed (negated : Bool) (s : List Char) :
    (bracketed negated s).1.isPart = true := by
  unfold bracketed
  split
  · rfl
  · split <;> rfl

theorem isPart_item (c : Char) (rest : List Char) : (item c rest).1.isPart = true := by
  unfold item
  split
  case h_6 rest =>
    split
    · rfl
    · split <;> exact isPart_bracketed _ _
  all_goals rfl

theorem isPart_of_mem_plain {s : List Char} : ∀ t ∈ plain s, t.isPart = true := by
  fun_induction plain s with
  | case1 => simp
  | case2 c rest ih =>
    intro t ht
    rcases List.mem_cons.mp ht with rfl | ht
    · exact isPart_item c rest
    · exact ih t ht

theorem isPart_of_mem_word {w : List Char} :
    ∀ t ∈ Token.atom (.char '{') :: plain w ++ [.atom (.char '}')], t.isPart = true := by
  intro t ht
  rcases List.mem_append.mp ht with ht | ht
  · rcases List.mem_cons.mp ht with rfl | ht
    · rfl
    · exact isPart_of_mem_plain t ht
  · rw [List.mem_singleton.mp ht]
    rfl

/-- **A scan keeps count of the alternations that are open.**  It closes none that it has not
opened, and it has bars only within one. -/
theorem levelAfter?_scanFrom (braces : Bool) (depth numbers : Nat) (s : List Char) :
    (levelAfter? false depth (scanFrom braces depth numbers s).tokens).isSome = true := by
  fun_induction scanFrom braces depth numbers s with
  | case1 depth numbers => rfl
  | case2 depth numbers rest w after hword range hrange more ih => exact ih
  | case3 depth numbers rest w after hword hrange ih =>
    rw [Scan.after, levelAfter?_append, levelAfter?_of_isPart false depth isPart_of_mem_word]
    exact ih
  | case4 depth numbers rest hword hbraces ih => exact ih
  | case5 depth numbers rest hword hbraces ih => exact ih
  | case6 depth numbers c rest hopen hbar ih =>
    have hdepth : (false || decide (0 < depth)) = true := by simp [hbar.2]
    change (if _ then _ else _ : Option Nat).isSome = true
    rw [if_pos hdepth]
    exact ih
  | case7 depth numbers c rest hopen hbar hclose ih =>
    change (if _ then _ else _ : Option Nat).isSome = true
    rw [if_pos hclose.2]
    exact ih
  | case8 depth numbers c rest hopen hbar hclose ih =>
    change (levelAfter? false depth ((item c rest).1 :: _)).isSome = true
    rw [levelAfter?_cons_of_isPart (isPart_item c rest)]
    exact ih

/-! ## 3. Reading tokens with frames -/

/-- What a token does to the alternations that are open, the innermost one first. -/
def Token.step : Token → List Frame → Option (List Frame)
  | .atom a, f :: outer => some (f.push (.atom a) :: outer)
  | .depths, f :: outer => some (f.push Expr.depths :: outer)
  | .opening, fs => some ({} :: fs)
  | .bar, f :: outer => some (f.next :: outer)
  | .closing, f :: g :: outer => some (g.push (.group f.toExpr) :: outer)
  | _, _ => none

/-- What tokens do to the alternations that are open. -/
def readTokens : List Token → List Frame → Option (List Frame)
  | [], fs => some fs
  | t :: ts, fs => (t.step fs).bind (readTokens ts)

/-- The expression of the outermost frame, if no alternation is open. -/
def outermost? : List Frame → Option Expr
  | [f] => some f.toExpr
  | _ => none

theorem readTokens_append (ts us : List Token) (fs : List Frame) :
    readTokens (ts ++ us) fs = (readTokens ts fs).bind (readTokens us) := by
  induction ts generalizing fs with
  | nil => rfl
  | cons t ts ih =>
    rw [List.cons_append, readTokens, readTokens, Option.bind_assoc]
    exact congrArg (Option.bind _) (funext ih)

/-- **Building an expression is reading its tokens**, with one frame at first and at last. -/
theorem ofTokensIn?_eq_readTokens (outer : List Frame) (top : Frame) (ts : List Token) :
    Expr.ofTokensIn? outer top ts = (readTokens ts (top :: outer)).bind outermost? := by
  fun_induction Expr.ofTokensIn? outer top ts with
  | case1 outer top h =>
    cases outer with
    | nil => rfl
    | cons f outer => cases h
  | case2 outer top h =>
    cases outer with
    | nil => exact absurd rfl h
    | cons f outer => rfl
  | _ => simp_all [readTokens, Token.step]

/-! ## 4. Frames that grow -/

/-- Continue the branch of a frame by expressions, and begin the next branch where there is
none. -/
def Frame.grow (f : Frame) (parts : List (Option Expr)) : Frame :=
  parts.foldl (fun f part => part.elim f.next f.push) f

theorem Frame.grow_append (f : Frame) (a b : List (Option Expr)) :
    f.grow (a ++ b) = (f.grow a).grow b := List.foldl_append

/-- What tokens have done to a frame: the alternations that they have left open, the innermost one
first, and what the frame itself has grown by. -/
structure Growth where
  inner : List Frame := []
  parts : List (Option Expr) := []

namespace Growth

/-- All frames, where `f` is the one that has grown. -/
def frames (g : Growth) (f : Frame) (below : List Frame) : List Frame :=
  g.inner ++ f.grow g.parts :: below

/-- Continue the innermost branch. -/
def push (e : Expr) : Growth → Growth
  | ⟨[], parts⟩ => ⟨[], parts ++ [some e]⟩
  | ⟨k :: inner, parts⟩ => ⟨k.push e :: inner, parts⟩

/-- Begin the next branch of the innermost alternation. -/
def next : Growth → Growth
  | ⟨[], parts⟩ => ⟨[], parts ++ [none]⟩
  | ⟨k :: inner, parts⟩ => ⟨k.next :: inner, parts⟩

/-- One more token. -/
def step : Token → Growth → Option Growth
  | .atom a, g => some (g.push (.atom a))
  | .depths, g => some (g.push Expr.depths)
  | .opening, ⟨inner, parts⟩ => some ⟨{} :: inner, parts⟩
  | .bar, g => some g.next
  | .closing, ⟨k :: inner, parts⟩ => some (push (.group k.toExpr) ⟨inner, parts⟩)
  | .closing, ⟨[], _⟩ => none
  | .malformed, _ => none

/-- More tokens. -/
def read : List Token → Growth → Option Growth
  | [], g => some g
  | t :: ts, g => (g.step t).bind (read ts)

theorem frames_push (e : Expr) (g : Growth) (f : Frame) (below : List Frame) :
    ∃ k fs, g.frames f below = k :: fs ∧ (g.push e).frames f below = k.push e :: fs := by
  obtain ⟨inner, parts⟩ := g
  cases inner with
  | nil =>
    refine ⟨f.grow parts, below, rfl, ?_⟩
    simp only [push, frames, Frame.grow_append]
    rfl
  | cons k inner => exact ⟨k, inner ++ f.grow parts :: below, rfl, rfl⟩

theorem frames_next (g : Growth) (f : Frame) (below : List Frame) :
    ∃ k fs, g.frames f below = k :: fs ∧ g.next.frames f below = k.next :: fs := by
  obtain ⟨inner, parts⟩ := g
  cases inner with
  | nil =>
    refine ⟨f.grow parts, below, rfl, ?_⟩
    simp only [next, frames, Frame.grow_append]
    rfl
  | cons k inner => exact ⟨k, inner ++ f.grow parts :: below, rfl, rfl⟩

theorem length_inner_push (e : Expr) (g : Growth) : (g.push e).inner.length = g.inner.length := by
  obtain ⟨_ | ⟨k, inner⟩, parts⟩ := g <;> rfl

theorem length_inner_next (g : Growth) : g.next.inner.length = g.inner.length := by
  obtain ⟨_ | ⟨k, inner⟩, parts⟩ := g <;> rfl

/-- **A token does the same to all frames**, unless it closes the alternation that the frame is. -/
theorem step_frames {t : Token} {g : Growth} (h : t = .closing → g.inner ≠ []) (f : Frame)
    (below : List Frame) :
    t.step (g.frames f below) = (g.step t).map (·.frames f below) := by
  cases t with
  | atom a =>
    obtain ⟨k, fs, hfs, hpush⟩ := frames_push (.atom a) g f below
    rw [hfs, step, Option.map_some, hpush, Token.step]
  | depths =>
    obtain ⟨k, fs, hfs, hpush⟩ := frames_push Expr.depths g f below
    rw [hfs, step, Option.map_some, hpush, Token.step]
  | malformed => rfl
  | opening => rfl
  | bar =>
    obtain ⟨k, fs, hfs, hnext⟩ := frames_next g f below
    rw [hfs, step, Option.map_some, hnext, Token.step]
  | closing =>
    obtain ⟨_ | ⟨k, inner⟩, parts⟩ := g
    · exact absurd rfl (h rfl)
    · obtain ⟨k', fs, hfs, hpush⟩ := frames_push (.group k.toExpr) ⟨inner, parts⟩ f below
      have hframes : frames ⟨k :: inner, parts⟩ f below = k :: k' :: fs :=
        congrArg (List.cons k) hfs
      rw [hframes, step, Option.map_some, hpush, Token.step]

/-- As many alternations are open as the level says. -/
theorem levelAfter?_step {bars : Bool} {t : Token} {ts : List Token} {g g' : Growth} {n : Nat}
    (hstep : g.step t = some g') (h : levelAfter? bars g.inner.length (t :: ts) = some n) :
    levelAfter? bars g'.inner.length ts = some n := by
  cases t with
  | atom a =>
    cases hstep
    rw [length_inner_push]
    exact h
  | depths =>
    cases hstep
    rw [length_inner_push]
    exact h
  | malformed => cases hstep
  | opening =>
    cases hstep
    exact h
  | bar =>
    cases hstep
    rw [length_inner_next]
    rw [levelAfter?] at h
    split at h
    · exact h
    · cases h
  | closing =>
    obtain ⟨_ | ⟨k, inner⟩, parts⟩ := g
    · cases hstep
    · cases hstep
      rw [length_inner_push]
      exact h

/-- Without bars at the outermost level, the frame itself keeps to one branch. -/
theorem none_not_mem_step {t : Token} {ts : List Token} {g g' : Growth} {n : Nat}
    (hstep : g.step t = some g') (h : levelAfter? false g.inner.length (t :: ts) = some n)
    (hg : none ∉ g.parts) : none ∉ g'.parts := by
  have hpush : ∀ (e : Expr) (g : Growth), none ∉ g.parts → none ∉ (g.push e).parts := by
    rintro e ⟨_ | ⟨k, inner⟩, parts⟩ hparts
    · simpa [push] using hparts
    · exact hparts
  cases t with
  | atom a =>
    cases hstep
    exact hpush _ g hg
  | depths =>
    cases hstep
    exact hpush _ g hg
  | malformed => cases hstep
  | opening =>
    cases hstep
    exact hg
  | bar =>
    cases hstep
    obtain ⟨_ | ⟨k, inner⟩, parts⟩ := g
    · cases h
    · exact hg
  | closing =>
    obtain ⟨_ | ⟨k, inner⟩, parts⟩ := g
    · cases hstep
    · cases hstep
      exact hpush _ ⟨inner, parts⟩ hg

/-- **Tokens do the same to all frames**, unless they close the alternation that the frame is. -/
theorem readTokens_frames {bars : Bool} {n : Nat} (f : Frame) (below : List Frame) :
    ∀ {ts : List Token} {g : Growth}, levelAfter? bars g.inner.length ts = some n →
      readTokens ts (g.frames f below) = (g.read ts).map (·.frames f below)
  | [], _, _ => rfl
  | t :: ts, g, h => by
    have hclosing : t = .closing → g.inner ≠ [] := by
      rintro rfl hg
      rw [hg] at h
      cases h
    rw [readTokens, step_frames hclosing, read]
    cases hstep : g.step t with
    | none => rfl
    | some g' => exact readTokens_frames f below (levelAfter?_step hstep h)

theorem length_inner_read {bars : Bool} {n : Nat} :
    ∀ {ts : List Token} {g g' : Growth}, g.read ts = some g' →
      levelAfter? bars g.inner.length ts = some n → g'.inner.length = n
  | [], _, _, hread, h => by
    cases hread
    exact Option.some.inj h
  | _ :: _, _, _, hread, h => by
    obtain ⟨g₁, hstep, hread⟩ := Option.bind_eq_some_iff.mp hread
    exact length_inner_read hread (levelAfter?_step hstep h)

theorem none_not_mem_read {n : Nat} :
    ∀ {ts : List Token} {g g' : Growth}, g.read ts = some g' →
      levelAfter? false g.inner.length ts = some n → none ∉ g.parts → none ∉ g'.parts
  | [], _, _, hread, _, hg => by
    cases hread
    exact hg
  | _ :: _, _, _, hread, h, hg => by
    obtain ⟨g₁, hstep, hread⟩ := Option.bind_eq_some_iff.mp hread
    exact none_not_mem_read hread (levelAfter?_step hstep h) (none_not_mem_step hstep h hg)

end Growth

/-! ## 5. One branch -/

/-- The parts of a frame that keeps to one branch are expressions. -/
theorem exists_eq_map_some :
    ∀ {parts : List (Option Expr)}, none ∉ parts → ∃ xs : List Expr, parts = xs.map some
  | [], _ => ⟨[], rfl⟩
  | none :: _, h => absurd List.mem_cons_self h
  | some x :: _, h => by
    obtain ⟨xs, rfl⟩ := exists_eq_map_some fun hmem => h (List.mem_cons_of_mem _ hmem)
    exact ⟨x :: xs, rfl⟩

/-- The expression with others behind it, one after the other. -/
def Expr.followedBy (e : Expr) (xs : List Expr) : Expr := xs.foldl .seq e

theorem grow_map_some (f : Frame) (xs : List Expr) :
    f.grow (xs.map some) = ⟨f.done, f.current.followedBy xs⟩ := by
  induction xs generalizing f with
  | nil => rfl
  | cons x xs ih => exact ih (f.push x)

/-- **Tokens without bars of their own continue a sequence**, and they continue every sequence in
the same way. -/
theorem exists_ofTokensIn?_eq_followedBy {n : Nat} {ts : List Token}
    (h : levelAfter? false 0 ts = some n) :
    ∃ read : Option (List Expr), ∀ e : Expr,
      Expr.ofTokensIn? [] ⟨none, e⟩ ts = read.map e.followedBy := by
  have hrun : ∀ e : Expr, Expr.ofTokensIn? [] ⟨none, e⟩ ts =
      ((Growth.read ts {}).map (·.frames ⟨none, e⟩ [])).bind outermost? := by
    intro e
    rw [ofTokensIn?_eq_readTokens, ← Growth.readTokens_frames (g := {}) ⟨none, e⟩ [] h]
    rfl
  cases hread : Growth.read ts {} with
  | none => exact ⟨none, fun e => by rw [hrun, hread]; rfl⟩
  | some g =>
    obtain ⟨inner, parts⟩ := g
    have hparts : none ∉ parts := Growth.none_not_mem_read hread h List.not_mem_nil
    obtain ⟨xs, rfl⟩ := exists_eq_map_some hparts
    cases inner with
    | nil =>
      refine ⟨some xs, fun e => ?_⟩
      rw [hrun, hread]
      exact congrArg (fun f => some (Frame.toExpr f)) (grow_map_some ⟨none, e⟩ xs)
    | cons k inner =>
      -- an alternation is left open
      refine ⟨none, fun e => ?_⟩
      rw [hrun, hread]
      cases inner <;> rfl

end EditorSettings.Glob
