/-
# Tokens of a glob

A glob is read from left to right.  Most characters stand for themselves, and a backslash makes
any character do so.  What has a meaning of its own is

* `?`, `*` and `**`: one character, a run of them, and anything at all (the first two stop at a
  slash);
* `/**/`: one slash, or two with anything between them;
* `[..]` and `[!..]`: a character in a set or not in it.  Brackets with a slash between them are
  plain characters;
* `{a,b,..}`: one of several alternatives.  Braces count only if they are balanced in the whole
  glob;
* `{word}`: a range of integers if the word is one, and otherwise the word with its braces.
  Inside such a word, braces and commas are plain.

`scan` gives the tokens and the ranges; the token of the `i`-th range is `number i`.
-/
import EditorSettings.Glob.CharSet
import EditorSettings.Glob.Range

namespace EditorSettings.Glob

/-! ## 1. Tokens -/

/-- The parts of a glob that match text. -/
inductive Atom
  | char (c : Char)
  | set (s : CharSet)
  /-- One character that is no slash. -/
  | one
  /-- Characters that are no slashes. -/
  | run
  /-- Any characters. -/
  | any
  /-- An integer, to be compared with a range. -/
  | number (index : Nat)
  deriving DecidableEq, Repr

/-- An atom or a mark of an alternation. -/
inductive Token
  | atom (a : Atom)
  /-- A slash, or two with any characters between them. -/
  | depths
  /-- Brackets that denote no set. -/
  | malformed
  | opening
  | bar
  | closing
  deriving DecidableEq, Repr

/-! ## 2. Items without braces -/

/-- A slash stands before the next closing bracket. -/
def crossesSlash (s : List Char) : Bool := (s.takeWhile (· != ']')).contains '/'

/-- The members up to the closing bracket, and the text after it. -/
def members? : List Char → Option (List Member × List Char)
  | [] => none
  | ']' :: rest => some ([], rest)
  | '-' :: rest => (members? rest).map fun (ms, after) => (.dash :: ms, after)
  | '\\' :: c :: rest => (members? rest).map fun (ms, after) => (.char c :: ms, after)
  | c :: rest => (members? rest).map fun (ms, after) => (.char c :: ms, after)

/-- The set whose opening bracket has been read, and the text after it. -/
def bracketed (negated : Bool) (s : List Char) : Token × List Char :=
  match members? s with
  | none => (.malformed, [])
  | some (ms, after) =>
    match CharSet.ofMembers? negated ms with
    | some set => (.atom (.set set), after)
    | none => (.malformed, after)

/-- The item that begins with `c`, and the text after it. -/
def item (c : Char) (rest : List Char) : Token × List Char :=
  match c, rest with
  | '\\', d :: rest => (.atom (.char d), rest)
  | '*', '*' :: rest => (.atom .any, rest)
  | '*', rest => (.atom .run, rest)
  | '?', rest => (.atom .one, rest)
  | '/', '*' :: '*' :: '/' :: rest => (.depths, rest)
  | '[', rest =>
    if crossesSlash rest then (.atom (.char '['), rest)
    else
      match rest with
      | '!' :: rest => bracketed true rest
      | '^' :: rest => bracketed true rest
      | rest => bracketed false rest
  | c, rest => (.atom (.char c), rest)

theorem length_members? {s after : List Char} {ms : List Member}
    (h : members? s = some (ms, after)) : after.length ≤ s.length := by
  fun_induction members? s generalizing ms
  case case1 => simp at h
  case case2 => simp_all
  all_goals
    rename_i ih
    obtain ⟨⟨_, _⟩, h1, h2⟩ := Option.map_eq_some_iff.1 h
    obtain ⟨-, rfl⟩ := Prod.mk.inj h2
    have := ih h1
    simp only [List.length_cons]
    omega

theorem length_bracketed (negated : Bool) (s : List Char) :
    (bracketed negated s).2.length ≤ s.length := by
  unfold bracketed
  split
  · simp
  · rename_i ms after h
    have := length_members? h
    split <;> simpa

theorem length_item (c : Char) (rest : List Char) : (item c rest).2.length ≤ rest.length := by
  unfold item
  split
  case h_6 rest =>
    split
    · simp
    · split
      · rename_i rest _; have := length_bracketed true rest; simp; omega
      · rename_i rest _; have := length_bracketed true rest; simp; omega
      · exact length_bracketed false _
  all_goals simp
  all_goals omega

/-- The tokens of a text in which braces are plain. -/
def plain : List Char → List Token
  | [] => []
  | c :: rest => (item c rest).1 :: plain (item c rest).2
termination_by s => s.length
decreasing_by have := length_item c rest; simp; omega

/-! ## 3. Braces -/

/-- With `depth` braces open, every closing brace has its opening one and all are closed. -/
def balanced : Nat → List Char → Bool
  | depth, [] => depth == 0
  | depth, '\\' :: _ :: rest => balanced depth rest
  | depth, '{' :: rest => balanced (depth + 1) rest
  | 0, '}' :: _ => false
  | depth + 1, '}' :: rest => balanced depth rest
  | depth, _ :: rest => balanced depth rest

/-- The word up to a closing brace, and the text after it, if no comma comes first. -/
def word? : List Char → Option (List Char × List Char)
  | [] => none
  | '\\' :: c :: rest => (word? rest).map fun (w, after) => ('\\' :: c :: w, after)
  | ',' :: _ => none
  | '}' :: rest => some ([], rest)
  | c :: rest => (word? rest).map fun (w, after) => (c :: w, after)

theorem length_word? {s w after : List Char} (h : word? s = some (w, after)) :
    after.length ≤ s.length := by
  fun_induction word? s generalizing w
  case case1 => simp at h
  case case3 => simp at h
  case case4 => simp_all
  all_goals
    rename_i ih
    obtain ⟨⟨_, _⟩, h1, h2⟩ := Option.map_eq_some_iff.1 h
    obtain ⟨-, rfl⟩ := Prod.mk.inj h2
    have := ih h1
    simp only [List.length_cons]
    omega

/-! ## 4. The whole glob -/

/-- Tokens with the ranges that their numbers refer to. -/
structure Scan where
  tokens : List Token
  ranges : List Range
  deriving Repr

/-- Tokens in front of a scan. -/
def Scan.after (s : Scan) (tokens : List Token) : Scan := { s with tokens := tokens ++ s.tokens }

/-- The tokens of the rest of a glob: `numbers` ranges precede it, and `depth` alternations are
open.  Opening braces begin an alternation only if `braces` are balanced. -/
def scanFrom (braces : Bool) (depth numbers : Nat) : List Char → Scan
  | [] => ⟨[], []⟩
  | c :: rest =>
    if c = '{' then
      match h : word? rest with
      | some (w, after) =>
        match Range.ofText? w with
        | some range =>
          let more := scanFrom braces depth (numbers + 1) after
          ⟨.atom (.number numbers) :: more.tokens, range :: more.ranges⟩
        | none =>
          (scanFrom braces depth numbers after).after
            (.atom (.char '{') :: plain w ++ [.atom (.char '}')])
      | none =>
        if braces then (scanFrom braces (depth + 1) numbers rest).after [.opening]
        else (scanFrom braces depth numbers rest).after [.atom (.char '{')]
    else if c = ',' ∧ 0 < depth then (scanFrom braces depth numbers rest).after [.bar]
    else if c = '}' ∧ 0 < depth then (scanFrom braces (depth - 1) numbers rest).after [.closing]
    else (scanFrom braces depth numbers (item c rest).2).after [(item c rest).1]
termination_by s => s.length
decreasing_by
  · have := length_word? h; simp; omega
  · have := length_word? h; simp; omega
  · simp
  · simp
  · simp
  · simp
  · have := length_item c rest; simp; omega

/-- The tokens and ranges of a glob. -/
def scan (s : List Char) : Scan := scanFrom (balanced 0 s) 0 0 s

end EditorSettings.Glob
