/-
# Patterns of ignore files

The patterns are a dialect of globs, read byte by byte.

* `**` counts only between slashes or at an end, and is two `*` elsewhere.
* In a set of characters a dash makes a span, and a span may be continued by another dash.  A
  bracket that is never closed is plain, and so are all after it.
* Braces have to be balanced.  A branch that is empty does not count, so `{,a}` is `a`.
* A backslash makes the next character plain, and has to have one.

`expr?` gives the expression of a pattern, or the rule that the pattern breaks.
-/
import EditorSettings.Glob.Reading
import EditorSettings.Text.Bytes

namespace EditorSettings.Ignore

open EditorSettings.Glob

/-! ## 1. Defects -/

/-- What is wrong with a pattern. -/
inductive Defect
  | descendingSpan (low high : Char)
  | unopenedBrace
  | unclosedBrace
  | danglingEscape
  deriving DecidableEq, Repr

/-- The defect in words. -/
def Defect.message : Defect → String
  | descendingSpan low high =>
    "invalid range; '" ++ low.toString ++ "' > '" ++ high.toString ++ "'"
  | unopenedBrace =>
    "unopened alternate group; missing '\x7b' (maybe escape '\x7d' with '[\x7d]'?)"
  | unclosedBrace =>
    "unclosed alternate group; missing '\x7d' (maybe escape '\x7b' with '[\x7b]'?)"
  | danglingEscape => "dangling '\\'"

/-! ## 2. Sets of characters -/

/-- The members of a set after those in `spans`, the last one first; `joins` says that a dash
stands before them. -/
def spansFrom (joins : Bool) (spans : List (Char × Char)) :
    List Char → Except Defect (List (Char × Char))
  | [] => pure (if joins then ('-', '-') :: spans else spans)
  | c :: rest =>
    match joins, spans with
    | true, (low, _) :: before =>
      if low ≤ c then spansFrom false ((low, c) :: before) rest
      else throw (.descendingSpan low c)
    | _, spans =>
      if c = '-' then spansFrom true spans rest else spansFrom false ((c, c) :: spans) rest

/-- The spans between two brackets, the last one first.  The first character is a member
whatever it is. -/
def spans : List Char → Except Defect (List (Char × Char))
  | [] => pure []
  | c :: rest => spansFrom false [(c, c)] rest

/-- The span between two characters, byte by byte: only the last byte of the lower one and the
first of the upper one are joined. -/
def byteSpans (span : Char × Char) : List Text.Span :=
  let low := (Text.bytes [span.1]).map Char.toNat
  let high := (Text.bytes [span.2]).map Char.toNat
  let alone (b : Nat) : Text.Span := (b, b)
  if span.1 = span.2 then low.map alone
  else low.dropLast.map alone ++ [(low.getLastD 0, high.headD 0)] ++ high.tail.map alone

/-- What stands between the brackets of a set, and whether the closing one is there.  The first
character does not close the set. -/
def bracketed : List Char → List Char × Bool
  | [] => ([], false)
  | c :: rest => (c :: rest.takeWhile (· != ']'), rest.contains ']')

/-! ## 3. Parts -/

/-- A part of a pattern. -/
inductive Part
  | char (c : Char)
  /-- A byte that is no slash. -/
  | one
  /-- A run of bytes that are no slashes. -/
  | run
  | set (s : CharSet)
  /-- `**` with a slash at the beginning: any directories. -/
  | anywhere
  /-- `**` with a slash at the end: anything inside. -/
  | inside
  /-- `**` between slashes. -/
  | depths
  /-- An alternation; there is none if all branches are empty. -/
  | choice (e? : Option Expr)
  deriving DecidableEq, Repr

/-- The expressions that a part stands for, one after the other. -/
def Part.exprs : Part → List Expr
  | char c => (Text.bytes [c]).map fun b => .atom (.char b)
  | one => [.atom .one]
  | run => [.atom .run]
  | set s => [.atom (.set s)]
  | anywhere =>
    [.group
      (.either (.either .empty (.atom (.char '/'))) (.seq (.atom .any) (.atom (.char '/'))))]
  | inside => [.atom (.char '/'), .atom .any]
  | depths => [.depths]
  | choice e? => e?.toList

/-- The expression of parts that are read backwards, if they have any. -/
def sequence? (parts : List Part) : Option Expr :=
  match parts.reverse.flatMap Part.exprs with
  | [] => none
  | e :: more => some (more.foldl .seq e)

/-- The alternation of branches that are read backwards. -/
def Part.ofBranches (branches : List (List Part)) : Part :=
  match branches.reverse.filterMap sequence? with
  | [] => choice none
  | e :: more => choice (some (.group (more.foldl .either e)))

/-! ## 4. Reading a pattern -/

/-- An alternation that is open: what stands before it, and the branches that are complete, all
read backwards. -/
structure Alternation where
  before : List Part
  branches : List (List Part) := []

/-- What has been read of a pattern: the alternations that are open, the inner one first, the
parts of the present branch, the character before the rest, and whether brackets are plain. -/
structure Front where
  outer : List Alternation := []
  parts : List Part := []
  previous : Option Char := none
  plainBrackets : Bool := false

namespace Front

/-- The front with one more part. -/
def push (f : Front) (p : Part) (previous : Char) : Front :=
  { f with parts := p :: f.parts, previous := some previous }

/-- Two stars may count after the character before the rest. -/
def afterMark (f : Front) : Bool :=
  f.previous == some '/' ||
    (!f.outer.isEmpty && (f.previous == some ',' || f.previous == some '\x7b'))

/-- The last part, a slash, becomes one with the two stars after it, unless the stars before it
did so already. -/
def deepen (f : Front) (p : Part) (previous : Char) : Front :=
  let parts := match f.parts with
    | .anywhere :: rest => .anywhere :: rest
    | .inside :: rest => .inside :: rest
    | parts => p :: parts.tail
  { f with parts, previous := some previous }

/-- Read two stars.  `after` is what follows them; the number says how much of it counts to
them. -/
def stars (f : Front) (after : List Char) : Front × Nat :=
  let plain := ((f.push .run '*').push .run '*', 0)
  if f.parts.isEmpty then
    match after with
    | [] => (f.push .anywhere '*', 0)
    | c :: _ => if c = '/' then (f.push .anywhere c, 1) else plain
  else if !f.afterMark then plain
  else
    match after with
    | [] => (f.deepen .inside '*', 0)
    | c :: _ =>
      if c = '/' then (f.deepen .depths c, 1)
      else if !f.outer.isEmpty && (c = ',' || c = '\x7d') then (f.deepen .inside '*', 0)
      else plain

/-- Read a set after its opening bracket. -/
def bracket (f : Front) (rest : List Char) : Except Defect (Front × Nat) := do
  let negated := rest.head? == some '!' || rest.head? == some '^'
  let (inner, closed) := bracketed (if negated then rest.tail else rest)
  let members ← spans inner
  if closed then
    let s : CharSet := ⟨negated, members.reverse.flatMap byteSpans, []⟩
    pure (f.push (.set s) ']', (if negated then 1 else 0) + inner.length + 1)
  else pure ({ f.push (.char '[') '[' with plainBrackets := true }, 0)

/-- Begin the next branch, or read a plain comma. -/
def comma (f : Front) : Front :=
  match f.outer with
  | [] => f.push (.char ',') ','
  | a :: outer =>
    { f with outer := { a with branches := f.parts :: a.branches } :: outer, parts := [],
             previous := some ',' }

/-- Close the alternation. -/
def close (f : Front) : Except Defect Front :=
  match f.outer with
  | [] => throw .unopenedBrace
  | a :: outer =>
    pure { f with outer, parts := .ofBranches (f.parts :: a.branches) :: a.before,
                  previous := some '\x7d' }

/-- Read the character `c`.  The number says how much of the rest counts to it. -/
def step (f : Front) (c : Char) (rest : List Char) : Except Defect (Front × Nat) :=
  match c with
  | '?' => pure (f.push .one c, 0)
  | '*' =>
    match rest with
    | '*' :: after => let (f, n) := f.stars after; pure (f, n + 1)
    | _ => pure (f.push .run c, 0)
  | '[' => if f.plainBrackets then pure (f.push (.char c) c, 0) else f.bracket rest
  | '\x7b' => pure ({ f with outer := ⟨f.parts, []⟩ :: f.outer, parts := [], previous := c }, 0)
  | '\x7d' => do pure (← f.close, 0)
  | ',' => pure (f.comma, 0)
  | '\\' =>
    match rest with
    | [] => throw .danglingEscape
    | d :: _ => pure (f.push (.char d) d, 1)
  | c => pure (f.push (.char c) c, 0)

/-- Read the rest of a pattern. -/
def read (f : Front) : List Char → Except Defect Front
  | [] => if f.outer.isEmpty then pure f else throw .unclosedBrace
  | c :: rest =>
    match f.step c rest with
    | .ok (f, n) => f.read (rest.drop n)
    | .error e => throw e
termination_by s => s.length
decreasing_by simp only [List.length_drop, List.length_cons]; omega

end Front

/-- The expression of a pattern. -/
def expr? (s : List Char) : Except Defect Expr := do
  match (← Front.read {} s).parts with
  | [.anywhere] => pure (.atom .any)
  | parts => pure ((sequence? parts).getD .empty)

end EditorSettings.Ignore
