/-
# Globs

A glob is compiled for the directory of the file that declares it, and then matches whole paths
below that directory.  The directory is plain text, whatever characters it holds.  A glob without a
slash applies at any depth; one with a slash is relative to the directory.

Compiling always gives a glob.  One that is too long, or that forms no expression, matches
nothing and keeps the reason.  A glob with ranges matches if, in the reading that counts, every
range took part and accepts its number.
-/
import EditorSettings.Glob.Reading
import EditorSettings.Text.Quoted.Basic

namespace EditorSettings

open EditorSettings.Text

/-! ## 1. Globs -/

namespace Glob

/-- The longest glob accepted, in characters. -/
def maxLength : Nat := 4096

/-- Why a glob matches nothing. -/
inductive Defect
  | tooLong (length limit : Nat)
  | malformed (pattern : String)
  deriving DecidableEq, Repr

/-- The text of a defect, as far as it is fixed. -/
def Defect.message : Defect → String
  | .tooLong length limit =>
    "glob length " ++ toString length ++ " exceeds the maximal allowed length of " ++
      toString limit ++ " characters"
  | .malformed pattern =>
    "glob " ++ quoted pattern ++ " does not translate to a valid expression"

/-- An expression with the ranges of its numbers. -/
structure Matcher where
  expr : Expr
  ranges : List Range
  deriving Repr

/-- The number with an index is there and in its range. -/
def Range.acceptsIn (numbers : List (Nat × List Char)) (index : Nat) (range : Range) : Bool :=
  match numbers.lookup index with
  | some s => range.accepts s
  | none => false

/-- The matcher accepts the whole text. -/
def Matcher.accepts (m : Matcher) (s : List Char) : Bool :=
  match m.expr.whole? s with
  | some r => m.ranges.zipIdx.all fun (range, index) => range.acceptsIn r.numbers index
  | none => false

end Glob

/-- A glob as written, and its matcher or the reason why there is none. -/
structure Glob where
  source : String
  matcher : Except Glob.Defect Glob.Matcher

namespace Glob

/-! ## 2. Compiling -/

/-- The text without the backslashes in front of `mark`. -/
def unescape (mark : Char) : List Char → List Char
  | '\\' :: c :: rest =>
    if c = mark then mark :: unescape mark rest else '\\' :: unescape mark (c :: rest)
  | c :: rest => c :: unescape mark rest
  | [] => []

/-- The glob without the escapes that only keep `#` and `;` from beginning a comment. -/
def unescapeComments (s : List Char) : List Char := unescape ';' (unescape '#' s)

/-- The glob relative to its directory: it begins with a slash, and with `/**/` if it has no
slash of its own. -/
def anchor (s : List Char) : List Char :=
  if s.contains '/' then
    match s with
    | '/' :: _ => s
    | _ => '/' :: s
  else '/' :: '*' :: '*' :: '/' :: s

/-- A directory without the slashes at its end. -/
def directoryText (dir : String) : List Char :=
  (dir.toList.reverse.dropWhile (· == '/')).reverse

/-- The matcher of a glob without comment escapes. -/
def matcher? (dir : List Char) (s : List Char) : Option Matcher :=
  let scanned := scan (anchor s)
  match Expr.ofTokens? (dir.map (Token.atom ∘ Atom.char) ++ scanned.tokens) with
  | some e => if e.nesting ≤ Expr.maxNesting then some ⟨e, scanned.ranges⟩ else none
  | none => none

/-- The glob that `pattern` denotes in a file of the directory `dir`. -/
def compile (dir pattern : String) : Glob where
  source := pattern
  matcher :=
    if maxLength < pattern.length then .error (.tooLong pattern.length maxLength)
    else
      let s := unescapeComments pattern.toList
      match matcher? (directoryText dir) s with
      | some m => .ok m
      | none => .error (.malformed (String.ofList s))

/-! ## 3. Asking a glob -/

/-- The glob matches the whole path. -/
def matchesPath (g : Glob) (path : String) : Bool :=
  match g.matcher with
  | .ok m => m.accepts path.toList
  | .error _ => false

/-- Nothing stands in the header. -/
def isEmpty (g : Glob) : Bool := g.source.isEmpty

/-- Why the glob matches nothing, if it has a defect. -/
def defect? (g : Glob) : Option Defect :=
  match g.matcher with
  | .ok _ => none
  | .error d => some d

/-- The glob has no defect. -/
def isValid (g : Glob) : Bool := g.defect?.isNone

end Glob
end EditorSettings
