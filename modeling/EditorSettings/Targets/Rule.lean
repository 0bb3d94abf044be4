/-
# Rules of ignore files

An ignore file lists patterns, one a line.  A pattern without a slash applies at any depth below
the directory of the file, one with a slash from that directory on; a slash at the end asks for
a directory, and an exclamation mark in front takes back what earlier patterns say.

A line that breaks a rule counts for nothing and is reported (`ofLines`).  If a pattern is nested
too deep, the whole file counts for nothing.
-/
import EditorSettings.FileSystem
import EditorSettings.Targets.Pattern
import EditorSettings.Text.Blank

namespace EditorSettings.Ignore

open EditorSettings.Glob

/-! ## 1. Rules -/

/-- A line of an ignore file that says something. -/
structure Rule where
  /-- The rule takes back what earlier ones say. -/
  keeps : Bool
  /-- The rule is about directories only. -/
  directoriesOnly : Bool
  expr : Expr
  deriving Repr

/-- The pattern without a slash in front, and whether there was one. -/
def dropFirstSlash : List Char → Bool × List Char
  | '/' :: rest => (true, rest)
  | s => (false, s)

/-- The pattern without a slash at its end, and whether there was one. -/
def dropLastSlash (s : List Char) : Bool × List Char :=
  match s.reverse with
  | '/' :: '\\' :: rest => (true, rest.reverse)
  | '/' :: rest => (true, rest.reverse)
  | _ => (false, s)

/-- The pattern begins with two stars that count. -/
def beginsAnywhere (s : List Char) : Bool :=
  s.take 3 == ['*', '*', '/'] || s == ['*', '*']

/-- The pattern as it applies to paths below the directory: at any depth, unless it has a slash;
and not to a directory of which it names all contents. -/
def anchored (fromTop : Bool) (s : List Char) : List Char :=
  let s := if fromTop || s.contains '/' || beginsAnywhere s then s else '*' :: '*' :: '/' :: s
  if s.reverse.take 3 == ['*', '*', '/'] then s ++ ['/', '*'] else s

namespace Rule

/-- The rule of a line that is neither blank nor a comment. -/
def ofText (s : List Char) : Except Defect Rule := do
  let (keeps, fromTop, s) : Bool × Bool × List Char := match s with
    | '\\' :: '!' :: rest => (false, false, '!' :: rest)
    | '\\' :: '#' :: rest => (false, false, '#' :: rest)
    | '!' :: rest => (true, dropFirstSlash rest)
    | s => (false, dropFirstSlash s)
  let (directoriesOnly, s) := dropLastSlash s
  pure ⟨keeps, directoriesOnly, ← expr? (anchored fromTop s)⟩

/-- The rule is about this path, given in bytes and seen from the directory of its file. -/
def isAbout (r : Rule) (path : List Char) (isDirectory : Bool) : Bool :=
  (!r.directoriesOnly || isDirectory) && (r.expr.whole? path).isSome

/-- Whether the path is ignored, if some rule is about it; the last one counts. -/
def verdict? (rules : List Rule) (path : List Char) (isDirectory : Bool) : Option Bool :=
  (rules.reverse.find? (·.isAbout (Text.bytes path) isDirectory)).map (!·.keeps)

end Rule

/-! ## 2. Problems -/

/-- What is wrong with an ignore file or the place where it is looked for. -/
inductive Problem
  | malformed (file : Path) (line : Nat) (pattern : String) (defect : Defect)
  | unreadableLine (file : Path) (line : Nat) (e : FileError)
  | unreadable (file : Path) (e : FileError)
  | tooDeep (index : Nat)
  deriving DecidableEq, Repr

/-- The problem in words. -/
def Problem.message : Problem → String
  | malformed file line pattern defect =>
    file.text ++ ": line " ++ toString line ++ ": error parsing glob '" ++ pattern ++ "': " ++
      defect.message
  | unreadableLine file line e => file.text ++ ": line " ++ toString line ++ ": " ++ e.message
  | unreadable file e => file.text ++ ": " ++ e.message
  | tooDeep index => "error parsing pattern " ++ toString index

/-- Several problems in words, one a line. -/
def Problem.messages (problems : List Problem) : String :=
  String.intercalate "\n" (problems.map message)

/-! ## 3. Files -/

/-- The rules of a file or of several, and what is wrong with them. -/
structure Rules where
  rules : List Rule := []
  problems : List Problem := []

namespace Rules

/-- What a line says: blanks at its end count only after a backslash. -/
def lineText (line : List Char) : List Char :=
  if line.reverse.take 2 == [' ', '\\'] then line else Text.trimEnd line

/-- The rules of the lines from the one with this number on. -/
def ofLinesFrom (file : Path) (number : Nat) : List (List Char) → Rules
  | [] => {}
  | line :: more =>
    let after := ofLinesFrom file (number + 1) more
    let s := lineText line
    if line.head? = some '#' || s.isEmpty then after
    else
      match Rule.ofText s with
      | .ok rule => { after with rules := rule :: after.rules }
      | .error defect =>
        { after with
          problems := .malformed file number (String.ofList s) defect :: after.problems }

/-- The lines without the byte order marks in front of the first one. -/
def dropMarks : List (List Char) → List (List Char)
  | [] => []
  | line :: more => line.dropWhile (· == '\ufeff') :: more

/-- The rules of the lines of a file; `complete` says that these are all of its lines.  That
lines cannot be read is no problem by itself. -/
def ofLines (file : Path) (lines : List (List Char)) (complete : Bool) : Rules :=
  let read := ofLinesFrom file 1 (dropMarks lines)
  let broken := if complete || read.problems.isEmpty then []
    else [.unreadableLine file (lines.length + 1) .notText]
  let problems := read.problems ++ broken
  match read.rules.findIdx? fun r => Expr.maxNesting < r.expr.nesting with
  | some index => ⟨[], problems ++ [.tooDeep index]⟩
  | none => ⟨read.rules, problems⟩

/-- The rules of a file; one that cannot be read has none. -/
def load {m : Type → Type} [Monad m] (fs : FileSystem m) (file : Path) : m Rules := do
  match ← fs.readBytes file with
  | .ok content =>
    let (lines, complete) := Text.decodedLines content
    pure (ofLines file lines complete)
  | .error _ => pure {}

end Rules
end EditorSettings.Ignore
