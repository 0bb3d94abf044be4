/-
# Paths

A path is a text in which slashes separate components.  Empty components mean nothing, and
neither does a `.` except as the first component of a relative path; so two texts denote the
same path if their components agree, and that is when paths are equal here (`Path.same`).

`Path.split` takes a text apart into its start and the pieces between its slashes, and
`Path.components` gives the steps that they stand for.  `Path.join` puts a name behind a path.
-/
import EditorSettings.Text.Line

namespace EditorSettings

open EditorSettings.Text

/-! ## 1. Components -/

/-- A path as it is written. -/
structure Path where
  text : String
  deriving DecidableEq, Repr

instance : Inhabited Path := ⟨⟨""⟩⟩

namespace Path

/-- A step of a path. -/
inductive Component
  | root
  | here
  | up
  | name (s : String)
  deriving DecidableEq, Repr

/-- What a path begins with: a slash, a `.`, or neither of them. -/
inductive Start
  | root
  | here
  | plain
  deriving DecidableEq, Repr

/-- The start of a path, and the pieces between the slashes that follow it. -/
def split (s : List Char) : Start × List (List Char) :=
  match s with
  | '/' :: rest => (.root, pieces '/' rest)
  | s =>
    match pieces '/' s with
    | ['.'] :: rest => (.here, rest)
    | parts => (.plain, parts)

/-- A piece that means nothing. -/
def isVoid (piece : List Char) : Bool := piece == [] || piece == ['.']

/-- The step that a piece stands for. -/
def component? (piece : List Char) : Option Component :=
  if isVoid piece then none
  else if piece = ['.', '.'] then some .up
  else some (.name (String.ofList piece))

/-- The step that a start stands for. -/
def Start.components : Start → List Component
  | root => [.root]
  | here => [.here]
  | plain => []

/-- The steps of a path. -/
def components (p : Path) : List Component :=
  let (start, parts) := split p.text.toList
  start.components ++ parts.filterMap component?

/-- The same steps. -/
def same (p q : Path) : Bool := p.components == q.components

/-- The path begins at the root. -/
def isAbsolute (p : Path) : Bool := p.text.toList.head? == some '/'

/-! ## 2. Joining -/

/-- The pieces with slashes between them. -/
def joinPieces : List (List Char) → List Char
  | [] => []
  | [piece] => piece
  | piece :: next :: rest => piece ++ '/' :: joinPieces (next :: rest)

/-- A slash, where one is needed before more is added. -/
def slashAfter (s : List Char) : List Char :=
  if s.isEmpty || s.getLast? == some '/' then [] else ['/']

/-- The path `name` seen from `p`; an absolute one stays what it is. -/
def join (p : Path) (name : String) : Path :=
  if (Path.mk name).isAbsolute then ⟨name⟩
  else ⟨String.ofList (p.text.toList ++ slashAfter p.text.toList ++ name.toList)⟩

end Path
end EditorSettings
