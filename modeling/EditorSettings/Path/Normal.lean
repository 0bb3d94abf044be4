/-
# Normal paths

The normal form of an absolute path has no `.`, no `..` and no needless slashes.  A `..` takes
back the name before it, and nothing at the root.  Links are not followed: the normal form
depends on the text alone.
-/
import EditorSettings.Path.Basic

namespace EditorSettings.Path

/-- The names that remain, the last one first, after one more step. -/
def walk (names : List String) : Component → List String
  | .root => []
  | .here => names
  | .up => names.tail
  | .name s => s :: names

/-- The names that remain of the steps. -/
def normalNames (steps : List Component) : List String := (steps.foldl walk []).reverse

/-- The absolute path with these names. -/
def ofNames (names : List String) : Path := ⟨"/" ++ String.intercalate "/" names⟩

/-- The normal form of the path, taken from the directory `from` if it is relative. -/
def absolute (cwd p : Path) : Path :=
  let p := if p.isAbsolute then p else cwd.join p.text
  ofNames (normalNames p.components)

end EditorSettings.Path
