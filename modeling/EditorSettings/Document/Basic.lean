/-
# Documents

A document is what one settings file says: whether the file is a root, and its sections.  It
remembers the directory that the file lives in, since that is what its globs are relative to.

`Document.render` writes a document in its canonical form: first whether it is a root, then the
sections, with blank lines between them.
-/
import EditorSettings.Section

namespace EditorSettings

/-- The content of one settings file. -/
structure Document where
  directory : String := ""
  version : String := defaultVersion
  /-- Whether the file is a root, if it says so at all. -/
  root? : Option Bool := none
  sections : List Section := []

namespace Document

/-- The search for further files ends with this one. -/
def isRoot (d : Document) : Bool := d.root? == some true

/-- A glob relative to the document's directory. -/
def compileGlob (d : Document) (pattern : String) : Glob := Glob.compile d.directory pattern

/-- Take up a finished section.  One without a glob is the preamble: it can only say whether the
file is a root. -/
def close (r : Registry) (d : Document) (draft : Section.Draft) : Document :=
  match draft.glob?, draft.rootFlag? with
  | some _, _ => { d with sections := d.sections ++ [draft.complete r d.version] }
  | none, some root => { d with root? := some root }
  | none, none => d

/-- The lines that say whether the file is a root, with a blank line before the sections. -/
def renderRoot (d : Document) : String :=
  match d.root? with
  | some root =>
    "root = " ++ (if root then "true" else "false") ++ "\n" ++
      (if d.sections.isEmpty then "" else "\n")
  | none => ""

/-- The canonical text. -/
def render (d : Document) : String :=
  d.renderRoot ++ String.intercalate "\n" (d.sections.map fun s => s.render ++ "\n")

end Document
end EditorSettings
