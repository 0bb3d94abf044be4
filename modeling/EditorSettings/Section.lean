/-
# Sections

A section is a glob with the settings of the paths that it matches.  It is complete once the
widths that follow from its settings have been filled in; before that it is a `Section.Draft`,
which settings are added to one by one.  A draft that never gets a glob is the preamble of its
file.  The preamble counts for one thing: whether it says that the file is a root.
-/
import EditorSettings.Derivation
import EditorSettings.Glob.Basic

namespace EditorSettings

open EditorSettings.Text

/-! ## 1. Complete sections -/

/-- A glob and the settings of the paths that it matches; without a glob, of all paths. -/
structure Section where
  glob? : Option Glob
  settings : Settings

namespace Section

/-- The section applies to the path. -/
def matchesPath (s : Section) (path : String) : Bool :=
  match s.glob? with
  | some g => g.matchesPath path
  | none => true

/-- The setting of a name, which may be written in any case. -/
def setting? (s : Section) (name : String) : Option Setting := s.settings.find? (asciiLower name)

/-- The header line. -/
def renderHeader (s : Section) : String :=
  match s.glob? with
  | some g => "[" ++ g.source ++ "]\n"
  | none => ""

/-- The header line and the lines of the settings; the last of these is left open. -/
def render (s : Section) : String :=
  s.renderHeader ++ String.intercalate "\n" (s.settings.toList.map Setting.render)

/-! ## 2. Sections that are being read -/

/-- A section to which settings may still be added. -/
structure Draft where
  glob? : Option Glob := none
  settings : Settings := Keyed.empty

namespace Draft

/-- The draft with this glob. -/
def withGlob (d : Draft) (g : Glob) : Draft := { d with glob? := some g }

/-- Add a setting; it replaces one with its name. -/
def add (d : Draft) (s : Setting) : Draft := { d with settings := d.settings.insert s }

/-- Whether the draft says that its file is a root, if it says anything about it. -/
def rootFlag? (d : Draft) : Option Bool :=
  (d.settings.find? Setting.Name.root).map fun s => sameWord s.value "true"

/-- The complete section. -/
def complete (r : Registry) (version : String) (d : Draft) : Section :=
  ⟨d.glob?, d.settings.derive r version⟩

end Draft
end Section
end EditorSettings
