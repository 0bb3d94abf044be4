/-
# Preferences

How to search for settings can be said on the command line and in a file.  What is said on the
command line comes first, then what the file says, then the defaults.  Directories that the file
names are seen from the directory of the file.
-/
import EditorSettings.Cascade
import EditorSettings.Path.Normal

namespace EditorSettings

/-- What a preferences file says about the search. -/
structure Preferences where
  fileName? : Option String := none
  version? : Option String := none
  roots? : Option (List Path) := none
  deriving DecidableEq, Repr

/-- What the command line says about the search; naming no roots says nothing about them. -/
structure Wishes where
  fileName? : Option String := none
  version? : Option String := none
  roots : List Path := []
  deriving DecidableEq, Repr

/-- All that a search needs besides its targets. -/
structure Plan where
  rules : Cascade.Rules := {}
  roots : List Path := []
  deriving DecidableEq, Repr

namespace Preferences

/-- The path seen from a directory. -/
def seenFrom (dir p : Path) : Path := if p.isAbsolute then p else dir.join p.text

/-- The plan of the wishes and of the preferences in a file of the directory `dir`. -/
def plan (wishes : Wishes) (preferences : Preferences) (dir : Path) : Plan where
  rules :=
    { fileName := (wishes.fileName?.or preferences.fileName?).getD ({} : Cascade.Rules).fileName
      version := (wishes.version?.or preferences.version?).getD defaultVersion }
  roots :=
    if wishes.roots.isEmpty then (preferences.roots?.getD []).map (seenFrom dir)
    else wishes.roots

end Preferences
end EditorSettings
