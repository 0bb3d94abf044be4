/-
# The preferences file

The preferences file is searched from a directory upward.  The nearest one counts, and the
search does not leave the repository that it began in: it ends with the directory that holds an
entry `.git`, after that directory has been looked at.

A template of the file can be made where there is none yet.
-/
import EditorSettings.FileSystem
import EditorSettings.Preferences.Table

namespace EditorSettings

variable {m : Type → Type} [Monad m]

/-! ## 1. Searching upward -/

namespace FileSystem

/-- The first of the directories that holds a file of this name.  With `inRepository`, the
directories after the first one with an entry `.git` do not count. -/
def findIn (fs : FileSystem m) (name : String) (inRepository : Bool) : List Path → m (Option Path)
  | [] => pure none
  | dir :: above => do
    if ← fs.isFile (dir.join name) then pure (some (dir.join name))
    else if inRepository then
      if ← fs.isThere (dir.join ".git") then pure none
      else fs.findIn name inRepository above
    else fs.findIn name inRepository above

/-- The nearest file of this name, from the directory `start` upward. -/
def findUpward (fs : FileSystem m) (start : Path) (name : String) (inRepository : Bool) :
    m (Option Path) :=
  fs.findIn name inRepository start.withParents

end FileSystem

/-! ## 2. The file -/

namespace Preferences

/-- The name of the preferences file. -/
def fileName : String := "ecascade.toml"

/-- The preferences file for a directory. -/
def find? (fs : FileSystem m) (start : Path) : m (Option Path) :=
  fs.findUpward start fileName true

/-- Why there are no preferences in a file. -/
inductive LoadError
  | unreadable (e : FileError)
  | malformed
  deriving DecidableEq, Repr

/-- The reason in words, as far as it is fixed. -/
def LoadError.message : LoadError → String
  | unreadable e => "failed to read config file: " ++ e.message
  | malformed => "failed to parse config file"

/-- The preferences in a file. -/
def load (fs : FileSystem m) (p : Path) : m (Except LoadError Preferences) := do
  match ← fs.read p with
  | .error e => pure (.error (.unreadable e))
  | .ok source =>
    match parse? source with
    | some preferences => pure (.ok preferences)
    | none => pure (.error .malformed)

/-! ## 3. The template -/

/-- A preferences file that says nothing, and tells what could be said. -/
def template : String :=
  "# ecascade.toml - Configuration for the ecascade settings resolver\n" ++
  "#\n" ++
  "# ecascade reads .editorconfig files from a file's directory upward and\n" ++
  "# prints the settings that apply to it. Files closer to the target win.\n" ++
  "# The search stops at a file declaring `root = true`, or at one of the\n" ++
  "# root directories below.\n" ++
  "#\n" ++
  "# Command line flags override everything here.\n" ++
  "\n" ++
  "[resolve]\n" ++
  "# Name of the configuration file looked up in each directory.\n" ++
  "# Default: \".editorconfig\"\n" ++
  "# config_filename = \".editorconfig\"\n" ++
  "\n" ++
  "# EditorConfig specification version the files follow. Versions before\n" ++
  "# 0.10.0 do not derive `indent_size = tab` from `indent_style = tab`.\n" ++
  "# Default: \"0.12.0\"\n" ++
  "# version = \"0.12.0\"\n" ++
  "\n" ++
  "# Directories the upward search never leaves. Relative paths are relative\n" ++
  "# to this file.\n" ++
  "# root_dirs = [\".\"]\n"

/-- Make a preferences file in a directory, or in the working directory, where there is none. -/
def create (fs : FileSystem m) (dir? : Option Path) : m (Except FileError Path) := do
  let p := match dir? with
    | some dir => dir.join fileName
    | none => ⟨fileName⟩
  if ← fs.isThere p then pure (.error (.alreadyExists fileName))
  else
    match ← fs.write p template with
    | .ok _ => pure (.ok p)
    | .error e => pure (.error e)

end Preferences
end EditorSettings
