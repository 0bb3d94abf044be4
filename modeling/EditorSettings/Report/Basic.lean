/-
# What is printed

The settings of a file are printed as one line each, below a header with the path if there is
more than one file.  A quiet report leaves out settings that are not valid and all messages; a
verbose one marks such settings.
-/
import EditorSettings.Document.Problem
import EditorSettings.Path.Basic
import EditorSettings.Report.Palette
import EditorSettings.Setting.Basic

namespace EditorSettings

/-! ## 1. Styles -/

/-- How much is printed, and in which colours. -/
structure Style where
  quiet : Bool := false
  verbose : Bool := false
  palette : Palette := .plain
  deriving DecidableEq, Repr

/-- How a run over several files went. -/
structure Tally where
  resolved : Nat := 0
  failed : Nat := 0
  invalid : Nat := 0
  deriving DecidableEq, Repr

namespace Tally

/-- Some file failed. -/
def hasFailures (t : Tally) : Bool := 0 < t.failed

end Tally

namespace Style

/-! ## 2. Settings of a file -/

/-- The header above the settings of a file. -/
def header (st : Style) (path : Path) : String :=
  st.palette.header ++ "[" ++ path.text ++ "]" ++ st.palette.reset ++ "\n"

/-- The mark behind a setting that is not valid. -/
def mark (st : Style) (s : Setting) : String :=
  if !s.isValid && st.verbose then
    " " ++ st.palette.invalid ++ "(invalid)" ++ st.palette.reset
  else ""

/-- The line of a setting. -/
def settingLine (st : Style) (s : Setting) : String :=
  st.palette.name ++ s.name ++ st.palette.reset ++ "=" ++ s.value ++ st.mark s ++ "\n"

/-- The setting is printed. -/
def shows (st : Style) (s : Setting) : Bool := s.isValid || !st.quiet

/-- The settings of a file. -/
def settings (st : Style) (path : Path) (withHeader : Bool) (ss : List Setting) : String :=
  (if withHeader then st.header path else "") ++
    String.join ((ss.filter st.shows).map st.settingLine)

/-! ## 3. Messages -/

/-- A file whose settings could not be found. -/
def failure (st : Style) (path : Path) (message : String) : String :=
  st.palette.error ++ "Error:" ++ st.palette.reset ++ " " ++ path.text ++ ": " ++ message ++ "\n"

/-- A line that was skipped; quiet reports do not mention it. -/
def problem (st : Style) (path : Path) (p : Problem) : String :=
  if st.quiet then ""
  else
    let colour := match p.severity with
      | .error => st.palette.error
      | .warning => st.palette.warning
    colour ++ p.severity.word ++ ":" ++ st.palette.reset ++ " " ++ path.text ++ ": " ++
      p.message ++ "\n"

/-- A document that is not in canonical form; a quiet report is its path alone. -/
def notCanonical (st : Style) (path : Path) : String :=
  if st.quiet then path.text ++ "\n"
  else
    st.palette.warning ++ "Not canonical:" ++ st.palette.reset ++ " " ++ path.text ++ "\n"

/-- A count that is only worth mentioning if it is not zero. -/
def count (st : Style) (colour : String) (n : Nat) (what : String) : List String :=
  if 0 < n then [colour ++ toString n ++ what ++ st.palette.reset] else []

/-- The counts of a run, in a verbose report that is not quiet. -/
def summary (st : Style) (t : Tally) : String :=
  if st.quiet || !st.verbose then ""
  else
    String.intercalate ", "
      ([toString t.resolved ++ " files resolved"] ++
        st.count st.palette.warning t.invalid " invalid options" ++
        st.count st.palette.error t.failed " files failed") ++ "\n"

end Style
end EditorSettings
