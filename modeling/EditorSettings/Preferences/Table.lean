/-
# Preferences in TOML

A preferences file is a TOML document whose table `resolve` holds the preferences.  Keys that
mean nothing are ignored, and so is a date in the place of the table.  An array in its place gives
the values in order.  A value of the wrong sort makes the whole file invalid.
-/
import EditorSettings.Preferences.Basic
import EditorSettings.Toml.Reader

namespace EditorSettings.Preferences

/-- A text. -/
def text? : Toml.Value → Option String
  | .text s => some s
  | _ => none

/-- A list of paths. -/
def paths? : Toml.Value → Option (List Path)
  | .array items => items.mapM fun v => (text? v).map Path.mk
  | _ => none

/-- A value that may be missing: there is a result unless the value is of the wrong sort. -/
def optional? {α : Type} (read? : Toml.Value → Option α) : Option Toml.Value → Option (Option α)
  | some v => (read? v).map some
  | none => some none

/-- The preferences of the entries of a table. -/
def ofEntries? (entries : Toml.Entries) : Option Preferences := do
  pure
    { fileName? := ← optional? text? (entries.lookup "config_filename")
      version? := ← optional? text? (entries.lookup "version")
      roots? := ← optional? paths? (entries.lookup "root_dirs") }

/-- The preferences of the value of `resolve`. -/
def ofValue? : Toml.Value → Option Preferences
  | .table _ entries => ofEntries? entries
  | .braces entries => ofEntries? entries
  | .array (name :: version :: roots :: _) => do
    pure
      { fileName? := some (← text? name), version? := some (← text? version),
        roots? := some (← paths? roots) }
  | .date => some {}
  | _ => none

/-- The preferences of a TOML document. -/
def parse? (source : String) : Option Preferences :=
  (Toml.parse? source).bind fun entries =>
    match entries.lookup "resolve" with
    | some v => ofValue? v
    | none => some {}

end EditorSettings.Preferences
