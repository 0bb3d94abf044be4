/-
# Settings

A setting is a name with a value, and the type that the registry has for the name.  The name is
kept in small letters, and so is the value where its case does not matter.  A value that does
not fit the type is kept as well: the setting is then not valid, and can still be reported.

A setting that is being read is a `Setting.Draft`.  Finishing it drops what is too long.
-/
import EditorSettings.Setting.Registry
import EditorSettings.Text.Lowercase.Basic

namespace EditorSettings

open EditorSettings.Text

/-! ## 1. Settings -/

/-- A name with a value, as declared or derived. -/
structure Setting where
  name : String
  value : String
  type? : Option SettingType
  deriving DecidableEq, Repr

namespace Setting

/-- The value as it is kept for the setting `name`, which is in small letters. -/
def canonicalValue (name value : String) : String :=
  if Name.isCaseless name then lower value else value

/-- The setting that a name and a value declare. -/
def declare (r : Registry) (name value : String) : Setting :=
  let name := asciiLower name
  ⟨name, canonicalValue name value, r.type? name⟩

/-- What the value means, if the setting is known and the value fits it. -/
def meaning? (s : Setting) : Option Value := s.type?.bind (·.read? s.value)

/-- The setting is known and its value fits. -/
def isValid (s : Setting) : Bool := s.meaning?.isSome

/-- The line that declares the setting. -/
def render (s : Setting) : String := s.name ++ " = " ++ s.value

end Setting

/-- Settings with different names, in the order in which the names first came. -/
abbrev Settings := Keyed Setting Setting.name

/-! ## 2. Settings that are being read -/

namespace Setting

/-- The longest name kept, in characters. -/
def maxNameLength : Nat := 50

/-- The longest value kept, in characters. -/
def maxValueLength : Nat := 255

/-- A setting whose name and value are still to come. -/
structure Draft where
  name? : Option String := none
  value? : Option String := none
  deriving DecidableEq, Repr

namespace Draft

/-- The draft with this name. -/
def withName (d : Draft) (name : String) : Draft := { d with name? := some name }

/-- The draft with this value. -/
def withValue (d : Draft) (value : String) : Draft := { d with value? := some value }

/-- The finished setting.  There is none without a name, and none if the name or the value, as
written, is too long.  A value that never came is empty. -/
def finish? (r : Registry) (d : Draft) : Option Setting :=
  d.name?.bind fun name =>
    let value := d.value?.getD ""
    if maxNameLength < name.length || maxValueLength < value.length then none
    else some (declare r name value)

end Draft
end Setting
end EditorSettings
