/-
# The registry of settings

A registry gives a kind to each setting that it knows.  Names of settings ignore the case of
ASCII letters: the registry stores them in small letters and looks them up that way.  A text
that is no value of its setting's kind is a `Rejection`.
-/
import EditorSettings.Keyed
import EditorSettings.Setting.Kind
import EditorSettings.Text.Quoted.Basic

namespace EditorSettings

open EditorSettings.Text

/-! ## 1. Settings with a kind -/

/-- A known setting, with its name in small letters. -/
structure SettingType where
  name : String
  kind : Kind
  deriving DecidableEq, Repr

/-- A text that its setting does not accept. -/
structure Rejection where
  name : String
  value : String
  expected : String
  deriving DecidableEq, Repr

/-- The rejection in words. -/
def Rejection.message (r : Rejection) : String :=
  "invalid value " ++ quoted r.value ++ " for " ++ r.name ++ ": expected " ++ r.expected

namespace SettingType

/-- A setting of this name, written in any case. -/
def named (name : String) (kind : Kind) : SettingType := ⟨asciiLower name, kind⟩

/-- The value that a text denotes for this setting. -/
def read? (t : SettingType) (s : String) : Option Value := t.kind.read? s

/-- Accept the text or say why not. -/
def check (t : SettingType) (s : String) : Except Rejection Value :=
  match t.read? s with
  | some v => .ok v
  | none => .error ⟨t.name, s, t.kind.expected⟩

end SettingType

/-! ## 2. Names with a meaning of their own -/

namespace Setting.Name

/-- What one step of indentation consists of. -/
def indentStyle : String := "indent_style"

/-- The width of one step of indentation. -/
def indentSize : String := "indent_size"

/-- The width of a tab. -/
def tabWidth : String := "tab_width"

/-- How lines end. -/
def endOfLine : String := "end_of_line"

/-- The encoding of a file. -/
def charset : String := "charset"

/-- Whether blanks at the ends of lines are removed. -/
def trimTrailingWhitespace : String := "trim_trailing_whitespace"

/-- Whether the last line is ended. -/
def insertFinalNewline : String := "insert_final_newline"

/-- The longest line. -/
def maxLineLength : String := "max_line_length"

/-- Whether the search for further files ends. -/
def root : String := "root"

/-- The settings whose values ignore case. -/
def caseless : List String :=
  [endOfLine, indentStyle, indentSize, insertFinalNewline, trimTrailingWhitespace, charset]

/-- The values of this setting ignore case. -/
def isCaseless (name : String) : Bool := caseless.any (sameWord · name)

end Setting.Name

/-! ## 3. Registries -/

/-- The known settings; each name occurs once. -/
abbrev Registry := Keyed SettingType SettingType.name

namespace Registry

/-- The type of a setting, whose name may be written in any case. -/
def type? (r : Registry) (name : String) : Option SettingType := Keyed.find? r (asciiLower name)

open Setting.Name in
/-- The settings of the file format. -/
def builtin : Registry :=
  Keyed.empty.insertAll
    [.named indentStyle (.oneOf ["tab", "space"]),
     .named indentSize .positiveIntOrTab,
     .named tabWidth .positiveInt,
     .named endOfLine (.oneOf ["lf", "cr", "crlf"]),
     .named charset (.oneOf ["latin1", "utf-8", "utf-8-bom", "utf-16be", "utf-16le"]),
     .named trimTrailingWhitespace .boolean,
     .named insertFinalNewline .boolean,
     .named maxLineLength .positiveIntOrOff,
     .named root .boolean]

end Registry
end EditorSettings
