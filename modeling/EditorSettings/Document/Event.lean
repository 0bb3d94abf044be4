/-
# Events

A settings file is read line by line, and each line is of one of a few shapes (`Line.read`).
The shapes become events, which nest: a document holds sections, a section holds settings, and a
setting has a name and a value.  The text before the first header is a section without a
pattern.

A line that cannot be read never ends the reading.  A malformed header drops its section, that
is all lines up to the next header; any other malformed line drops itself.
-/
import EditorSettings.Document.Problem
import EditorSettings.Text.Blank
import EditorSettings.Text.Line

namespace EditorSettings

open EditorSettings.Text

/-! ## 1. Lines -/

/-- The shape of a line. -/
inductive Line
  /-- Nothing, or a comment. -/
  | blank
  | header (pattern : List Char)
  /-- A header that is not closed. -/
  | unclosed (text : List Char)
  | setting (name value : List Char)
  /-- A value without a name. -/
  | nameless
  /-- A line without a separator. -/
  | unseparated (text : List Char)
  deriving DecidableEq, Repr

namespace Line

/-- The separator between a name and its value. -/
def isSeparator (c : Char) : Bool := c == '=' || c == ':'

/-- The shape of a header line, given what follows its opening bracket. -/
def readHeader (rest : List Char) : Line :=
  if rest.getLast? = some ']' then .header rest.dropLast else .unclosed ('[' :: rest)

/-- The shape of a line that is neither blank nor a comment nor a header. -/
def readSetting (s : List Char) : Line :=
  match s.dropWhile (!isSeparator ·) with
  | [] => .unseparated s
  | _ :: value =>
    let name := trim (s.takeWhile (!isSeparator ·))
    if name.isEmpty then .nameless else .setting name (trim value)

/-- The shape of a line. -/
def read (s : List Char) : Line :=
  match trim s with
  | [] => .blank
  | '#' :: _ => .blank
  | ';' :: _ => .blank
  | '[' :: rest => readHeader rest
  | s => readSetting s

end Line

/-! ## 2. Events -/

/-- A step in reading a document. -/
inductive Event
  | documentStart
  | documentEnd
  | sectionStart
  | sectionEnd
  | pattern (s : String)
  | settingStart
  | settingName (s : String)
  | settingValue (s : String)
  | settingEnd
  | problem (p : Problem)
  deriving DecidableEq, Repr

namespace Event

/-- The end of a section, if one is open. -/
def closing (isOpen : Bool) : List Event := if isOpen then [sectionEnd] else []

/-- The events of a line other than a header, if its section is not dropped. -/
def ofLine (number : Nat) : Line → List Event
  | .setting name value =>
    [settingStart, settingName (String.ofList name), settingValue (String.ofList value), settingEnd]
  | .nameless => [problem (.nameless number)]
  | .unseparated s => [problem (.unseparated number (String.ofList s))]
  | .blank => []
  | .header _ => []
  | .unclosed _ => []

/-- The events of the lines from `number` on. -/
def ofLinesFrom (isOpen : Bool) (number : Nat) : List Line → List Event
  | [] => closing isOpen ++ [documentEnd]
  | .header s :: rest =>
    closing isOpen ++ [sectionStart, pattern (String.ofList s)] ++
      ofLinesFrom true (number + 1) rest
  | .unclosed s :: rest =>
    closing isOpen ++ [problem (.unclosedHeader number (String.ofList s))] ++
      ofLinesFrom false (number + 1) rest
  | line :: rest =>
    (if isOpen then ofLine number line else []) ++ ofLinesFrom isOpen (number + 1) rest

/-- The text without a byte order mark in front. -/
def dropMark : List Char → List Char
  | '\ufeff' :: rest => rest
  | s => s

/-- The lines of a text. -/
def linesOf (source : String) : List Line := (lines (dropMark source.toList)).map Line.read

/-- The events of a text. -/
def ofText (source : String) : List Event :=
  [documentStart, sectionStart] ++ ofLinesFrom true 1 (linesOf source)

end Event
end EditorSettings
