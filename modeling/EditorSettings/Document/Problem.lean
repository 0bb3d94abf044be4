/-
# Problems

A line that cannot be read is skipped and reported.  A problem says which line it was and what
was wrong with it; only a line without any meaning is an error, a value without a name is worth
a warning.
-/

namespace EditorSettings

/-- What can be wrong with a line. -/
inductive Problem.Kind
  /-- A header that is not closed. -/
  | malformedHeader
  /-- Neither header nor setting nor comment. -/
  | malformedLine
  /-- A value without a name. -/
  | missingName
  deriving DecidableEq, Repr

/-- How bad a problem is. -/
inductive Severity
  | error
  | warning
  deriving DecidableEq, Repr

/-- The severity in a word. -/
def Severity.word : Severity → String
  | .error => "error"
  | .warning => "warning"

/-- A line that was skipped, counted from one. -/
structure Problem where
  line : Nat
  kind : Problem.Kind
  detail : String
  deriving DecidableEq, Repr

namespace Problem

/-- The line has no meaning. -/
def Kind.isSyntactic : Kind → Bool
  | malformedHeader => true
  | malformedLine => true
  | missingName => false

/-- How bad the problem is. -/
def severity (p : Problem) : Severity := if p.kind.isSyntactic then .error else .warning

/-- The problem in words. -/
def message (p : Problem) : String := "line " ++ toString p.line ++ ": " ++ p.detail

/-- A header line without its closing bracket. -/
def unclosedHeader (line : Nat) (text : String) : Problem :=
  ⟨line, .malformedHeader, "section header `" ++ text ++ "` is missing its closing `]`"⟩

/-- A line without a separator. -/
def unseparated (line : Nat) (text : String) : Problem :=
  ⟨line, .malformedLine, "expected `name = value`, found `" ++ text ++ "`"⟩

/-- A line with nothing before the separator. -/
def nameless (line : Nat) : Problem := ⟨line, .missingName, "option has no name"⟩

end Problem
end EditorSettings
