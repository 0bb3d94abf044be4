/-
# Colours

Each part of the output has a colour of its own, or none if colours are off.
-/

namespace EditorSettings

/-- The escape sequences that begin each part, and the one that ends any of them. -/
structure Palette where
  header : String := ""
  name : String := ""
  invalid : String := ""
  error : String := ""
  warning : String := ""
  reset : String := ""
  deriving DecidableEq, Repr

namespace Palette

/-- No colours. -/
def plain : Palette := {}

/-- Cyan headers, green names, yellow and red for what is wrong. -/
def coloured : Palette where
  header := "\x1b[1;36m"
  name := "\x1b[32m"
  invalid := "\x1b[33m"
  error := "\x1b[31m"
  warning := "\x1b[33m"
  reset := "\x1b[0m"

/-- The palette with or without colours. -/
def choose (useColours : Bool) : Palette := if useColours then coloured else plain

/-- Whether to use colours.  A request not to comes before a request to use them, then the
environment may turn them off, and they suit a terminal only. -/
def isWanted (force suppress offInEnvironment isTerminal : Bool) : Bool :=
  !suppress && (force || (!offInEnvironment && isTerminal))

end Palette
end EditorSettings
