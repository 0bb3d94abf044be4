/-
# Case of ASCII letters

Names and keywords ignore the case of ASCII letters and of no others.  `asciiLower` is the
canonical spelling, and `sameWord` compares two words by it.
-/

namespace EditorSettings.Text

/-- The text with its ASCII capitals replaced by small letters. -/
def asciiLower (s : String) : String := String.ofList (s.toList.map Char.toLower)

/-- Equal up to the case of ASCII letters. -/
def sameWord (a b : String) : Bool := asciiLower a == asciiLower b

end EditorSettings.Text
