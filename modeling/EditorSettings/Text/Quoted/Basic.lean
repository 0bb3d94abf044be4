/-
# Quoted text

A text shown in a message stands between double quotes.  Characters that would end it or could
not be seen are written as escapes: a backslash before `\` and `"`, the usual letters for NUL,
tab and line ends, and the code point in braces for the rest.
-/
import EditorSettings.Text.Quoted.Table

namespace EditorSettings.Text

/-- A number in hexadecimal, in small letters. -/
def hexadecimal (n : Nat) : List Char := Nat.toDigits 16 n

/-- The written form of one character. -/
def quotedChar (c : Char) : List Char :=
  match c with
  | '\x00' => ['\\', '0']
  | '\t' => ['\\', 't']
  | '\r' => ['\\', 'r']
  | '\n' => ['\\', 'n']
  | '"' => ['\\', '"']
  | '\\' => ['\\', '\\']
  | c =>
    if inSpans attachedSpans c || inSpans hiddenSpans c then
      ['\\', 'u', '\x7b'] ++ hexadecimal c.toNat ++ ['\x7d']
    else [c]

/-- The text between double quotes. -/
def quoted (s : String) : String :=
  String.ofList ('"' :: s.toList.flatMap quotedChar ++ ['"'])

end EditorSettings.Text
