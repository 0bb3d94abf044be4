/-
# Texts in TOML

Texts stand between double quotes, with escapes, or between single quotes, without.  Either may
be tripled, and the text may then run over several lines.  A reader gets what follows the opening
quotes and gives the text together with what follows the closing ones.
-/

namespace EditorSettings.Toml

/-! ## 1. Characters -/

/-- A character that may stand in a text or a comment as it is: a tab, or no control character. -/
def isPlain (c : Char) : Bool := c == '\t' || (0x20 ≤ c.toNat && c != '\x7f')

/-- A space or a tab. -/
def isSpace (c : Char) : Bool := c == ' ' || c == '\t'

/-- The value of a hexadecimal digit. -/
def hexDigit? (c : Char) : Option Nat :=
  if '0' ≤ c ∧ c ≤ '9' then some (c.toNat - '0'.toNat)
  else if 'a' ≤ c ∧ c ≤ 'f' then some (c.toNat - 'a'.toNat + 10)
  else if 'A' ≤ c ∧ c ≤ 'F' then some (c.toNat - 'A'.toNat + 10)
  else none

/-- The number that hexadecimal digits write. -/
def hexadecimal? (s : List Char) : Option Nat :=
  s.foldlM (fun n c => (hexDigit? c).map (16 * n + ·)) 0

/-- The character of a code point written with `n` hexadecimal digits. -/
def codePoint? (n : Nat) (s : List Char) : Option (Char × List Char) :=
  if s.length < n then none
  else
    (hexadecimal? (s.take n)).bind fun v =>
      if v.isValidChar then some (Char.ofNat v, s.drop n) else none

/-- The character of an escape, given what follows the backslash. -/
def escape? : List Char → Option (Char × List Char)
  | 'b' :: rest => some ('\x08', rest)
  | 't' :: rest => some ('\t', rest)
  | 'n' :: rest => some ('\n', rest)
  | 'f' :: rest => some ('\x0c', rest)
  | 'r' :: rest => some ('\r', rest)
  | '"' :: rest => some ('"', rest)
  | '\\' :: rest => some ('\\', rest)
  | 'u' :: rest => codePoint? 4 rest
  | 'U' :: rest => codePoint? 8 rest
  | _ => none

/-! ## 2. Texts on one line -/

/-- A character in front of a text that has been read. -/
def push (c : Char) : Option (List Char × List Char) → Option (List Char × List Char) :=
  Option.map fun (s, rest) => (c :: s, rest)

/-- The text up to the next double quote; `fuel` is the length of what is left. -/
def basic? : Nat → List Char → Option (List Char × List Char)
  | 0, _ => none
  | _ + 1, [] => none
  | _ + 1, '"' :: rest => some ([], rest)
  | fuel + 1, '\\' :: rest => (escape? rest).bind fun (c, rest) => push c (basic? fuel rest)
  | fuel + 1, c :: rest => if isPlain c then push c (basic? fuel rest) else none

/-- The text up to the next single quote. -/
def literal? : List Char → Option (List Char × List Char)
  | [] => none
  | '\'' :: rest => some ([], rest)
  | c :: rest => if isPlain c then push c (literal? rest) else none

/-! ## 3. Texts on several lines -/

/-- What follows a line end, if there is one. -/
def lineEnd? : List Char → Option (List Char)
  | '\n' :: rest => some rest
  | '\r' :: '\n' :: rest => some rest
  | _ => none

/-- The text after a line end that directly follows the opening quotes. -/
def dropFirstLineEnd (s : List Char) : List Char := (lineEnd? s).getD s

/-- The end of a text, at a run of quotes: the quotes that still belong to the text, and the
rest.  Three of the quotes end the text, and at most two belong to it. -/
def closing? (quote : Char) (s : List Char) : Option (List Char × List Char) :=
  let run := (s.takeWhile (· == quote)).length
  if run < 3 then none
  else
    let own := min (run - 3) 2
    some (List.replicate own quote, s.drop (own + 3))

/-- The text after the blanks and line ends that a backslash at the end of a line takes along. -/
def dropBlankLines : List Char → List Char
  | '\r' :: '\n' :: rest => dropBlankLines rest
  | c :: rest => if isSpace c || c == '\n' then dropBlankLines rest else c :: rest
  | [] => []

/-- What a backslash at the end of a line takes along, if it stands there. -/
def continued? (s : List Char) : Option (List Char) :=
  (lineEnd? (s.dropWhile isSpace)).map dropBlankLines

/-- The text up to three quotes; `fuel` is the length of what is left, and `escapes` says that a
backslash begins an escape. -/
def manyLines? (quote : Char) (escapes : Bool) : Nat → List Char → Option (List Char × List Char)
  | 0, _ => none
  | _ + 1, [] => none
  | fuel + 1, c :: rest =>
    if c = quote then
      match closing? quote (c :: rest) with
      | some ending => some ending
      | none => push c (manyLines? quote escapes fuel rest)
    else if c = '\\' ∧ escapes then
      match continued? rest with
      | some rest => manyLines? quote escapes fuel rest
      | none => (escape? rest).bind fun (d, rest) => push d (manyLines? quote escapes fuel rest)
    else
      match lineEnd? (c :: rest) with
      | some rest => push '\n' (manyLines? quote escapes fuel rest)
      | none => if isPlain c then push c (manyLines? quote escapes fuel rest) else none

/-! ## 4. All texts -/

/-- The text that begins with quotes. -/
def text? : List Char → Option (List Char × List Char)
  | '"' :: '"' :: '"' :: rest => manyLines? '"' true (rest.length + 1) (dropFirstLineEnd rest)
  | '\'' :: '\'' :: '\'' :: rest => manyLines? '\'' false (rest.length + 1) (dropFirstLineEnd rest)
  | '"' :: rest => basic? (rest.length + 1) rest
  | '\'' :: rest => literal? rest
  | _ => none

end EditorSettings.Toml
