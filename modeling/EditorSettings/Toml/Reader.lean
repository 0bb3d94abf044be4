/-
# Reading TOML

A document is a list of lines: keys with values, headers, comments and blank lines.  `parse?`
gives the entries of the document, or `none` if it breaks a rule.

Arrays and tables in braces may be nested, but not as deep as `maxDepth`.
-/
import EditorSettings.Toml.Number
import EditorSettings.Toml.Text
import EditorSettings.Toml.Value

namespace EditorSettings.Toml

/-! ## 1. Blanks and comments -/

/-- The text after its blanks. -/
def dropSpaces (s : List Char) : List Char := s.dropWhile isSpace

/-- What follows a comment, if one begins here and holds no control characters. -/
def commentRest? : List Char → Option (List Char)
  | '#' :: rest => some (rest.dropWhile isPlain)
  | _ => none

/-- What follows the end of a line, the end of the text being one. -/
def endRest? : List Char → Option (List Char)
  | [] => some []
  | s => lineEnd? s

/-- What follows the blanks, the comment and the end of a line. -/
def trailingRest? (s : List Char) : Option (List Char) :=
  let s := dropSpaces s
  endRest? ((commentRest? s).getD s)

/-- The text after blanks, comments and line ends; `fuel` is its length. -/
def dropGaps : Nat → List Char → List Char
  | 0, s => s
  | fuel + 1, s =>
    let s := dropSpaces s
    match lineEnd? s with
    | some rest => dropGaps fuel rest
    | none =>
      match (commentRest? s).bind lineEnd? with
      | some rest => dropGaps fuel rest
      | none => s

/-- The text after all gaps. -/
def dropAllGaps (s : List Char) : List Char := dropGaps (s.length + 1) s

/-! ## 2. Keys -/

/-- Keys and values may not be nested as deep as this. -/
def maxDepth : Nat := 80

/-- A character of a key without quotes. -/
def isKeyChar (c : Char) : Bool := c.isAlphanum || c == '_' || c == '-'

/-- A single key, and the rest. -/
def simpleKey? (s : List Char) : Option (String × List Char) :=
  match s with
  | '"' :: rest => (basic? (rest.length + 1) rest).map fun (k, rest) => (String.ofList k, rest)
  | '\'' :: rest => (literal? rest).map fun (k, rest) => (String.ofList k, rest)
  | s =>
    let k := s.takeWhile isKeyChar
    if k.isEmpty then none else some (String.ofList k, s.drop k.length)

/-- The parts of a dotted key, and the rest; `fuel` is the length of the text. -/
def keyParts? : Nat → List Char → Option (List String × List Char)
  | 0, _ => none
  | fuel + 1, s => do
    let (k, s) ← simpleKey? (dropSpaces s)
    match dropSpaces s with
    | '.' :: rest =>
      let (ks, rest) ← keyParts? fuel rest
      pure (k :: ks, rest)
    | rest => pure ([k], rest)

/-- A dotted key: the parts before the last one, the last one, and the rest. -/
def key? (s : List Char) : Option (List String × String × List Char) := do
  let (ks, rest) ← keyParts? (s.length + 1) s
  let last ← ks.getLast?
  if ks.length < maxDepth then pure (ks.dropLast, last, rest) else none

/-! ## 3. Values -/

/-- A reader of values. -/
abbrev ValueReader := List Char → Option (Value × List Char)

/-- The items of an array up to the closing bracket; `fuel` is the length of the text. -/
def items? (item? : ValueReader) : Nat → List Char → Option (List Value × List Char)
  | 0, _ => none
  | fuel + 1, s =>
    match dropAllGaps s with
    | ']' :: rest => some ([], rest)
    | s => do
      let (v, s) ← item? s
      match dropAllGaps s with
      | ',' :: rest =>
        let (vs, rest) ← items? item? fuel rest
        pure (v :: vs, rest)
      | ']' :: rest => pure ([v], rest)
      | _ => none

/-- A key with its value, added to the entries of a table, and the rest. -/
def keyValue? (value? : ValueReader) (origin : Origin) (entries : Entries) (s : List Char) :
    Option (Entries × List Char) := do
  let (path, key, s) ← key? s
  let (v, s) ← value? (dropSpaces (← after? '=' s))
  pure (← addKey? path key v origin entries, s)

/-- The rest of a table in braces that has the entries already; `fuel` is the length of the
text. -/
def bracesRest? (value? : ValueReader) : Nat → Entries → List Char → Option (Entries × List Char)
  | 0, _, _ => none
  | fuel + 1, entries, s => do
    let (entries, s) ← keyValue? value? .header entries s
    match dropSpaces s with
    | ',' :: rest => bracesRest? value? fuel entries rest
    | '\x7d' :: rest => pure (entries, rest)
    | _ => none

/-- A table in braces, given what follows the opening one. -/
def braces? (value? : ValueReader) (s : List Char) : Option (Value × List Char) :=
  match dropSpaces s with
  | '\x7d' :: rest => some (.braces [], rest)
  | s => (bracesRest? value? (s.length + 1) [] s).map fun (es, rest) => (.braces es, rest)

/-- A number or a date, and the rest. -/
def scalar? (s : List Char) : Option (Value × List Char) :=
  match dateRest? s, fractionRest? s, specialRest? s, integerRest? s with
  | some rest, _, _, _ => some (.date, rest)
  | none, some rest, _, _ => some (.number, rest)
  | none, none, some rest, _ => some (.number, rest)
  | none, none, none, some rest => some (.number, rest)
  | none, none, none, none => none

/-- A value in which other values may be nested `depth` times, and the rest. -/
def value? : Nat → ValueReader
  | depth, s =>
    match s with
    | '"' :: _ => (text? s).map fun (t, rest) => (.text (String.ofList t), rest)
    | '\'' :: _ => (text? s).map fun (t, rest) => (.text (String.ofList t), rest)
    | 't' :: 'r' :: 'u' :: 'e' :: rest => some (.truth, rest)
    | 'f' :: 'a' :: 'l' :: 's' :: 'e' :: rest => some (.truth, rest)
    | '[' :: rest =>
      match depth with
      | 0 => none
      | depth + 1 => (items? (value? depth) (rest.length + 1) rest).map fun (vs, rest) =>
          (.array vs, rest)
    | '\x7b' :: rest =>
      match depth with
      | 0 => none
      | depth + 1 => braces? (value? depth) rest
    | s => scalar? s

/-! ## 4. Documents -/

/-- A document of which a part has been read: its entries, and the header that holds. -/
structure Reading where
  root : Entries := []
  header : List String := []

/-- A header, given what follows its opening brackets. -/
def headerRest? (closing : List Char) (s : List Char) :
    Option (List String × String × List Char) := do
  let (path, key, s) ← key? s
  if s.take closing.length = closing then
    pure (path, key, ← trailingRest? (s.drop closing.length))
  else none

/-- Read one line of a document. -/
def line? (r : Reading) (s : List Char) : Option (Reading × List Char) :=
  match s with
  | '#' :: _ => do pure (r, ← trailingRest? s)
  | '\n' :: rest => some (r, rest)
  | '\r' :: _ => do pure (r, ← lineEnd? s)
  | '[' :: '[' :: rest => do
    let (path, key, rest) ← headerRest? [']', ']'] rest
    pure (⟨← addElement? path key r.root, path ++ [key]⟩, rest)
  | '[' :: rest => do
    let (path, key, rest) ← headerRest? [']'] rest
    pure (⟨← addTable? path key r.root, path ++ [key]⟩, rest)
  | s => do
    let (path, key, s) ← key? s
    let (v, s) ← value? (maxDepth - 1) (dropSpaces (← after? '=' s))
    let rest ← trailingRest? s
    let root ← change? false (addKey? path key v) r.header .header r.root
    pure (⟨root, r.header⟩, rest)

/-- Read the lines of a document; `fuel` is the length of the text. -/
def lines? : Nat → Reading → List Char → Option Reading
  | 0, r, s => if (dropSpaces s).isEmpty then some r else none
  | fuel + 1, r, s =>
    match dropSpaces s with
    | [] => some r
    | s => (line? r s).bind fun (r, rest) => lines? fuel r rest

/-- The entries of a document. -/
def parse? (source : String) : Option Entries :=
  let s := match source.toList with
    | '\ufeff' :: rest => rest
    | s => s
  (lines? (s.length + 1) {} s).map Reading.root

end EditorSettings.Toml
