/-
# Bytes

Some rules look at a text byte by byte, in UTF-8.  `bytes` writes each byte as the character
with its number, so that whatever reads a text can read bytes as well.  `decodedLines` goes the
other way: it gives the lines of a file up to the first one that is no UTF-8.
-/
import EditorSettings.Text.Line

namespace EditorSettings.Text

/-- The bytes of a text, each as the character with its number. -/
def bytes (s : List Char) : List Char :=
  s.flatMap fun c => (String.utf8EncodeChar c).map fun b => Char.ofNat b.toNat

theorem bytes_append (s t : List Char) : bytes (s ++ t) = bytes s ++ bytes t := by
  simp [bytes]

/-- The lines of a file with their ends. -/
def byteLines : List UInt8 → List (List UInt8)
  | [] => []
  | b :: rest =>
    if b = 10 then [b] :: byteLines rest
    else
      match byteLines rest with
      | [] => [[b]]
      | line :: more => (b :: line) :: more

/-- The text that the bytes encode. -/
def decode? (s : List UInt8) : Option (List Char) :=
  (String.fromUTF8? ⟨s.toArray⟩).map String.toList

/-- The decoded lines without their ends, up to the first that cannot be decoded, and whether
that is all of them. -/
def decodedLinesOf : List (List UInt8) → List (List Char) × Bool
  | [] => ([], true)
  | line :: more =>
    match decode? line with
    | some s => (lines s ++ (decodedLinesOf more).1, (decodedLinesOf more).2)
    | none => ([], false)

/-- The decoded lines of a file, and whether they are all of its lines. -/
def decodedLines (content : ByteArray) : List (List Char) × Bool :=
  decodedLinesOf (byteLines content.toList)

end EditorSettings.Text
