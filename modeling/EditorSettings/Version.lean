/-
# Versions of the file format

A version is a dotted list of numbers.  Versions are compared number by number, and numbers that
are missing count as zero.  So does a part that is no number, or one that does not fit 64 bits:
every text is a version.
-/
import EditorSettings.Text.Blank
import EditorSettings.Text.Decimal
import EditorSettings.Text.Line

namespace EditorSettings

open EditorSettings.Text

/-- The numbers of a dotted version. -/
structure Version where
  parts : List Nat
  deriving DecidableEq, Repr

namespace Version

/-- The largest number in a version. -/
def maxPart : Nat := 18446744073709551615

/-- The number that one part stands for; a plus sign may precede it. -/
def part (s : List Char) : Nat :=
  let digits := match s with
    | '+' :: rest => rest
    | s => s
  ((natural? digits).filter (· ≤ maxPart)).getD 0

/-- The version that a text denotes. -/
def ofString (s : String) : Version := ⟨(pieces '.' (trim s.toList)).map part⟩

/-- The order of two lists of numbers, the shorter one continued by zeros. -/
def compareParts : List Nat → List Nat → Ordering
  | [], [] => .eq
  | a :: as, [] => (compare a 0).then (compareParts as [])
  | [], b :: bs => (compare 0 b).then (compareParts [] bs)
  | a :: as, b :: bs => (compare a b).then (compareParts as bs)

/-- The order of two versions. -/
def compare (a b : Version) : Ordering := compareParts a.parts b.parts

end Version

/-- The version that is assumed if none is given. -/
def defaultVersion : String := "0.12.0"

end EditorSettings
