/-
# Ranges of integers

`{3..12}` in a glob stands for the integers between its bounds, which may come in either order.
A text is accepted as one of them if it is written without needless zeros; a sign may precede
it.
-/
import EditorSettings.Text.Decimal

namespace EditorSettings.Glob

open EditorSettings.Text

/-- The integers from `low` to `high`. -/
structure Range where
  low : Int
  high : Int
  deriving DecidableEq, Repr

namespace Range

/-- What stands before and after the first two dots. -/
def splitDots? : List Char → Option (List Char × List Char)
  | '.' :: '.' :: rest => some ([], rest)
  | c :: rest => (splitDots? rest).map fun (a, b) => (c :: a, b)
  | [] => none

/-- The range between two integers of 64 bits with two dots between them. -/
def ofText? (s : List Char) : Option Range :=
  match splitDots? s with
  | none => none
  | some (a, b) =>
    match int64? a, int64? b with
    | some m, some n => some ⟨min m n, max m n⟩
    | _, _ => none

/-- The digits begin with a zero that could be left out. -/
def hasNeedlessZero (s : List Char) : Bool :=
  match s.dropWhile fun c => c == '+' || c == '-' with
  | '0' :: _ :: _ => true
  | _ => false

/-- The text is an integer of the range. -/
def accepts (r : Range) (s : List Char) : Bool :=
  !hasNeedlessZero s &&
    match int64? s with
    | some n => r.low ≤ n && n ≤ r.high
    | none => false

end Range
end EditorSettings.Glob
