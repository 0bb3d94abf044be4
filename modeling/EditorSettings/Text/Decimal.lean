/-
# Decimal numbers

Reading numbers of ASCII digits, with and without a sign, and against a bound.  A text that is
no number at all, or one beyond the bound, gives `none`: nothing wraps and nothing is clamped.
-/

namespace EditorSettings.Text

/-- An ASCII digit. -/
def isDigit (c : Char) : Bool := '0' ≤ c && c ≤ '9'

/-- The value of a digit. -/
def digitValue (c : Char) : Nat := c.toNat - '0'.toNat

/-- The number whose digits continue `acc`. -/
def digitsFrom (acc : Nat) : List Char → Nat
  | [] => acc
  | c :: rest => digitsFrom (10 * acc + digitValue c) rest

/-- The number written by a run of digits that is not empty. -/
def natural? (s : List Char) : Option Nat :=
  if s.isEmpty || !s.all isDigit then none else some (digitsFrom 0 s)

/-- The text after one leading sign, if there is one. -/
def dropSign : List Char → List Char
  | c :: rest => if c = '+' || c = '-' then rest else c :: rest
  | [] => []

/-- A run of digits after at most one sign. -/
def integer? : List Char → Option Int
  | '-' :: rest => (natural? rest).map fun n => -(n : Int)
  | s => (natural? (dropSign s)).map Int.ofNat

/-- The bounds of a signed word of 64 bits. -/
def int64Bounds : Int × Int := (-9223372036854775808, 9223372036854775807)

/-- An integer that fits a signed word of 64 bits. -/
def int64? (s : List Char) : Option Int :=
  (integer? s).filter fun n => int64Bounds.1 ≤ n && n ≤ int64Bounds.2

end EditorSettings.Text
