/-
# Readings of a text by an expression

An expression can read the front of a text in several ways.  Each way is a `Reading`: the place
in the text that it has come to, and the numbers met so far with their indices.  The ways have
an order.  Earlier branches come before later ones, and a repetition prefers to read more: the
first reading that comes to the end is the one that counts.

Of two readings that have come to the same place, only the first can ever count, so the others
are dropped (`distinct`), or not found at all where a repetition comes to a place that it has
been to (`stretch`).  There are then never more readings than there are places in the text, and
all of them go through the expression together.  Where it branches, each reading leaves its
number with those that continue it, so that they can be put in order afterwards.
-/
import EditorSettings.Glob.Expr

namespace EditorSettings.Glob

open EditorSettings.Text

/-! ## 1. Places -/

/-- A place in a text: what follows, and how much that is. -/
structure Place where
  rest : List Char
  left : Nat
  left_eq : left = rest.length
  deriving DecidableEq, Repr

namespace Place

/-- The place in front of a text. -/
def start (s : List Char) : Place := ⟨s, s.length, rfl⟩

/-- The place after a character of a kind. -/
def after? (p : Char → Bool) : Place → Option Place
  | ⟨c :: rest, left, h⟩ =>
    if p c then some ⟨rest, left - 1, by simp [h]⟩ else none
  | ⟨[], _, _⟩ => none

/-- The place after a sign, if there is one. -/
def afterSign (a : Place) : Place := (a.after? fun c => c == '+' || c == '-').getD a

/-- The text between two places. -/
def textTo (a b : Place) : List Char := a.rest.take (a.left - b.left)

end Place

/-- The places that characters of a kind lead to from here, the last one first, up to a place
that has been seen; `passed` are those on the way. -/
def stretch (p : Char → Bool) (seen : Nat) (passed : List Place) :
    (rest : List Char) → (left : Nat) → left = rest.length → List Place
  | [], left, h => if seen.testBit left then passed else ⟨[], left, h⟩ :: passed
  | c :: rest, left, h =>
    if seen.testBit left then passed
    else if p c then
      stretch p seen (⟨c :: rest, left, h⟩ :: passed) rest (left - 1) (by simp [h])
    else ⟨c :: rest, left, h⟩ :: passed

/-- The places that have been seen, with one more. -/
def mark (seen : Nat) (a : Place) : Nat := seen ||| 1 <<< a.left

/-! ## 2. Readings -/

/-- A way to read the front of a text. -/
structure Reading where
  place : Place
  /-- The numbers that have been read, and their indices. -/
  numbers : List (Nat × List Char) := []
  /-- The readings that this one continues, where an expression branches. -/
  origins : List Nat := []
  deriving DecidableEq, Repr

namespace Reading

/-- The reading that has come to another place. -/
def moveTo (r : Reading) (a : Place) : Reading := { r with place := a }

/-- The reading that has come to a place after a number. -/
def numberTo (index : Nat) (r : Reading) (a : Place) : Reading :=
  { r with place := a, numbers := (index, r.place.textTo a) :: r.numbers }

/-- Readings with their numbers in a list. -/
def enter (rs : List Reading) : List Reading :=
  rs.zipIdx.map fun (r, i) => { r with origins := i :: r.origins }

/-- The reading without the last origin. -/
def leave (r : Reading) : Reading := { r with origins := r.origins.tail }

/-- The last origin of the first reading does not come after that of the second. -/
def notAfter (r t : Reading) : Bool := r.origins.headD 0 ≤ t.origins.headD 0

end Reading

/-- The readings that have come to places not seen, the first one for each place. -/
def distinct (seen : Nat) : List Reading → List Reading
  | [] => []
  | r :: more =>
    if seen.testBit r.place.left then distinct seen more
    else r :: distinct (mark seen r.place) more

/-- The readings that continue others by as many characters of a kind as possible, then by one
less, and so on.  Each of them is given by the place where it begins to do so, and by what it
becomes at a place. -/
def spread (p : Char → Bool) (seen : Nat) : List (Place × (Place → Reading)) → List Reading
  | [] => []
  | (a, become) :: more =>
    let found := stretch p seen [] a.rest a.left a.left_eq
    found.map become ++ spread p (found.foldl mark seen) more

/-! ## 3. Expressions -/

/-- The readings that continue others by one character of a kind. -/
def Reading.byOne (p : Char → Bool) (rs : List Reading) : List Reading :=
  rs.filterMap fun r => (r.place.after? p).map r.moveTo

/-- The readings that continue others by a run of characters of a kind. -/
def Reading.byRun (p : Char → Bool) (rs : List Reading) : List Reading :=
  spread p 0 (rs.map fun r => (r.place, r.moveTo))

/-- The readings that continue others by an integer. -/
def Reading.byNumber (index : Nat) (rs : List Reading) : List Reading :=
  spread isDigit 0 (rs.filterMap fun r =>
    (r.place.afterSign.after? isDigit).map fun a => (a, r.numberTo index))

/-- The readings that continue those of a list by an atom. -/
def Atom.readings : Atom → List Reading → List Reading
  | .char c => Reading.byOne (· == c)
  | .set s => Reading.byOne s.has
  | .one => Reading.byOne (· != '/')
  | .run => Reading.byRun (· != '/')
  | .any => Reading.byRun fun _ => true
  | .number index => Reading.byNumber index

/-- The readings that continue those of a list. -/
def Expr.readings : Expr → List Reading → List Reading
  | .empty, rs => rs
  | .atom a, rs => a.readings rs
  | .seq a b, rs => b.readings (a.readings rs)
  | .either a b, rs =>
    let both := (a.readings (Reading.enter rs)).merge (b.readings (Reading.enter rs))
      Reading.notAfter
    distinct 0 (both.map Reading.leave)
  | .group e, rs => e.readings rs

/-- The reading of a whole text that counts. -/
def Expr.whole? (e : Expr) (s : List Char) : Option Reading :=
  (e.readings [⟨.start s, [], []⟩]).find? (·.place.rest.isEmpty)

end EditorSettings.Glob
