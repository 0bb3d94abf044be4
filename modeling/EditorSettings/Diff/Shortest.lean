/-
# A shortest list of edits

The edits between two texts are found by divide and conquer.  Lines that both texts begin or end
with are kept.  In what is left, a point is searched that a shortest way through both texts goes
through, and the two halves are treated alike.

The point is where two searches meet, one from the front and one from the back.  A search
follows diagonals: on the diagonal `k`, the place `x` in the old text stands beside `x - k` in the
new one.  After `d` rounds it knows how far `d` edits reach on each diagonal.
-/
import EditorSettings.Diff.Edit

namespace EditorSettings.Diff

/-! ## 1. Diagonals -/

/-- How far a search has come on each diagonal, `middle` being the place of the diagonal 0. -/
structure Reach where
  middle : Nat
  places : Array Nat

namespace Reach

/-- A search that has not begun. -/
def start (size : Nat) : Reach := ⟨size + 1, Array.replicate (2 * size + 3) 0⟩

/-- The place on a diagonal. -/
def get (r : Reach) (k : Int) : Nat := r.places.getD (r.middle + k).toNat 0

/-- Come to a place on a diagonal. -/
def set (r : Reach) (k : Int) (x : Nat) : Reach :=
  { r with places := r.places.setIfInBounds (r.middle + k).toNat x }

/-- Where the next step on the diagonal `k` begins, in the round `d`. -/
def next (r : Reach) (d k : Int) : Nat :=
  if k = -d || (k != d && r.get (k - 1) < r.get (k + 1)) then r.get (k + 1)
  else r.get (k - 1) + 1

end Reach

/-- The diagonals of the round `d`, from the top. -/
def diagonals (d : Nat) : List Int := (List.range (d + 1)).map fun (i : Nat) => (d : Int) - 2 * i

/-! ## 2. The middle -/

/-- A part of the old text beside a part of the new one. -/
structure Pair where
  old : Part
  new : Part
  deriving DecidableEq, Repr

/-- The difference of the sizes: the diagonal on which both parts end. -/
def Pair.delta (p : Pair) : Int := (p.old.size : Int) - p.new.size

/-- The number of rounds that are enough. -/
def Pair.rounds (p : Pair) : Nat := (p.old.size + p.new.size + 1) / 2 + 1

/-- Two searches, and the point where they have met. -/
structure Meeting where
  front : Reach
  back : Reach
  point? : Option (Nat × Nat) := none

section

variable (old new : Array (List Char)) (p : Pair)

/-- The search from the front follows the diagonal `k`. -/
def stepFront (d : Nat) (m : Meeting) (k : Int) : Meeting :=
  if m.point?.isSome then m
  else
    let x := m.front.next d k
    let y := ((x : Int) - k).toNat
    let more := if x < p.old.size && y < p.new.size then
        commonFront old new ⟨p.old.start + x, p.old.size - x⟩ ⟨p.new.start + y, p.new.size - y⟩
      else 0
    let front := m.front.set k (x + more)
    let meets := p.delta % 2 != 0 && (k - p.delta).natAbs + 1 ≤ d &&
      p.old.size ≤ x + more + m.back.get (p.delta - k)
    ⟨front, m.back, if meets then some (x, y) else none⟩

/-- The search from the back follows the diagonal `k`. -/
def stepBack (d : Nat) (m : Meeting) (k : Int) : Meeting :=
  if m.point?.isSome then m
  else
    let x := m.back.next d k
    let y := ((x : Int) - k).toNat
    let more := if x < p.old.size && y < p.new.size then
        commonBack old new ⟨p.old.start, p.old.size - x⟩ ⟨p.new.start, p.new.size - y⟩
      else 0
    let back := m.back.set k (x + more)
    let meets := p.delta % 2 == 0 && (k - p.delta).natAbs ≤ d &&
      p.old.size ≤ x + more + m.front.get (p.delta - k)
    ⟨m.front, back,
      if meets then some (p.old.size - (x + more), p.new.size - (y + more)) else none⟩

/-- One round of both searches. -/
def round (m : Meeting) (d : Nat) : Meeting :=
  (diagonals d).foldl (stepBack old new p d) ((diagonals d).foldl (stepFront old new p d) m)

/-- A point in both parts that a shortest way goes through. -/
def middle? : Option (Nat × Nat) :=
  let start := Reach.start (p.old.size + p.new.size + 1)
  ((List.range p.rounds).foldl (round old new p) ⟨start, start, none⟩).point?

end

/-! ## 3. The edits -/

/-- The pair before a point of it. -/
def Pair.before (p : Pair) (x y : Nat) : Pair := ⟨⟨p.old.start, x⟩, ⟨p.new.start, y⟩⟩

/-- The pair from a point of it on. -/
def Pair.after (p : Pair) (x y : Nat) : Pair :=
  ⟨⟨p.old.start + x, p.old.size - x⟩, ⟨p.new.start + y, p.new.size - y⟩⟩

/-- The edits of a pair of parts; `depth` bounds the divisions, of which there is at most one
for each line. -/
def editsOf (old new : Array (List Char)) : Nat → Pair → List Edit
  | 0, p => Edit.nonempty (.delete p.old.size) ++ Edit.nonempty (.insert p.new.size)
  | depth + 1, p =>
    let front := commonFront old new p.old p.new
    let p := p.after front front
    let back := commonBack old new p.old p.new
    let p := p.before (p.old.size - back) (p.new.size - back)
    let inner :=
      if p.old.size = 0 || p.new.size = 0 then
        Edit.nonempty (.delete p.old.size) ++ Edit.nonempty (.insert p.new.size)
      else
        match middle? old new p with
        | some (x, y) =>
          editsOf old new depth (p.before x y) ++ editsOf old new depth (p.after x y)
        | none => [.delete p.old.size, .insert p.new.size]
    Edit.nonempty (.keep front) ++ inner ++ Edit.nonempty (.keep back)

/-- A shortest list of edits from the old lines to the new ones. -/
def shortest (old new : Array (List Char)) : List Edit :=
  editsOf old new (old.size + new.size) ⟨⟨0, old.size⟩, ⟨0, new.size⟩⟩

end EditorSettings.Diff
