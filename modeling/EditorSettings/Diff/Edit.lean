/-
# Edits

A difference between two texts is a list of edits that goes through both of them from the
beginning: each edit keeps, deletes or inserts a run of lines.  Where an edit stands in the two
texts follows from the edits before it.
-/

namespace EditorSettings.Diff

/-- What happens to the next lines. -/
inductive Edit
  | keep (n : Nat)
  | delete (n : Nat)
  | insert (n : Nat)
  deriving DecidableEq, Repr

namespace Edit

/-- The number of lines. -/
def size : Edit → Nat
  | keep n => n
  | delete n => n
  | insert n => n

/-- The lines of the old text that the edit goes past. -/
def oldSize : Edit → Nat
  | keep n => n
  | delete n => n
  | insert _ => 0

/-- The lines of the new text that the edit goes past. -/
def newSize : Edit → Nat
  | keep n => n
  | delete _ => 0
  | insert n => n

/-- The lines of the old text that the edits go past. -/
def oldTotal : List Edit → Nat
  | [] => 0
  | e :: rest => e.oldSize + oldTotal rest

/-- The lines of the new text that the edits go past. -/
def newTotal : List Edit → Nat
  | [] => 0
  | e :: rest => e.newSize + newTotal rest

/-- An edit, unless it has no lines. -/
def nonempty (e : Edit) : List Edit := if e.size = 0 then [] else [e]

end Edit

/-- The lines of a text with their ends.  A line ends at a line feed, a carriage return, or both
in this order. -/
def lines : List Char → List (List Char)
  | [] => []
  | '\r' :: '\n' :: rest => ['\r', '\n'] :: lines rest
  | '\r' :: rest => ['\r'] :: lines rest
  | '\n' :: rest => ['\n'] :: lines rest
  | c :: rest =>
    match lines rest with
    | [] => [[c]]
    | line :: more => (c :: line) :: more

/-- The number of positions from `i` on, at most `limit`, that pass a test. -/
def runLength (test : Nat → Bool) (i : Nat) : Nat → Nat
  | 0 => 0
  | limit + 1 => if test i then runLength test (i + 1) limit + 1 else 0

/-- A part of a text: `size` lines from `start` on. -/
structure Part where
  start : Nat
  size : Nat
  deriving DecidableEq, Repr

/-- The number of lines with which both parts begin. -/
def commonFront (old new : Array (List Char)) (a b : Part) : Nat :=
  runLength (fun i => old[a.start + i]? == new[b.start + i]?) 0 (min a.size b.size)

/-- The number of lines with which both parts end. -/
def commonBack (old new : Array (List Char)) (a b : Part) : Nat :=
  runLength
    (fun i => old[a.start + a.size - 1 - i]? == new[b.start + b.size - 1 - i]?) 0
    (min a.size b.size)

end EditorSettings.Diff
