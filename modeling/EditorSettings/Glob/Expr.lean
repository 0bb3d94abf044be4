/-
# Expressions of a glob

The tokens of a glob form an expression if every alternation that is opened is closed, none is
closed that was not opened, and all sets are well formed; `Expr.ofTokens?` builds it.  An
expression may be nested only so deep (`Expr.nesting`, `Expr.maxNesting`).
-/
import EditorSettings.Glob.Token

namespace EditorSettings.Glob

/-! ## 1. Expressions -/

/-- Atoms, one after the other or as alternatives. -/
inductive Expr
  | empty
  | atom (a : Atom)
  | seq (first second : Expr)
  | either (first second : Expr)
  /-- An alternation in its braces. -/
  | group (e : Expr)
  deriving DecidableEq, Repr

/-- An alternation that is being read: the branches that are complete, and the present one. -/
structure Frame where
  done : Option Expr := none
  current : Expr := .empty

namespace Frame

/-- The branches, including the present one. -/
def toExpr (f : Frame) : Expr :=
  match f.done with
  | none => f.current
  | some e => .either e f.current

/-- Continue the present branch. -/
def push (f : Frame) (e : Expr) : Frame := { f with current := .seq f.current e }

/-- Begin the next branch. -/
def next (f : Frame) : Frame := ⟨some f.toExpr, .empty⟩

end Frame

/-- A slash, or two with any characters between them. -/
def Expr.depths : Expr :=
  .group (.either (.atom (.char '/'))
    (.seq (.seq (.atom (.char '/')) (.atom .any)) (.atom (.char '/'))))

/-- Levels inside an atom: repetitions, sets, and the groups that some atoms stand for. -/
def Atom.nesting : Atom → Nat
  | .char _ => 0
  | .set s => s.nesting
  | .one => 1
  | .run => 2
  | .any => 1
  | .number _ => 5

namespace Expr

/-- The expression of tokens that continue `top`, inside the alternations `outer`. -/
def ofTokensIn? (outer : List Frame) (top : Frame) : List Token → Option Expr
  | [] => if outer.isEmpty then some top.toExpr else none
  | .atom a :: rest => ofTokensIn? outer (top.push (.atom a)) rest
  | .depths :: rest => ofTokensIn? outer (top.push depths) rest
  | .malformed :: _ => none
  | .opening :: rest => ofTokensIn? (top :: outer) {} rest
  | .bar :: rest => ofTokensIn? outer top.next rest
  | .closing :: rest =>
    match outer with
    | [] => none
    | f :: outer => ofTokensIn? outer (f.push (.group top.toExpr)) rest

/-- The expression that the tokens form. -/
def ofTokens? (tokens : List Token) : Option Expr := ofTokensIn? [] {} tokens

/-! ## 2. Nesting -/

/-- The deepest nesting of an expression that is accepted. -/
def maxNesting : Nat := 250

/-- The number of items in a sequence. -/
def items : Expr → Nat
  | empty => 0
  | seq a b => a.items + b.items
  | atom _ => 1
  | either _ _ => 1
  | group _ => 1

/-- A sequence of several items is a level of its own. -/
def sequenceLevel (e : Expr) : Nat := if 2 ≤ e.items then 1 else 0

/-- Several branches are a level of their own. -/
def branchLevel : Expr → Nat
  | either _ _ => 1
  | _ => 0

/-- Levels below the sequence or the branches that the expression is. -/
def innerNesting : Expr → Nat
  | empty => 0
  | atom a => a.nesting
  | seq a b => max a.innerNesting b.innerNesting
  | either a b => max (a.innerNesting + a.sequenceLevel) (b.innerNesting + b.sequenceLevel)
  | group e => 1 + e.branchLevel + e.innerNesting + e.sequenceLevel

/-- Levels of the expression of a whole glob, whose sequence is a level whatever its length. -/
def nesting (e : Expr) : Nat := 1 + e.innerNesting

end Expr
end EditorSettings.Glob
