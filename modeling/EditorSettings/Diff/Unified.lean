/-
# Differences as text

A difference is printed in groups: changes with up to three kept lines around them.  Changes with
at most six lines between them share a group.  Each line begins with a sign, `-` for a deleted
one, `+` for an inserted one and a space for a kept one.  A change prints what it deletes before
what it inserts.
-/
import EditorSettings.Diff.Shortest
import EditorSettings.Diff.Slide

namespace EditorSettings.Diff

/-! ## 1. Steps -/

/-- Kept lines, or a change of lines into others. -/
inductive Step
  | keep (n : Nat)
  | change (deleted inserted : Nat)
  deriving DecidableEq, Repr

namespace Step

/-- A step in front of others; neighbours of one sort are joined. -/
def cons : Edit → List Step → List Step
  | .keep n, .keep k :: rest => .keep (n + k) :: rest
  | .keep n, rest => .keep n :: rest
  | .delete n, .change d i :: rest => .change (n + d) i :: rest
  | .delete n, rest => .change n 0 :: rest
  | .insert n, .change d i :: rest => .change d (n + i) :: rest
  | .insert n, rest => .change 0 n :: rest

/-- The steps of a list of edits. -/
def ofEdits (edits : List Edit) : List Step := edits.foldr cons []

end Step

/-! ## 2. Groups -/

/-- The kept lines around a change. -/
def context : Nat := 3

/-- A step at its place in both texts. -/
structure Placed where
  old : Nat
  new : Nat
  step : Step
  deriving DecidableEq, Repr

/-- The steps at their places. -/
def place (old new : Nat) : List Step → List Placed
  | [] => []
  | .keep n :: rest => ⟨old, new, .keep n⟩ :: place (old + n) (new + n) rest
  | .change d i :: rest => ⟨old, new, .change d i⟩ :: place (old + d) (new + i) rest

/-- Only the last lines of a first step that keeps lines. -/
def trimFront : List Placed → List Placed
  | ⟨old, new, .keep n⟩ :: rest =>
    ⟨old + (n - context), new + (n - context), .keep (min n context)⟩ :: rest
  | steps => steps

/-- Only the first lines of a last step that keeps lines. -/
def trimBack (steps : List Placed) : List Placed :=
  match steps.reverse with
  | ⟨old, new, .keep n⟩ :: rest => (⟨old, new, .keep (min n context)⟩ :: rest).reverse
  | _ => steps

/-- The groups of the steps, the present group being `group`, read backwards. -/
def groupsFrom (group : List Placed) : List Placed → List (List Placed)
  | [] => [group.reverse]
  | ⟨old, new, .keep n⟩ :: rest =>
    if 2 * context < n then
      (⟨old, new, .keep context⟩ :: group).reverse ::
        groupsFrom [⟨old + (n - context), new + (n - context), .keep context⟩] rest
    else groupsFrom (⟨old, new, .keep n⟩ :: group) rest
  | p :: rest => groupsFrom (p :: group) rest

/-- The group changes something. -/
def changes (group : List Placed) : Bool :=
  group.any fun p => match p.step with
    | .keep _ => false
    | .change _ _ => true

/-- The groups of a list of steps. -/
def groups (steps : List Step) : List (List Placed) :=
  (groupsFrom [] (trimBack (trimFront (place 0 0 steps)))).filter changes

/-! ## 3. Text -/

/-- The line ends itself. -/
def isEnded (line : List Char) : Bool :=
  match line.getLast? with
  | some '\n' => true
  | some '\r' => true
  | _ => false

/-- A line with its sign.  A line without an end gets one, and a blank line after it. -/
def signed (sign : Char) (line : List Char) : List Char :=
  sign :: line ++ if isEnded line then [] else ['\n', '\n']

/-- Lines with their sign. -/
def signedLines (sign : Char) (text : Array (List Char)) (start n : Nat) : List Char :=
  (text.toList.drop start |>.take n).flatMap (signed sign)

/-- The lines of a step. -/
def stepText (old new : Array (List Char)) (p : Placed) : List Char :=
  match p.step with
  | .keep n => signedLines ' ' old p.old n
  | .change d i => signedLines '-' old p.old d ++ signedLines '+' new p.new i

/-- The difference from one text to another, both of which bear the label. -/
def unified (label before after : String) : String :=
  let old := (lines before.toList).toArray
  let new := (lines after.toList).toArray
  let steps := Step.ofEdits (slid old new (shortest old new))
  let texts := (groups steps).map fun g => String.ofList (g.flatMap (stepText old new))
  "--- " ++ label ++ "\n+++ " ++ label ++ "\n" ++ String.intercalate "\n" texts

end EditorSettings.Diff
