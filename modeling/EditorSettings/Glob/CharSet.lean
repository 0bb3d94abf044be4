/-
# Sets of characters in brackets

Between the brackets of a glob stand members: characters, and dashes that are not escaped.  A
dash between two characters makes a span of them.  Two dashes in a row take everything that
follows, up to the next two, out of the set.  Dashes at the beginning, and a dash that has
nothing to join, are members themselves.

`CharSet.ofMembers?` finds no set where there is no member at all, and where a span runs
backwards.
-/
import EditorSettings.Text.Span

namespace EditorSettings.Glob

open EditorSettings.Text

/-! ## 1. Members -/

/-- What stands between the brackets. -/
inductive Member
  | dash
  | char (c : Char)
  deriving DecidableEq, Repr

/-- The character that a member is if it joins nothing. -/
def Member.toChar : Member → Char
  | dash => '-'
  | char c => c

/-- Add a span to the first group. -/
def addSpan (span : Span) : List (List Span) → List (List Span)
  | [] => [[span]]
  | group :: more => (span :: group) :: more

/-- The spans of the members, in groups that two dashes separate. -/
def spanGroups? : List Member → Option (List (List Span))
  | [] => some [[]]
  | .dash :: .dash :: rest => (spanGroups? rest).map ([] :: ·)
  | m :: .dash :: .char c :: rest =>
    if m.toChar.toNat ≤ c.toNat then
      (spanGroups? rest).map (addSpan (m.toChar.toNat, c.toNat))
    else none
  | m :: rest => (spanGroups? rest).map (addSpan (m.toChar.toNat, m.toChar.toNat))

/-! ## 2. Sets -/

/-- The characters of `kept` without those of the groups of `removed`, or all the others. -/
structure CharSet where
  negated : Bool
  kept : List Span
  removed : List (List Span)
  deriving DecidableEq, Repr

namespace CharSet

/-- The character is in the set. -/
def has (s : CharSet) (c : Char) : Bool :=
  (inSpans s.kept c && !s.removed.any (inSpans · c)) != s.negated

/-- The set that the members between two brackets denote. -/
def ofMembers? (negated : Bool) (members : List Member) : Option CharSet :=
  if members.isEmpty then none
  else
    let leading := members.takeWhile (· == .dash)
    match spanGroups? (members.drop leading.length) with
    | none => none
    | some [] => none
    | some (kept :: removed) =>
      some ⟨negated, leading.map (fun m => (m.toChar.toNat, m.toChar.toNat)) ++ kept, removed⟩

/-- Levels of nesting: the brackets, each removal, and a first group of several spans. -/
def nesting (s : CharSet) : Nat :=
  let joined := 2 ≤ s.kept.length || 2 ≤ (s.removed.headD []).length
  1 + s.removed.length + if joined then 1 else 0

end CharSet
end EditorSettings.Glob
