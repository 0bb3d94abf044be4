/-
# Sets of characters as spans of code points

Properties of characters come as tables: a property is a list of spans of code points, both
ends included.  `inSpans` asks such a table about one character.  The tables themselves stand
beside the function that needs them.
-/

namespace EditorSettings.Text

/-- Both ends of a run of code points. -/
abbrev Span := Nat × Nat

/-- The character lies in one of the spans. -/
def inSpans (table : List Span) (c : Char) : Bool :=
  table.any fun span => span.1 ≤ c.toNat && c.toNat ≤ span.2

theorem inSpans_iff {table : List Span} {c : Char} :
    inSpans table c = true ↔ ∃ span ∈ table, span.1 ≤ c.toNat ∧ c.toNat ≤ span.2 := by
  simp [inSpans, List.any_eq_true]

end EditorSettings.Text
