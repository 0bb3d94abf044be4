/-
# Blanks and trimming

A blank is a character with the Unicode property White_Space.  `trim` removes the blanks at
both ends of a text: what is left neither begins nor ends with a blank (`trimmed_trim`), and a
text without blanks at its ends is kept (`trim_eq_self`).
-/
import EditorSettings.Text.Span

namespace EditorSettings.Text

/-! ## 1. The property -/

/-- The spans of White_Space. -/
def blankSpans : List Span :=
  [(0x09, 0x0d), (0x20, 0x20), (0x85, 0x85), (0xa0, 0xa0), (0x1680, 0x1680), (0x2000, 0x200a),
    (0x2028, 0x2029), (0x202f, 0x202f), (0x205f, 0x205f), (0x3000, 0x3000)]

/-- White space in the sense of Unicode. -/
def isBlank (c : Char) : Bool := inSpans blankSpans c

/-! ## 2. Trimming -/

/-- The text from its first character that is no blank. -/
def trimStart (s : List Char) : List Char := s.dropWhile isBlank

/-- The text up to its last character that is no blank. -/
def trimEnd (s : List Char) : List Char := (s.reverse.dropWhile isBlank).reverse

/-- The text without the blanks at its ends. -/
def trim (s : List Char) : List Char := trimEnd (trimStart s)

/-- A text has no blanks at its ends. -/
def Trimmed (s : List Char) : Prop :=
  (∀ c ∈ s.head?, isBlank c = false) ∧ (∀ c ∈ s.getLast?, isBlank c = false)

theorem dropWhile_eq_self {p : Char → Bool} {s : List Char} (h : ∀ c ∈ s.head?, p c = false) :
    s.dropWhile p = s := by
  cases s with
  | nil => rfl
  | cons c r => simp [h c (by simp)]

theorem trim_eq_self {s : List Char} (h : Trimmed s) : trim s = s := by
  have h1 : trimStart s = s := dropWhile_eq_self h.1
  have h2 : s.reverse.dropWhile isBlank = s.reverse :=
    dropWhile_eq_self (by simpa using h.2)
  simp [trim, h1, trimEnd, h2]

/-- A text without the blanks at its beginning begins with no blank. -/
theorem isBlank_head?_trimStart (s : List Char) :
    ∀ c ∈ (trimStart s).head?, isBlank c = false := by
  intro c hc
  have hfirst := List.head?_dropWhile_not isBlank s
  rw [trimStart, Option.mem_def] at hc
  rwa [hc] at hfirst

theorem trimmed_trim (s : List Char) : Trimmed (trim s) := by
  constructor
  · intro c hc
    have hp : trim s <+: trimStart s := by
      have := List.dropWhile_suffix (l := (trimStart s).reverse) isBlank
      simpa [trim, trimEnd] using List.reverse_prefix.2 this
    refine isBlank_head?_trimStart s c ?_
    obtain ⟨t, ht⟩ := hp
    change (trimStart s).head? = some c
    rw [← ht, List.head?_append, Option.mem_def.1 hc, Option.some_or]
  · intro c hc
    refine isBlank_head?_trimStart (trimStart s).reverse c ?_
    rwa [trim, trimEnd, List.getLast?_reverse] at hc

end EditorSettings.Text
