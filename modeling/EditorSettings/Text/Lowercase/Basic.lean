/-
# Lower case of a text

Every capital becomes its small letter, and all other characters are kept.  Two capitals need
more than a look at the character itself:

* the dotted capital I becomes `i` followed by a combining dot above (`lowerChar_dotted`);
* the capital sigma becomes the final form at the end of a word and the common one elsewhere.
  The end of a word is seen from the neighbours: a letter stands before the sigma and none
  after it, where characters that a word may hold anyway are looked through (`endsWord`).
-/
import EditorSettings.Text.Lowercase.Table

namespace EditorSettings.Text

/-! ## 1. One character -/

/-- The small letters of a character that is not the capital sigma. -/
def lowerChar (c : Char) : List Char :=
  if c = '\u0130' then ['i', '\u0307']
  else
    match capitals.find? (·.has c.toNat) with
    | some run => [Char.ofNat (run.small + (c.toNat - run.first))]
    | none => [c]

theorem lowerChar_dotted : lowerChar '\u0130' = ['i', '\u0307'] := rfl

/-! ## 2. The sigma -/

/-- The nearest character that counts is a letter with case. -/
def meetsLetter (s : List Char) : Bool :=
  match s.dropWhile (inSpans caseIgnorableSpans) with
  | c :: _ => inSpans casedSpans c
  | [] => false

/-- A word ends between `before`, read backwards, and `after`. -/
def endsWord (before after : List Char) : Bool := meetsLetter before && !meetsLetter after

/-- The small sigma for its place. -/
def smallSigma (before after : List Char) : Char :=
  if endsWord before after then '\u03c2' else '\u03c3'

/-! ## 3. A text -/

/-- Lower case of the rest of a text, `before` being what precedes it, read backwards. -/
def lowerAfter (before : List Char) : List Char → List Char
  | [] => []
  | c :: rest =>
    (if c = '\u03a3' then [smallSigma before rest] else lowerChar c) ++
      lowerAfter (c :: before) rest

/-- Lower case of a text. -/
def lower (s : String) : String := String.ofList (lowerAfter [] s.toList)

end EditorSettings.Text
