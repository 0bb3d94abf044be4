/-
# Patterns and what they say

A `Pattern` is a glob as a tree: characters, wildcards and classes one after the other, and
alternations whose branches are patterns again.  This module says how a pattern is written
(`Pattern.text`), which patterns are well formed (`Pattern.WellFormed`), and what a pattern says
(`Pattern.language`), without a look at how globs are read.

What a pattern says is put together from what its parts say, with one exception.  The three items
`/`, `**` and `/` in a row are read as one, from left to right; `Pattern.joined` is the pattern in
which this has been done.
-/
import EditorSettings.Proofs.Glob.Language

namespace EditorSettings.Glob

/-! ## 1. Characters and items -/

/-- A character as it is written: by itself, or with a backslash before it. -/
inductive Glyph
  | bare (c : Char)
  | escaped (c : Char)
  deriving DecidableEq

namespace Glyph

/-- The character. -/
def char : Glyph → Char
  | bare c => c
  | escaped c => c

/-- How it is written.  Of the escapes of some characters the backslash may have been `dropped`
already. -/
def text (dropped : List Char) : Glyph → List Char
  | bare c => [c]
  | escaped c => if c ∈ dropped then [c] else ['\\', c]

/-- A backslash that is written with a backslash is not directly followed by the mark of a
comment. -/
def MayPrecede (a b : Glyph) : Prop := a = escaped '\\' → b ≠ bare '#' ∧ b ≠ bare ';'

end Glyph

/-- The text of several characters. -/
def textOf (dropped : List Char) (gs : List Glyph) : List Char := gs.flatMap (Glyph.text dropped)

/-- What stands in a class: a character, or a span between two characters. -/
inductive ClassMember
  | one (g : Glyph)
  | span (low high : Glyph)
  deriving DecidableEq

namespace ClassMember

/-- How the member is written. -/
def glyphs : ClassMember → List Glyph
  | one g => [g]
  | span low high => [low, .bare '-', high]

/-- The member stands for the character. -/
def covers : ClassMember → Char → Bool
  | one g, c => c == g.char
  | span low high, c => low.char ≤ c && c ≤ high.char

/-- A character in a class: letters and digits may be bare, and a slash is none. -/
def IsInner : Glyph → Prop
  | .bare c => c.isAlphanum = true
  | .escaped c => c ≠ '/'

/-- The member is written as it has to be, and its span does not run backwards. -/
def IsProper : ClassMember → Prop
  | one g => IsInner g
  | span low high => IsInner low ∧ IsInner high ∧ low.char ≤ high.char

end ClassMember

/-- The characters that have a meaning of their own where they are bare. -/
def special : List Char := ['\\', '*', '?', '[', ']', '{', '}', ',', '/']

/-- A part of a pattern that holds no other patterns. -/
inductive Item
  | char (g : Glyph)
  | slash
  /-- `?` -/
  | one
  /-- `*` -/
  | run
  /-- `**` -/
  | any
  /-- `[..]` or `[!..]` -/
  | set (negated : Bool) (first : ClassMember) (more : List ClassMember)
  /-- `/`, `**` and `/`, read as one item. -/
  | depths
  deriving DecidableEq

namespace Item

/-- How the item is written. -/
def glyphs : Item → List Glyph
  | char g => [g]
  | slash => [.bare '/']
  | one => [.bare '?']
  | run => [.bare '*']
  | any => [.bare '*', .bare '*']
  | set negated first more =>
    .bare '[' :: (if negated then [.bare '!'] else []) ++
      (first :: more).flatMap ClassMember.glyphs ++ [.bare ']']
  | depths => [.bare '/', .bare '*', .bare '*', .bare '/']

/-- The item is one that is written, and written as it has to be. -/
def IsProper : Item → Prop
  | char (.bare c) => c ∉ special
  | char (.escaped c) => c ≠ '/'
  | set _ first more => ∀ m ∈ first :: more, m.IsProper
  | slash => True
  | one => True
  | run => True
  | any => True
  | depths => False

/-- The item is written with stars. -/
def isStar : Item → Bool
  | run => true
  | any => true
  | char _ => false
  | slash => false
  | one => false
  | set _ _ _ => false
  | depths => false

/-- The texts that the item matches. -/
def language : Item → Language Char
  | char g => ones (· == g.char)
  | slash => ones (· == '/')
  | one => ones (· != '/')
  | run => runs (· != '/')
  | any => runs fun _ => true
  | set negated first more => ones fun c => (first :: more).any (·.covers c) != negated
  | depths => {w | w = ['/'] ∨ ∃ v, w = '/' :: v ++ ['/']}

end Item

/-! ## 2. Patterns -/

mutual

/-- Items and alternations, one after the other. -/
inductive Pattern
  | nil
  | cons (i : Item) (rest : Pattern)
  /-- An alternation with its branches, and what follows it. -/
  | braces (first : Pattern) (others : Branches) (rest : Pattern)

/-- The branches of an alternation after the first one; there is at least one. -/
inductive Branches
  | last (p : Pattern)
  | more (p : Pattern) (rest : Branches)

end

mutual

/-- How a pattern is written. -/
def Pattern.glyphs : Pattern → List Glyph
  | .nil => []
  | .cons i rest => i.glyphs ++ rest.glyphs
  | .braces first others rest =>
    .bare '{' :: (first.glyphs ++ (others.glyphs ++ .bare '}' :: rest.glyphs))

/-- How further branches are written, each behind a comma. -/
def Branches.glyphs : Branches → List Glyph
  | .last p => .bare ',' :: p.glyphs
  | .more p rest => .bare ',' :: (p.glyphs ++ rest.glyphs)

end

/-- The item that the pattern begins with. -/
def Pattern.first? : Pattern → Option Item
  | .nil => none
  | .cons i _ => some i
  | .braces _ _ _ => none

mutual

/-- All items are proper, and no two items with stars stand side by side. -/
def Pattern.IsProper : Pattern → Prop
  | .nil => True
  | .cons i rest =>
    i.IsProper ∧ (i.isStar = true → ∀ j ∈ rest.first?, j.isStar = false) ∧ rest.IsProper
  | .braces first others rest => first.IsProper ∧ others.IsProper ∧ rest.IsProper

/-- The branches are proper. -/
def Branches.IsProper : Branches → Prop
  | .last p => p.IsProper
  | .more p rest => p.IsProper ∧ rest.IsProper

end

mutual

/-- The pattern with every `/`, `**` and `/` in a row read as one item, from left to right. -/
def Pattern.joined : Pattern → Pattern
  | .nil => .nil
  | .cons .slash (.cons .any (.cons .slash rest)) => .cons .depths rest.joined
  | .cons i rest => .cons i rest.joined
  | .braces first others rest => .braces first.joined others.joined rest.joined

/-- The branches, read likewise. -/
def Branches.joined : Branches → Branches
  | .last p => .last p.joined
  | .more p rest => .more p.joined rest.joined

end

mutual

/-- What the parts of a pattern say, one after the other. -/
def Pattern.meaning : Pattern → Language Char
  | .nil => 1
  | .cons i rest => i.language * rest.meaning
  | .braces first others rest => (first.meaning + others.meaning) * rest.meaning

/-- What the branches say. -/
def Branches.meaning : Branches → Language Char
  | .last p => p.meaning
  | .more p rest => p.meaning + rest.meaning

end

namespace Pattern

/-- **What the pattern says.** -/
def language (p : Pattern) : Language Char := p.joined.meaning

/-- The text of the pattern. -/
def text (p : Pattern) : List Char := textOf [] p.glyphs

/-- The pattern can be written without being mistaken for another one. -/
structure WellFormed (p : Pattern) : Prop where
  proper : p.IsProper
  comments : p.glyphs.IsChain Glyph.MayPrecede

/-- The pattern relative to its directory: behind a slash, and at any depth if it has no slash of
its own. -/
def anchored (p : Pattern) : Pattern :=
  if .bare '/' ∈ p.glyphs then
    match p with
    | .cons .slash rest => .cons .slash rest
    | p => .cons .slash p
  else .cons .slash (.cons .any (.cons .slash p))

end Pattern

/-! ## 3. Levels of nesting -/

/-- The levels inside an item. -/
def Item.levels : Item → Nat
  | .char _ => 0
  | .slash => 0
  | .one => 1
  | .run => 2
  | .any => 1
  | .set _ _ more => if more.isEmpty then 1 else 2
  | .depths => 4

/-- The number of items and alternations in a row. -/
def Pattern.size : Pattern → Nat
  | .nil => 0
  | .cons _ rest => 1 + rest.size
  | .braces _ _ rest => 1 + rest.size

/-- Several items in a row are a level of their own. -/
def Pattern.rowLevel (p : Pattern) : Nat := if 2 ≤ p.size then 1 else 0

mutual

/-- The levels below the row that the pattern is.  An alternation has two levels, one for its
braces and one for its branches. -/
def Pattern.innerLevels : Pattern → Nat
  | .nil => 0
  | .cons i rest => max i.levels rest.innerLevels
  | .braces first others rest =>
    max (2 + max (first.innerLevels + first.rowLevel) others.innerLevels) rest.innerLevels

/-- The levels of the deepest branch. -/
def Branches.innerLevels : Branches → Nat
  | .last p => p.innerLevels + p.rowLevel
  | .more p rest => max (p.innerLevels + p.rowLevel) rest.innerLevels

end

/-- The levels of a whole pattern. -/
def Pattern.levels (p : Pattern) : Nat := 1 + p.joined.innerLevels

end EditorSettings.Glob
