/-
# Kinds of values

A setting is of a kind, and the kind says which texts are values of it and what they mean.
Words are recognised whatever the case of their ASCII letters; `unset` is a value of every
kind.  A positive integer is a run of ASCII digits of any length whose number is neither zero
nor above `maxInteger`.
-/
import EditorSettings.Text.Case
import EditorSettings.Text.Decimal

namespace EditorSettings

open EditorSettings.Text

/-! ## 1. Values -/

/-- The meaning of a value. -/
inductive Value
  | unset
  | bool (b : Bool)
  | int (n : Nat)
  | tab
  | off
  | word (w : String)
  | text (s : String)
  deriving DecidableEq, Repr

/-! ## 2. Kinds -/

/-- What the values of a setting look like. -/
inductive Kind
  | boolean
  | positiveInt
  | positiveIntOrTab
  | positiveIntOrOff
  | oneOf (words : List String)
  | text
  deriving DecidableEq, Repr

namespace Kind

/-- The largest integer a setting may have. -/
def maxInteger : Nat := 4294967295

/-- The kind's values, in words. -/
def expected : Kind → String
  | boolean => "true or false"
  | positiveInt => "a positive integer"
  | positiveIntOrTab => "a positive integer or tab"
  | positiveIntOrOff => "a positive integer or off"
  | oneOf words => "one of " ++ String.intercalate ", " words
  | text => "a non-empty value"

/-- A positive integer. -/
def positive? (s : String) : Option Value :=
  ((natural? s.toList).filter fun n => 0 < n && n ≤ maxInteger).map Value.int

/-- The value that a text denotes, apart from `unset`. -/
def readOwn? : Kind → String → Option Value
  | boolean, s =>
    if sameWord s "true" then some (.bool true)
    else if sameWord s "false" then some (.bool false)
    else none
  | positiveInt, s => positive? s
  | positiveIntOrTab, s => if sameWord s "tab" then some .tab else positive? s
  | positiveIntOrOff, s => if sameWord s "off" then some .off else positive? s
  | oneOf words, s => (words.find? (sameWord · s)).map Value.word
  | text, s => if s.isEmpty then none else some (.text s)

/-- The value that a text denotes, if it is one of the kind. -/
def read? (k : Kind) (s : String) : Option Value :=
  if sameWord s "unset" then some .unset else k.readOwn? s

end Kind
end EditorSettings
