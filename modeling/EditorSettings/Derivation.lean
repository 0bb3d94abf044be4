/-
# Widths that follow from one another

When a section is complete, the width of an indentation and the width of a tab are filled in
from each other.  Three rules run once, in this order:

1. an indentation by tabs without a size has the size `tab`, from version 0.10.0 on;
2. a size other than `tab` is the width of a tab too, if that has none;
3. a size of `tab` is replaced by the width of a tab, if that has one.

A derived setting takes the place of one with its name.
-/
import EditorSettings.Setting.Basic
import EditorSettings.Version

namespace EditorSettings.Settings

open EditorSettings.Setting

/-- The first version in which an indentation by tabs implies the size `tab`. -/
def sizeFromStyleSince : Version := ⟨[0, 10, 0]⟩

/-- The value under a name. -/
def value? (m : Settings) (name : String) : Option String := (m.find? name).map Setting.value

/-- The first rule applies. -/
def styleGivesSize (version : String) (m : Settings) : Bool :=
  m.value? Name.indentStyle == some "tab" && (m.value? Name.indentSize).isNone &&
    (Version.compare (.ofString version) sizeFromStyleSince).isGE

/-- Rule 1: the size from the style. -/
def deriveSizeFromStyle (r : Registry) (version : String) (m : Settings) : Settings :=
  if styleGivesSize version m then m.insert (declare r Name.indentSize "tab") else m

/-- Rules 2 and 3 for a given `size` and `width`: the width from the size, or the size from the
width. -/
def deriveWidth (r : Registry) (m : Settings) : Option String → Option String → Settings
  | some size, none =>
    if size = "tab" then m else m.insert (declare r Name.tabWidth size)
  | some size, some width =>
    if size = "tab" then m.insert (declare r Name.indentSize width) else m
  | none, _ => m

/-- The settings with what follows from them. -/
def derive (r : Registry) (version : String) (m : Settings) : Settings :=
  let size := if styleGivesSize version m then some "tab" else m.value? Name.indentSize
  (m.deriveSizeFromStyle r version).deriveWidth r size (m.value? Name.tabWidth)

end EditorSettings.Settings
