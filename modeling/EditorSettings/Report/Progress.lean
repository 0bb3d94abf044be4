/-
# Progress

A run over many files shows how far it is.  Few files are done so fast that there is nothing to
show.
-/

namespace EditorSettings.Progress

/-- The least number of files worth showing. -/
def threshold : Nat := 50

/-- Progress is shown. -/
def isShown (total : Nat) (enabled : Bool) : Bool := enabled && threshold ≤ total

/-- Run an action with nothing shown meanwhile, and give its result. -/
def suspend {α : Type} (action : Unit → α) : α := action ()

end EditorSettings.Progress
