/-
# Targets

The targets of a run are files.  A directory among them stands for the files below it, depth
first and in the order of their names.  Hidden entries are left out, and so is what ignore files
say; an entry that they say to keep is kept even if it is hidden.

Anything but a directory is a target as it is, whether it exists or not.  A dash stands for
standard input, where there is nothing to find.

The ignore files above a directory have to be in order, or else there are no targets.  Those
inside it need not be.
-/
import EditorSettings.Targets.Level

namespace EditorSettings

open EditorSettings.Ignore

variable {m : Type → Type} [Monad m]

/-! ## 1. Entries -/

/-- The directory where a walk starts, as it was given and in normal form, and the levels above
it, the nearest first. -/
structure Walk where
  start : Path
  base : Path
  above : List Level

namespace Walk

/-- The path of an entry in normal form, as far as the text of `start` allows. -/
def absolute (w : Walk) (path : List Char) : Path :=
  w.base.join (String.ofList (
    if w.start.same ⟨"."⟩ then path
    else dropFront ['/'] (dropFront (dropHere w.start.text.toList) path)))

/-- An entry as all levels see it; `levels` are those from `start` on, the nearest first. -/
def sights (w : Walk) (levels : List Level) (entry : Path) : List Sight :=
  let path := dropHere entry.text.toList
  levels.map (⟨·, path⟩) ++ w.above.map (⟨·, (w.absolute path).text.toList⟩)

/-- The name of an entry hides it: it begins with a point. -/
def isHidden (entry : Path) : Bool :=
  ((Text.pieces '/' entry.text.toList).getLastD []).head? == some '.'

/-- The entry is left out. -/
def skips (w : Walk) (levels : List Level) (entry : Path) (isDirectory : Bool) : Bool :=
  (verdict? (w.sights levels entry) isDirectory).getD (isHidden entry)

/-! ## 2. Directories -/

/-- No directory lies deeper than this: a path has no more characters. -/
def maxDepth : Nat := 4096

/-- The files below a directory, down to a depth. -/
def files (fs : FileSystem m) (w : Walk) : Nat → List Level → Path → m (List Path)
  | 0, _, _ => pure []
  | depth + 1, above, dir => do
    let levels := (← Level.ofDirectory fs dir).1 :: above
    match ← fs.list dir with
    | .error _ => pure []
    | .ok names =>
      let found ← (names.mergeSort fun a b => decide (a ≤ b)).mapM fun name => do
        let entry := dir.join name
        match ← fs.kind entry with
        | .ok .directory =>
          if w.skips levels entry true then pure [] else files fs w depth levels entry
        | .ok .file => pure (if w.skips levels entry false then [] else [entry])
        | _ => pure []
      pure found.flatten

/-- The levels of the directories above a path, the nearest first, and what is wrong with them,
beginning at the root. -/
def levelsAbove (fs : FileSystem m) (base : Path) : m (List Level × List Ignore.Problem) := do
  let loaded ← base.withParents.tail.reverse.mapM (Level.ofDirectory fs)
  pure ((loaded.map (·.1)).reverse, loaded.flatMap (·.2))

end Walk

/-! ## 3. Targets -/

namespace FileSystem

/-- The targets that a path stands for, or what is wrong with the ignore files above it. -/
def targetsOf (fs : FileSystem m) (p : Path) : m (Except (List Ignore.Problem) (List Path)) := do
  if !(← fs.isDirectory p) then pure (.ok [p])
  else if p.same ⟨"-"⟩ then pure (.ok [])
  else
    let base := fs.absolute p
    match ← Walk.levelsAbove fs base with
    | (above, []) => do pure (.ok (← Walk.files fs ⟨p, base, above⟩ Walk.maxDepth [] p))
    | (_, problems) => pure (.error problems)

/-- The targets that paths stand for, in order. -/
def targets (fs : FileSystem m) : List Path → m (Except (List Ignore.Problem) (List Path))
  | [] => pure (.ok [])
  | p :: more => do
    match ← fs.targetsOf p with
    | .error problems => pure (.error problems)
    | .ok found =>
      match ← fs.targets more with
      | .error problems => pure (.error problems)
      | .ok others => pure (.ok (found ++ others))

end FileSystem
end EditorSettings
