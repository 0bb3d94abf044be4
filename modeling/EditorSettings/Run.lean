/-
# Runs

The two things that the program does: print the settings of targets, and print a settings file in
its canonical form.  Both give what goes to the two output streams.  A target whose settings
cannot be found is reported and counted, and the others are not affected.
-/
import EditorSettings.Diff.Unified
import EditorSettings.Preferences.Basic
import EditorSettings.Report.Basic
import EditorSettings.Targets.Walk

namespace EditorSettings

/-! ## 1. Output -/

/-- A result, with the text for standard output and standard error. -/
structure Printed (α : Type) where
  out : String
  err : String
  result : α

/-! ## 2. Settings of targets -/

namespace Run

/-- What a target adds to a run. -/
structure Report where
  out : String := ""
  err : String := ""
  tally : Tally := {}
  deriving DecidableEq, Repr

namespace Report

/-- One report after another. -/
def append (a b : Report) : Report where
  out := a.out ++ b.out
  err := a.err ++ b.err
  tally :=
    ⟨a.tally.resolved + b.tally.resolved, a.tally.failed + b.tally.failed,
      a.tally.invalid + b.tally.invalid⟩

/-- All reports, in order. -/
def concat (reports : List Report) : Report := reports.foldl append {}

/-- The report on a target. -/
def ofResult (st : Style) (withHeader : Bool) (target : Path) :
    Except Cascade.Failure Settings → Report
  | .ok ss =>
    { out := st.settings target withHeader ss.toList
      tally := { resolved := 1, invalid := (ss.toList.filter (!·.isValid)).length } }
  | .error e => { err := st.failure target e.message, tally := { failed := 1 } }

end Report

variable {m : Type → Type} [Monad m]

/-- The settings of a target, or why they could not be found. -/
def resolve (fs : FileSystem m) (plan : Plan) (target : Path) :
    m (Except Cascade.Failure Settings) := do
  let roots := plan.roots.map fs.absolute
  let outcome ← Cascade.resolve fs.provider .builtin plan.rules roots (fs.absolute target)
  pure outcome.result

/-- Print the settings of all targets, with headers if there are several; or say why it is not
clear what the targets are. -/
def settings (fs : FileSystem m) (plan : Plan) (st : Style) (paths : List Path) :
    m (Except (List Ignore.Problem) (Printed Tally)) := do
  match ← fs.targets paths with
  | .error problems => pure (.error problems)
  | .ok targets =>
    let withHeader := 1 < targets.length
    let reports ← targets.mapM fun t => do
      pure (Report.ofResult st withHeader t (← resolve fs plan t))
    let all := Report.concat reports
    pure (.ok ⟨all.out, all.err ++ st.summary all.tally, all.tally⟩)

/-! ## 3. The canonical form of a file -/

/-- What to print about a settings file. -/
inductive Rendering
  /-- Its canonical text. -/
  | text
  /-- The difference to it. -/
  | difference
  /-- Whether it is canonical. -/
  | check
  deriving DecidableEq, Repr

/-- The output about a file with this text and canonical text. -/
def renderingText (st : Style) (p : Path) (written canonical : String) : Rendering → String
  | .text => canonical
  | .difference =>
    if written = canonical then "" else Diff.unified p.text written canonical
  | .check => if written = canonical then "" else st.notCanonical p

/-- The settings file in the directory of `p`, and its text; only its problems are reported. -/
def canonical (fs : FileSystem m) (plan : Plan) (st : Style) (rendering : Rendering) (p : Path) :
    m (Except FileError (Printed Bool)) := do
  match ← fs.read p with
  | .error e => pure (.error e)
  | .ok written =>
    match ← fs.read (fs.absolute p) with
    | .error e => pure (.error e)
    | .ok source =>
      let dir := ((fs.absolute p).parent?.getD default).text
      let parsed := Document.parse .builtin dir plan.rules.version source
      let canonical := parsed.document.render
      let problems := String.join (parsed.problems.map (st.problem p))
      pure (.ok
        ⟨renderingText st p written canonical rendering, problems, written == canonical⟩)

end Run
end EditorSettings
