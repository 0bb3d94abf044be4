/-
# The cascade

The settings of a file come from the documents in the directories above it.  They are consulted
from the nearest directory upward: a document that is nearer to the file wins, and within one
document the last section that matches wins.  The search ends after a document that is a root,
and after a directory that the caller names as one.

Directories and documents are reached through a `Provider`, about which nothing is assumed but
that parents come to an end.  An access that fails ends the search, and the failure says which
document it was.  The outcome also lists the documents that were asked for, in order.
-/
import EditorSettings.Document.Assembly

namespace EditorSettings

/-! ## 1. Providers -/

/-- Access to directories and documents, in a monad `m`. -/
structure Provider (m : Type → Type) (R : Type) where
  parent? : R → Option R
  child : R → String → R
  /-- The path that globs are matched with. -/
  path : R → String
  /-- The same directory. -/
  same : R → R → Bool
  height : R → Nat
  height_parent?_lt : ∀ {r d : R}, parent? r = some d → height d < height r
  isFile : R → m (Except String Bool)
  read : R → m (Except String String)

/-- The directories above a resource, the nearest one first. -/
def Provider.directories {m : Type → Type} {R : Type} (p : Provider m R) (r : R) : List R :=
  match _h : p.parent? r with
  | some d => d :: p.directories d
  | none => []
termination_by p.height r
decreasing_by exact p.height_parent?_lt _h

/-! ## 2. One document -/

/-- What a document says about a path: the settings of all sections that match, the later ones
winning. -/
def Document.settingsFor (d : Document) (path : String) : Settings :=
  (d.sections.filter (·.matchesPath path)).foldl
    (fun m s => m.insertAll s.settings.toList) Keyed.empty

namespace Cascade

/-- The name and the version of the documents. -/
structure Rules where
  fileName : String := ".editorconfig"
  version : String := defaultVersion
  deriving DecidableEq, Repr

/-- An access that failed. -/
structure Failure where
  path : String
  cause : String
  deriving DecidableEq, Repr

/-- The failure in words. -/
def Failure.message (f : Failure) : String := "failed to read " ++ f.path ++ ": " ++ f.cause

/-- What came of a search, and the documents that were asked for. -/
structure Outcome (R : Type) where
  checked : List R
  result : Except Failure Settings

/-! ## 3. The search -/

section

variable {m : Type → Type} [Monad m] {R : Type}

/-- The document of a directory, if there is one. -/
def document? (p : Provider m R) (r : Registry) (rules : Rules) (dir : R) :
    m (Except Failure (Option Document)) := do
  let file := p.child dir rules.fileName
  match ← p.isFile file with
  | .error cause => pure (.error ⟨p.path file, cause⟩)
  | .ok false => pure (.ok none)
  | .ok true =>
    match ← p.read file with
    | .error cause => pure (.error ⟨p.path file, cause⟩)
    | .ok source =>
      pure (.ok (some (Document.parse r (p.path dir) rules.version source).document))

/-- The settings found so far with those of one more document, which is farther away. -/
def extend (found : Settings) (path : String) : Option Document → Settings
  | some d => found.addAll (d.settingsFor path).toList
  | none => found

/-- The search ends with a directory that has this document. -/
def endsAt (p : Provider m R) (roots : List R) (dir : R) (d? : Option Document) : Bool :=
  d?.any Document.isRoot || roots.any (p.same · dir)

/-- Search the directories for the settings of `path`, of which `found` is known already. -/
def search (p : Provider m R) (r : Registry) (rules : Rules) (roots : List R) (path : String)
    (found : Settings) : List R → m (Outcome R)
  | [] => pure ⟨[], .ok found⟩
  | dir :: above => do
    let file := p.child dir rules.fileName
    match ← document? p r rules dir with
    | .error failure => pure ⟨[file], .error failure⟩
    | .ok d? =>
      let found := extend found path d?
      if endsAt p roots dir d? then pure ⟨[file], .ok found⟩
      else
        let more ← search p r rules roots path found above
        pure { more with checked := file :: more.checked }

/-- The settings of a file. -/
def resolve (p : Provider m R) (r : Registry) (rules : Rules) (roots : List R) (file : R) :
    m (Outcome R) :=
  search p r rules roots (p.path file) Keyed.empty (p.directories file)

end
end Cascade
end EditorSettings
