/-
# The command line

What the program does for its arguments: show its version, make a preferences file, print a
settings file in canonical form, or print the settings of targets.  The outcome is what goes to
the output streams, and the exit code: 0 if all went well, 1 if something failed or a file that
was checked is not canonical, 2 if the arguments cannot be accepted.
-/
import EditorSettings.CommandLine.Arguments
import EditorSettings.Preferences.File
import EditorSettings.Run

namespace EditorSettings.CommandLine

variable {m : Type → Type} [Monad m]

/-! ## 1. Outcomes -/

/-- What a run of the program leaves. -/
structure Outcome where
  code : Nat
  out : String := ""
  err : String := ""
  deriving DecidableEq, Repr

/-- What the program takes from its environment. -/
structure Environment where
  /-- Colours are turned off. -/
  noColours : Bool
  /-- Standard output is a terminal. -/
  isTerminal : Bool
  deriving DecidableEq, Repr

/-- The program with its version. -/
def versionText : String := "ecascade 0.1.0\n"

/-- How to call the program. -/
def helpText : String :=
  "Print the EditorConfig settings that apply to files\n" ++
  "\n" ++
  "Usage: ecascade [OPTIONS] [PATHS]...\n" ++
  "\n" ++
  "Options:\n" ++
  "      --root-dir <DIR>        Never search above this directory (repeatable)\n" ++
  "  -f, --filename <NAME>       Name of the configuration file looked up in each directory\n" ++
  "  -b, --ec-version <VERSION>  EditorConfig specification version the files follow\n" ++
  "  -q, --quiet                 Print valid settings only, no messages\n" ++
  "  -v, --verbose               Mark invalid settings and log each configuration file used\n" ++
  "      --color                 Always use colors\n" ++
  "      --no-color              Never use colors\n" ++
  "      --render <FILE>         Print a configuration file in canonical form\n" ++
  "  -d, --diff                  With --render, show the changes the canonical form makes\n" ++
  "  -c, --check                 With --render, exit 1 if the file is not in canonical form\n" ++
  "      --init                  Generate a template ecascade.toml configuration file\n" ++
  "      --config <PATH>         Specify config file path (overrides auto-discovery)\n" ++
  "  -h, --help                  Print help\n" ++
  "  -V, --version               Print version\n"

/-- What to say when the arguments cannot be accepted. -/
def usageText : String := "error: invalid arguments\n\nFor more information, try '--help'.\n"

/-- The outcome where there is no run. -/
def refused : Refusal → Outcome
  | .usage => { code := 2, err := usageText }
  | .version => { code := 0, out := versionText }
  | .help => { code := 0, out := helpText }

/-! ## 2. The plan -/

/-- What the arguments say about the search. -/
def wishes (a : Arguments) : Wishes := ⟨a.fileName?, a.version?, a.roots.map Path.mk⟩

/-- The plan of the arguments and of the preferences file, and a warning if that file cannot be
used. -/
def plan (fs : FileSystem m) (a : Arguments) : m (Plan × String) := do
  let found? ← match a.preferences? with
    | some p => pure (some (Path.mk p))
    | none => Preferences.find? fs fs.cwd
  match found? with
  | none => pure (Preferences.plan (wishes a) {} ⟨"."⟩, "")
  | some p =>
    match ← Preferences.load fs p with
    | .ok preferences =>
      pure (Preferences.plan (wishes a) preferences (p.parent?.getD ⟨"."⟩), "")
    | .error e =>
      pure (Preferences.plan (wishes a) {} ⟨"."⟩,
        "Warning: Failed to load " ++ p.text ++ ": " ++ e.message ++ "\n")

/-- The style that the arguments ask for. -/
def style (env : Environment) (a : Arguments) : Style where
  quiet := a.has .quiet
  verbose := a.has .verbose
  palette :=
    .choose (Palette.isWanted (a.has .colour) (a.has .noColour) env.noColours env.isTerminal)

/-- The rendering that the arguments ask for. -/
def rendering (a : Arguments) : Run.Rendering :=
  if a.has .check then .check else if a.has .difference then .difference else .text

/-! ## 3. Runs -/

/-- Make a preferences file. -/
def init (fs : FileSystem m) : m Outcome := do
  match ← Preferences.create fs none with
  | .ok p => pure { code := 0, out := "Created " ++ p.text ++ "\n" }
  | .error e => pure { code := 1, err := "Error: " ++ e.message ++ "\n" }

/-- Print a settings file in canonical form. -/
def render (fs : FileSystem m) (p : Plan) (st : Style) (r : Run.Rendering) (file : Path) :
    m Outcome := do
  match ← Run.canonical fs p st r file with
  | .ok printed =>
    let code := if r = .check ∧ printed.result = false then 1 else 0
    pure { code, out := printed.out, err := printed.err }
  | .error e => pure { code := 1, err := "Error: " ++ file.text ++ ": " ++ e.message ++ "\n" }

/-- Print the settings of targets. -/
def settings (fs : FileSystem m) (p : Plan) (st : Style) (paths : List Path) : m Outcome := do
  match ← Run.settings fs p st paths with
  | .ok printed =>
    let code := if printed.result.hasFailures then 1 else 0
    pure { code, out := printed.out, err := printed.err }
  | .error problems =>
    pure { code := 1, err := "Error: " ++ Ignore.Problem.messages problems ++ "\n" }

/-- Run the program for arguments that have been read. -/
def perform (fs : FileSystem m) (env : Environment) (a : Arguments) : m Outcome := do
  if a.has .init then init fs
  else
    let (p, warning) ← plan fs a
    let st := style env a
    let outcome ← match a.render? with
      | some file => render fs p st (rendering a) ⟨file⟩
      | none => settings fs p st (a.paths.map Path.mk)
    pure { outcome with err := warning ++ outcome.err }

/-- Run the program. -/
def run (fs : FileSystem m) (env : Environment) (args : List String) : m Outcome :=
  match Arguments.read args with
  | .ok a => perform fs env a
  | .error r => pure (refused r)

end EditorSettings.CommandLine
