/-
# Arguments of the command line

Arguments are read from left to right.  Options have long names and some of them short ones;
short ones may be joined, and a value may follow its option directly, after an equals sign, or
as the next argument, which then must not look like an option.  After `--` everything is a path.

Reading ends with the first argument that cannot be accepted or that asks for the version or the
help.  When all arguments have been read, they have to go together.
-/

namespace EditorSettings

/-! ## 1. Options -/

/-- An option with a value. -/
inductive CommandLine.Valued
  | root
  | fileName
  | version
  | render
  | preferences
  deriving DecidableEq, Repr

/-- An option without a value. -/
inductive CommandLine.Flag
  | quiet
  | verbose
  | colour
  | noColour
  | difference
  | check
  | init
  | showVersion
  | showHelp
  deriving DecidableEq, Repr

/-- What the arguments say. -/
structure Arguments where
  paths : List String := []
  roots : List String := []
  fileName? : Option String := none
  version? : Option String := none
  render? : Option String := none
  preferences? : Option String := none
  flags : List CommandLine.Flag := []
  deriving DecidableEq, Repr

/-- Why the arguments lead to no run. -/
inductive Refusal
  | usage
  | version
  | help
  deriving DecidableEq, Repr

namespace CommandLine

/-- The option with a long name. -/
def long? : String → Option (Valued ⊕ Flag)
  | "root-dir" => some (.inl .root)
  | "filename" => some (.inl .fileName)
  | "ec-version" => some (.inl .version)
  | "render" => some (.inl .render)
  | "config" => some (.inl .preferences)
  | "quiet" => some (.inr .quiet)
  | "verbose" => some (.inr .verbose)
  | "color" => some (.inr .colour)
  | "no-color" => some (.inr .noColour)
  | "diff" => some (.inr .difference)
  | "check" => some (.inr .check)
  | "init" => some (.inr .init)
  | "version" => some (.inr .showVersion)
  | "help" => some (.inr .showHelp)
  | _ => none

/-- The option with a short name. -/
def short? : Char → Option (Valued ⊕ Flag)
  | 'f' => some (.inl .fileName)
  | 'b' => some (.inl .version)
  | 'q' => some (.inr .quiet)
  | 'v' => some (.inr .verbose)
  | 'd' => some (.inr .difference)
  | 'c' => some (.inr .check)
  | 'V' => some (.inr .showVersion)
  | 'h' => some (.inr .showHelp)
  | _ => none

/-- A value for an option that can have only one. -/
def once (old? : Option String) (value : String) : Except Refusal (Option String) :=
  match old? with
  | none => .ok (some value)
  | some _ => .error .usage

/-- A path, which must not be empty. -/
def pathValue (value : String) : Except Refusal String :=
  if value.isEmpty then .error .usage else .ok value

end CommandLine

namespace Arguments

open CommandLine

/-- The flag has been given. -/
def has (a : Arguments) (f : Flag) : Bool := a.flags.contains f

/-- Take up an option with its value. -/
def withValue (a : Arguments) (value : String) : Valued → Except Refusal Arguments
  | .root => do pure { a with roots := a.roots ++ [← pathValue value] }
  | .fileName => do pure { a with fileName? := ← once a.fileName? value }
  | .version => do pure { a with version? := ← once a.version? value }
  | .render => do pure { a with render? := ← once a.render? (← pathValue value) }
  | .preferences => do
    pure { a with preferences? := ← once a.preferences? (← pathValue value) }

/-- Take up a flag, which may be given only once. -/
def withFlag (a : Arguments) : Flag → Except Refusal Arguments
  | .showVersion => .error .version
  | .showHelp => .error .help
  | f => if a.has f then .error .usage else .ok { a with flags := a.flags ++ [f] }

/-- Take up paths. -/
def withPaths (a : Arguments) (paths : List String) : Arguments :=
  { a with paths := a.paths ++ paths }

/-! ## 2. Reading -/

/-- A value that stands in an argument of its own. -/
def isValue (s : String) : Bool := s.toList.head? != some '-' || s == "-"

/-- Take up joined short options.  One that still lacks its value comes with the arguments. -/
def withShort (a : Arguments) : List Char → Except Refusal (Arguments × Option Valued)
  | [] => .ok (a, none)
  | c :: rest =>
    match short? c with
    | none => .error .usage
    | some (.inr f) => do (← a.withFlag f).withShort rest
    | some (.inl o) =>
      match rest with
      | [] => .ok (a, some o)
      | '=' :: value => do pure (← a.withValue (String.ofList value) o, none)
      | value => do pure (← a.withValue (String.ofList value) o, none)

/-- Take up a long option, without the dashes.  One that still lacks its value comes with the
arguments. -/
def withLong (a : Arguments) (s : List Char) : Except Refusal (Arguments × Option Valued) :=
  let name := String.ofList (s.takeWhile (· != '='))
  match long? name, s.dropWhile (· != '=') with
  | none, _ => .error .usage
  | some (.inr f), [] => do pure (← a.withFlag f, none)
  | some (.inr _), _ :: _ => .error .usage
  | some (.inl o), [] => .ok (a, some o)
  | some (.inl o), _ :: value => do pure (← a.withValue (String.ofList value) o, none)

/-- Read the rest of the arguments; `open?` is an option that lacks its value. -/
def readFrom (a : Arguments) (open? : Option Valued) : List String → Except Refusal Arguments
  | [] => if open?.isSome then .error .usage else .ok a
  | s :: rest =>
    match open? with
    | some o =>
      if isValue s then do (← a.withValue s o).readFrom none rest else .error .usage
    | none =>
      match s.toList with
      | ['-', '-'] => .ok (a.withPaths rest)
      | '-' :: '-' :: name => do
        let (a, open?) ← a.withLong name
        a.readFrom open? rest
      | ['-'] => (a.withPaths [s]).readFrom none rest
      | '-' :: names => do
        let (a, open?) ← a.withShort names
        a.readFrom open? rest
      | _ => (a.withPaths [s]).readFrom none rest

/-- The arguments go together: there is something to do, and what belongs to a rendering comes
with one. -/
def isConsistent (a : Arguments) : Bool :=
  (!a.paths.isEmpty || a.has .init || a.render?.isSome) &&
    (a.render?.isSome || !(a.has .difference || a.has .check)) &&
    !(a.has .difference && a.has .check)

/-- Read all arguments. -/
def read (args : List String) : Except Refusal Arguments := do
  let a ← readFrom {} none args
  if a.isConsistent then pure a else .error .usage

end Arguments
end EditorSettings
