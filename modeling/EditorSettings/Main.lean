/-
# The program

The command line on a real machine: its files are the machine's, and what a run leaves is
printed.  Everything the program decides, it decides in `CommandLine.run`.
-/
import EditorSettings.CommandLine.Run

namespace EditorSettings.Machine

/-- The number of a system error: some requests give it with the opposite sign. -/
def errorNumber (code : UInt32) : UInt32 := if code < 0x80000000 then code else -code

/-- The failure that the machine reports. -/
def failure (e : IO.Error) : FileError :=
  match e with
  | .noFileOrDirectory .. => .notFound
  | .inappropriateType _ code _ =>
    if errorNumber code = 20 then .notADirectory
    else if errorNumber code = 21 then .isADirectory
    else .other (toString e)
  | .invalidArgument _ code _ =>
    if errorNumber code = 36 then .nameTooLong else .other (toString e)
  | _ => .other (toString e)

/-- Make a request about a path, unless no file can have it. -/
def request {α : Type} (p : Path) (action : IO α) : IO (Except FileError α) := do
  if p.text.isEmpty then return .error .notFound
  if p.text.contains '\x00' then return .error .nulInName
  try
    return .ok (← action)
  catch e =>
    return .error (failure e)

/-- The files of the machine, seen from a working directory. -/
def files (cwd : String) : FileSystem IO where
  cwd := ⟨cwd⟩
  kind p := request p do
    let place : IO.FS.DirEntry := ⟨⟨cwd⟩, p.text⟩
    match (← place.path.metadata).type with
    | .file => return .file
    | .dir => return .directory
    | _ => return .other
  readBytes p := request p do
    let place : IO.FS.DirEntry := ⟨⟨cwd⟩, p.text⟩
    IO.FS.readBinFile place.path
  list p := request p do
    let place : IO.FS.DirEntry := ⟨⟨cwd⟩, p.text⟩
    return (← place.path.readDir).toList.map (·.fileName)
  write p text := request p do
    let place : IO.FS.DirEntry := ⟨⟨cwd⟩, p.text⟩
    IO.FS.writeFile place.path text

/-- What the program takes from the machine. -/
def environment : IO CommandLine.Environment := do
  return { noColours := (← IO.getEnv "NO_COLOR").isSome
           isTerminal := ← (← IO.getStdout).isTty }

end EditorSettings.Machine

/-- Run the program and print what it leaves. -/
def main (args : List String) : IO UInt32 := do
  let files := EditorSettings.Machine.files (← IO.currentDir).toString
  let outcome ← EditorSettings.CommandLine.run files (← EditorSettings.Machine.environment) args
  IO.eprint outcome.err
  IO.print outcome.out
  return outcome.code.toUInt32
