/-
# Files

What the program asks of a file system, and the failures it can get.  The requests live in a
monad of their own, so that the same program runs on the machine and on a tree of files in
memory.
-/
import EditorSettings.Cascade
import EditorSettings.Path.Normal
import EditorSettings.Path.Parent

namespace EditorSettings

/-! ## 1. Requests -/

/-- What a path names. -/
inductive FileKind
  | file
  | directory
  | other
  deriving DecidableEq, Repr

/-- Why a request failed. -/
inductive FileError
  | notFound
  | notADirectory
  | isADirectory
  | alreadyExists (name : String)
  | nameTooLong
  | nulInName
  | notText
  | other (message : String)
  deriving DecidableEq, Repr

/-- The failure in words. -/
def FileError.message : FileError → String
  | notFound => "No such file or directory (os error 2)"
  | notADirectory => "Not a directory (os error 20)"
  | isADirectory => "Is a directory (os error 21)"
  | alreadyExists name => name ++ " already exists"
  | nameTooLong => "File name too long (os error 36)"
  | nulInName => "file name contained an unexpected NUL byte"
  | notText => "stream did not contain valid UTF-8"
  | other message => message

/-- Access to files.  Relative paths are seen from `cwd`. -/
structure FileSystem (m : Type → Type) where
  cwd : Path
  kind : Path → m (Except FileError FileKind)
  readBytes : Path → m (Except FileError ByteArray)
  /-- The names in a directory, in any order. -/
  list : Path → m (Except FileError (List String))
  /-- Write a file, replacing its content. -/
  write : Path → String → m (Except FileError Unit)

namespace FileSystem

variable {m : Type → Type} [Monad m] (fs : FileSystem m)

/-- The path names a file. -/
def isFile (p : Path) : m Bool := do
  match ← fs.kind p with
  | .ok .file => pure true
  | _ => pure false

/-- The path names a directory. -/
def isDirectory (p : Path) : m Bool := do
  match ← fs.kind p with
  | .ok .directory => pure true
  | _ => pure false

/-- The path names something. -/
def isThere (p : Path) : m Bool := do
  match ← fs.kind p with
  | .ok _ => pure true
  | .error _ => pure false

/-- The text of a file. -/
def read (p : Path) : m (Except FileError String) := do
  match ← fs.readBytes p with
  | .ok content =>
    match String.fromUTF8? content with
    | some text => pure (.ok text)
    | none => pure (.error .notText)
  | .error e => pure (.error e)

/-- The path seen from the working directory, in normal form. -/
def absolute (p : Path) : Path := Path.absolute fs.cwd p

/-! ## 2. The file system as a provider -/

/-- Whether a document is there: only a failure other than its absence is one. -/
def isDocument (p : Path) : m (Except String Bool) := do
  match ← fs.kind p with
  | .ok kind => pure (.ok (kind == .file))
  | .error .notFound => pure (.ok false)
  | .error e => pure (.error e.message)

/-- Documents in the directories of the file system. -/
def provider : Provider m Path where
  parent? := Path.directory?
  child := Path.join
  path := Path.text
  same := Path.same
  height p := p.text.length
  height_parent?_lt := Path.length_directory?_lt
  isFile := fs.isDocument
  read p := do
    match ← fs.read p with
    | .ok text => pure (.ok text)
    | .error e => pure (.error e.message)

end FileSystem
end EditorSettings
