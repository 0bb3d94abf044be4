/-
# Trees of files

A tree of files in memory, with the rules of a real file system for following a path: every
step needs a directory to step from, `..` included, so a path through something that is missing
names nothing even if it comes back from there.
-/
import EditorSettings.FileSystem

namespace EditorSettings

/-! ## 1. Trees -/

/-- A directory, or a file with its bytes. -/
inductive FileTree.Entry
  | directory
  | file (content : ByteArray)

/-- Everything below the root, each thing under the names that lead to it.  What lies in the
directories that are not listed is missing; the root is always there. -/
structure FileTree where
  entries : List (List String × FileTree.Entry) := []

namespace FileTree

/-- What stands under these names. -/
def entry? (t : FileTree) (names : List String) : Option Entry :=
  if names.isEmpty then some .directory else t.entries.lookup names

/-- Put an entry under these names, in the place of one that is there. -/
def put (t : FileTree) (names : List String) (e : Entry) : FileTree :=
  ⟨(names, e) :: t.entries.filter (·.1 != names)⟩

/-- The directories above these names, from the root downward. -/
def parentNames (names : List String) : List (List String) :=
  (List.range names.length).map names.take

/-- Put an entry under these names, with the directories above it. -/
def putDeep (t : FileTree) (names : List String) (e : Entry) : FileTree :=
  ((parentNames names).foldl (fun t above =>
    if (t.entry? above).isSome then t else t.put above .directory) t).put names e

/-- The last names of what lies in a directory. -/
def namesIn (t : FileTree) (names : List String) : List String :=
  t.entries.filterMap fun (path, _) =>
    match path.getLast? with
    | some name => if path.dropLast = names then some name else none
    | none => none

/-! ## 2. Following a path -/

/-- The longest name, in bytes. -/
def maxName : Nat := 255

/-- The longest path, in bytes. -/
def maxPath : Nat := 4095

/-- Take a step from what stands under `names`. -/
def step (t : FileTree) (names : List String) (piece : List Char) :
    Except FileError (List String) :=
  match t.entry? names with
  | none => .error .notFound
  | some (.file _) => .error .notADirectory
  | some .directory =>
    if Path.isVoid piece then .ok names
    else if piece = ['.', '.'] then .ok names.dropLast
    else
      let name := String.ofList piece
      if maxName < name.utf8ByteSize then .error .nameTooLong
      else if (t.entry? (names ++ [name])).isSome then .ok (names ++ [name])
      else .error .notFound

/-- Where the path leads, seen from a directory. -/
def follow (t : FileTree) (cwd : List String) (p : Path) : Except FileError (List String) :=
  if p.text.toList.contains '\x00' then .error .nulInName
  else if p.text.isEmpty then .error .notFound
  else if maxPath < p.text.utf8ByteSize then .error .nameTooLong
  else (Text.pieces '/' p.text.toList).foldlM t.step (if p.isAbsolute then [] else cwd)

/-- What the path names. -/
def kind (t : FileTree) (cwd : List String) (p : Path) : Except FileError FileKind := do
  match t.entry? (← t.follow cwd p) with
  | some .directory => pure .directory
  | some (.file _) => pure .file
  | none => throw .notFound

/-- The bytes of a file. -/
def readBytes (t : FileTree) (cwd : List String) (p : Path) : Except FileError ByteArray := do
  match t.entry? (← t.follow cwd p) with
  | some .directory => throw .isADirectory
  | some (.file content) => pure content
  | none => throw .notFound

/-- The names in a directory. -/
def list (t : FileTree) (cwd : List String) (p : Path) : Except FileError (List String) := do
  let names ← t.follow cwd p
  match t.entry? names with
  | some .directory => pure (t.namesIn names)
  | some (.file _) => throw .notADirectory
  | none => throw .notFound

/-- The names under which a file is written: its own, where there is something, and otherwise a
new one in its directory. -/
def target (t : FileTree) (cwd : List String) (p : Path) : Except FileError (List String) :=
  match t.follow cwd p, p.components.getLast? with
  | .error .notFound, some (.name name) => do
    let dir ← t.follow cwd ((p.parent?.getD default).join ".")
    pure (dir ++ [name])
  | result, _ => result

/-- The tree after a file has been written. -/
def write (t : FileTree) (cwd : List String) (p : Path) (text : String) :
    Except FileError FileTree := do
  let names ← t.target cwd p
  match t.entry? names with
  | some .directory => throw .isADirectory
  | _ => pure (t.put names (.file text.toUTF8))

/-! ## 3. Trees as file systems -/

/-- The names of an absolute path. -/
def namesOf (p : Path) : List String := Path.normalNames p.components

/-- A tree in memory, seen from a working directory. -/
def fileSystem (cwd : Path) : FileSystem (StateM FileTree) where
  cwd
  kind p := do return (← get).kind (namesOf cwd) p
  readBytes p := do return (← get).readBytes (namesOf cwd) p
  list p := do return (← get).list (namesOf cwd) p
  write p text := do
    match (← get).write (namesOf cwd) p text with
    | .ok t => set t; return .ok ()
    | .error e => return .error e

end FileTree
end EditorSettings
