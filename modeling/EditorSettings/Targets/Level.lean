/-
# Ignore files by directory

In every directory, files `.ignore` and `.gitignore` are looked for, and the exclusions of a
repository where one begins.  Files `.ignore` count always, the others only inside of a
repository, up to the directory where the first one begins.  The nearest file that has something
to say about an entry counts.

The rules of a file are about paths below its directory, and the path of an entry is found from
the texts of both: the directory is taken off the front of the path, if the path begins with it
(`Level.pathOf`).
-/
import EditorSettings.Targets.Rule

namespace EditorSettings.Ignore

variable {m : Type → Type} [Monad m]

/-! ## 1. Repositories -/

/-- The first line of a file, if it has any. -/
def firstLine? (content : ByteArray) : Except FileError (Option (List Char)) :=
  match Text.decodedLines content with
  | (line :: _, _) => .ok (some line)
  | ([], true) => .ok none
  | ([], false) => .error .notText

/-- The directory that a line `gitdir:` names. -/
def linkedDirectory? : List Char → Option Path
  | 'g' :: 'i' :: 't' :: 'd' :: 'i' :: 'r' :: ':' :: ' ' :: rest => some ⟨String.ofList rest⟩
  | _ => none

/-- The directory that a repository shares with others.  Its name is in a file, relative to the
repository if it begins with a point. -/
def sharedDirectory? (fs : FileSystem m) (repository : Path) :
    m (Option Path × List Problem) := do
  let file := repository.join "commondir"
  match ← fs.readBytes file with
  | .ok content =>
    match firstLine? content with
    | .ok (some line) =>
      let name := String.ofList line
      pure (some (if line.head? = some '.' then repository.join name else ⟨name⟩), [])
    | .ok none => pure (none, [])
    | .error e => pure (none, [.unreadable file e])
  | .error .isADirectory => pure (none, [.unreadable file .isADirectory])
  | .error _ => pure (none, [])

/-- The directory of the repository that begins in a directory.  If `.git` is a file, the file
names another repository. -/
def repository? (fs : FileSystem m) (dir : Path) : m (Option Path × List Problem) := do
  let entry := dir.join ".git"
  if ← fs.isFile entry then
    match (← fs.readBytes entry).bind firstLine? with
    | .ok (some line) =>
      match linkedDirectory? line with
      | some repository => sharedDirectory? fs repository
      | none => pure (none, [])
    | .ok none => pure (none, [])
    | .error e => pure (none, [.unreadable entry e])
  else pure (some entry, [])

/-! ## 2. Levels -/

/-- What the ignore files of one directory say. -/
structure Level where
  directory : Path
  rules : List Rule
  repositoryRules : List Rule
  exclusions : List Rule
  hasRepository : Bool

/-- The text without `front`, if it begins with that. -/
def dropFront (front s : List Char) : List Char :=
  if front.isPrefixOf s then s.drop front.length else s

/-- The text without a point and a slash in front. -/
def dropHere (s : List Char) : List Char := dropFront ['.', '/'] s

namespace Level

/-- The ignore files of a directory, and what is wrong with them. -/
def ofDirectory (fs : FileSystem m) (dir : Path) : m (Level × List Problem) := do
  let own ← Rules.load fs (dir.join ".ignore")
  let shared ← Rules.load fs (dir.join ".gitignore")
  let (repository?, problems) ← repository? fs dir
  let excluded ← match repository? with
    | some repository => Rules.load fs (repository.join "info/exclude")
    | none => pure {}
  let hasRepository := (← fs.isThere (dir.join ".git")) || (← fs.isThere (dir.join ".jj"))
  pure
    (⟨dir, own.rules, shared.rules, excluded.rules, hasRepository⟩,
      own.problems ++ shared.problems ++ problems ++ excluded.problems)

/-- The path of an entry, seen from the directory of the level. -/
def pathOf (l : Level) (path : List Char) : List Char :=
  let path := dropHere path
  let dir := dropHere l.directory.text.toList
  if Path.same ⟨String.ofList dir⟩ ⟨"."⟩ || !path.contains '/' then path
  else if dir.isPrefixOf path then dropFront ['/'] (path.drop dir.length)
  else path

end Level

/-! ## 3. Verdicts -/

/-- A level, and the path of an entry as the level takes it. -/
structure Sight where
  level : Level
  path : List Char

/-- The sights up to the first repository; none if there is no repository. -/
def inRepository (sights : List Sight) : List Sight :=
  if sights.any (·.level.hasRepository) then
    sights.takeWhile (!·.level.hasRepository) ++
      (sights.find? (·.level.hasRepository)).toList
  else []

/-- What the nearest level with something to say says about an entry. -/
def nearest? (rules : Level → List Rule) (sights : List Sight) (isDirectory : Bool) :
    Option Bool :=
  sights.findSome? fun s => Rule.verdict? (rules s.level) (s.level.pathOf s.path) isDirectory

/-- Whether an entry is ignored, if some ignore file is about it.  The nearest sight comes
first. -/
def verdict? (sights : List Sight) (isDirectory : Bool) : Option Bool :=
  let inside := inRepository sights
  (nearest? Level.rules sights isDirectory).or
    ((nearest? Level.repositoryRules inside isDirectory).or
      (nearest? Level.exclusions inside isDirectory))

end EditorSettings.Ignore
