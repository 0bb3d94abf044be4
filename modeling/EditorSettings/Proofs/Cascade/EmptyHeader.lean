/-
# Empty headers

A header may be empty.  Its glob has no slash, so it stands at any depth, and there it matches the
empty name: a path below the directory that ends in a slash (`matchesPath_emptyGlob`).  It matches
nothing else.

So a section with an empty header counts only for a file whose path is written with a slash at its
end, and for all other files it may be left out of its document (`settingsFor_withoutEmptyHeaders`).
A path in normal form has a slash at its end only if it is the root, above which there are no
documents, so among the files of a file system there is no exception
(`eq_withoutEmptyHeaders_of_absolute`).

The main statement is `resolve_withoutEmptyHeaders`.
-/
import EditorSettings.Proofs.Cascade.ExplicitRoot
import EditorSettings.Proofs.Document.Readable
import EditorSettings.Proofs.Glob.AnyDepth
import EditorSettings.Proofs.Glob.Wild

namespace EditorSettings

/-! ## 1. The empty glob -/

namespace Glob

theorem isWild_nil : IsWild [] := by decide

theorem isValid_emptyGlob (dir : String) : (compile dir "").isValid = true := by
  have hmatcher : matcher? (directoryText dir) (unescapeComments "".toList) = _ :=
    matcher?_wild (directoryText dir) isWild_nil
  rw [isValid_compile, hmatcher]
  exact ⟨by decide, rfl⟩

/-- **The empty glob** matches the paths below its directory that end in a slash. -/
theorem matchesPath_emptyGlob (dir path : String) :
    (compile dir "").matchesPath path = true ↔
      path.toList.getLast? = some '/' ∧ ∃ t, path = below dir t := by
  have hwild : wild (anchor []) = Item.depths.language := mul_one _
  have hglob : (compile dir "").matchesPath path = true ↔ _ :=
    matchesPath_wild dir isWild_nil (by decide) path
  rw [hglob, hwild]
  constructor
  · rintro ⟨w, rfl | ⟨v, rfl⟩, hpath⟩
    · refine ⟨by rw [hpath, List.getLast?_concat], "", ?_⟩
      rw [← String.toList_inj, toList_below, hpath]
      rfl
    · refine ⟨by rw [hpath, ← List.append_assoc, List.getLast?_concat],
        String.ofList (v ++ ['/']), ?_⟩
      rw [← String.toList_inj, toList_below, hpath, String.toList_ofList]
      rfl
  · rintro ⟨hlast, t, rfl⟩
    rw [toList_below, List.getLast?_append_cons] at hlast
    refine ⟨'/' :: t.toList, ?_, toList_below dir t⟩
    rcases List.eq_nil_or_concat t.toList with ht | ⟨v, c, ht⟩
    · rw [ht]
      exact Or.inl rfl
    · rw [ht, List.concat_eq_append, ← List.cons_append, List.getLast?_concat] at hlast
      rw [ht, List.concat_eq_append, Option.some.inj hlast]
      exact Or.inr ⟨v, rfl⟩

end Glob

/-! ## 2. Documents without empty headers -/

/-- Nothing stands in the header of the section. -/
def Section.hasEmptyHeader (s : Section) : Bool := s.glob?.any Glob.isEmpty

/-- The document without the sections that have empty headers. -/
def Document.withoutEmptyHeaders (d : Document) : Document :=
  { d with sections := d.sections.filter (!·.hasEmptyHeader) }

/-- A section under an empty header applies to the paths below the directory that end in a slash. -/
theorem Section.Readable.matchesPath_iff {r : Registry} {directory version : String} {s : Section}
    (h : s.Readable r directory version) (hempty : s.hasEmptyHeader = true) (path : String) :
    s.matchesPath path = true ↔
      path.toList.getLast? = some '/' ∧ ∃ t, path = Glob.below directory t := by
  obtain ⟨pattern, hglob, -⟩ := h.glob
  rw [Section.hasEmptyHeader, hglob, Option.any_some] at hempty
  obtain rfl : pattern = "" := String.isEmpty_iff.mp hempty
  rw [Section.matchesPath, hglob]
  exact Glob.matchesPath_emptyGlob directory path

/-- **For a path that does not end in a slash, sections with empty headers may be left out.** -/
theorem settingsFor_withoutEmptyHeaders {r : Registry} {d : Document} (h : d.Readable r)
    {path : String} (hpath : path.toList.getLast? ≠ some '/') :
    d.withoutEmptyHeaders.settingsFor path = d.settingsFor path := by
  have hsections : d.withoutEmptyHeaders.sections.filter (·.matchesPath path) =
      d.sections.filter (·.matchesPath path) := by
    rw [Document.withoutEmptyHeaders, List.filter_filter]
    refine List.filter_congr fun s hs => ?_
    cases hmatches : s.matchesPath path with
    | false => rfl
    | true =>
      cases hempty : s.hasEmptyHeader with
      | false => rfl
      | true => exact absurd (((h s hs).matchesPath_iff hempty path).mp hmatches).1 hpath
  rw [Document.settingsFor, hsections, Document.settingsFor]

namespace Cascade

/-! ## 3. Searches -/

/-- The settings of a file from the documents that count, as if none had empty headers. -/
def withoutEmptyHeaders {R : Type} (p : Provider Id R) (r : Registry) (rules : Rules)
    (roots : List R) (file : R) : Settings :=
  (visited p r rules roots file).foldl (fun m dir =>
    extend m (p.path file) ((documentAt p r rules dir).map Document.withoutEmptyHeaders))
    Keyed.empty

section

variable {R : Type} {p : Provider Id R} {r : Registry} {rules : Rules}

theorem readable_documentAt {dir : R} {d : Document} (h : documentAt p r rules dir = some d) :
    d.Readable r := by
  unfold documentAt at h
  dsimp only at h
  split at h
  · rw [← Option.some.inj h]
    exact readable_parse r _ _ _
  · cases h

theorem extend_withoutEmptyHeaders {path : String} (hpath : path.toList.getLast? ≠ some '/')
    (m : Settings) (dir : R) :
    extend m path ((documentAt p r rules dir).map Document.withoutEmptyHeaders) =
      extend m path (documentAt p r rules dir) := by
  cases hd : documentAt p r rules dir with
  | none => rfl
  | some d =>
    rw [Option.map_some, extend, settingsFor_withoutEmptyHeaders (readable_documentAt hd) hpath,
      extend]

/-- A search for a file whose path does not end in a slash. -/
theorem eq_withoutEmptyHeaders_of_getLast? {roots : List R} {file : R} {settings : Settings}
    (h : (resolve p r rules roots file).result = .ok settings)
    (hpath : (p.path file).toList.getLast? ≠ some '/') :
    settings = withoutEmptyHeaders p r rules roots file := by
  rw [search_eq_foldl_extend h, withoutEmptyHeaders]
  exact congrArg (List.foldl · _ _)
    (funext₂ fun m dir => (extend_withoutEmptyHeaders hpath m dir).symm)

end

/-- A search for a file of a file system.  Of the normal forms of paths, only the root ends in a
slash. -/
theorem eq_withoutEmptyHeaders_of_absolute {fs : FileSystem Id} {r : Registry} {rules : Rules}
    {roots : List Path} {file : Path} {settings : Settings}
    (habsolute : file.isAbsolute = true ∨ fs.cwd.isAbsolute = true)
    (h : (resolve fs.provider r rules roots (fs.absolute file)).result = .ok settings) :
    settings = withoutEmptyHeaders fs.provider r rules roots (fs.absolute file) := by
  obtain ⟨names, hnames, hfile⟩ := Path.exists_absolute_eq_ofNames habsolute
  rw [FileSystem.absolute, hfile] at h ⊢
  by_cases hne : names = []
  · subst hne
    have hdirs : fs.provider.directories (Path.ofNames []) = [] :=
      Provider.directories_of_eq_none Path.directory?_ofNames_nil
    rw [resolve, hdirs] at h
    cases h
    rw [withoutEmptyHeaders, visited, hdirs]
    rfl
  · exact eq_withoutEmptyHeaders_of_getLast? h (Path.getLast?_ofNames hnames hne)

/-- **Empty headers count for nothing but paths that end in a slash.**  The empty glob is valid, and
of the paths below its directory it matches those that end in a slash.  For a file whose path does
not, and so for all files of a file system, a search finds what it would find if the documents had
no sections with empty headers. -/
theorem resolve_withoutEmptyHeaders (dir : String) (r : Registry) (rules : Rules) :
    (Glob.compile dir "").isValid = true ∧
    (∀ path, (Glob.compile dir "").matchesPath path = true ↔
      path.toList.getLast? = some '/' ∧ ∃ t, path = Glob.below dir t) ∧
    (∀ {R : Type} (p : Provider Id R) (roots : List R) (file : R) (settings : Settings),
      (p.path file).toList.getLast? ≠ some '/' →
      (resolve p r rules roots file).result = .ok settings →
      settings = withoutEmptyHeaders p r rules roots file) ∧
    ∀ (fs : FileSystem Id) (roots : List Path) (file : Path) (settings : Settings),
      file.isAbsolute = true ∨ fs.cwd.isAbsolute = true →
      (resolve fs.provider r rules roots (fs.absolute file)).result = .ok settings →
      settings = withoutEmptyHeaders fs.provider r rules roots (fs.absolute file) :=
  ⟨Glob.isValid_emptyGlob dir, Glob.matchesPath_emptyGlob dir,
    fun _ _ _ _ hpath h => eq_withoutEmptyHeaders_of_getLast? h hpath,
    fun _ _ _ _ habsolute h => eq_withoutEmptyHeaders_of_absolute habsolute h⟩

/-- The file `1` with the given path, in the root `0`, whose document `10` has an empty header and a
setting under it. -/
def oneLevel (path : String) : Provider Id Nat where
  parent? n := if n = 1 then some 0 else none
  child dir _ := 10 + dir
  path n := if n = 1 then path else "/"
  same a b := a == b
  height n := n
  height_parent?_lt := by
    intro r d h
    split at h
    · cases h
      omega
    · cases h
  isFile _ := .ok true
  read _ := .ok "[]\nx = 1\n"

theorem resolve_withoutEmptyHeaders_oneLevel :
    (∃ settings, (resolve (oneLevel "/f.c") .builtin {} [] 1).result = .ok settings ∧
      settings = withoutEmptyHeaders (oneLevel "/f.c") .builtin {} [] 1) ∧
    ∃ settings,
      (resolve noFiles.provider .builtin {} [] (noFiles.absolute ⟨"d/"⟩)).result = .ok settings ∧
      settings = withoutEmptyHeaders noFiles.provider .builtin {} [] (noFiles.absolute ⟨"d/"⟩) := by
  obtain ⟨-, -, hprovider, hfiles⟩ := resolve_withoutEmptyHeaders "/" .builtin {}
  refine ⟨?_, ?_⟩
  · obtain ⟨settings, h⟩ : ∃ settings,
        (resolve (oneLevel "/f.c") .builtin {} [] 1).result = .ok settings :=
      exists_search_eq_ok (fun _ => ⟨true, rfl⟩) (fun _ => ⟨_, rfl⟩) _ _
    exact ⟨settings, h, hprovider (oneLevel "/f.c") [] 1 settings (by decide) h⟩
  · have hsome :
        (resolve noFiles.provider .builtin {} [] (noFiles.absolute ⟨"d/"⟩)).result.toOption.isSome =
          true := by
      decide +kernel
    cases h : (resolve noFiles.provider .builtin {} [] (noFiles.absolute ⟨"d/"⟩)).result with
    | error failure =>
      rw [h] at hsome
      cases hsome
    | ok settings =>
      exact ⟨settings, rfl, hfiles noFiles [] ⟨"d/"⟩ settings (.inr (by decide)) h⟩

theorem declaredFor_oneLevel :
    (Document.parse .builtin "/" defaultVersion "[]\nx = 1\n").document.declaredFor "/d/" =
      [Setting.declare .builtin "x" "1"] := by
  have hread : (Document.parse .builtin "/" defaultVersion "[]\nx = 1\n").document.sections.map
      (fun s => (s.hasEmptyHeader, s.settings.toList)) =
        [(true, [Setting.declare .builtin "x" "1"])] := by
    decide +kernel
  obtain ⟨s, hsections, hs⟩ := List.map_eq_singleton_iff.mp hread
  obtain ⟨hempty, hsettings⟩ := Prod.mk.inj hs
  have hreadable := readable_parse .builtin "/" defaultVersion "[]\nx = 1\n" s
    (hsections ▸ List.mem_singleton_self s)
  have hmatches : s.matchesPath "/d/" = true :=
    (hreadable.matchesPath_iff hempty "/d/").mpr ⟨by decide, "d/", by decide +kernel⟩
  rw [Document.declaredFor, hsections, List.filter_singleton, hmatches, cond_true,
    List.flatMap_singleton, hsettings]

/-- The empty glob does match something: the directory, with a slash at its end.  And so a file
whose path ends in a slash has the settings under an empty header. -/
theorem emptyHeader_counts :
    (¬ ∀ dir path, (Glob.compile dir "").isValid = true ∧
      (Glob.compile dir "").matchesPath path = false) ∧
    ∃ settings, (resolve (oneLevel "/d/") .builtin {} [] 1).result = .ok settings ∧
      settings.value? "x" = some "1" := by
  refine ⟨fun h => ?_, ?_⟩
  · have hmatches : (Glob.compile "/project" "").matchesPath "/project/" = true :=
      (Glob.matchesPath_emptyGlob "/project" "/project/").mpr ⟨by decide, "", by decide⟩
    rw [(h "/project" "/project/").2] at hmatches
    cases hmatches
  · obtain ⟨settings, h⟩ : ∃ settings,
        (resolve (oneLevel "/d/") .builtin {} [] 1).result = .ok settings :=
      exists_search_eq_ok (fun _ => ⟨true, rfl⟩) (fun _ => ⟨_, rfl⟩) _ _
    have hvisited : upTo (isLast (oneLevel "/d/") .builtin {} [])
        ((oneLevel "/d/").directories 1) = [0] := by
      decide +kernel
    have hdocument : documentAt (oneLevel "/d/") .builtin {} 0 =
        some (Document.parse .builtin "/" defaultVersion "[]\nx = 1\n").document := rfl
    have hpath : (oneLevel "/d/").path 1 = "/d/" := rfl
    have hfound := search_eq_foldl_extend h
    rw [hvisited, List.foldl_cons, List.foldl_nil, hdocument, hpath, extend,
      Document.settingsFor_eq, declaredFor_oneLevel] at hfound
    exact ⟨settings, h, by rw [hfound]; decide +kernel⟩

end Cascade
end EditorSettings
