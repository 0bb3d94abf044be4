/-
# The nearest file inside the repository

The search for a file goes from a directory upward.  In each directory it looks for the file first
and for an entry `.git` afterwards, so the directory that holds `.git` still counts, and those above
it do not.  `Offers` says of a directory that its file counts, without any order of looking; the
file that is found is the one in the nearest such directory.

In a file system that only reads, nothing counts but what it answers for the file and for `.git`, so
links and missing permissions make no difference apart from these answers.  `offers_cons_iff` is one
step of the search in these terms, and `findIn_cases` is the whole of it, by induction over the
directories (`findUpward_isNearest`).

In a tree, the directories are the beginnings of the names of the first one, and one is nearer than
another if it lies below that one (`prefix_reverse_inits`).  So what a directory offers is said there
without a list of directories, and where everything lies in a directory, it can be seen from the
entries alone (`offers_iff_of_isClosed`).  The main statement is `findUpward_nearest`.
-/
import EditorSettings.Preferences.File
import EditorSettings.Proofs.FileTree

namespace EditorSettings

open EditorSettings.Path

/-! ## 1. Searching only reads -/

namespace FileSystem

section

variable {σ : Type} {fs : FileSystem (StateM σ)} (h : fs.ReadsOnly)

include h

theorem answer_isFile_iff (p : Path) (s : σ) :
    answer (fs.isFile p) s = true ↔ answer (fs.kind p) s = .ok .file := by
  rw [isFile, answer, run_bind_of_readOnly (h.kind p)]
  cases answer (fs.kind p) s with
  | error e => exact iff_of_false Bool.false_ne_true (by simp)
  | ok kind =>
    cases kind with
    | file => exact iff_of_true rfl rfl
    | directory => exact iff_of_false Bool.false_ne_true (by simp)
    | other => exact iff_of_false Bool.false_ne_true (by simp)

theorem answer_isThere_iff (p : Path) (s : σ) :
    answer (fs.isThere p) s = true ↔ ∃ kind, answer (fs.kind p) s = .ok kind := by
  rw [isThere, answer, run_bind_of_readOnly (h.kind p)]
  cases answer (fs.kind p) s with
  | error e => exact iff_of_false Bool.false_ne_true (by simp)
  | ok kind => exact iff_of_true rfl ⟨kind, rfl⟩

/-- **Searching for a file only reads.** -/
theorem readOnly_findIn (name : String) (inRepository : Bool) :
    ∀ dirs : List Path, ReadOnly (fs.findIn name inRepository dirs)
  | [] => readOnly_pure _
  | dir :: above => by
    refine (readOnly_isFile h _).bind fun isFile => ?_
    split
    · exact readOnly_pure _
    · split
      · refine (readOnly_isThere h _).bind fun isThere => ?_
        split
        · exact readOnly_pure _
        · exact readOnly_findIn name inRepository above
      · exact readOnly_findIn name inRepository above

/-- The file is looked for before the entry `.git`. -/
theorem answer_findIn_cons (name : String) (inRepository : Bool) (dir : Path) (above : List Path)
    (s : σ) :
    answer (fs.findIn name inRepository (dir :: above)) s =
      if answer (fs.isFile (dir.join name)) s then some (dir.join name)
      else if inRepository && answer (fs.isThere (dir.join ".git")) s then none
      else answer (fs.findIn name inRepository above) s := by
  rw [findIn, answer, run_bind_of_readOnly (readOnly_isFile h _)]
  cases answer (fs.isFile (dir.join name)) s with
  | true => rfl
  | false =>
    cases inRepository with
    | false => rfl
    | true =>
      simp only [Bool.false_eq_true, if_false, if_true, Bool.true_and]
      rw [run_bind_of_readOnly (readOnly_isThere h _)]
      cases answer (fs.isThere (dir.join ".git")) s <;> rfl

end

/-! ## 2. The nearest of some directories -/

section

variable {σ : Type}

/-- The directory holds a regular file of this name, as the file system answers in the state `s`. -/
def HoldsFile (fs : FileSystem (StateM σ)) (s : σ) (dir : Path) (name : String) : Prop :=
  answer (fs.isFile (dir.join name)) s = true

/-- Something of this name is in the directory, as the file system answers in the state `s`. -/
def HoldsEntry (fs : FileSystem (StateM σ)) (s : σ) (dir : Path) (name : String) : Prop :=
  answer (fs.isThere (dir.join name)) s = true

/-- The file of this name in `dir` counts for a search in the directories `dirs`, in which those of
`nearer` stand in front of `dir`.  Of the directory itself it is not asked whether an entry `.git`
lies in it. -/
structure Offers (fs : FileSystem (StateM σ)) (s : σ) (name : String) (inRepository : Bool)
    (dirs nearer : List Path) (dir : Path) : Prop where
  among : nearer ++ [dir] <+: dirs
  file : fs.HoldsFile s dir name
  inside : inRepository = true → ∀ d ∈ nearer, ¬ fs.HoldsEntry s d ".git"

/-- The file of this name in `dir` counts, and no nearer directory holds such a file. -/
structure IsNearest (fs : FileSystem (StateM σ)) (s : σ) (name : String) (inRepository : Bool)
    (dirs nearer : List Path) (dir : Path) : Prop
    extends fs.Offers s name inRepository dirs nearer dir where
  first : ∀ d ∈ nearer, ¬ fs.HoldsFile s d name

variable {fs : FileSystem (StateM σ)} {s : σ} {name : String} {inRepository : Bool}
  {d dir : Path} {dirs nearer : List Path}

/-- The first directory offers its own file.  Those behind it offer what they do in a search without
it, unless the search does not go on. -/
theorem offers_cons_iff :
    fs.Offers s name inRepository (d :: dirs) nearer dir ↔
      (nearer = [] ∧ dir = d) ∧ fs.HoldsFile s d name ∨
      ∃ more, nearer = d :: more ∧ fs.Offers s name inRepository dirs more dir ∧
        ¬ (inRepository = true ∧ fs.HoldsEntry s d ".git") := by
  constructor
  · rintro ⟨hamong, hfile, hinside⟩
    cases nearer with
    | nil =>
      obtain rfl : dir = d := (List.cons_prefix_cons.mp hamong).1
      exact Or.inl ⟨⟨rfl, rfl⟩, hfile⟩
    | cons d' more =>
      obtain ⟨rfl, hmore⟩ := List.cons_prefix_cons.mp hamong
      exact Or.inr ⟨more, rfl, ⟨hmore, hfile, fun hin x hx =>
        hinside hin x (List.mem_cons_of_mem _ hx)⟩,
        fun ⟨hin, hgit⟩ => hinside hin _ List.mem_cons_self hgit⟩
  · rintro (⟨⟨rfl, rfl⟩, hfile⟩ | ⟨more, rfl, ⟨hmore, hfile, hinside⟩, hgit⟩)
    · exact ⟨⟨dirs, rfl⟩, hfile, fun _ x hx => absurd hx List.not_mem_nil⟩
    · refine ⟨List.cons_prefix_cons.mpr ⟨rfl, hmore⟩, hfile, fun hin => ?_⟩
      exact List.forall_mem_cons.mpr ⟨fun h => hgit ⟨hin, h⟩, hinside hin⟩

/-- There is one nearest directory at most. -/
theorem IsNearest.unique {nearer' : List Path} {dir' : Path}
    (h : fs.IsNearest s name inRepository dirs nearer dir)
    (h' : fs.IsNearest s name inRepository dirs nearer' dir') : dir = dir' := by
  wlog hle : nearer.length ≤ nearer'.length generalizing nearer nearer' dir dir'
  · exact (this h' h (Nat.le_of_not_le hle)).symm
  have hbegin : nearer ++ [dir] <+: nearer' ++ [dir'] :=
    List.prefix_of_prefix_length_le h.among h'.among (by simpa using hle)
  rcases List.prefix_concat_iff.mp hbegin with hsame | hnearer
  · exact List.append_singleton_inj.mp hsame |>.2
  · have hmem : dir ∈ nearer' := hnearer.subset (List.mem_append_right nearer List.mem_cons_self)
    exact absurd h.file (h'.first dir hmem)

variable (h : fs.ReadsOnly)

include h

/-- **One step of the search.**  The file is there, or the repository ends here, or the search goes
on in the other directories. -/
theorem findIn_cons_cases (s : σ) (name : String) (inRepository : Bool) (dir : Path)
    (above : List Path) :
    let found? := answer (fs.findIn name inRepository (dir :: above)) s
    fs.HoldsFile s dir name ∧ found? = some (dir.join name) ∨
    ¬ fs.HoldsFile s dir name ∧ (inRepository = true ∧ fs.HoldsEntry s dir ".git") ∧
      found? = none ∨
    ¬ fs.HoldsFile s dir name ∧ ¬ (inRepository = true ∧ fs.HoldsEntry s dir ".git") ∧
      found? = answer (fs.findIn name inRepository above) s := by
  intro found?
  have hfound : found? = _ := answer_findIn_cons h name inRepository dir above s
  rw [hfound, HoldsFile, HoldsEntry, ← Bool.and_eq_true]
  cases answer (fs.isFile (dir.join name)) s with
  | true => exact Or.inl ⟨rfl, rfl⟩
  | false =>
    cases inRepository && answer (fs.isThere (dir.join ".git")) s with
    | true => exact Or.inr (Or.inl ⟨Bool.false_ne_true, rfl, rfl⟩)
    | false => exact Or.inr (Or.inr ⟨Bool.false_ne_true, Bool.false_ne_true, rfl⟩)

/-- **What a search finds.**  It is the file of the nearest directory that offers one, and nothing
if there is none. -/
theorem findIn_cases (s : σ) (name : String) (inRepository : Bool) (dirs : List Path) :
    let found? := answer (fs.findIn name inRepository dirs) s
    (∀ nearer dir, ¬ fs.Offers s name inRepository dirs nearer dir) ∧ found? = none ∨
    ∃ nearer dir, fs.IsNearest s name inRepository dirs nearer dir ∧
      found? = some (dir.join name) := by
  induction dirs with
  | nil =>
    refine Or.inl ⟨fun nearer dir hdir => ?_, rfl⟩
    exact absurd (List.prefix_nil.mp hdir.among) (by simp)
  | cons d dirs ih =>
    intro found?
    rcases findIn_cons_cases h s name inRepository d dirs
      with ⟨hfile, hfound⟩ | ⟨hfile, hgit, hfound⟩ | ⟨hfile, hgit, hfound⟩
    · have hnearest : fs.IsNearest s name inRepository (d :: dirs) [] d :=
        ⟨offers_cons_iff.mpr (Or.inl ⟨⟨rfl, rfl⟩, hfile⟩), fun _ hx => absurd hx List.not_mem_nil⟩
      exact Or.inr ⟨[], d, hnearest, hfound⟩
    · refine Or.inl ⟨fun nearer dir hdir => ?_, hfound⟩
      rcases offers_cons_iff.mp hdir with ⟨-, hholds⟩ | ⟨-, -, -, hopen⟩
      · exact hfile hholds
      · exact hopen hgit
    · -- the search goes on, and what it finds is nearest among all of them
      rcases ih with ⟨hnone, hmore⟩ | ⟨nearer, dir, hnearest, hmore⟩
      · refine Or.inl ⟨fun nearer dir hdir => ?_, hfound.trans hmore⟩
        rcases offers_cons_iff.mp hdir with ⟨-, hholds⟩ | ⟨more, -, hdir, -⟩
        · exact hfile hholds
        · exact hnone more dir hdir
      · refine Or.inr ⟨d :: nearer, dir, ⟨?_, ?_⟩, hfound.trans hmore⟩
        · exact offers_cons_iff.mpr (Or.inr ⟨nearer, rfl, hnearest.toOffers, hgit⟩)
        · exact List.forall_mem_cons.mpr ⟨hfile, hnearest.first⟩

/-- **In every file system that only reads, the search finds the nearest file inside the
repository.**  Wherever it starts and whatever the name is, it leaves everything as it is.  It finds
something exactly if one of the directories offers the file, and this is the file of the nearest
one; the file system says that it is a regular file. -/
theorem findUpward_isNearest (s : σ) (start : Path) (name : String) (inRepository : Bool) :
    ∃ found?, (fs.findUpward start name inRepository).run s = (found?, s) ∧
      (found?.isSome = true ↔
        ∃ nearer dir, fs.Offers s name inRepository start.withParents nearer dir) ∧
      (∀ path, found? = some path ↔
        ∃ nearer dir, fs.IsNearest s name inRepository start.withParents nearer dir ∧
          path = dir.join name) ∧
      ∀ path, found? = some path → answer (fs.kind path) s = .ok .file := by
  refine ⟨_, run_of_readOnly (readOnly_findIn h name inRepository start.withParents) s, ?_⟩
  rcases findIn_cases h s name inRepository start.withParents
    with ⟨hnone, hfound⟩ | ⟨nearer, dir, hnearest, hfound⟩
  · rw [hfound]
    refine ⟨iff_of_false Bool.false_ne_true ?_, fun path => iff_of_false (by simp) ?_, by simp⟩
    · rintro ⟨nearer, dir, hdir⟩
      exact hnone nearer dir hdir
    · rintro ⟨nearer, dir, hdir, -⟩
      exact hnone nearer dir hdir.toOffers
  · rw [hfound]
    refine ⟨iff_of_true rfl ⟨nearer, dir, hnearest.toOffers⟩, fun path => ⟨?_, ?_⟩, ?_⟩
    · rintro ⟨⟩
      exact ⟨nearer, dir, hnearest, rfl⟩
    · rintro ⟨nearer', dir', hnearest', rfl⟩
      rw [hnearest.unique hnearest']
    · rintro path ⟨⟩
      exact (answer_isFile_iff h _ s).mp hnearest.file

end

end FileSystem

namespace FileTree

/-! ## 3. Directories of a tree -/

/-- The directory holds a regular file of this name. -/
def HoldsFile (t : FileTree) (dir : List String) (name : String) : Prop :=
  ∃ content, t.LeadsTo (dir ++ [name]) (.file content)

/-- Something of this name is in the directory. -/
def HoldsEntry (t : FileTree) (dir : List String) (name : String) : Prop :=
  ∃ e, t.LeadsTo (dir ++ [name]) e

/-- The file of this name in `dir` counts for a search from `start` upward.  Of the directory itself
it is not asked whether an entry `.git` lies in it. -/
structure Offers (t : FileTree) (start : List String) (name : String) (inRepository : Bool)
    (dir : List String) : Prop where
  above : dir <+: start
  file : t.HoldsFile dir name
  inside : inRepository = true → ∀ d, dir <+: d → d <+: start → d ≠ dir → ¬ t.HoldsEntry d ".git"

/-- Of all directories whose file counts, this is the nearest to `start`. -/
def IsNearest (t : FileTree) (start : List String) (name : String) (inRepository : Bool)
    (dir : List String) : Prop :=
  t.Offers start name inRepository dir ∧
    ∀ d, t.Offers start name inRepository d → d <+: dir

section

variable {t : FileTree} {start dir : List String} {name : String} {inRepository : Bool}

/-- In a closed tree, and with paths that are not too long, what a directory offers is seen from
what stands in the tree. -/
theorem offers_iff_of_isClosed (ht : t.IsClosed)
    (hadmissible : ∀ d, d <+: start → Admissible (d ++ [name]) ∧ Admissible (d ++ [".git"])) :
    t.Offers start name inRepository dir ↔
      dir <+: start ∧ (∃ content, t.entry? (dir ++ [name]) = some (.file content)) ∧
        (inRepository = true → ∀ d, dir <+: d → d <+: start → d ≠ dir →
          t.entry? (d ++ [".git"]) = none) := by
  have hfile : ∀ d, d <+: start → (t.HoldsFile d name ↔
      ∃ content, t.entry? (d ++ [name]) = some (.file content)) := fun d hd =>
    exists_congr fun _ => leadsTo_iff_of_isClosed ht (hadmissible d hd).1
  have hgit : ∀ d, d <+: start → (¬ t.HoldsEntry d ".git" ↔ t.entry? (d ++ [".git"]) = none) := by
    intro d hd
    rw [← Option.not_isSome_iff_eq_none, Option.isSome_iff_exists]
    exact not_congr (exists_congr fun _ => leadsTo_iff_of_isClosed ht (hadmissible d hd).2)
  constructor
  · rintro ⟨habove, hholds, hinside⟩
    exact ⟨habove, (hfile dir habove).mp hholds, fun hin d hd hstart hne =>
      (hgit d hstart).mp (hinside hin d hd hstart hne)⟩
  · rintro ⟨habove, hholds, hinside⟩
    exact ⟨habove, (hfile dir habove).mpr hholds, fun hin d hd hstart hne =>
      (hgit d hstart).mpr (hinside hin d hd hstart hne)⟩

/-- There is one nearest directory at most. -/
theorem IsNearest.unique {start dir dir' : List String}
    (h : t.IsNearest start name inRepository dir) (h' : t.IsNearest start name inRepository dir') :
    dir = dir' :=
  (h'.2 dir h.1).eq_of_length_le (h.2 dir' h'.1).length_le

end

/-! ## 4. The search in a tree -/

section

variable {t : FileTree} (cwd : Path) {names dir : List String} {name : String} (inRepository : Bool)

theorem holdsFile_iff (hnames : ∀ s ∈ names, IsFileName s) (hname : IsFileName name) :
    (fileSystem cwd).HoldsFile t (ofNames names) name ↔ t.HoldsFile names name := by
  have hconcat : ∀ s ∈ names ++ [name], IsFileName s :=
    List.forall_mem_append.mpr ⟨hnames, List.forall_mem_singleton.mpr hname⟩
  have hkind : answer ((fileSystem cwd).kind (ofNames (names ++ [name]))) t =
      t.kind (namesOf cwd) (ofNames (names ++ [name])) := rfl
  rw [FileSystem.HoldsFile, FileSystem.answer_isFile_iff (readsOnly_fileSystem cwd),
    join_ofNames hnames hname, hkind, kind_ofNames_eq_ok_iff hconcat]
  constructor
  · rintro ⟨e, he, hfile⟩
    cases e with
    | directory => cases hfile
    | file content => exact ⟨content, he⟩
  · rintro ⟨content, hfile⟩
    exact ⟨_, hfile, rfl⟩

theorem holdsEntry_iff (hnames : ∀ s ∈ names, IsFileName s) (hname : IsFileName name) :
    (fileSystem cwd).HoldsEntry t (ofNames names) name ↔ t.HoldsEntry names name := by
  have hconcat : ∀ s ∈ names ++ [name], IsFileName s :=
    List.forall_mem_append.mpr ⟨hnames, List.forall_mem_singleton.mpr hname⟩
  have hkind : answer ((fileSystem cwd).kind (ofNames (names ++ [name]))) t =
      t.kind (namesOf cwd) (ofNames (names ++ [name])) := rfl
  rw [FileSystem.HoldsEntry, FileSystem.answer_isThere_iff (readsOnly_fileSystem cwd),
    join_ofNames hnames hname, hkind]
  simp only [kind_ofNames_eq_ok_iff hconcat]
  exact ⟨fun ⟨_, e, he, _⟩ => ⟨e, he⟩, fun ⟨e, he⟩ => ⟨e.kind, e, he, rfl⟩⟩

theorem isFileName_git : IsFileName ".git" := ⟨by decide, by decide⟩

/-- **What the file system of a tree offers** is what the tree offers. -/
theorem offers_ofNames_iff (hnames : ∀ s ∈ names, IsFileName s) (hname : IsFileName name)
    {nearer : List (List String)} (hamong : nearer ++ [dir] <+: names.inits.reverse) :
    (fileSystem cwd).Offers t name inRepository (names.inits.reverse.map ofNames)
      (nearer.map ofNames) (ofNames dir) ↔ t.Offers names name inRepository dir := by
  obtain ⟨habove, hnearer⟩ := prefix_reverse_inits hamong
  have hbelow : ∀ d, d <+: names → ∀ s ∈ d, IsFileName s := fun d hd s hs =>
    hnames s (hd.subset hs)
  have hfile := holdsFile_iff (t := t) cwd (hbelow dir habove) hname
  have hgit : ∀ d, d <+: names → ((fileSystem cwd).HoldsEntry t (ofNames d) ".git" ↔
      t.HoldsEntry d ".git") := fun d hd => holdsEntry_iff cwd (hbelow d hd) isFileName_git
  constructor
  · rintro ⟨-, hholds, hinside⟩
    refine ⟨habove, hfile.mp hholds, fun hin d hd hd' hne hholds => ?_⟩
    have hmem : d ∈ nearer := (hnearer d).mpr ⟨hd, hd', hne⟩
    exact hinside hin _ (List.mem_map_of_mem hmem) ((hgit d hd').mpr hholds)
  · rintro ⟨-, hholds, hinside⟩
    refine ⟨by simpa using hamong.map ofNames, hfile.mpr hholds, fun hin => ?_⟩
    refine List.forall_mem_map.mpr fun d hd hholds => ?_
    obtain ⟨hd, hd', hne⟩ := (hnearer d).mp hd
    exact hinside hin d hd hd' hne ((hgit d hd').mp hholds)

/-- **What the search finds in a tree.**  It is the file of the nearest directory that offers one,
and nothing if there is none. -/
theorem findIn_cases (hnames : ∀ s ∈ names, IsFileName s) (hname : IsFileName name) :
    let found? :=
      answer ((fileSystem cwd).findIn name inRepository (names.inits.reverse.map ofNames)) t
    (∀ dir, ¬ t.Offers names name inRepository dir) ∧ found? = none ∨
    ∃ dir, t.IsNearest names name inRepository dir ∧ found? = some (ofNames (dir ++ [name])) := by
  intro found?
  rcases FileSystem.findIn_cases (readsOnly_fileSystem cwd) t name inRepository
    (names.inits.reverse.map ofNames) with ⟨hnone, hfound⟩ | ⟨nearer, dir, hnearest, hfound⟩
  · refine Or.inl ⟨fun dir hdir => ?_, hfound⟩
    obtain ⟨nearer, hamong⟩ := exists_prefix_reverse_inits hdir.above
    exact hnone _ _ ((offers_ofNames_iff cwd inRepository hnames hname hamong).mpr hdir)
  · obtain ⟨l, hamong, hl⟩ := List.prefix_map_iff.mp hnearest.among
    obtain ⟨nearer, last, rfl, rfl, hlast⟩ := List.map_eq_append_iff.mp hl.symm
    obtain ⟨dir, rfl, rfl⟩ := List.map_eq_singleton_iff.mp hlast
    obtain ⟨habove, hnearer⟩ := prefix_reverse_inits hamong
    have hoffers : t.Offers names name inRepository dir :=
      (offers_ofNames_iff cwd inRepository hnames hname hamong).mp hnearest.toOffers
    refine Or.inr ⟨dir, ⟨hoffers, fun d hd => ?_⟩, hfound.trans (congrArg some ?_)⟩
    · -- the directory that offers the file lies above `dir`, or it is nearer and holds no such file
      by_contra hd'
      have hbelow : dir <+: d :=
        (List.prefix_or_prefix_of_prefix hd.above habove).resolve_left hd'
      have hmem : d ∈ nearer := (hnearer d).mpr ⟨hbelow, hd.above, by rintro rfl; exact hd' hbelow⟩
      refine hnearest.first _ (List.mem_map_of_mem hmem) ((holdsFile_iff cwd ?_ hname).mpr hd.file)
      exact fun s hs => hnames s (hd.above.subset hs)
    · exact join_ofNames (fun s hs => hnames s (habove.subset hs)) hname

end

/-- **The search finds the nearest file inside the repository.**  It ends, in every tree and for
every name, it leaves the tree as it is, and it finds something exactly if some directory at or
above its start offers the file: if it holds a regular file of this name and, for a search inside
the repository, no directory strictly nearer to the start holds an entry `.git`.  What it finds is
the file of the nearest such directory, whatever else lies beside it; it is never a directory that
bears the name. -/
theorem findUpward_nearest (t : FileTree) (cwd : Path) {start : List String} {name : String}
    (inRepository : Bool) (hstart : ∀ s ∈ start, IsFileName s) (hname : IsFileName name) :
    ∃ found?, ((fileSystem cwd).findUpward (ofNames start) name inRepository).run t = (found?, t) ∧
      (found?.isSome = true ↔ ∃ dir, t.Offers start name inRepository dir) ∧
      (∀ path, found? = some path ↔
        ∃ dir, t.IsNearest start name inRepository dir ∧ path = ofNames (dir ++ [name])) ∧
      (∀ dir, dir <+: start → t.entry? (dir ++ [name]) = some .directory →
        found? ≠ some (ofNames (dir ++ [name]))) := by
  have hdirs := withParents_ofNames hstart
  have hcases := findIn_cases (t := t) cwd inRepository hstart hname
  refine ⟨_, run_of_readOnly (FileSystem.readOnly_findIn (readsOnly_fileSystem cwd) name
    inRepository (ofNames start).withParents) t, ?_⟩
  rw [hdirs]
  rcases hcases with ⟨hnone, hfound⟩ | ⟨nearest, hnearest, hfound⟩
  · rw [hfound]
    refine ⟨iff_of_false Bool.false_ne_true fun ⟨dir, hdir⟩ => hnone dir hdir, fun path => ?_,
      fun dir _ _ => nofun⟩
    exact iff_of_false nofun fun ⟨dir, hdir, _⟩ => hnone dir hdir.1
  · rw [hfound]
    refine ⟨iff_of_true rfl ⟨nearest, hnearest.1⟩, fun path => ⟨fun hpath => ?_, ?_⟩,
      fun dir hdir hentry hpath => ?_⟩
    · exact ⟨nearest, hnearest, (Option.some.inj hpath).symm⟩
    · rintro ⟨dir, hdir, rfl⟩
      rw [hdir.unique hnearest]
    · -- the file and the directory would stand under the same names
      have hnames : ∀ d, d <+: start → ∀ s ∈ d ++ [name], IsFileName s := fun d hd =>
        List.forall_mem_append.mpr
          ⟨fun s hs => hstart s (hd.subset hs), List.forall_mem_singleton.mpr hname⟩
      have hsame := ofNames_inj (hnames nearest hnearest.1.above) (hnames dir hdir)
        (Option.some.inj hpath)
      obtain ⟨content, hfile⟩ := hnearest.1.file
      rw [hsame] at hfile
      exact nomatch hentry.symm.trans hfile.entry

/-- In `/a/b/c` is a directory with the name, in `/a/b` a repository with a file of the name, and
in `/a` is such a file too. -/
def repositoryTree : FileTree :=
  ⟨[(["a"], .directory), (["a", "x.toml"], .file "1".toUTF8),
    (["a", "b"], .directory), (["a", "b", ".git"], .directory),
    (["a", "b", "x.toml"], .file "2".toUTF8),
    (["a", "b", "c"], .directory), (["a", "b", "c", "x.toml"], .directory)]⟩

/-- The directory with the name is passed over, and the file beside `.git` is found. -/
theorem findUpward_repositoryTree :
    (∀ s ∈ ["a", "b", "c"], IsFileName s) ∧ IsFileName "x.toml" ∧
    ((fileSystem ⟨"/"⟩).findUpward (ofNames ["a", "b", "c"]) "x.toml" true).run repositoryTree =
      (some ⟨"/a/b/x.toml"⟩, repositoryTree) ∧
    repositoryTree.IsNearest ["a", "b", "c"] "x.toml" true ["a", "b"] := by
  have hstart : ∀ s ∈ ["a", "b", "c"], IsFileName s := by
    simp only [List.forall_mem_cons, List.not_mem_nil, false_imp_iff, implies_true, and_true]
    exact ⟨⟨by decide, by decide⟩, ⟨by decide, by decide⟩, ⟨by decide, by decide⟩⟩
  have hname : IsFileName "x.toml" := ⟨by decide, by decide⟩
  obtain ⟨found?, hrun, -, hfound, -⟩ := findUpward_nearest repositoryTree ⟨"/"⟩ true hstart hname
  have hpath : found? = some ⟨"/a/b/x.toml"⟩ :=
    (congrArg Prod.fst hrun).symm.trans (by decide +kernel)
  obtain ⟨dir, hdir, htext⟩ := (hfound _).mp hpath
  have hmem : dir ∈ [[], ["a"], ["a", "b"], ["a", "b", "c"]] :=
    (List.mem_inits _ _).mpr hdir.1.above
  simp only [List.mem_cons, List.not_mem_nil, or_false] at hmem
  refine ⟨hstart, hname, hpath ▸ hrun, ?_⟩
  rcases hmem with rfl | rfl | rfl | rfl
  · exact absurd htext (by decide)
  · exact absurd htext (by decide)
  · exact hdir
  · exact absurd htext (by decide)

end FileTree
end EditorSettings
