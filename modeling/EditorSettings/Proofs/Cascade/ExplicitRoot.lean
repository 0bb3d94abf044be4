/-
# Directories that the caller names

A search ends after a directory that the caller names as a root.  For this the directory has to be
recognised among those above the file, and it is: both paths are brought into their normal form
first, and then the directories above the file are made of the beginnings of its names, each once
(`directories_ofNames`).  So the search comes to a directory that equals the root if and only if
the names of the root begin those of the file, however the two paths have been written.

The main statement is `search_explicitRoot`.
-/
import EditorSettings.FileSystem
import EditorSettings.Proofs.Cascade.Failure
import EditorSettings.Proofs.Path.Normal

namespace EditorSettings

open EditorSettings.Path

/-! ## 1. The directories above a normal path -/

namespace FileSystem

variable {m : Type → Type} [Monad m] (fs : FileSystem m)

/-- **The directories above a path made of names** are made of the beginnings of its names, the
longest one first. -/
theorem directories_ofNames {names : List String} (h : ∀ s ∈ names, IsFileName s) :
    fs.provider.directories (ofNames names) = names.inits.dropLast.reverse.map ofNames := by
  induction names using List.reverseRecOn with
  | nil => exact Provider.directories_of_eq_none directory?_ofNames_nil
  | append_singleton names s ih =>
    have hparent : fs.provider.parent? (ofNames (names ++ [s])) = some (ofNames names) :=
      directory?_ofNames_concat h
    rw [Provider.directories_of_eq_some hparent,
      ih fun x hx => h x (List.mem_append_left [s] hx), inits_concat, List.dropLast_concat,
      reverse_inits, List.map_cons]

end FileSystem

namespace Cascade

/-! ## 2. A root that is recognised -/

/-- The beginnings of steps are those of names. -/
theorem map_name_prefix_iff {l names : List String} :
    (.root :: l.map Component.name) <+: (.root :: names.map Component.name) ↔ l <+: names := by
  rw [List.cons_prefix_cons, List.prefix_map_iff]
  constructor
  · rintro ⟨-, k, hk, hmap⟩
    rw [map_name_inj.mp hmap]
    exact hk
  · exact fun h => ⟨rfl, l, h, rfl⟩

/-- **The root is among the directories above the file exactly if its steps begin those of the
file.** -/
theorem exists_same_iff (fs : FileSystem Id) {names rootNames : List String}
    (h : ∀ s ∈ names, IsFileName s) (hroot : ∀ s ∈ rootNames, IsFileName s) :
    (∃ d ∈ fs.provider.directories (ofNames names), d.same (ofNames rootNames) = true) ↔
      (ofNames rootNames).components <+: (ofNames names).components ∧
        (ofNames rootNames).components ≠ (ofNames names).components := by
  have hbegin : ∀ l, l <+: names → (ofNames l).components = .root :: l.map .name := fun l hl =>
    components_ofNames fun s hs => h s (hl.subset hs)
  rw [components_ofNames h, components_ofNames hroot, map_name_prefix_iff,
    fs.directories_ofNames h, ne_eq, List.cons.injEq, map_name_inj]
  constructor
  · rintro ⟨d, hd, hsame⟩
    obtain ⟨l, hl, rfl⟩ := List.mem_map.mp hd
    obtain ⟨hbelow, hne⟩ := mem_beginnings.mp hl
    rw [same, beq_iff_eq, hbegin l hbelow, components_ofNames hroot, List.cons.injEq,
      map_name_inj] at hsame
    rw [← hsame.2]
    exact ⟨hbelow, fun he => hne he.2⟩
  · rintro ⟨hbelow, hne⟩
    refine ⟨ofNames rootNames, List.mem_map_of_mem (mem_beginnings.mpr ?_), ?_⟩
    · exact ⟨hbelow, fun he => hne ⟨rfl, he⟩⟩
    · exact beq_self_eq_true _

/-- A search ends after the first directory that the caller names, if it has not ended before. -/
theorem searched_explicitRoot {R : Type} (p : Provider Id R) (r : Registry) (rules : Rules)
    {roots : List R} {file d : R} {nearer above : List R}
    (hdirs : p.directories file = nearer ++ d :: above)
    (hd : roots.any (p.same · d) = true)
    (hnearer : ∀ e ∈ nearer, stopsAt p r rules roots e = false) :
    searched p r rules roots file = nearer ++ [d] := by
  have hstops : stopsAt p r rules roots d = true := by
    rw [stopsAt, isLast, hd, Bool.or_true, Bool.or_true]
  rw [searched, hdirs]
  exact upTo_append_of_last hnearer hstops

/-- **A root that the caller names is found, however it is spelled.**  The normal forms of the file
and of the root consist of the names that remain of them, so they do not depend on the spelling,
and a second time nothing changes.  The directories above the file are made of the beginnings of
its names, each one once, the nearest first and the root of all paths last.  One of them equals
the root that is named exactly if the steps of that root begin those of the file; and if no nearer
directory ends the search, then it ends there. -/
theorem search_explicitRoot (fs : FileSystem Id) {file root : Path}
    (hfile : file.isAbsolute = true) (hroot : root.isAbsolute = true) :
    ∃ names rootNames : List String,
      IsNormalForm file names (fs.absolute file) ∧
      IsNormalForm root rootNames (fs.absolute root) ∧
      fs.absolute (fs.absolute file) = fs.absolute file ∧
      ((fs.absolute file).components = (fs.absolute root).components →
        fs.absolute file = fs.absolute root) ∧
      fs.provider.directories (fs.absolute file) = names.inits.dropLast.reverse.map ofNames ∧
      (fs.provider.directories (fs.absolute file)).Nodup ∧
      (names ≠ [] → (fs.provider.directories (fs.absolute file)).getLast? = some ⟨"/"⟩) ∧
      ((∃ d ∈ fs.provider.directories (fs.absolute file), d.same (fs.absolute root) = true) ↔
        (fs.absolute root).components <+: (fs.absolute file).components ∧
          (fs.absolute root).components ≠ (fs.absolute file).components) ∧
      ∀ (r : Registry) (rules : Rules) (roots nearer above : List Path) (d : Path),
        fs.absolute root ∈ roots →
        fs.provider.directories (fs.absolute file) = nearer ++ d :: above →
        d.same (fs.absolute root) = true →
        (∀ e ∈ nearer, stopsAt fs.provider r rules roots e = false) →
        searched fs.provider r rules roots (fs.absolute file) = nearer ++ [d] ∧
        (resolve fs.provider r rules roots (fs.absolute file)).checked =
          (nearer ++ [d]).map (·.join rules.fileName) := by
  have hnames := isFileName_of_mem_normalNames hfile
  have hrootNames := isFileName_of_mem_normalNames hroot
  have habsolute : fs.absolute file = ofNames (normalNames file.components) :=
    absolute_eq_ofNames hfile fs.cwd
  have hrootAbsolute : fs.absolute root = ofNames (normalNames root.components) :=
    absolute_eq_ofNames hroot fs.cwd
  have hdirs : fs.provider.directories (fs.absolute file) =
      (normalNames file.components).inits.dropLast.reverse.map ofNames := by
    rw [habsolute, fs.directories_ofNames hnames]
  refine ⟨_, _, isNormalForm_absolute hfile fs.cwd, isNormalForm_absolute hroot fs.cwd,
    absolute_absolute hfile fs.cwd, absolute_inj hfile hroot, hdirs,
    fs.provider.nodup_directories _, ?_, ?_, ?_⟩
  · intro hne
    rw [hdirs]
    exact getLast?_beginnings hne
  · rw [habsolute, hrootAbsolute]
    exact exists_same_iff fs hnames hrootNames
  · intro r rules roots nearer above d hmem hsplit hsame hnearer
    have hany : roots.any (fs.provider.same · d) = true := by
      refine List.any_eq_true.mpr ⟨fs.absolute root, hmem, ?_⟩
      exact beq_iff_eq.mpr (beq_iff_eq.mp hsame).symm
    have hsearched := searched_explicitRoot fs.provider r rules hsplit hany hnearer
    refine ⟨hsearched, ?_⟩
    rw [← hsearched]
    exact checked_search (fs.provider.directories (fs.absolute file)) Keyed.empty

/-- A machine without any files. -/
def noFiles : FileSystem Id where
  cwd := ⟨"/"⟩
  kind _ := .error .notFound
  readBytes _ := .error .notFound
  list _ := .error .notFound
  write _ _ := .error .notFound

/-- Both paths have dots in them and needless slashes, and the root has another name above it. -/
theorem search_explicitRoot_dotted :
    (∃ d ∈ noFiles.provider.directories (noFiles.absolute ⟨"/a/./b//../c/x.c"⟩),
      d.same (noFiles.absolute ⟨"//z/../a/b/..//"⟩) = true) ∧
    searched noFiles.provider .builtin {} [noFiles.absolute ⟨"//z/../a/b/..//"⟩]
      (noFiles.absolute ⟨"/a/./b//../c/x.c"⟩) = [⟨"/a/c"⟩, ⟨"/a"⟩] := by
  have hfile : isAbsolute ⟨"/a/./b//../c/x.c"⟩ = true := by decide
  have hroot : isAbsolute ⟨"//z/../a/b/..//"⟩ = true := by decide
  obtain ⟨-, -, -, -, -, -, -, -, -, hiff, hsearch⟩ := search_explicitRoot noFiles hfile hroot
  refine ⟨hiff.mpr (by decide +kernel), ?_⟩
  exact (hsearch .builtin {} _ [⟨"/a/c"⟩] [⟨"/"⟩] ⟨"/a"⟩ List.mem_cons_self (by decide +kernel)
    (by decide +kernel) (by decide +kernel)).1

end Cascade
end EditorSettings
