/-
# Precedence in the cascade

The cascade climbs from a file to the root and never replaces what it has found.  This module
shows that the outcome is the same as that of the opposite way: going down from the farthest
directory to the nearest, and overwriting.

Which directories count is said without the search.  `documentAt` is the document of a directory,
`isLast` says that no directory above it counts, and `visited` are the directories up to and
including the first such one.  From a successful search nothing else is seen:
`search_eq_foldl_extend` gives the settings found as a fold of `extend` over the visited
directories.  The two descriptions of ordered collections then do the rest, `find?` for the
values (`find?_foldl_extend`) and `keys` for the order (`keys_foldl_extend`).

The main statement is `resolve_eq_overwriting`.
-/
import EditorSettings.Cascade
import EditorSettings.Proofs.Keyed

namespace EditorSettings

/-! ## 1. One document -/

/-- The settings that a document declares for a path: those of each section that matches, in the
order of the document. -/
def Document.declaredFor (d : Document) (path : String) : List Setting :=
  (d.sections.filter (·.matchesPath path)).flatMap (·.settings.toList)

theorem foldl_insertAll (sections : List Section) :
    ∀ m : Settings, sections.foldl (fun m s => m.insertAll s.settings.toList) m =
      m.insertAll (sections.flatMap (·.settings.toList)) := by
  induction sections with
  | nil => intro m; rfl
  | cons s rest ih =>
    intro m
    rw [List.foldl_cons, ih, List.flatMap_cons, Keyed.insertAll_append]

/-- A document's settings for a path are those it declares, the later ones winning. -/
theorem Document.settingsFor_eq (d : Document) (path : String) :
    d.settingsFor path = Keyed.empty.insertAll (d.declaredFor path) := foldl_insertAll _ _

namespace Cascade

variable {R : Type}

/-! ## 2. The directories that count -/

/-- The document of a directory, if there is one and it can be read. -/
def documentAt (p : Provider Id R) (r : Registry) (rules : Rules) (dir : R) : Option Document :=
  let file := p.child dir rules.fileName
  match p.isFile file, p.read file with
  | .ok true, .ok source => some (Document.parse r (p.path dir) rules.version source).document
  | _, _ => none

/-- Nothing above the directory counts: its document is a root, or the caller names it as one. -/
def isLast (p : Provider Id R) (r : Registry) (rules : Rules) (roots : List R) (dir : R) : Bool :=
  (documentAt p r rules dir).any (·.root? == some true) || roots.any (p.same · dir)

/-- The elements up to and including the first that is the last one. -/
def upTo {α : Type} (last : α → Bool) : List α → List α
  | [] => []
  | a :: rest => if last a then [a] else a :: upTo last rest

/-- The directories that count for a file, the nearest one first. -/
def visited (p : Provider Id R) (r : Registry) (rules : Rules) (roots : List R) (file : R) :
    List R :=
  upTo (isLast p r rules roots) (p.directories file)

/-- The settings that the document of a directory declares for a path. -/
def declaredAt (p : Provider Id R) (r : Registry) (rules : Rules) (path : String) (dir : R) :
    List Setting :=
  ((documentAt p r rules dir).map (·.declaredFor path)).getD []

/-! ## 3. A successful search -/

theorem document?_eq (p : Provider Id R) (r : Registry) (rules : Rules) (dir : R) :
    document? p r rules dir =
      match p.isFile (p.child dir rules.fileName) with
      | .error cause => .error ⟨p.path (p.child dir rules.fileName), cause⟩
      | .ok false => .ok none
      | .ok true =>
        match p.read (p.child dir rules.fileName) with
        | .error cause => .error ⟨p.path (p.child dir rules.fileName), cause⟩
        | .ok source =>
          .ok (some (Document.parse r (p.path dir) rules.version source).document) := rfl

/-- An access that does not fail finds the document of the directory. -/
theorem document?_eq_ok {p : Provider Id R} {r : Registry} {rules : Rules} {dir : R}
    {d? : Option Document} (h : document? p r rules dir = .ok d?) :
    d? = documentAt p r rules dir := by
  rw [document?_eq] at h
  unfold documentAt
  split at h
  · cases h
  · rename_i hfile
    cases h
    simp [hfile]
  · rename_i hfile
    split at h
    · cases h
    · rename_i source hread
      cases h
      simp [hfile, hread]

theorem search_cons (p : Provider Id R) (r : Registry) (rules : Rules) (roots : List R)
    (path : String) (found : Settings) (dir : R) (above : List R) :
    search p r rules roots path found (dir :: above) =
      match document? p r rules dir with
      | .error failure => ⟨[p.child dir rules.fileName], .error failure⟩
      | .ok d? =>
        if endsAt p roots dir d? then ⟨[p.child dir rules.fileName], .ok (extend found path d?)⟩
        else
          let more := search p r rules roots path (extend found path d?) above
          { more with checked := p.child dir rules.fileName :: more.checked } := by
  rw [search]
  rfl

/-- **What a successful search has found.**  It has taken up the documents of the directories
that count, the nearest one first, and nothing else. -/
theorem search_eq_foldl_extend {p : Provider Id R} {r : Registry} {rules : Rules}
    {roots : List R} {path : String} {settings : Settings} :
    ∀ {dirs : List R} {found : Settings},
      (search p r rules roots path found dirs).result = .ok settings →
      settings = (upTo (isLast p r rules roots) dirs).foldl
        (fun m dir => extend m path (documentAt p r rules dir)) found
  | [], found, h => by
    cases h
    rfl
  | dir :: above, found, h => by
    rw [search_cons] at h
    cases hd : document? p r rules dir with
    | error failure =>
      rw [hd] at h
      cases h
    | ok d? =>
      rw [hd] at h
      obtain rfl := document?_eq_ok hd
      by_cases hlast : isLast p r rules roots dir = true
      · have hend : endsAt p roots dir (documentAt p r rules dir) = true := hlast
        simp only [hend, if_true] at h
        cases h
        simp [upTo, hlast]
      · have hend : ¬ endsAt p roots dir (documentAt p r rules dir) = true := hlast
        simp only [hend] at h
        rw [search_eq_foldl_extend h, upTo, if_neg hlast, List.foldl_cons]

/-- A search in which no access fails succeeds. -/
theorem exists_search_eq_ok {p : Provider Id R} {r : Registry} {rules : Rules} {roots : List R}
    {path : String} (hfile : ∀ f, ∃ b, p.isFile f = .ok b)
    (hread : ∀ f, ∃ s, p.read f = .ok s) :
    ∀ (dirs : List R) (found : Settings),
      ∃ settings, (search p r rules roots path found dirs).result = .ok settings
  | [], found => ⟨found, rfl⟩
  | dir :: above, found => by
    obtain ⟨d?, hd⟩ : ∃ d?, document? p r rules dir = .ok d? := by
      obtain ⟨b, hb⟩ := hfile (p.child dir rules.fileName)
      obtain ⟨s, hs⟩ := hread (p.child dir rules.fileName)
      rw [document?_eq, hb]
      cases b with
      | false => exact ⟨_, rfl⟩
      | true => exact ⟨_, by rw [hs]⟩
    rw [search_cons, hd]
    by_cases hend : endsAt p roots dir d? = true
    · exact ⟨extend found path d?, by simp only [hend, if_true]⟩
    · obtain ⟨settings, hs⟩ := exists_search_eq_ok hfile hread above (extend found path d?)
      refine ⟨settings, ?_⟩
      simp only [if_neg hend]
      exact hs

/-! ## 4. Taking up documents -/

section

variable (p : Provider Id R) (r : Registry) (rules : Rules) (path : String)

/-- A document that is taken up fills in the settings it declares. -/
theorem find?_extend (found : Settings) (dir : R) (name : String) :
    (extend found path (documentAt p r rules dir)).find? name =
      (found.find? name).or
        (Keyed.overwrite Setting.name (fun _ => none) (declaredAt p r rules path dir) name) := by
  unfold declaredAt
  cases documentAt p r rules dir with
  | none => simp [extend, Keyed.overwrite]
  | some d =>
    have hin : (d.settingsFor path).toList.find? (·.name == name) =
        Keyed.overwrite Setting.name (fun _ => none) (d.declaredFor path) name := by
      rw [Document.settingsFor_eq, ← Keyed.find?, Keyed.find?_insertAll]
      rfl
    simp only [extend, Keyed.find?_addAll, hin, Option.map_some, Option.getD_some]

/-- A document that is taken up appends the names it declares, as far as they are new. -/
theorem keys_extend (found : Settings) (dir : R) :
    (extend found path (documentAt p r rules dir)).keys =
      adjoinAll found.keys ((declaredAt p r rules path dir).map Setting.name) := by
  unfold declaredAt
  cases documentAt p r rules dir with
  | none => rfl
  | some d =>
    have hkeys : (d.settingsFor path).toList.map Setting.name =
        adjoinAll [] ((d.declaredFor path).map Setting.name) := by
      rw [Document.settingsFor_eq, ← Keyed.keys, Keyed.keys_insertAll]
      rfl
    simp only [extend, Keyed.keys_addAll, hkeys, adjoinAll_adjoinAll, adjoinAll_nil,
      Option.map_some, Option.getD_some]

/-- **Filling in upward is overwriting downward.** -/
theorem find?_foldl_extend (name : String) :
    ∀ (dirs : List R) (found : Settings),
      (dirs.foldl (fun m dir => extend m path (documentAt p r rules dir)) found).find? name =
        (found.find? name).or (Keyed.overwrite Setting.name (fun _ => none)
          (dirs.reverse.flatMap (declaredAt p r rules path)) name)
  | [], found => by simp [Keyed.overwrite]
  | dir :: above, found => by
    rw [List.foldl_cons, find?_foldl_extend name above, find?_extend, Option.or_assoc,
      List.reverse_cons, List.flatMap_append, Keyed.overwrite_append]
    simp only [List.flatMap_cons, List.flatMap_nil, List.append_nil]
    rw [Keyed.overwrite_eq_or (declaredAt p r rules path dir)
      (Keyed.overwrite Setting.name _ (above.reverse.flatMap _))]

/-- The names come in the order of the walk. -/
theorem keys_foldl_extend :
    ∀ (dirs : List R) (found : Settings),
      (dirs.foldl (fun m dir => extend m path (documentAt p r rules dir)) found).keys =
        adjoinAll found.keys ((dirs.flatMap (declaredAt p r rules path)).map Setting.name)
  | [], found => rfl
  | dir :: above, found => by
    rw [List.foldl_cons, keys_foldl_extend above, keys_extend, List.flatMap_cons, List.map_append,
      adjoinAll_append]

/-- Only settings that a document declares are taken up. -/
theorem forall_mem_foldl_extend {P : Setting → Prop} :
    ∀ {dirs : List R} {found : Settings}, (∀ x ∈ found.toList, P x) →
      (∀ dir ∈ dirs, ∀ x ∈ declaredAt p r rules path dir, P x) →
      ∀ x ∈ (dirs.foldl (fun m dir => extend m path (documentAt p r rules dir)) found).toList, P x
  | [], _, hfound, _ => hfound
  | dir :: above, found, hfound, h => by
    have hdir := h dir List.mem_cons_self
    have hextend : ∀ x ∈ (extend found path (documentAt p r rules dir)).toList, P x := by
      unfold declaredAt at hdir
      cases hd : documentAt p r rules dir with
      | none => exact hfound
      | some d =>
        rw [hd] at hdir
        rw [extend, Document.settingsFor_eq]
        exact Keyed.forall_mem_addAll hfound (Keyed.forall_mem_insertAll (by simp) hdir)
    rw [List.foldl_cons]
    exact forall_mem_foldl_extend hextend fun d hd => h d (List.mem_cons_of_mem dir hd)

end

/-! ## 5. The outcome of a search -/

/-- The settings of a file are declared by documents of the directories that count. -/
theorem forall_mem_resolve {P : Setting → Prop} {p : Provider Id R} {r : Registry} {rules : Rules}
    {roots : List R} {file : R} {settings : Settings}
    (h : (resolve p r rules roots file).result = .ok settings)
    (hdir : ∀ dir ∈ visited p r rules roots file,
      ∀ x ∈ declaredAt p r rules (p.path file) dir, P x) :
    ∀ x ∈ settings.toList, P x := by
  rw [search_eq_foldl_extend h]
  exact forall_mem_foldl_extend p r rules (p.path file) (by simp) hdir

/-- **Climbing equals overwriting.**  If the search for a file succeeds, then under each name
stands what is left there when the directories that count are gone through from the farthest to
the nearest, each document from its first matching section to its last, and every setting
overwrites the one with its name.  The names differ, and they come in the order in which the
documents declare them first, the nearest document before the others. -/
theorem resolve_eq_overwriting (p : Provider Id R) (r : Registry) (rules : Rules)
    (roots : List R) (file : R) (settings : Settings)
    (h : (resolve p r rules roots file).result = .ok settings) :
    (∀ name, settings.find? name = Keyed.overwrite Setting.name (fun _ => none)
      ((visited p r rules roots file).reverse.flatMap (declaredAt p r rules (p.path file))) name) ∧
    (settings.toList.map Setting.name).Nodup ∧
    settings.toList.map Setting.name =
      (((visited p r rules roots file).flatMap
        (declaredAt p r rules (p.path file))).map Setting.name).eraseDups := by
  have hfound := search_eq_foldl_extend h
  refine ⟨?_, settings.nodup, ?_⟩
  · intro name
    rw [hfound, find?_foldl_extend, Keyed.find?_empty, Option.none_or]
    rfl
  · rw [← Keyed.keys, hfound, keys_foldl_extend, Keyed.keys_empty, adjoinAll_nil_left]
    rfl

/-- The file `2` in the directory `1` below the root `0`, where `10` and `11` are the documents of
the two directories.  Both declare `x`, the nearer one twice. -/
def twoLevels : Provider Id Nat where
  parent? n := if n = 0 then none else some (n - 1)
  child dir _ := 10 + dir
  path n := ["/", "/a", "/a/f.c"].getD n ""
  same a b := a == b
  height n := n
  height_parent?_lt := by
    intro r d h
    split at h
    · cases h
    · cases h
      omega
  isFile _ := .ok true
  read n :=
    .ok (if n = 10 then "root = true\n[*]\nx = 9\nz = 4\n" else "[*]\nx = 1\n[f.c]\nx = 2\n")

/-- Both documents can be read, so there is an outcome to speak of. -/
theorem resolve_twoLevels_eq_overwriting :
    ∃ settings, (resolve twoLevels .builtin {} [] 2).result = .ok settings ∧
      (∀ name, settings.find? name = Keyed.overwrite Setting.name (fun _ => none)
        ((visited twoLevels .builtin {} [] 2).reverse.flatMap
          (declaredAt twoLevels .builtin {} (twoLevels.path 2))) name) ∧
      (settings.toList.map Setting.name).Nodup ∧
      settings.toList.map Setting.name =
        (((visited twoLevels .builtin {} [] 2).flatMap
          (declaredAt twoLevels .builtin {} (twoLevels.path 2))).map Setting.name).eraseDups := by
  have hsearch : ∃ settings, (resolve twoLevels .builtin {} [] 2).result = .ok settings :=
    exists_search_eq_ok (fun _ => ⟨true, rfl⟩) (fun _ => ⟨_, rfl⟩) (twoLevels.directories 2)
      Keyed.empty
  obtain ⟨settings, h⟩ := hsearch
  exact ⟨settings, h, resolve_eq_overwriting twoLevels .builtin {} [] 2 settings h⟩

end Cascade
end EditorSettings
