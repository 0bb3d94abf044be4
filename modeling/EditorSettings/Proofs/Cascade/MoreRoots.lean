/-
# More directories that the caller names

A directory that the caller names as a root ends the search.  To name more of them can only make
it end earlier: what counts then is a beginning of the directories that counted before
(`visited_prefix`).  A document that is taken up leaves the settings found so far in their places
and adds others behind them (`prefix_extend`), so a shorter walk finds a beginning of what the
longer one finds (`prefix_foldl_extend`).  A root that equals no directory above the file is
without effect (`visited_congr`), since an outcome depends on the directories that count and on
nothing else (`resolve_congr`).

The main statement is `resolve_moreRoots`.
-/
import EditorSettings.Proofs.Cascade.Failure

namespace EditorSettings
namespace Cascade

variable {R : Type}

/-! ## 1. Stopping earlier -/

/-- A walk that stops wherever another one stops is a beginning of that one. -/
theorem upTo_prefix {α : Type} {last earlier : α → Bool} {l : List α}
    (h : ∀ a ∈ l, last a = true → earlier a = true) : upTo earlier l <+: upTo last l := by
  induction l with
  | nil => exact List.prefix_rfl
  | cons a l ih =>
    obtain ⟨ha, hl⟩ := List.forall_mem_cons.mp h
    rw [upTo, upTo]
    by_cases hlast : last a = true
    · simp only [if_pos (ha hlast), if_pos hlast]
      exact List.prefix_rfl
    · rw [if_neg hlast]
      split
      · exact List.prefix_append [a] (upTo last l)
      · exact (List.prefix_cons_inj a).mpr (ih hl)

theorem upTo_congr {α : Type} {last other : α → Bool} {l : List α}
    (h : ∀ a ∈ l, other a = last a) : upTo other l = upTo last l := by
  induction l with
  | nil => rfl
  | cons a l ih =>
    obtain ⟨ha, hl⟩ := List.forall_mem_cons.mp h
    rw [upTo, upTo, ha, ih hl]

section

variable {p : Provider Id R} {r : Registry} {rules : Rules} {roots more : List R} {file dir : R}

/-- What ends a search with some roots ends it with more of them. -/
theorem isLast_of_subset (hsubset : roots ⊆ more) (h : isLast p r rules roots dir = true) :
    isLast p r rules more dir = true := by
  rw [isLast, Bool.or_eq_true] at h ⊢
  refine h.imp_right fun hroot => ?_
  obtain ⟨root, hmem, hsame⟩ := List.any_eq_true.mp hroot
  exact List.any_eq_true.mpr ⟨root, hsubset hmem, hsame⟩

/-- **With more roots, a beginning of the directories counts.** -/
theorem visited_prefix (hsubset : roots ⊆ more) :
    visited p r rules more file <+: visited p r rules roots file :=
  upTo_prefix fun _ _ => isLast_of_subset hsubset

/-- A directory that none of the new roots equals is named with them if it is named without
them. -/
theorem isLast_congr (hsubset : roots ⊆ more)
    (hnew : ∀ root ∈ more, root ∈ roots ∨ p.same root dir = false) :
    isLast p r rules more dir = isLast p r rules roots dir := by
  rw [Bool.eq_iff_iff]
  refine ⟨fun h => ?_, isLast_of_subset hsubset⟩
  rw [isLast, Bool.or_eq_true] at h ⊢
  refine h.imp_right fun hroot => ?_
  obtain ⟨root, hmem, hsame⟩ := List.any_eq_true.mp hroot
  rcases hnew root hmem with hold | hother
  · exact List.any_eq_true.mpr ⟨root, hold, hsame⟩
  · rw [hother] at hsame
    cases hsame

/-- **With roots that equal no directory above the file, the same directories count.** -/
theorem visited_congr (hsubset : roots ⊆ more)
    (hnew : ∀ root ∈ more, root ∈ roots ∨ ∀ d ∈ p.directories file, p.same root d = false) :
    visited p r rules more file = visited p r rules roots file :=
  upTo_congr fun d hd => isLast_congr hsubset fun root hmem =>
    (hnew root hmem).imp_right fun hother => hother d hd

/-- An outcome depends on the roots by the directories that count, and by nothing else. -/
theorem resolve_congr
    (h : visited p r rules more file = visited p r rules roots file) :
    resolve p r rules more file = resolve p r rules roots file := by
  have hchecked : (resolve p r rules more file).checked =
      (resolve p r rules roots file).checked := by
    rw [checked_resolve, checked_resolve, h]
  have hresult : (resolve p r rules more file).result = (resolve p r rules roots file).result := by
    rw [resolve, resolve, result_search, result_search, ← visited, ← visited, h]
  exact Outcome.mk.injEq _ _ _ _ ▸ ⟨hchecked, hresult⟩

end

/-! ## 2. Taking up fewer documents -/

section

variable (p : Provider Id R) (r : Registry) (rules : Rules) (path : String)

/-- A document that is taken up leaves what was found in its place. -/
theorem prefix_extend (found : Settings) (d? : Option Document) :
    found.toList <+: (extend found path d?).toList := by
  cases d? with
  | none => exact List.prefix_rfl
  | some d => exact Keyed.prefix_addAll found _

theorem prefix_foldl_extend (dirs : List R) (found : Settings) :
    found.toList <+:
      (dirs.foldl (fun m dir => extend m path (documentAt p r rules dir)) found).toList := by
  induction dirs generalizing found with
  | nil => exact List.prefix_rfl
  | cons dir above ih => exact (prefix_extend path found _).trans (ih _)

end

/-! ## 3. The outcome of a search -/

/-- **More roots only shorten the answer.**  Let a second list of roots have all roots of the first
one.  If there are settings with the first list, then there are settings with the second, and these
are a beginning of those: the same settings in the same order, up to where the search ends now.  A
failure with the second list is a failure with the first one too, and the same.  And if what the
second list adds equals none of the directories above the file, then the whole outcome is the same:
the settings or the failure, and the documents that have been asked for. -/
theorem resolve_moreRoots (p : Provider Id R) (r : Registry) (rules : Rules)
    (roots more : List R) (file : R) (hsubset : roots ⊆ more) :
    (∀ settings, (resolve p r rules roots file).result = .ok settings →
      ∃ fewer, (resolve p r rules more file).result = .ok fewer ∧
        fewer.toList <+: settings.toList) ∧
    (∀ failure, (resolve p r rules more file).result = .error failure →
      (resolve p r rules roots file).result = .error failure) ∧
    ((∀ root ∈ more, root ∈ roots ∨ ∀ d ∈ p.directories file, p.same root d = false) →
      resolve p r rules more file = resolve p r rules roots file) := by
  obtain ⟨farther, hvisited⟩ : visited p r rules more file <+: visited p r rules roots file :=
    visited_prefix hsubset
  refine ⟨fun settings h => ?_, fun failure h => ?_, fun hnew =>
    resolve_congr (visited_congr hsubset hnew)⟩
  · have hnone := exists_result_eq_ok_iff.mp ⟨settings, h⟩
    rw [← hvisited, List.findSome?_append, Option.or_eq_none_iff] at hnone
    obtain ⟨fewer, hfewer⟩ := exists_result_eq_ok_iff.mpr hnone.1
    have hall : settings = (visited p r rules roots file).foldl _ Keyed.empty :=
      search_eq_foldl_extend h
    have hsome : fewer = (visited p r rules more file).foldl _ Keyed.empty :=
      search_eq_foldl_extend hfewer
    refine ⟨fewer, hfewer, ?_⟩
    rw [hall, hsome, ← hvisited, List.foldl_append]
    exact prefix_foldl_extend p r rules (p.path file) farther _
  · rw [result_eq_error_iff] at h ⊢
    rw [← hvisited, List.findSome?_append, h, Option.some_or]

/-- Two directories count.  The nearer one is named, and with it a root that is not above the
file. -/
theorem resolve_twoLevels_moreRoots :
    visited twoLevels .builtin {} [] 2 = [1, 0] ∧ visited twoLevels .builtin {} [7, 1] 2 = [1] ∧
    (∃ settings fewer, (resolve twoLevels .builtin {} [] 2).result = .ok settings ∧
      (resolve twoLevels .builtin {} [7, 1] 2).result = .ok fewer ∧
      fewer.toList <+: settings.toList) ∧
    resolve twoLevels .builtin {} [7, 1] 2 = resolve twoLevels .builtin {} [1] 2 := by
  obtain ⟨settings, h⟩ : ∃ settings, (resolve twoLevels .builtin {} [] 2).result = .ok settings :=
    exists_search_eq_ok (fun _ => ⟨true, rfl⟩) (fun _ => ⟨_, rfl⟩) (twoLevels.directories 2)
      Keyed.empty
  obtain ⟨fewer, hfewer, hprefix⟩ :=
    (resolve_moreRoots twoLevels .builtin {} [] [7, 1] 2 (by simp)).1 settings h
  exact ⟨by decide +kernel, by decide +kernel, ⟨settings, fewer, h, hfewer, hprefix⟩,
    (resolve_moreRoots twoLevels .builtin {} [1] [7, 1] 2 (by simp)).2.2 (by decide +kernel)⟩

end Cascade
end EditorSettings
