/-
# What a search has access to

A search asks for the document of one directory after the other.  It ends with the first directory
where an access fails, where the document is a root, or which the caller names; `searched` are the
directories up to and including that one, and all of them if there is none.  Nothing else can be
observed: two providers that answer alike there have the same outcome (`search_congr`), and the
documents that are asked for are those of the directories searched, each once, the nearest first
(`checked_search`).

That the search asks for no other documents is not only what the outcome says of itself.
`Provider.recording` is a provider with a memory, in which every check leaves a trace, and the
trace is the list of the outcome (`run_search_recording`).

The main statement is `resolve_eq_of_answersAlike`.
-/
import EditorSettings.Proofs.Cascade.Precedence

namespace EditorSettings

variable {R : Type}

/-! ## 1. The directories above a resource -/

namespace Provider

variable {m n : Type → Type} {p : Provider m R} {q : Provider n R} {r d : R}

theorem directories_of_eq_some (h : p.parent? r = some d) :
    p.directories r = d :: p.directories d := by
  rw [directories]
  split
  · rename_i e
    rw [h] at e
    cases e
    rfl
  · rename_i e
    rw [h] at e
    cases e

theorem directories_of_eq_none (h : p.parent? r = none) : p.directories r = [] := by
  rw [directories]
  split
  · rename_i e
    rw [h] at e
    cases e
  · rfl

/-- The directories above a resource are lower than it. -/
theorem height_lt_of_mem_directories (p : Provider m R) (r : R) :
    ∀ d ∈ p.directories r, p.height d < p.height r := by
  fun_induction p.directories r with
  | case1 r d h ih =>
    have hd := p.height_parent?_lt h
    intro e he
    rcases List.mem_cons.mp he with rfl | he
    · exact hd
    · exact Nat.lt_trans (ih e he) hd
  | case2 r h => simp

/-- No directory comes twice. -/
theorem nodup_directories (p : Provider m R) (r : R) : (p.directories r).Nodup := by
  fun_induction p.directories r with
  | case1 r d h ih =>
    refine List.nodup_cons.mpr ⟨fun hmem => ?_, ih⟩
    exact Nat.lt_irrefl _ (height_lt_of_mem_directories p d d hmem)
  | case2 r h => simp

/-- The directories depend on the parents alone. -/
theorem directories_congr (p : Provider m R) (q : Provider n R)
    (h : ∀ r, q.parent? r = p.parent? r) (r : R) :
    q.directories r = p.directories r := by
  fun_induction p.directories r with
  | case1 r d hd ih => rw [directories_of_eq_some ((h r).trans hd), ih]
  | case2 r hr => rw [directories_of_eq_none ((h r).trans hr)]

/-- The provider with a memory of the documents that it has been asked for. -/
def recording (p : Provider Id R) : Provider (StateM (List R)) R where
  parent? := p.parent?
  child := p.child
  path := p.path
  same := p.same
  height := p.height
  height_parent?_lt := p.height_parent?_lt
  isFile file := do
    modify (· ++ [file])
    pure (p.isFile file)
  read file := pure (p.read file)

theorem child_recording (p : Provider Id R) : p.recording.child = p.child := rfl

theorem path_recording (p : Provider Id R) : p.recording.path = p.path := rfl

theorem run_isFile_recording (p : Provider Id R) (file : R) (record : List R) :
    (p.recording.isFile file).run record = (p.isFile file, record ++ [file]) := rfl

theorem run_read_recording (p : Provider Id R) (file : R) (record : List R) :
    (p.recording.read file).run record = (p.read file, record) := rfl

/-- The same resources, wherever the answers come from. -/
structure SameTree (p q : Provider Id R) : Prop where
  parent? : ∀ r, q.parent? r = p.parent? r
  child : ∀ r name, q.child r name = p.child r name
  path : ∀ r, q.path r = p.path r
  same : ∀ r s, q.same r s = p.same r s

end Provider

namespace Cascade

/-! ## 2. Where a search ends -/

/-- The document of a directory cannot be asked for, or it is there and cannot be read. -/
def fails (p : Provider Id R) (rules : Rules) (dir : R) : Bool :=
  let file := p.child dir rules.fileName
  match p.isFile file, p.read file with
  | .error _, _ => true
  | .ok true, .error _ => true
  | .ok _, _ => false

/-- The search ends with the directory, by a failure or because nothing above it counts. -/
def stopsAt (p : Provider Id R) (r : Registry) (rules : Rules) (roots : List R) (dir : R) : Bool :=
  fails p rules dir || isLast p r rules roots dir

/-- The directories that are searched for the settings of a file, the nearest one first. -/
def searched (p : Provider Id R) (r : Registry) (rules : Rules) (roots : List R) (file : R) :
    List R :=
  upTo (stopsAt p r rules roots) (p.directories file)

theorem upTo_sublist {α : Type} (last : α → Bool) (l : List α) : (upTo last l).Sublist l := by
  induction l with
  | nil => exact List.Sublist.slnil
  | cons a rest ih =>
    rw [upTo]
    split
    · exact (List.nil_sublist rest).cons_cons a
    · exact ih.cons_cons a

theorem nodup_searched (p : Provider Id R) (r : Registry) (rules : Rules) (roots : List R)
    (file : R) : (searched p r rules roots file).Nodup :=
  (p.nodup_directories file).sublist (upTo_sublist _ _)

variable {p q : Provider Id R} {r : Registry} {rules : Rules} {roots : List R} {path : String}

/-- Either an access fails, or the document of the directory is found as it is. -/
theorem document?_cases (p : Provider Id R) (r : Registry) (rules : Rules) (dir : R) :
    (∃ failure, document? p r rules dir = .error failure ∧ fails p rules dir = true) ∨
      (document? p r rules dir = .ok (documentAt p r rules dir) ∧ fails p rules dir = false) := by
  rw [document?_eq]
  unfold fails documentAt
  dsimp only
  cases p.isFile (p.child dir rules.fileName) with
  | error cause => exact Or.inl ⟨_, rfl, rfl⟩
  | ok there =>
    cases there with
    | false => exact Or.inr ⟨rfl, rfl⟩
    | true =>
      cases p.read (p.child dir rules.fileName) with
      | error cause => exact Or.inl ⟨_, rfl, rfl⟩
      | ok source => exact Or.inr ⟨rfl, rfl⟩

/-- **One step of a search.**  It asks for one document; then it ends, or it goes on in the
directories above. -/
theorem search_cons_cases (p : Provider Id R) (r : Registry) (rules : Rules) (roots : List R)
    (path : String) (found : Settings) (dir : R) (above : List R) :
    (stopsAt p r rules roots dir = true ∧
      (search p r rules roots path found (dir :: above)).checked = [p.child dir rules.fileName]) ∨
    (stopsAt p r rules roots dir = false ∧
      search p r rules roots path found (dir :: above) =
        let more := search p r rules roots path
          (extend found path (documentAt p r rules dir)) above
        { more with checked := p.child dir rules.fileName :: more.checked }) := by
  rw [search_cons]
  unfold stopsAt
  rcases document?_cases p r rules dir with ⟨failure, hd, hfails⟩ | ⟨hd, hfails⟩
  · exact Or.inl ⟨by rw [hfails, Bool.true_or], by rw [hd]⟩
  · rw [hd, hfails, Bool.false_or]
    have hends : endsAt p roots dir (documentAt p r rules dir) = isLast p r rules roots dir := rfl
    simp only [hends]
    cases isLast p r rules roots dir with
    | true => exact Or.inl ⟨rfl, rfl⟩
    | false => exact Or.inr ⟨rfl, rfl⟩

/-- **The documents asked for** are those of the directories up to the one where the search
ends. -/
theorem checked_search :
    ∀ (dirs : List R) (found : Settings),
      (search p r rules roots path found dirs).checked =
        (upTo (stopsAt p r rules roots) dirs).map (p.child · rules.fileName)
  | [], _ => rfl
  | dir :: above, found => by
    rw [upTo]
    rcases search_cons_cases p r rules roots path found dir above with
      ⟨hstops, hchecked⟩ | ⟨hstops, hsearch⟩
    · rw [hchecked, if_pos hstops]
      rfl
    · rw [hsearch, if_neg (by simp [hstops]), List.map_cons, ← checked_search above]

/-! ## 3. Two providers -/

/-- The same answers are given about the document of the directory; what cannot be found need not
be read. -/
def AnswersAlike (p q : Provider Id R) (rules : Rules) (dir : R) : Prop :=
  let file := p.child dir rules.fileName
  q.isFile file = p.isFile file ∧ (p.isFile file = .ok true → q.read file = p.read file)

theorem document?_congr (hpq : p.SameTree q) {dir : R} (h : AnswersAlike p q rules dir) :
    document? q r rules dir = document? p r rules dir := by
  obtain ⟨hfile, hread⟩ := h
  rw [document?_eq, document?_eq, hpq.child, hpq.path, hpq.path, hfile]
  cases hf : p.isFile (p.child dir rules.fileName) with
  | error cause => rfl
  | ok there =>
    cases there with
    | false => rfl
    | true => rw [hread hf]

/-- **Only the directories searched can be observed.**  The induction is along the directories; as
long as the search goes on, the answers are alike, and where it ends, nothing is asked any more. -/
theorem search_congr (hpq : p.SameTree q) :
    ∀ {dirs : List R} {found : Settings},
      (∀ dir ∈ upTo (stopsAt p r rules roots) dirs, AnswersAlike p q rules dir) →
      search q r rules roots path found dirs = search p r rules roots path found dirs
  | [], _, _ => rfl
  | dir :: above, found, h => by
    have hdir : AnswersAlike p q rules dir := by
      refine h dir ?_
      rw [upTo]
      split
      · simp
      · simp
    have hends : ∀ d?, endsAt q roots dir d? = endsAt p roots dir d? := by
      intro d?
      simp only [endsAt, hpq.same]
    rw [search_cons, search_cons, document?_congr hpq hdir, hpq.child]
    rcases document?_cases p r rules dir with ⟨failure, hd, -⟩ | ⟨hd, hfails⟩
    · rw [hd]
    · rw [hd]
      simp only [hends]
      by_cases hlast : endsAt p roots dir (documentAt p r rules dir) = true
      · simp only [hlast, if_true]
      · have hstops : ¬ stopsAt p r rules roots dir = true := by
          unfold stopsAt
          rw [hfails, Bool.false_or]
          exact hlast
        rw [upTo, if_neg hstops] at h
        simp only [hlast]
        rw [search_congr hpq fun d hd => h d (List.mem_cons_of_mem dir hd)]

/-! ## 4. The record of a search -/

theorem run_bind {σ α β : Type} (x : StateM σ α) (f : α → StateM σ β) (s : σ) :
    (x >>= f).run s = (f (x.run s).1).run (x.run s).2 := rfl

/-- Asking for the document of a directory leaves one trace. -/
theorem run_document?_recording (p : Provider Id R) (r : Registry) (rules : Rules) (dir : R)
    (record : List R) :
    (document? p.recording r rules dir).run record =
      (document? p r rules dir, record ++ [p.child dir rules.fileName]) := by
  rw [document?_eq, document?, run_bind]
  simp only [Provider.child_recording, Provider.path_recording, Provider.run_isFile_recording]
  cases p.isFile (p.child dir rules.fileName) with
  | error cause => rfl
  | ok there =>
    cases there with
    | false => rfl
    | true =>
      simp only [run_bind, Provider.run_read_recording]
      cases p.read (p.child dir rules.fileName) with
      | error cause => rfl
      | ok source => rfl

/-- **The record of a search is its list of documents asked for**, and the search comes out as it
does without the record. -/
theorem run_search_recording (p : Provider Id R) (r : Registry) (rules : Rules) (roots : List R)
    (path : String) : ∀ (dirs : List R) (found : Settings) (record : List R),
    (search p.recording r rules roots path found dirs).run record =
      (search p r rules roots path found dirs,
        record ++ (search p r rules roots path found dirs).checked)
  | [], found, record => by
    rw [search, search]
    exact congrArg (Prod.mk _) (List.append_nil record).symm
  | dir :: above, found, record => by
    rw [search_cons, search, run_bind, run_document?_recording]
    cases document? p r rules dir with
    | error failure => rfl
    | ok d? =>
      have hends : endsAt p.recording roots dir d? = endsAt p roots dir d? := rfl
      simp only [hends]
      cases endsAt p roots dir d? with
      | true => rfl
      | false =>
        simp only [Bool.false_eq_true, if_false, run_bind,
          run_search_recording p r rules roots path above]
        exact congrArg (Prod.mk _) (List.append_assoc record _ _)

/-- The record of a whole run. -/
theorem run_resolve_recording (p : Provider Id R) (r : Registry) (rules : Rules) (roots : List R)
    (file : R) (record : List R) :
    (resolve p.recording r rules roots file).run record =
      (resolve p r rules roots file, record ++ (resolve p r rules roots file).checked) := by
  have hdirs : p.recording.directories file = p.directories file :=
    Provider.directories_congr p p.recording (fun _ => rfl) file
  rw [resolve, hdirs]
  exact run_search_recording p r rules roots (p.path file) (p.directories file) Keyed.empty record

/-! ## 5. What can be observed -/

/-- **Nothing above the directory where the search ends can be observed.**  Let two providers have
the same resources, and let them give the same answers about the documents of the directories that
the first one searches.  Then the settings of a file, or the failure to get them, are the same
under both, and so are the documents that are asked for: those of the directories searched, the
nearest one first, each once. -/
theorem resolve_eq_of_answersAlike (p q : Provider Id R) (r : Registry) (rules : Rules)
    (roots : List R) (file : R) (hpq : p.SameTree q)
    (h : ∀ dir ∈ searched p r rules roots file, AnswersAlike p q rules dir) :
    (resolve q r rules roots file).result = (resolve p r rules roots file).result ∧
    ((resolve p.recording r rules roots file).run []).2 =
      (searched p r rules roots file).map (p.child · rules.fileName) ∧
    ((resolve q.recording r rules roots file).run []).2 =
      (searched p r rules roots file).map (p.child · rules.fileName) ∧
    (searched p r rules roots file).Nodup := by
  have hsame : resolve q r rules roots file = resolve p r rules roots file := by
    rw [resolve, resolve, hpq.path, Provider.directories_congr p q hpq.parent?]
    exact search_congr hpq h
  have hchecked : (resolve p r rules roots file).checked =
      (searched p r rules roots file).map (p.child · rules.fileName) :=
    checked_search (p.directories file) Keyed.empty
  rw [run_resolve_recording, run_resolve_recording, hsame, hchecked]
  exact ⟨rfl, rfl, rfl, nodup_searched p r rules roots file⟩

/-- The file `3` in the directory `2`, in `1`, in the root `0`.  There is no document in `2`, the
one in `1` is a root, and about the one in `0` there is only this `answer`. -/
def threeLevels (answer : Except String Bool) : Provider Id Nat :=
  { twoLevels with
    path := fun n => ["/", "/a", "/a/b", "/a/b/f.c"].getD n ""
    isFile := fun n => if n = 12 then .ok false else if n = 11 then .ok true else answer
    read := fun n => .ok (if n = 11 then "root = true\n[*]\nx = 1\n" else "[*]\nx = 2\ny = 3\n") }

/-- Whether the document above the root can be accessed is not observed. -/
theorem resolve_threeLevels_eq :
    (threeLevels (.ok true)).SameTree (threeLevels (.error "no access")) ∧
    (∀ dir ∈ searched (threeLevels (.ok true)) .builtin {} [] 3,
      AnswersAlike (threeLevels (.ok true)) (threeLevels (.error "no access")) {} dir) ∧
    (resolve (threeLevels (.error "no access")) .builtin {} [] 3).result =
      (resolve (threeLevels (.ok true)) .builtin {} [] 3).result ∧
    ((resolve (threeLevels (.error "no access")).recording .builtin {} [] 3).run []).2 =
      [12, 11] := by
  have htree : (threeLevels (.ok true)).SameTree (threeLevels (.error "no access")) :=
    ⟨fun _ => rfl, fun _ _ => rfl, fun _ => rfl, fun _ _ => rfl⟩
  have hsearched : searched (threeLevels (.ok true)) .builtin {} [] 3 = [2, 1] := by
    decide +kernel
  have halike : ∀ dir ∈ searched (threeLevels (.ok true)) .builtin {} [] 3,
      AnswersAlike (threeLevels (.ok true)) (threeLevels (.error "no access")) {} dir := by
    intro dir hdir
    rw [hsearched] at hdir
    simp only [List.mem_cons, List.not_mem_nil, or_false] at hdir
    rcases hdir with rfl | rfl
    · exact ⟨rfl, fun _ => rfl⟩
    · exact ⟨rfl, fun _ => rfl⟩
  obtain ⟨hresult, -, hrecord, -⟩ := resolve_eq_of_answersAlike (threeLevels (.ok true))
    (threeLevels (.error "no access")) .builtin {} [] 3 htree halike
  rw [hsearched] at hrecord
  exact ⟨htree, halike, hresult, hrecord⟩

end Cascade
end EditorSettings
