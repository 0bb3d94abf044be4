/-
# When a search fails

For each directory that counts, a search needs to know whether there is a document, and the text of
one that is there.  It fails exactly when one of these accesses fails (`FailsWith`), with the
failure that is nearest to the file; nothing is asked after it, and nothing that was found before
it is given out.  What the documents say is of no importance: a text is always parsed, however
malformed it is, and can only end the search early.

`result_search` says what a search comes to, in terms of the directories that count.  The main
statement is `resolve_eq_error_iff_nearest`.
-/
import EditorSettings.Proofs.Cascade.Access

namespace EditorSettings
namespace Cascade

variable {R : Type}

/-! ## 1. Accesses that fail -/

/-- The document of a directory cannot be asked for, or it is there and cannot be read.  The
failure names the document and the cause. -/
def FailsWith (p : Provider Id R) (rules : Rules) (dir : R) (failure : Failure) : Prop :=
  failure.path = p.path (p.child dir rules.fileName) ∧
    (p.isFile (p.child dir rules.fileName) = .error failure.cause ∨
      p.isFile (p.child dir rules.fileName) = .ok true ∧
        p.read (p.child dir rules.fileName) = .error failure.cause)

/-- There is no document in the directory, or one with some text. -/
def Accessible (p : Provider Id R) (rules : Rules) (dir : R) : Prop :=
  p.isFile (p.child dir rules.fileName) = .ok false ∨
    p.isFile (p.child dir rules.fileName) = .ok true ∧
      ∃ text, p.read (p.child dir rules.fileName) = .ok text

/-- The failure in a directory, if an access fails there. -/
def failure? (p : Provider Id R) (rules : Rules) (dir : R) : Option Failure :=
  let file := p.child dir rules.fileName
  match p.isFile file, p.read file with
  | .error cause, _ => some ⟨p.path file, cause⟩
  | .ok true, .error cause => some ⟨p.path file, cause⟩
  | .ok _, _ => none

section

variable {p : Provider Id R} {r : Registry} {rules : Rules} {roots : List R} {path : String}
  {dir : R}

theorem failure?_eq_some_iff {failure : Failure} :
    failure? p rules dir = some failure ↔ FailsWith p rules dir failure := by
  obtain ⟨path, cause⟩ := failure
  unfold failure? FailsWith
  dsimp only
  constructor
  · intro h
    cases hfile : p.isFile (p.child dir rules.fileName) with
    | error c =>
      rw [hfile] at h
      cases h
      exact ⟨rfl, Or.inl rfl⟩
    | ok there =>
      cases hread : p.read (p.child dir rules.fileName) <;> cases there <;> rw [hfile, hread] at h
      all_goals cases h
      exact ⟨rfl, Or.inr ⟨rfl, rfl⟩⟩
  · rintro ⟨rfl, hfile | ⟨hfile, hread⟩⟩
    · rw [hfile]
    · rw [hfile, hread]

theorem failure?_eq_none_iff : failure? p rules dir = none ↔ Accessible p rules dir := by
  unfold failure? Accessible
  dsimp only
  constructor
  · intro h
    cases hfile : p.isFile (p.child dir rules.fileName) with
    | error c => rw [hfile] at h; cases h
    | ok there =>
      cases there with
      | false => exact Or.inl rfl
      | true =>
        cases hread : p.read (p.child dir rules.fileName) with
        | error c => rw [hfile, hread] at h; cases h
        | ok text => exact Or.inr ⟨rfl, text, rfl⟩
  · rintro (hfile | ⟨hfile, text, hread⟩)
    · rw [hfile]
    · rw [hfile, hread]

/-- Asking for a document gives the failure, or else the document as it is. -/
theorem document?_eq_failure (p : Provider Id R) (r : Registry) (rules : Rules) (dir : R) :
    document? p r rules dir =
      match failure? p rules dir with
      | some failure => .error failure
      | none => .ok (documentAt p r rules dir) := by
  rw [document?_eq]
  unfold failure? documentAt
  dsimp only
  cases p.isFile (p.child dir rules.fileName) with
  | error c => rfl
  | ok there =>
    cases there with
    | false => rfl
    | true => cases p.read (p.child dir rules.fileName) <;> rfl

theorem fails_eq_isSome (p : Provider Id R) (rules : Rules) (dir : R) :
    fails p rules dir = (failure? p rules dir).isSome := by
  have hdocument := document?_eq_failure p .builtin rules dir
  rcases document?_cases p .builtin rules dir with ⟨failure, hd, hfails⟩ | ⟨hd, hfails⟩
  · rw [hd] at hdocument
    cases hf : failure? p rules dir with
    | some f => rw [hfails, Option.isSome_some]
    | none => rw [hf] at hdocument; cases hdocument
  · rw [hd] at hdocument
    cases hf : failure? p rules dir with
    | some f => rw [hf] at hdocument; cases hdocument
    | none => rw [hfails, Option.isSome_none]

/-! ## 2. What a search comes to -/

/-- **What a search comes to.**  It is the failure of the nearest directory that has one, among
those that count; and if there is none, the documents of all of them are taken up. -/
theorem result_search :
    ∀ (dirs : List R) (found : Settings),
      (search p r rules roots path found dirs).result =
        match (upTo (isLast p r rules roots) dirs).findSome? (failure? p rules) with
        | some failure => .error failure
        | none => .ok ((upTo (isLast p r rules roots) dirs).foldl
            (fun m dir => extend m path (documentAt p r rules dir)) found)
  | [], found => rfl
  | dir :: above, found => by
    have hends : endsAt p roots dir (documentAt p r rules dir) = isLast p r rules roots dir := rfl
    rw [search_cons, document?_eq_failure, upTo]
    cases hf : failure? p rules dir with
    | some failure =>
      cases isLast p r rules roots dir <;> simp only [Bool.false_eq_true, if_true, if_false,
        List.findSome?_cons, hf]
    | none =>
      simp only [hends]
      cases isLast p r rules roots dir with
      | true => simp only [if_true, List.findSome?_cons, hf, List.findSome?_nil, List.foldl_cons,
          List.foldl_nil]
      | false =>
        simp only [Bool.false_eq_true, if_false, List.findSome?_cons, hf, List.foldl_cons]
        exact result_search above _

theorem upTo_append_of_last {α : Type} {last : α → Bool} {l rest : List α} {a : α}
    (hl : ∀ b ∈ l, last b = false) (ha : last a = true) : upTo last (l ++ a :: rest) = l ++ [a] := by
  induction l with
  | nil => rw [List.nil_append, upTo, if_pos ha, List.nil_append]
  | cons b l ih =>
    have hb : ¬ last b = true := by simp [hl b List.mem_cons_self]
    rw [List.cons_append, upTo, if_neg hb, ih fun c hc => hl c (List.mem_cons_of_mem b hc),
      List.cons_append]

/-- To stop at either of two signs is to stop at the first among what the second leaves. -/
theorem upTo_or {α : Type} (first second : α → Bool) (l : List α) :
    upTo (fun a => first a || second a) l = upTo first (upTo second l) := by
  induction l with
  | nil => rfl
  | cons a l ih =>
    cases h1 : first a <;> cases h2 : second a <;> simp [upTo, h1, h2, ih]

/-- The search asks for the documents up to the first one that cannot be accessed. -/
theorem checked_resolve (p : Provider Id R) (r : Registry) (rules : Rules) (roots : List R)
    (file : R) :
    (resolve p r rules roots file).checked =
      (upTo (fails p rules) (visited p r rules roots file)).map (p.child · rules.fileName) := by
  rw [visited, ← upTo_or]
  exact checked_search (p.directories file) Keyed.empty

/-- Where a search fails, it has asked for the documents up to there. -/
theorem upTo_fails {nearer farther : List R} {failure : Failure}
    (hnearer : ∀ d ∈ nearer, failure? p rules d = none) (hdir : failure? p rules dir = some failure) :
    upTo (fails p rules) (nearer ++ dir :: farther) = nearer ++ [dir] := by
  refine upTo_append_of_last (fun d hd => ?_) ?_
  · rw [fails_eq_isSome, hnearer d hd, Option.isSome_none]
  · rw [fails_eq_isSome, hdir, Option.isSome_some]

theorem result_eq_error_iff {file : R} {failure : Failure} :
    (resolve p r rules roots file).result = .error failure ↔
      (visited p r rules roots file).findSome? (failure? p rules) = some failure := by
  rw [resolve, result_search, ← visited]
  cases (visited p r rules roots file).findSome? (failure? p rules) <;> simp

theorem exists_result_eq_ok_iff {file : R} :
    (∃ settings, (resolve p r rules roots file).result = .ok settings) ↔
      (visited p r rules roots file).findSome? (failure? p rules) = none := by
  rw [resolve, result_search, ← visited]
  cases (visited p r rules roots file).findSome? (failure? p rules) <;> simp

end

/-! ## 3. The outcome of a search -/

/-- **A search fails exactly when an access it needs fails, and reports the nearest one.**  The
accesses it needs are those in the directories that count: up to and including the first whose
document is a root or which the caller names.  If one of them fails, the outcome is the failure of
the nearest such directory, and no document above that directory has been asked for; if none fails,
there are settings, whatever text the documents hold. -/
theorem resolve_eq_error_iff_nearest (p : Provider Id R) (r : Registry) (rules : Rules)
    (roots : List R) (file : R) :
    ((∃ failure, (resolve p r rules roots file).result = .error failure) ↔
      ∃ dir ∈ visited p r rules roots file, ∃ failure, FailsWith p rules dir failure) ∧
    (∀ failure, (resolve p r rules roots file).result = .error failure ↔
      ∃ nearer dir farther, visited p r rules roots file = nearer ++ dir :: farther ∧
        (∀ d ∈ nearer, Accessible p rules d) ∧ FailsWith p rules dir failure ∧
        ((resolve p.recording r rules roots file).run []).2 =
          (nearer ++ [dir]).map (p.child · rules.fileName)) ∧
    ((∃ settings, (resolve p r rules roots file).result = .ok settings) ↔
      ∀ dir ∈ visited p r rules roots file, Accessible p rules dir) := by
  simp only [result_eq_error_iff, exists_result_eq_ok_iff, ← failure?_eq_none_iff,
    ← failure?_eq_some_iff]
  refine ⟨?_, fun failure => ?_, List.findSome?_eq_none_iff⟩
  · simp only [← Option.isSome_iff_exists, List.findSome?_isSome_iff]
  · rw [run_resolve_recording, List.nil_append, checked_resolve, List.findSome?_eq_some_iff]
    constructor
    · rintro ⟨nearer, dir, farther, hvisited, hdir, hnearer⟩
      refine ⟨nearer, dir, farther, hvisited, hnearer, hdir, ?_⟩
      rw [hvisited, upTo_fails hnearer hdir]
    · rintro ⟨nearer, dir, farther, hvisited, hnearer, hdir, -⟩
      exact ⟨nearer, dir, farther, hvisited, hdir, hnearer⟩

end Cascade
end EditorSettings
