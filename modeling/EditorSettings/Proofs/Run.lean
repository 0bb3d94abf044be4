/-
# Targets do not affect each other

A run goes through its targets with two texts and three counts that all of them add to.  What a
target adds is what its own settings are, or why there are none, as they come out if nothing else
is asked of the file system (`Run.alone`): the requests that were made for other targets have
changed nothing (`readOnly_resolve`), and reports are put together by parts (`Report.concat_cons`).

The main statement is `settings_of_targets`.
-/
import EditorSettings.Proofs.FileSystem
import EditorSettings.Run

namespace EditorSettings.Run

/-! ## 1. Reports by parts -/

namespace Report

theorem append_assoc (a b c : Report) : (a.append b).append c = a.append (b.append c) := by
  simp [append, String.append_assoc, Nat.add_assoc]

theorem empty_append (a : Report) : append {} a = a := by simp [append]

theorem append_empty (a : Report) : a.append {} = a := by simp [append]

theorem foldl_append (reports : List Report) (a : Report) :
    reports.foldl append a = a.append (concat reports) := by
  induction reports generalizing a with
  | nil => exact (append_empty a).symm
  | cons b rest ih =>
    rw [concat, List.foldl_cons, List.foldl_cons, ih, ih, empty_append, append_assoc]

/-- **The first report stands in front of the others.** -/
theorem concat_cons (a : Report) (rest : List Report) :
    concat (a :: rest) = a.append (concat rest) := by
  rw [concat, List.foldl_cons, empty_append, foldl_append]

end Report

/-! ## 2. What targets add -/

/-- Why there are no settings, if there are none. -/
def failure? : Except Cascade.Failure Settings → Option Cascade.Failure
  | .ok _ => none
  | .error e => some e

/-- The settings that are not valid. -/
def invalid (ss : Settings) : List Setting := ss.toList.filter (!·.isValid)

section

variable (st : Style) (withHeader : Bool) (f : Path → Except Cascade.Failure Settings)

/-- The reports on targets, put together. -/
def reportOn (targets : List Path) : Report :=
  .concat (targets.map fun p => .ofResult st withHeader p (f p))

theorem reportOn_cons (p : Path) (rest : List Path) :
    reportOn st withHeader f (p :: rest) =
      (Report.ofResult st withHeader p (f p)).append (reportOn st withHeader f rest) :=
  Report.concat_cons _ _

/-- Standard output holds the settings of the targets that have some. -/
theorem out_reportOn (targets : List Path) :
    (reportOn st withHeader f targets).out =
      String.join (targets.filterMap fun p =>
        (f p).toOption.map fun ss => st.settings p withHeader ss.toList) := by
  induction targets with
  | nil => rfl
  | cons p rest ih =>
    rw [reportOn_cons, Report.append, ih]
    cases h : f p with
    | ok ss => simp [Report.ofResult, h, Except.toOption]
    | error e => simp [Report.ofResult, h, Except.toOption]

/-- Standard error holds one report for each of the others. -/
theorem err_reportOn (targets : List Path) :
    (reportOn st withHeader f targets).err =
      String.join (targets.filterMap fun p =>
        (failure? (f p)).map fun e => st.failure p e.message) := by
  induction targets with
  | nil => rfl
  | cons p rest ih =>
    rw [reportOn_cons, Report.append, ih]
    cases h : f p with
    | ok ss => simp [Report.ofResult, h, failure?]
    | error e => simp [Report.ofResult, h, failure?]

/-- Every target is counted, once. -/
theorem tally_reportOn (targets : List Path) :
    (reportOn st withHeader f targets).tally =
      ⟨(targets.filterMap fun p => (f p).toOption).length,
        (targets.filterMap fun p => failure? (f p)).length,
        ((targets.filterMap fun p => (f p).toOption).flatMap invalid).length⟩ := by
  induction targets with
  | nil => rfl
  | cons p rest ih =>
    rw [reportOn_cons, Report.append, ih]
    cases h : f p with
    | ok ss => simp [Report.ofResult, h, Except.toOption, failure?, invalid, Nat.add_comm]
    | error e => simp [Report.ofResult, h, Except.toOption, failure?, Nat.add_comm]

theorem length_add_length (targets : List Path) :
    (targets.filterMap fun p => (f p).toOption).length +
      (targets.filterMap fun p => failure? (f p)).length = targets.length := by
  have hnot : ∀ p ∈ targets, (failure? (f p)).isSome = true ↔ ¬ (f p).toOption.isSome = true := by
    intro p _
    cases f p with
    | ok ss => simp [failure?, Except.toOption]
    | error e => simp [failure?, Except.toOption]
  rw [List.length_filterMap_eq_countP, List.length_filterMap_eq_countP,
    List.length_eq_countP_add_countP fun p => (f p).toOption.isSome]
  congr 1
  exact List.countP_congr fun p hp => by simpa using hnot p hp

end

/-! ## 3. A run -/

section

variable {σ : Type}

/-- The settings of a target, or why there are none, if nothing else is asked for. -/
def alone (fs : FileSystem (StateM σ)) (plan : Plan) (s : σ) (target : Path) :
    Except Cascade.Failure Settings :=
  (answer (Cascade.resolve fs.provider .builtin plan.rules (plan.roots.map fs.absolute)
    (fs.absolute target)) s).result

variable {fs : FileSystem (StateM σ)} (hfs : fs.ReadsOnly)

include hfs

theorem readOnly_resolve (plan : Plan) (target : Path) : ReadOnly (resolve fs plan target) :=
  (Cascade.readOnly_resolve hfs _ _ _ _).bind fun _ => readOnly_pure _

/-- **A run puts together what its targets give alone**, and leaves the files as they are. -/
theorem run_settings {paths targets : List Path} {s : σ}
    (h : answer (fs.targets paths) s = .ok targets) (plan : Plan) (st : Style) :
    (settings fs plan st paths).run s =
      (let all := reportOn st (1 < targets.length) (alone fs plan s) targets
       .ok ⟨all.out, all.err ++ st.summary all.tally, all.tally⟩, s) := by
  have hreport : ∀ p ∈ targets, ReadOnly (do
      pure (Report.ofResult st (1 < targets.length) p (← resolve fs plan p))) := fun p _ =>
    (readOnly_resolve hfs plan p).bind fun _ => readOnly_pure _
  rw [settings, run_bind_of_readOnly (FileSystem.readOnly_targets hfs paths), h]
  dsimp only
  rw [run_bind_of_readOnly (.mapM hreport), answer, run_mapM_of_readOnly hreport]
  rfl

end

/-- **The failure of a target does not touch the others.**  In a run whose targets have been found,
standard output holds the settings of every target that has some, in their order, and with headers
exactly if there is more than one target, failed ones included.  Standard error holds one report
for every target that has none, and then the summary.  Every target is counted, once; settings that
are not valid are counted whether they are printed or not; and the run has failures exactly if some
target has no settings by itself.  All this is said of what the targets give alone, and the files
are left as they are. -/
theorem settings_of_targets (cwd : Path) (t : FileTree) (plan : Plan) (st : Style)
    (paths targets : List Path)
    (h : answer ((FileTree.fileSystem cwd).targets paths) t = .ok targets) :
    ∃ printed : Printed Tally,
      (settings (FileTree.fileSystem cwd) plan st paths).run t = (.ok printed, t) ∧
      printed.out = String.join (targets.filterMap fun p =>
        (alone (FileTree.fileSystem cwd) plan t p).toOption.map fun ss =>
          st.settings p (1 < targets.length) ss.toList) ∧
      printed.err = String.join (targets.filterMap fun p =>
        (failure? (alone (FileTree.fileSystem cwd) plan t p)).map fun e =>
          st.failure p e.message) ++ st.summary printed.result ∧
      printed.result.resolved + printed.result.failed = targets.length ∧
      printed.result.failed = (targets.filterMap fun p =>
        failure? (alone (FileTree.fileSystem cwd) plan t p)).length ∧
      printed.result.invalid = ((targets.filterMap fun p =>
        (alone (FileTree.fileSystem cwd) plan t p).toOption).flatMap invalid).length ∧
      (printed.result.hasFailures = true ↔
        ∃ p ∈ targets, ∃ e, alone (FileTree.fileSystem cwd) plan t p = .error e) := by
  refine ⟨_, run_settings (FileTree.readsOnly_fileSystem cwd) h plan st, ?_⟩
  dsimp only
  rw [tally_reportOn, out_reportOn, err_reportOn]
  refine ⟨rfl, rfl, length_add_length _ targets, rfl, rfl, ?_⟩
  rw [Tally.hasFailures, decide_eq_true_eq, List.length_pos_iff_exists_mem]
  simp only [List.mem_filterMap]
  constructor
  · rintro ⟨e, p, hp, he⟩
    cases hresult : alone (FileTree.fileSystem cwd) plan t p with
    | ok ss =>
      rw [hresult] at he
      cases he
    | error e => exact ⟨p, hp, e, hresult⟩
  · rintro ⟨p, hp, e, he⟩
    exact ⟨e, p, hp, by rw [he, failure?]⟩

/-- Two directories, with a document that names an unknown style, and one that is no text. -/
def brokenTree : FileTree :=
  ⟨[(["w"], .directory), (["w", ".editorconfig"],
      .file "root = true\n[/?]\nindent_style = bad\n".toUTF8),
    (["v"], .directory), (["v", ".editorconfig"], .file ⟨#[0xff]⟩)]⟩

theorem settings_brokenTree :
    answer ((FileTree.fileSystem ⟨"/"⟩).targets [⟨"/w/a"⟩, ⟨"/v/b"⟩, ⟨"/w/c"⟩]) brokenTree =
      .ok [⟨"/w/a"⟩, ⟨"/v/b"⟩, ⟨"/w/c"⟩] ∧
    (settings (FileTree.fileSystem ⟨"/"⟩) {} {} [⟨"/w/a"⟩, ⟨"/v/b"⟩, ⟨"/w/c"⟩]).run brokenTree =
      (.ok ⟨"[/w/a]\nindent_style=bad\n[/w/c]\nindent_style=bad\n",
        "Error: /v/b: failed to read /v/.editorconfig: stream did not contain valid UTF-8\n",
        ⟨2, 1, 2⟩⟩, brokenTree) := by
  have htargets : answer ((FileTree.fileSystem ⟨"/"⟩).targets [⟨"/w/a"⟩, ⟨"/v/b"⟩, ⟨"/w/c"⟩])
      brokenTree = .ok [⟨"/w/a"⟩, ⟨"/v/b"⟩, ⟨"/w/c"⟩] := rfl
  obtain ⟨⟨out, err, resolved, failed, invalid⟩, hrun, hout, herr, hcount, hfailed, hinvalid, -⟩ :=
    settings_of_targets ⟨"/"⟩ brokenTree {} {} _ _ htargets
  have hout' : out = "[/w/a]\nindent_style=bad\n[/w/c]\nindent_style=bad\n" :=
    hout.trans (by decide +kernel)
  have hfailed' : failed = 1 := hfailed.trans (by decide +kernel)
  have hinvalid' : invalid = 2 := hinvalid.trans (by decide +kernel)
  have hresolved' : resolved = 2 := by
    simp only [hfailed', List.length_cons, List.length_nil] at hcount
    omega
  have hsummary : ∀ tally, ({} : Style).summary tally = "" := fun _ => rfl
  rw [hsummary] at herr
  have herr' : err =
      "Error: /v/b: failed to read /v/.editorconfig: stream did not contain valid UTF-8\n" :=
    herr.trans (by decide +kernel)
  subst hout' hfailed' hinvalid' hresolved' herr'
  exact ⟨htargets, hrun⟩

end EditorSettings.Run
