/-
# What is printed can be read

With headers, and without colours, the settings of several files are printed in the format of the
files that they come from: a header for each path, and below it a line for each setting.  So the
text is a layout of an outline (`writes_printed`), and reading it gives back the paths, the names
and the values, and nothing else.

Nothing is quoted on the way.  That a header ends where it should rests on the path having no line
feed; that a line does rests on what a setting can be that has been found, which is what could be
read from a line (`AreFound.isName_and_isValue`).  A mark behind a setting that is not valid would
be read as a part of its value, so there must be none.

The main statement is `ofText_printed`.
-/
import EditorSettings.Proofs.Cascade.Precedence
import EditorSettings.Proofs.Document.Nesting
import EditorSettings.Proofs.Document.RoundTrip

namespace EditorSettings

open EditorSettings.Text

/-! ## 1. Settings that are found -/

/-- The settings have been found for some file by a search. -/
def Settings.AreFound (settings : Settings) : Prop :=
  ∃ (R : Type) (p : Provider Id R) (r : Registry) (rules : Cascade.Rules) (roots : List R)
    (file : R), (Cascade.resolve p r rules roots file).result = .ok settings

/-- What a document declares can be read from a line. -/
theorem Cascade.readable_of_mem_declaredAt {R : Type} {p : Provider Id R} {r : Registry}
    {rules : Rules} {path : String} {dir : R} :
    ∀ x ∈ declaredAt p r rules path dir, x.Readable r := by
  intro x hx
  unfold declaredAt documentAt at hx
  dsimp only at hx
  split at hx
  · obtain ⟨s, hs, hxs⟩ := List.mem_flatMap.mp hx
    have hsection := readable_parse r (p.path dir) rules.version _ s (List.mem_of_mem_filter hs)
    exact hsection.settings x hxs
  · cases hx

/-- **Settings that are found have names and values that can stand in a line.** -/
theorem Settings.AreFound.isName_and_isValue {settings : Settings} (h : settings.AreFound) :
    ∀ x ∈ settings.toList, IsName x.name.toList ∧ IsValue x.value.toList := by
  obtain ⟨R, p, r, rules, roots, file, hresult⟩ := h
  refine Cascade.forall_mem_resolve hresult ?_
  intro dir _ x hx
  have hreadable := Cascade.readable_of_mem_declaredAt x hx
  exact ⟨hreadable.name, hreadable.value⟩

/-! ## 2. The lines that are printed -/

/-- The line of a setting as it is printed. -/
def Setting.printed (x : Setting) : WrittenLine := .setting [] x.name [] '=' [] x.value []

namespace Style

/-- The settings that are printed. -/
def shown (st : Style) (settings : Settings) : List Setting :=
  if st.quiet then settings.toList.filter (·.isValid) else settings.toList

/-- The lines for a path and its settings. -/
def printed (st : Style) (e : Path × Settings) : List WrittenLine :=
  .header [] e.1.text [] :: (st.shown e.2).map Setting.printed

/-- What is printed about files: sections with the paths for patterns. -/
def outline (st : Style) (reports : List (Path × Settings)) : Outline where
  preamble := []
  sections := reports.map fun e => (e.1.text, (st.shown e.2).map fun x => (x.name, x.value))

theorem filter_shows (st : Style) (settings : Settings) :
    settings.toList.filter st.shows = st.shown settings := by
  unfold shows shown
  cases st.quiet with
  | true => simp
  | false => simp

section

variable {st : Style} (hplain : st.palette = .plain) (hmark : st.quiet = true ∨ st.verbose = false)

include hplain hmark

/-- A setting that is printed has no mark: it is valid, or no marks are asked for. -/
theorem toList_settingLine {x : Setting} (hx : st.shows x = true) :
    (st.settingLine x).toList = x.printed.text ++ ['\n'] := by
  have hnone : st.mark x = "" := by
    unfold mark
    rw [if_neg]
    rcases hmark with hquiet | hverbose
    · have hvalid : x.isValid = true := by simpa [shows, hquiet] using hx
      simp [hvalid]
    · simp [hverbose]
  simp [settingLine, hplain, hnone, Palette.plain, Setting.printed, WrittenLine.text]

theorem toList_settings (e : Path × Settings) :
    (st.settings e.1 true e.2.toList).toList = closedText (st.printed e) := by
  have hlines : ((e.2.toList.filter st.shows).map st.settingLine).flatMap String.toList =
      closedText ((st.shown e.2).map Setting.printed) := by
    rw [closedText, List.flatMap_map, List.flatMap_map, ← filter_shows]
    refine List.flatMap_congr ?_
    intro x hx
    exact toList_settingLine hplain hmark (List.mem_filter.mp hx).2
  rw [settings, if_pos rfl, String.toList_append, String.toList_join, hlines]
  simp [header, hplain, Palette.plain, printed, closedText, WrittenLine.text]

/-- **What is printed about files is the text of these lines.** -/
theorem join_settings (reports : List (Path × Settings)) :
    String.join (reports.map fun e => st.settings e.1 true e.2.toList) =
      String.ofList (closedLayout (reports.flatMap st.printed)).text := by
  rw [← String.toList_inj, String.toList_join, String.toList_ofList, text_closedLayout,
    List.flatMap_map]
  induction reports with
  | nil => rfl
  | cons e rest ih =>
    rw [List.flatMap_cons, List.flatMap_cons, closedText_append, ih,
      toList_settings hplain hmark e]

end

/-! ## 3. Reading them -/

theorem filterMap_content?_printed (st : Style) (reports : List (Path × Settings)) :
    (reports.flatMap st.printed).filterMap WrittenLine.content? =
      (st.outline reports).contents := by
  induction reports with
  | nil => rfl
  | cons e rest ih =>
    rw [List.flatMap_cons, List.filterMap_append, ih]
    simp [printed, outline, Outline.contents, settingLines, List.filterMap_map, Function.comp_def,
      Setting.printed, WrittenLine.content?]

/-- The lines are well formed and say what has been found. -/
theorem writes_printed (st : Style) {reports : List (Path × Settings)}
    (hpaths : ∀ e ∈ reports, '\n' ∉ e.1.text.toList) (hfound : ∀ e ∈ reports, e.2.AreFound) :
    (closedLayout (reports.flatMap st.printed)).Writes (st.outline reports) := by
  refine ⟨?_, ?_, ?_⟩
  · intro line hline
    rw [lines_closedLayout] at hline
    obtain ⟨e, he, hline⟩ := List.mem_flatMap.mp hline
    rcases List.mem_cons.mp hline with rfl | hline
    · exact ⟨by decide, hpaths e he, by decide⟩
    · obtain ⟨x, hx, rfl⟩ := List.mem_map.mp hline
      have hmem : x ∈ e.2.toList := by
        rw [← filter_shows] at hx
        exact List.mem_of_mem_filter hx
      obtain ⟨hname, hvalue⟩ := (hfound e he).isName_and_isValue x hmem
      exact ⟨by decide, hname, by decide, Or.inl rfl, by decide, hvalue, by decide⟩
  · rw [lines_closedLayout, filterMap_content?_printed]
  · -- the text begins with the bracket of a header, if it is not empty
    intro _ hhead
    rw [text_closedLayout] at hhead
    cases reports with
    | nil => cases hhead
    | cons e rest =>
      simp [printed, closedText, WrittenLine.text] at hhead

/-- **What is printed about several files can be read back.**  Let the report be quiet or not
verbose, and without colours, and let no path hold a line feed.  Then the text is read without a
problem, and as an empty preamble followed by one section for each path, in their order, with the
path as its pattern and the names and values that were found for it: all of them, or in a quiet
report those that are valid. -/
theorem ofText_printed (st : Style) (reports : List (Path × Settings))
    (hplain : st.palette = .plain) (hmark : st.quiet = true ∨ st.verbose = false)
    (hpaths : ∀ e ∈ reports, '\n' ∉ e.1.text.toList) (hfound : ∀ e ∈ reports, e.2.AreFound) :
    let text := String.join (reports.map fun e => st.settings e.1 true e.2.toList)
    (∀ p, Event.problem p ∉ Event.ofText text) ∧
    Event.ofText text = Outline.events ⟨[], reports.map fun e =>
      (e.1.text, (if st.quiet then e.2.toList.filter (·.isValid) else e.2.toList).map fun x =>
        (x.name, x.value))⟩ := by
  have hevents : Event.ofText
      (String.join (reports.map fun e => st.settings e.1 true e.2.toList)) =
        (st.outline reports).events := by
    rw [join_settings hplain hmark]
    exact Event.ofText_written (writes_printed st hpaths hfound)
  refine ⟨?_, hevents⟩
  intro p hp
  rw [hevents] at hp
  exact Outline.problem_not_mem_events _ p hp

/-- The file `1` in the directory `0`, with a document that leaves a size open and has a separator
in a value. -/
def openSize : Provider Id Nat where
  parent? n := if n = 0 then none else some 0
  child _ _ := 2
  path n := ["/", "/f.c"].getD n ""
  same a b := a == b
  height n := n
  height_parent?_lt := by
    intro r d h
    split at h
    · cases h
    · cases h
      omega
  isFile _ := .ok true
  read _ := .ok "[/f.c]\nIndent_Size =\nx: #a = b\n"

theorem ofText_printed_openSize :
    ∃ settings, (Cascade.resolve openSize .builtin {} [] 1).result = .ok settings ∧
      Event.ofText (String.join ([(⟨"f.c"⟩, settings), (⟨"[b]"⟩, settings)].map
        fun e : Path × Settings => Style.settings {} e.1 true e.2.toList)) =
      Outline.events ⟨[],
        [("f.c", [("indent_size", ""), ("x", "#a = b"), ("tab_width", "")]),
          ("[b]", [("indent_size", ""), ("x", "#a = b"), ("tab_width", "")])]⟩ := by
  obtain ⟨settings, h⟩ : ∃ settings,
      (Cascade.resolve openSize .builtin {} [] 1).result = .ok settings :=
    Cascade.exists_search_eq_ok (fun _ => ⟨true, rfl⟩) (fun _ => ⟨_, rfl⟩)
      (openSize.directories 1) Keyed.empty
  have hlist : settings.toList.map (fun x => (x.name, x.value)) =
      [("indent_size", ""), ("x", "#a = b"), ("tab_width", "")] := by
    have hmap := congrArg (fun result => result.toOption.map fun ss =>
      ss.toList.map fun x => (x.name, x.value)) h
    exact Option.some.inj (hmap.symm.trans (by decide +kernel))
  have hfound : settings.AreFound := ⟨Nat, openSize, .builtin, {}, [], 1, h⟩
  have hfirst : '\n' ∉ "f.c".toList := by decide
  have hsecond : '\n' ∉ "[b]".toList := by decide
  have hpaths : ∀ e ∈ [((⟨"f.c"⟩ : Path), settings), (⟨"[b]"⟩, settings)],
      '\n' ∉ e.1.text.toList :=
    List.forall_mem_cons.mpr ⟨hfirst, List.forall_mem_cons.mpr ⟨hsecond, by simp⟩⟩
  obtain ⟨-, hevents⟩ := ofText_printed {} [(⟨"f.c"⟩, settings), (⟨"[b]"⟩, settings)] rfl
    (Or.inr rfl) hpaths (by simp [hfound])
  refine ⟨settings, h, hevents.trans ?_⟩
  simp [hlist]

end Style

end EditorSettings
