/-
# Events nest

The events of a text are not any sequence of events.  A document holds a preamble and then units;
a unit is a section, or the problem of a header that was dropped with the lines below it; a
preamble and a section hold a body, in which settings stand whole and problems between them
(`WellNested`).

The grammar is what an assembly needs: fed the events of a text, it has a place for every one of
them (`Moves`), so nothing that a line says is lost on the way.  And where nothing is wrong with a
text, the events are known one by one: a text that writes an outline gives the events of the
outline and no others (`ofText_written`), not only its document.

The main statement is `ofText_nested_and_heeded`.  The induction is over the lines, in two forms,
since below a header that was dropped no section is open (`exists_ofLinesFrom`).
-/
import EditorSettings.Proofs.Document.Assembly
import EditorSettings.Proofs.Document.Layout
import EditorSettings.Proofs.Document.Mending
import EditorSettings.Proofs.Document.Readable

namespace EditorSettings

open EditorSettings.Text

namespace Event

/-! ## 1. The grammar of events -/

/-- The events of one setting. -/
def ofSetting (s : String × String) : List Event :=
  [settingStart, settingName s.1, settingValue s.2, settingEnd]

/-- What stands in a section: settings, and the problems of lines that were dropped. -/
inductive IsBody : List Event → Prop
  | nil : IsBody []
  | problem {p : Problem} {rest : List Event}
      (kind : p.kind = .malformedLine ∨ p.kind = .missingName) (hrest : IsBody rest) :
      IsBody (problem p :: rest)
  | setting {name value : String} {rest : List Event} (hname : IsName name.toList)
      (hvalue : IsValue value.toList) (hrest : IsBody rest) :
      IsBody (ofSetting (name, value) ++ rest)

/-- What stands below the preamble: sections, and the problems of headers that were dropped. -/
inductive AreUnits : List Event → Prop
  | nil : AreUnits []
  | dropped {p : Problem} {rest : List Event} (kind : p.kind = .malformedHeader)
      (hrest : AreUnits rest) : AreUnits (problem p :: rest)
  | unit {s : String} {body rest : List Event} (hbody : IsBody body) (hrest : AreUnits rest) :
      AreUnits ([sectionStart, pattern s] ++ body ++ [sectionEnd] ++ rest)

/-- The events of a document: the preamble, the units, and a mark at either end. -/
def WellNested (events : List Event) : Prop :=
  ∃ preamble units, IsBody preamble ∧ AreUnits units ∧
    events = [documentStart, sectionStart] ++ preamble ++ [sectionEnd] ++ units ++ [documentEnd]

/-! ## 2. The events of lines -/

/-- A line below a header that was closed adds to the body. -/
theorem IsBody.ofLine_append {text : List Char} (htext : '\n' ∉ text) (number : Nat)
    {rest : List Event} (hrest : IsBody rest) :
    IsBody (ofLine number (Line.read text) ++ rest) := by
  cases hline : Line.read text with
  | blank => exact hrest
  | header s => exact hrest
  | unclosed s => exact hrest
  | nameless => exact .problem (Or.inr rfl) hrest
  | unseparated s => exact .problem (Or.inl rfl) hrest
  | setting name value =>
    obtain ⟨hname, hvalue⟩ := Line.isName_and_isValue_of_read htext hline
    have hname' : IsName (String.ofList name).toList := by rwa [String.toList_ofList]
    have hvalue' : IsValue (String.ofList value).toList := by rwa [String.toList_ofList]
    exact .setting hname' hvalue' hrest

/-- **The events of lines**: while a section is open its body is carried on, and otherwise there is
none to carry on. -/
theorem exists_ofLinesFrom :
    ∀ (lines : List Line) (number : Nat), (∀ line ∈ lines, ∃ s, '\n' ∉ s ∧ Line.read s = line) →
      (∃ body units, IsBody body ∧ AreUnits units ∧
        ofLinesFrom true number lines = body ++ [sectionEnd] ++ units ++ [documentEnd]) ∧
      ∃ units, AreUnits units ∧ ofLinesFrom false number lines = units ++ [documentEnd]
  | [], _, _ => ⟨⟨[], [], .nil, .nil, rfl⟩, [], .nil, rfl⟩
  | line :: rest, number, h => by
    obtain ⟨⟨body, units, hbody, hunits, hopen⟩, units', hunits', hclosed⟩ :=
      exists_ofLinesFrom rest (number + 1) fun l hl => h l (List.mem_cons_of_mem _ hl)
    rcases line.heading_cases with ⟨p, rfl⟩ | ⟨s, rfl⟩ | hline
    · -- a section opens, whose body is that of the lines below
      have hsection := AreUnits.unit (s := String.ofList p) hbody hunits
      refine ⟨⟨[], _, .nil, hsection, ?_⟩, _, hsection, ?_⟩
      · simp [ofLinesFrom, closing, hopen]
      · simp [ofLinesFrom, closing, hopen]
    · have hdropped := AreUnits.dropped
        (p := .unclosedHeader number (String.ofList s)) rfl hunits'
      refine ⟨⟨[], _, .nil, hdropped, ?_⟩, _, hdropped, ?_⟩
      · simp [ofLinesFrom, closing, hclosed]
      · simp [ofLinesFrom, closing, hclosed]
    · obtain ⟨text, htext, rfl⟩ := h line List.mem_cons_self
      refine ⟨⟨_, units, hbody.ofLine_append htext number, hunits, ?_⟩, units', hunits', ?_⟩
      · simp [ofLinesFrom_cons hline, hopen]
      · simp [ofLinesFrom_cons hline, hclosed]

end Event

/-! ## 3. Events that an assembly has a place for -/

namespace Assembly

/-- A run in which no event is ignored: each one changes the assembly, but for the marks at the
ends of the document. -/
inductive Moves : Assembly → List Event → Assembly → Prop
  | nil (a : Assembly) : Moves a [] a
  | cons {a b : Assembly} {e : Event} {rest : List Event}
      (h : e = .documentStart ∨ e = .documentEnd ∨ a.feed e ≠ a) (hrest : Moves (a.feed e) rest b) :
      Moves a (e :: rest) b

namespace Moves

theorem append {a b c : Assembly} {xs ys : List Event} (hx : Moves a xs b) (hy : Moves b ys c) :
    Moves a (xs ++ ys) c := by
  induction hx with
  | nil a => exact hy
  | cons h hrest ih => exact .cons h (ih hy)

/-- An event that takes the assembly to another stage is not ignored. -/
theorem of_stage {a b : Assembly} {e : Event} {rest : List Event}
    (h : (a.feed e).stage ≠ a.stage) (hrest : Moves (a.feed e) rest b) : Moves a (e :: rest) b :=
  .cons (Or.inr (Or.inr fun heq => h (congrArg Assembly.stage heq))) hrest

/-- A problem is always kept. -/
theorem of_problem {a b : Assembly} {p : Problem} {rest : List Event}
    (hrest : Moves (a.feed (.problem p)) rest b) : Moves a (.problem p :: rest) b := by
  refine .cons (Or.inr (Or.inr fun heq => ?_)) hrest
  have hlength := congrArg (fun a : Assembly => a.problems.length) heq
  simp [feed] at hlength

/-- What stands at any place of such a run is not ignored there. -/
theorem takes {a b : Assembly} {before after : List Event} {e : Event}
    (h : Moves a (before ++ e :: after) b) :
    e = .documentStart ∨ e = .documentEnd ∨
      (before.foldl feed a).feed e ≠ before.foldl feed a := by
  induction before generalizing a with
  | nil =>
    cases h with
    | cons h hrest => exact h
  | cons x before ih =>
    cases h with
    | cons hx hrest => exact ih hrest

end Moves

/-- A setting is taken up into the section that is open. -/
theorem exists_moves_setting {a : Assembly} {d : Section.Draft} (h : a.stage = .inSection d)
    (s : String × String) : ∃ b d', b.stage = .inSection d' ∧ Moves a (Event.ofSetting s) b := by
  obtain ⟨r, doc, stage, ps⟩ := a
  cases h
  refine ⟨_, _, rfl, .of_stage ?_ (.of_stage ?_ (.of_stage ?_ (.of_stage ?_ (.nil _))))⟩
  · simp [feed]
  · simp [feed, Setting.Draft.withName]
  · simp [feed, Setting.Draft.withName, Setting.Draft.withValue]
  · simp [feed]

/-- While a body is taken up, the section stays open. -/
theorem exists_moves_body {events : List Event} (hbody : Event.IsBody events) :
    ∀ {a : Assembly} {d : Section.Draft}, a.stage = .inSection d →
      ∃ b d', b.stage = .inSection d' ∧ Moves a events b := by
  induction hbody with
  | nil =>
    intro a d h
    exact ⟨a, d, h, .nil a⟩
  | problem kind hrest ih =>
    intro a d h
    obtain ⟨b, d', hb, hmoves⟩ := ih (a := a.feed (.problem _)) h
    exact ⟨b, d', hb, .of_problem hmoves⟩
  | setting hname hvalue hrest ih =>
    intro a d h
    obtain ⟨b, d', hb, hmoves⟩ := exists_moves_setting h _
    obtain ⟨c, d'', hc, hmoves'⟩ := ih hb
    exact ⟨c, d'', hc, hmoves.append hmoves'⟩

/-- Closing the section ends outside of it. -/
theorem exists_moves_end {a : Assembly} {d : Section.Draft} (h : a.stage = .inSection d) :
    ∃ b, b.stage = .outside ∧ Moves a [.sectionEnd] b := by
  have hend : (a.feed .sectionEnd).stage = .outside := a.stage_closeSection
  refine ⟨_, hend, .of_stage ?_ (.nil _)⟩
  rw [hend, h]
  nofun

/-- Units begin and end outside of all sections. -/
theorem exists_moves_units {events : List Event} (hunits : Event.AreUnits events) :
    ∀ {a : Assembly}, a.stage = .outside → ∃ b, b.stage = .outside ∧ Moves a events b := by
  induction hunits with
  | nil =>
    intro a h
    exact ⟨a, h, .nil a⟩
  | dropped kind hrest ih =>
    intro a h
    obtain ⟨b, hb, hmoves⟩ := ih (a := a.feed (.problem _)) h
    exact ⟨b, hb, .of_problem hmoves⟩
  | @unit s body rest hbody hrest ih =>
    intro a h
    have hpattern : ∃ b d, b.stage = .inSection d ∧
        Moves a [.sectionStart, .pattern s] b := by
      obtain ⟨r, doc, stage, ps⟩ := a
      cases h
      refine ⟨_, _, rfl, .of_stage ?_ (.of_stage ?_ (.nil _))⟩
      · simp [feed, closeSection]
      · simp [feed, closeSection, Section.Draft.withGlob]
    obtain ⟨b, d, hb, hstart⟩ := hpattern
    obtain ⟨c, d', hc, hmoves⟩ := exists_moves_body hbody hb
    obtain ⟨c', hc', hend⟩ := exists_moves_end hc
    obtain ⟨b', hb', hunits⟩ := ih hc'
    exact ⟨b', hb', ((hstart.append hmoves).append hend).append hunits⟩

/-- **No event that is well nested is ignored.** -/
theorem exists_moves {events : List Event} (h : Event.WellNested events) (r : Registry)
    (directory version : String) : ∃ b, Moves (.start r directory version) events b := by
  obtain ⟨preamble, units, hpreamble, hunits, rfl⟩ := h
  have hstart : ∃ b d, b.stage = .inSection d ∧
      Moves (.start r directory version) [.documentStart, .sectionStart] b := by
    refine ⟨_, {}, rfl, .cons (Or.inl rfl) (.of_stage ?_ (.nil _))⟩
    simp [feed, start]
  obtain ⟨a, d, ha, hstart⟩ := hstart
  obtain ⟨b, d', hb, hbody⟩ := exists_moves_body hpreamble ha
  obtain ⟨c, hc, hend⟩ := exists_moves_end hb
  obtain ⟨c', -, hunits⟩ := exists_moves_units hunits hc
  exact ⟨_, (((hstart.append hbody).append hend).append hunits).append
    (.cons (Or.inr (Or.inl rfl)) (.nil _))⟩

end Assembly

/-! ## 4. The events of a text -/

namespace Event

theorem wellNested_ofText (source : String) : WellNested (ofText source) := by
  obtain ⟨⟨preamble, units, hpreamble, hunits, hlines⟩, -⟩ :=
    exists_ofLinesFrom (linesOf source) 1 fun line hline => exists_of_mem_linesOf hline
  exact ⟨preamble, units, hpreamble, hunits, by simp [ofText, hlines]⟩

/-- **The events of every text are well nested**, and an assembly ignores none of them: each one
changes it, but for the marks at the ends of the document. -/
theorem ofText_nested_and_heeded (source : String) :
    WellNested (ofText source) ∧
    ∀ (r : Registry) (directory version : String) (before : List Event) (e : Event)
      (after : List Event), ofText source = before ++ e :: after →
      e ≠ documentStart → e ≠ documentEnd →
      (before.foldl Assembly.feed (.start r directory version)).feed e ≠
        before.foldl Assembly.feed (.start r directory version) := by
  refine ⟨wellNested_ofText source, ?_⟩
  intro r directory version before e after hevents hstart hend
  obtain ⟨b, hmoves⟩ := Assembly.exists_moves (wellNested_ofText source) r directory version
  rw [hevents] at hmoves
  rcases hmoves.takes with h | h | h
  · exact absurd h hstart
  · exact absurd h hend
  · exact h

/-- The lines below a header that is not closed go with it. -/
example : ofText "root\n[a\nb = 1\n[c]\n" =
    [documentStart, sectionStart, problem (.unseparated 1 "root"), sectionEnd,
      problem (.unclosedHeader 2 "[a"), sectionStart, pattern "c", sectionEnd, documentEnd] := by
  decide +kernel

end Event

/-! ## 5. The events of an outline -/

/-- The events that say what an outline says, in its order. -/
def Outline.events (o : Outline) : List Event :=
  [.documentStart, .sectionStart] ++ o.preamble.flatMap Event.ofSetting ++ [.sectionEnd] ++
    (o.sections.flatMap fun s =>
      [.sectionStart, .pattern s.1] ++ s.2.flatMap Event.ofSetting ++ [.sectionEnd]) ++
    [.documentEnd]

theorem Outline.problem_not_mem_events (o : Outline) (p : Problem) :
    Event.problem p ∉ o.events := by
  simp [events, Event.ofSetting]

namespace Event

/-- **Lines in which nothing is wrong** give the events of the outline that they stand for. -/
theorem ofLinesFrom_of_sound :
    ∀ (lines : List Line) (number : Nat), (∀ line ∈ lines, line.IsSound) →
      [documentStart, sectionStart] ++ ofLinesFrom true number lines =
        (Outline.ofContents (lines.filterMap Line.content?)).events
  | [], _, _ => rfl
  | line :: rest, number, h => by
    have ih := ofLinesFrom_of_sound rest (number + 1) fun l hl => h l (List.mem_cons_of_mem _ hl)
    have hline : line.IsSound := h line List.mem_cons_self
    simp only [Outline.events, List.append_assoc, List.append_cancel_left_eq] at ih ⊢
    cases line with
    | blank =>
      rw [List.filterMap_cons_none rfl]
      simpa [ofLinesFrom, ofLine] using ih
    | header p =>
      simp [ofLinesFrom, closing, Line.content?, Outline.ofContents, ih]
    | setting name value =>
      simp [ofLinesFrom, ofLine, Line.content?, Outline.ofContents, ofSetting, ih]
    | unclosed s => rcases hline with h | h <;> cases h
    | nameless => rcases hline with h | h <;> cases h
    | unseparated s => rcases hline with h | h <;> cases h

/-- **However an outline is written, the events are those of the outline.** -/
theorem ofText_written {l : Layout} {o : Outline} (h : l.Writes o) :
    ofText (String.ofList l.text) = o.events := by
  rw [ofText, ofLinesFrom_of_sound _ 1 (Layout.isSound_linesOf h),
    Layout.filterMap_content?_linesOf h, Outline.ofContents_contents]

end Event

end EditorSettings
