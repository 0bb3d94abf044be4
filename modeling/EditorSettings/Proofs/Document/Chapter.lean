/-
# Documents by chapters

Between the lines of a text and its document stand the events and the assembly, which work line
by line.  Here the two are taken together and described from above: the headers divide the lines
into chapters, and each chapter gives its part of the document on its own.

`chaptersFrom` divides the lines.  A closed header makes a section of the settings below it, an
unclosed one makes a problem and lets them go; the lines before the first header can only say
whether the file is a root.  `parse_eq` states that reading a text does just this.  It rests on
`Assembly.finishes`, an induction over the lines in which an assembly is either inside a section
or, after an unclosed header, outside.
-/
import EditorSettings.Document.Assembly
import EditorSettings.Proofs.Keyed

namespace EditorSettings

open EditorSettings.Text

/-! ## 1. Chapters -/

/-- What stands above a chapter. -/
inductive Heading
  | closed (pattern : List Char)
  | unclosed (text : List Char)

/-- A header with its number and the numbered lines below it. -/
structure Chapter where
  number : Nat
  heading : Heading
  body : List (Nat × Line)

/-- The numbered lines before the first header, and the chapters. -/
def chaptersFrom (number : Nat) : List Line → List (Nat × Line) × List Chapter
  | [] => ([], [])
  | .header p :: rest =>
    ([], ⟨number, .closed p, (chaptersFrom (number + 1) rest).1⟩ ::
      (chaptersFrom (number + 1) rest).2)
  | .unclosed s :: rest =>
    ([], ⟨number, .unclosed s, (chaptersFrom (number + 1) rest).1⟩ ::
      (chaptersFrom (number + 1) rest).2)
  | line :: rest =>
    ((number, line) :: (chaptersFrom (number + 1) rest).1, (chaptersFrom (number + 1) rest).2)

/-- The line is a header, closed or not. -/
def Line.isHeading : Line → Bool
  | .header _ => true
  | .unclosed _ => true
  | .blank => false
  | .setting _ _ => false
  | .nameless => false
  | .unseparated _ => false

theorem chaptersFrom_cons {line : Line} (h : line.isHeading = false) (number : Nat)
    (rest : List Line) :
    chaptersFrom number (line :: rest) =
      ((number, line) :: (chaptersFrom (number + 1) rest).1,
        (chaptersFrom (number + 1) rest).2) := by
  cases line <;> first | rfl | cases h

theorem ofLinesFrom_cons {line : Line} (h : line.isHeading = false) (isOpen : Bool) (number : Nat)
    (rest : List Line) :
    Event.ofLinesFrom isOpen number (line :: rest) =
      (if isOpen then Event.ofLine number line else []) ++
        Event.ofLinesFrom isOpen (number + 1) rest := by
  cases line <;> first | rfl | cases h

/-! ## 2. What the lines contribute -/

namespace Line

/-- The setting that a line declares, if it declares one that is not too long. -/
def setting? (r : Registry) : Line → Option Setting
  | .setting name value =>
    Setting.Draft.finish? r ⟨some (String.ofList name), some (String.ofList value)⟩
  | .blank => none
  | .header _ => none
  | .unclosed _ => none
  | .nameless => none
  | .unseparated _ => none

/-- What is wrong with a line that is not a header. -/
def problem? (number : Nat) : Line → Option Problem
  | .nameless => some (.nameless number)
  | .unseparated s => some (.unseparated number (String.ofList s))
  | .blank => none
  | .header _ => none
  | .unclosed _ => none
  | .setting _ _ => none

end Line

/-- The settings that numbered lines declare, the later ones winning. -/
def bodySettings (r : Registry) (body : List (Nat × Line)) : Settings :=
  Keyed.empty.insertAll (body.filterMap (·.2.setting? r))

/-- The problems of numbered lines. -/
def bodyProblems (body : List (Nat × Line)) : List Problem :=
  body.filterMap fun line => line.2.problem? line.1

namespace Chapter

/-- The section that a chapter makes. -/
def section? (r : Registry) (directory version : String) (c : Chapter) : Option Section :=
  match c.heading with
  | .closed p =>
    some ⟨some (Glob.compile directory (String.ofList p)),
      (bodySettings r c.body).derive r version⟩
  | .unclosed _ => none

/-- The problems of a chapter: those of its lines, or the one of its header. -/
def problems (c : Chapter) : List Problem :=
  match c.heading with
  | .closed _ => bodyProblems c.body
  | .unclosed s => [.unclosedHeader c.number (String.ofList s)]

end Chapter

/-! ## 3. Drafts and documents that grow -/

/-- A draft with more settings. -/
def Section.Draft.addAll (d : Section.Draft) (ss : List Setting) : Section.Draft :=
  { d with settings := d.settings.insertAll ss }

theorem Section.Draft.addAll_nil (d : Section.Draft) : d.addAll [] = d := rfl

theorem Section.Draft.addAll_append (d : Section.Draft) (a b : List Setting) :
    d.addAll (a ++ b) = (d.addAll a).addAll b := by
  simp only [addAll, Keyed.insertAll_append]

theorem endSetting_eq_addAll (r : Registry) (d : Section.Draft) (s : Setting.Draft) :
    Assembly.endSetting r d s = d.addAll (s.finish? r).toList := by
  unfold Assembly.endSetting
  cases s.finish? r with
  | none => rfl
  | some x => rfl

namespace Document

/-- A document with more sections. -/
def extend (d : Document) (sections : List Section) : Document :=
  { d with sections := d.sections ++ sections }

theorem extend_nil (d : Document) : d.extend [] = d := by simp [extend]

theorem extend_extend (d : Document) (a b : List Section) :
    (d.extend a).extend b = d.extend (a ++ b) := by simp [extend]

theorem close_of_glob (r : Registry) (doc : Document) {d : Section.Draft} {g : Glob}
    (h : d.glob? = some g) : doc.close r d = doc.extend [d.complete r doc.version] := by
  unfold close extend
  rw [h]

theorem close_of_no_glob (r : Registry) (doc : Document) {d : Section.Draft}
    (h : d.glob? = none) : doc.close r d = { doc with root? := d.rootFlag?.or doc.root? } := by
  unfold close
  rw [h]
  cases d.rootFlag? with
  | none => rfl
  | some b => rfl

@[simp] theorem directory_close (r : Registry) (doc : Document) (d : Section.Draft) :
    (doc.close r d).directory = doc.directory := by
  unfold close
  split <;> rfl

@[simp] theorem version_close (r : Registry) (doc : Document) (d : Section.Draft) :
    (doc.close r d).version = doc.version := by
  unfold close
  split <;> rfl

end Document

/-! ## 4. Events -/

namespace Assembly

/-- The events of a line inside a section. -/
theorem foldl_feed_ofLine (r : Registry) (doc : Document) (d : Section.Draft) (ps : List Problem)
    (number : Nat) (line : Line) :
    (Event.ofLine number line).foldl feed ⟨r, doc, .inSection d, ps⟩ =
      ⟨r, doc, .inSection (d.addAll (line.setting? r).toList),
        ps ++ (line.problem? number).toList⟩ := by
  cases line with
  | setting name value =>
    have h := endSetting_eq_addAll r d ⟨some (String.ofList name), some (String.ofList value)⟩
    rw [Line.setting?, ← h, Line.problem?, Option.toList_none, List.append_nil]
    rfl
  | blank => simp [Event.ofLine, Line.setting?, Line.problem?, Section.Draft.addAll_nil]
  | header p => simp [Event.ofLine, Line.setting?, Line.problem?, Section.Draft.addAll_nil]
  | unclosed s => simp [Event.ofLine, Line.setting?, Line.problem?, Section.Draft.addAll_nil]
  | nameless => rfl
  | unseparated s => rfl

/-- What an assembly comes to that reads `lines` inside a section. -/
def FinishesOpen (r : Registry) (number : Nat) (lines : List Line) : Prop :=
  ∀ (doc : Document) (d : Section.Draft) (ps : List Problem),
    ((Event.ofLinesFrom true number lines).foldl feed ⟨r, doc, .inSection d, ps⟩).finish =
      ⟨(doc.close r (d.addAll ((chaptersFrom number lines).1.filterMap (·.2.setting? r)))).extend
          ((chaptersFrom number lines).2.filterMap (·.section? r doc.directory doc.version)),
        ps ++ bodyProblems (chaptersFrom number lines).1 ++
          (chaptersFrom number lines).2.flatMap Chapter.problems⟩

/-- What an assembly comes to that reads `lines` after an unclosed header. -/
def FinishesDropped (r : Registry) (number : Nat) (lines : List Line) : Prop :=
  ∀ (doc : Document) (ps : List Problem),
    ((Event.ofLinesFrom false number lines).foldl feed ⟨r, doc, .outside, ps⟩).finish =
      ⟨doc.extend
          ((chaptersFrom number lines).2.filterMap (·.section? r doc.directory doc.version)),
        ps ++ (chaptersFrom number lines).2.flatMap Chapter.problems⟩

section

variable {r : Registry} {number : Nat} {rest : List Line}

/-- A line that is no header is taken up by the open section. -/
theorem FinishesOpen.line {line : Line} (hline : line.isHeading = false)
    (h : FinishesOpen r (number + 1) rest) : FinishesOpen r number (line :: rest) := by
  intro doc d ps
  rw [ofLinesFrom_cons hline, if_pos rfl, List.foldl_append, foldl_feed_ofLine, h,
    chaptersFrom_cons hline]
  simp only [← Section.Draft.addAll_append]
  cases hs : line.setting? r <;> cases hp : line.problem? number <;>
    simp [bodyProblems, hs, hp]

/-- A line that is no header is passed over after an unclosed one. -/
theorem FinishesDropped.line {line : Line} (hline : line.isHeading = false)
    (h : FinishesDropped r (number + 1) rest) : FinishesDropped r number (line :: rest) := by
  intro doc ps
  rw [ofLinesFrom_cons hline, if_neg (by decide), List.nil_append, h, chaptersFrom_cons hline]

/-- A closed header opens a section; the assembly stands outside the one before. -/
theorem finish_header (p : List Char) (h : FinishesOpen r (number + 1) rest) (doc : Document)
    (ps : List Problem) :
    ((Event.sectionStart :: Event.pattern (String.ofList p) ::
        Event.ofLinesFrom true (number + 1) rest).foldl feed ⟨r, doc, .outside, ps⟩).finish =
      ⟨doc.extend ((chaptersFrom number (.header p :: rest)).2.filterMap
          (·.section? r doc.directory doc.version)),
        ps ++ (chaptersFrom number (.header p :: rest)).2.flatMap Chapter.problems⟩ := by
  have hopen := h doc ⟨some (doc.compileGlob (String.ofList p)), Keyed.empty⟩ ps
  rw [Document.close_of_glob (g := doc.compileGlob (String.ofList p)) r doc rfl,
    Document.extend_extend] at hopen
  simp only [chaptersFrom, List.filterMap_cons, List.flatMap_cons, ← List.append_assoc]
  exact hopen

/-- An unclosed header is a problem, and what follows it is dropped. -/
theorem finish_unclosed (s : List Char) (h : FinishesDropped r (number + 1) rest) (doc : Document)
    (ps : List Problem) :
    ((Event.problem (.unclosedHeader number (String.ofList s)) ::
        Event.ofLinesFrom false (number + 1) rest).foldl feed ⟨r, doc, .outside, ps⟩).finish =
      ⟨doc.extend ((chaptersFrom number (.unclosed s :: rest)).2.filterMap
          (·.section? r doc.directory doc.version)),
        ps ++ (chaptersFrom number (.unclosed s :: rest)).2.flatMap Chapter.problems⟩ := by
  have hdropped := h doc (ps ++ [.unclosedHeader number (String.ofList s)])
  simp only [chaptersFrom, List.filterMap_cons, List.flatMap_cons, ← List.append_assoc]
  exact hdropped

/-- Before a header the open section is closed. -/
theorem FinishesOpen.heading {line : Line} (hline : line.isHeading = true) {events : List Event}
    (hevents : Event.ofLinesFrom true number (line :: rest) = .sectionEnd :: events)
    (h : ∀ doc ps, (events.foldl feed ⟨r, doc, .outside, ps⟩).finish =
      ⟨doc.extend ((chaptersFrom number (line :: rest)).2.filterMap
          (·.section? r doc.directory doc.version)),
        ps ++ (chaptersFrom number (line :: rest)).2.flatMap Chapter.problems⟩) :
    FinishesOpen r number (line :: rest) := by
  intro doc d ps
  have hbody : (chaptersFrom number (line :: rest)).1 = [] := by
    cases line <;> first | rfl | cases hline
  rw [hevents, hbody]
  have hclosed := h (doc.close r d) ps
  rw [Document.directory_close, Document.version_close] at hclosed
  rw [List.filterMap_nil, Section.Draft.addAll_nil, bodyProblems, List.filterMap_nil,
    List.append_nil]
  exact hclosed

end

/-- **The lines from some place on** give what their chapters give, inside a section and after an
unclosed header. -/
theorem finishes (r : Registry) (lines : List Line) :
    ∀ number, FinishesOpen r number lines ∧ FinishesDropped r number lines := by
  induction lines with
  | nil =>
    intro number
    constructor
    · intro doc d ps
      simp only [chaptersFrom, List.filterMap_nil, List.flatMap_nil, Document.extend_nil,
        Section.Draft.addAll_nil, bodyProblems, List.append_nil]
      rfl
    · intro doc ps
      simp only [chaptersFrom, List.filterMap_nil, List.flatMap_nil, Document.extend_nil,
        List.append_nil]
      rfl
  | cons line rest ih =>
    intro number
    obtain ⟨hopen, hdropped⟩ := ih (number + 1)
    cases line with
    | header p => exact ⟨.heading rfl rfl (finish_header p hopen), finish_header p hopen⟩
    | unclosed s =>
      exact ⟨.heading rfl rfl (finish_unclosed s hdropped), finish_unclosed s hdropped⟩
    | blank => exact ⟨.line rfl hopen, .line rfl hdropped⟩
    | setting name value => exact ⟨.line rfl hopen, .line rfl hdropped⟩
    | nameless => exact ⟨.line rfl hopen, .line rfl hdropped⟩
    | unseparated s => exact ⟨.line rfl hopen, .line rfl hdropped⟩

end Assembly

/-! ## 5. The document of a text -/

/-- Whether settings say that their file is a root. -/
def rootFlag? (m : Settings) : Option Bool := (Section.Draft.mk none m).rootFlag?

namespace Document

/-- The document of numbered lines and chapters, with its problems. -/
def ofChapters (r : Registry) (directory version : String)
    (text : List (Nat × Line) × List Chapter) : Parsed where
  document :=
    { directory, version
      root? := rootFlag? (bodySettings r text.1)
      sections := text.2.filterMap (·.section? r directory version) }
  problems := bodyProblems text.1 ++ text.2.flatMap Chapter.problems

/-- **Reading a text is reading its chapters.** -/
theorem parse_eq (r : Registry) (directory version source : String) :
    parse r directory version source =
      ofChapters r directory version (chaptersFrom 1 (Event.linesOf source)) := by
  have h := (Assembly.finishes r (Event.linesOf source) 1).1 { directory, version } {} []
  have hstart : parse r directory version source =
      ((Event.ofLinesFrom true 1 (Event.linesOf source)).foldl Assembly.feed
        ⟨r, { directory, version }, .inSection {}, []⟩).finish := rfl
  rw [hstart, h, close_of_no_glob r _ rfl]
  simp [ofChapters, extend, rootFlag?, bodySettings, Section.Draft.addAll]

end Document
end EditorSettings
