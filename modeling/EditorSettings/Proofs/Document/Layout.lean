/-
# Every way to write a document

What a document says is an `Outline`: the settings of its preamble, and its sections, each a
pattern with settings.  A `Layout` is one way to write it down, line by line: with blanks where
they do not count, either separator, blank lines and comments anywhere, either line end, and a
byte order mark in front or not.

The main statement is `parse_written`: however an outline is written, reading gives the same
document, and no problem.  The proof goes through the contents of the lines (`Content`), which
are the same for a layout and for the lines that are read from its text
(`filterMap_content?_linesOf`), and which determine the chapters (`chaptersFrom_of_sound`).
-/
import EditorSettings.Proofs.Document.Chapter
import EditorSettings.Proofs.Setting.Basic

namespace EditorSettings

open EditorSettings.Text

/-! ## 1. Outlines -/

/-- What a document says. -/
structure Outline where
  preamble : List (String × String)
  sections : List (String × List (String × String))

/-- What one line says, if it says anything. -/
inductive Content
  | header (pattern : String)
  | setting (name value : String)
  deriving DecidableEq

/-- The settings of a list, one line each. -/
def settingLines (ss : List (String × String)) : List Content :=
  ss.map fun s => .setting s.1 s.2

/-- The lines of an outline. -/
def Outline.contents (o : Outline) : List Content :=
  settingLines o.preamble ++ o.sections.flatMap fun s => .header s.1 :: settingLines s.2

/-! ## 2. The document of an outline -/

/-- Neither name nor value is too long to be kept. -/
def isKept (s : String × String) : Bool :=
  s.1.length ≤ Setting.maxNameLength && s.2.length ≤ Setting.maxValueLength

/-- The settings of a list that are kept, the later ones winning. -/
def keptSettings (r : Registry) (ss : List (String × String)) : Settings :=
  Keyed.empty.insertAll ((ss.filter isKept).map fun s => Setting.declare r s.1 s.2)

namespace Outline

/-- Whether the file is a root: what the last `root` of the preamble says that is not too long. -/
def root? (o : Outline) : Option Bool :=
  ((o.preamble.filter fun s =>
    sameWord s.1 "root" && s.2.length ≤ Setting.maxValueLength).getLast?).map fun s =>
      sameWord s.2 "true"

/-- The section of a pattern with settings. -/
def sectionOf (r : Registry) (directory version : String)
    (s : String × List (String × String)) : Section :=
  ⟨some (Glob.compile directory s.1), (keptSettings r s.2).derive r version⟩

/-- The document. -/
def document (o : Outline) (r : Registry) (directory version : String) : Document where
  directory := directory
  version := version
  root? := o.root?
  sections := o.sections.map (sectionOf r directory version)

/-- The outline that contents stand for. -/
def ofContents : List Content → Outline
  | [] => ⟨[], []⟩
  | .header p :: rest => ⟨[], (p, (ofContents rest).preamble) :: (ofContents rest).sections⟩
  | .setting n v :: rest => ⟨(n, v) :: (ofContents rest).preamble, (ofContents rest).sections⟩

theorem ofContents_settingLines (ss : List (String × String)) (rest : List Content) :
    ofContents (settingLines ss ++ rest) =
      ⟨ss ++ (ofContents rest).preamble, (ofContents rest).sections⟩ := by
  induction ss with
  | nil => rfl
  | cons s ss ih =>
    rw [settingLines, List.map_cons, ← settingLines, List.cons_append, ofContents, ih]
    rfl

theorem ofContents_contents (o : Outline) : ofContents o.contents = o := by
  have hsections : ∀ sections : List (String × List (String × String)),
      ofContents (sections.flatMap fun s => .header s.1 :: settingLines s.2) = ⟨[], sections⟩ := by
    intro sections
    induction sections with
    | nil => rfl
    | cons s rest ih =>
      rw [List.flatMap_cons, List.cons_append, ofContents, ofContents_settingLines, ih,
        List.append_nil]
  rw [contents, ofContents_settingLines, hsections, List.append_nil]

end Outline

/-! ## 3. Layouts -/

/-- White space within a line. -/
def IsWhite (s : List Char) : Prop := AllBlank s ∧ '\n' ∉ s

instance (s : List Char) : Decidable (IsWhite s) := inferInstanceAs (Decidable (_ ∧ _))

/-- A line as it is written, without its end. -/
inductive WrittenLine
  | blank (white : List Char)
  | comment (before : List Char) (mark : Char) (words : List Char)
  | header (before : List Char) (pattern : String) (after : List Char)
  | setting (before : List Char) (name : String) (between : List Char) (separator : Char)
      (gap : List Char) (value : String) (after : List Char)

namespace WrittenLine

/-- The characters of a line. -/
def text : WrittenLine → List Char
  | blank white => white
  | comment before mark words => before ++ mark :: words
  | header before pattern after => before ++ ('[' :: pattern.toList ++ [']']) ++ after
  | setting before name between separator gap value after =>
    before ++ (name.toList ++ between ++ separator :: (gap ++ value.toList)) ++ after

/-- The line is well formed: white space is white space, a name is a name, and so on. -/
def IsProper : WrittenLine → Prop
  | blank white => IsWhite white
  | comment before mark words => IsWhite before ∧ (mark = '#' ∨ mark = ';') ∧ '\n' ∉ words
  | header before pattern after => IsWhite before ∧ '\n' ∉ pattern.toList ∧ IsWhite after
  | setting before name between separator gap value after =>
    IsWhite before ∧ IsName name.toList ∧ IsWhite between ∧ (separator = '=' ∨ separator = ':') ∧
      IsWhite gap ∧ IsValue value.toList ∧ IsWhite after

instance : (line : WrittenLine) → Decidable line.IsProper
  | blank _ => inferInstanceAs (Decidable (IsWhite _))
  | comment _ _ _ => inferInstanceAs (Decidable (_ ∧ _ ∧ _))
  | header _ _ _ => inferInstanceAs (Decidable (_ ∧ _ ∧ _))
  | setting _ _ _ _ _ _ _ => inferInstanceAs (Decidable (_ ∧ _ ∧ _ ∧ _ ∧ _ ∧ _ ∧ _))

/-- What the line says. -/
def content? : WrittenLine → Option Content
  | blank _ => none
  | comment _ _ _ => none
  | header _ pattern _ => some (.header pattern)
  | setting _ name _ _ _ value _ => some (.setting name value)

end WrittenLine

/-- How a line ends. -/
inductive LineEnd
  | feed
  | returnFeed

/-- The characters of a line end. -/
def LineEnd.text : LineEnd → List Char
  | feed => ['\n']
  | returnFeed => ['\r', '\n']

/-- A way to write a document: a byte order mark or none, lines with their ends, and perhaps a
last line without one. -/
structure Layout where
  mark : Bool
  ended : List (WrittenLine × LineEnd)
  open? : Option WrittenLine

namespace Layout

/-- The lines. -/
def lines (l : Layout) : List WrittenLine := l.ended.map Prod.fst ++ l.open?.toList

/-- The text after the byte order mark. -/
def body (l : Layout) : List Char :=
  l.ended.flatMap (fun e => e.1.text ++ e.2.text) ++ l.open?.toList.flatMap WrittenLine.text

/-- The whole text. -/
def text (l : Layout) : List Char := if l.mark then '\ufeff' :: l.body else l.body

/-- The layout writes an outline: its lines are well formed and say what the outline says.  If
there is no byte order mark, the text does not look as if there were one. -/
structure Writes (l : Layout) (o : Outline) : Prop where
  proper : ∀ line ∈ l.lines, line.IsProper
  contents : l.lines.filterMap WrittenLine.content? = o.contents
  unmarked : l.mark = false → l.text.head? ≠ some '\ufeff'

end Layout

/-! ## 4. Reading the lines of a layout -/

namespace Line

/-- What a line says that has been read. -/
def content? : Line → Option Content
  | .header p => some (.header (String.ofList p))
  | .setting n v => some (.setting (String.ofList n) (String.ofList v))
  | .blank => none
  | .unclosed _ => none
  | .nameless => none
  | .unseparated _ => none

/-- Nothing is wrong with the line. -/
def IsSound (line : Line) : Prop := line = .blank ∨ line.content?.isSome = true

end Line

namespace WrittenLine

/-- The shape in which the line is read. -/
def shape : WrittenLine → Line
  | blank _ => .blank
  | comment _ _ _ => .blank
  | header _ pattern _ => .header pattern.toList
  | setting _ name _ _ _ value _ => .setting name.toList value.toList

theorem content?_shape (l : WrittenLine) : l.shape.content? = l.content? := by
  cases l <;> simp [shape, Line.content?, content?]

theorem isSound_shape (l : WrittenLine) : l.shape.IsSound := by
  cases l <;> simp [shape, Line.IsSound, Line.content?]

theorem read_text {l : WrittenLine} (h : l.IsProper) : Line.read l.text = l.shape := by
  cases l with
  | blank white => exact Line.read_allBlank h.1
  | comment before mark words =>
    obtain ⟨hb, hm, -⟩ := h
    have hpad := Line.read_pad (s := mark :: words) (v := []) hb.1 (by simp [AllBlank])
    rw [List.append_nil] at hpad
    exact hpad.trans (Line.read_comment hm words)
  | header before pattern after =>
    obtain ⟨hb, -, ha⟩ := h
    exact (Line.read_pad hb.1 ha.1).trans (Line.read_header pattern.toList)
  | setting before name between separator gap value after =>
    obtain ⟨hb, hn, hw, hs, hg, hv, ha⟩ := h
    exact (Line.read_pad hb.1 ha.1).trans
      (Line.read_setting hn hw.1 (isSeparator_iff.mpr hs) hg.1 hv)

theorem newline_not_mem_text {l : WrittenLine} (h : l.IsProper) : '\n' ∉ l.text := by
  cases l with
  | blank white => exact h.2
  | comment before mark words =>
    obtain ⟨hb, hm, ht⟩ := h
    have hmark : '\n' ≠ mark := by rcases hm with rfl | rfl <;> decide
    simp [text, hb.2, ht, hmark]
  | header before pattern after =>
    obtain ⟨hb, hp, ha⟩ := h
    simp [text, hb.2, hp, ha.2]
  | setting before name between separator gap value after =>
    obtain ⟨hb, hn, hw, hs, hg, hv, ha⟩ := h
    have hsep : '\n' ≠ separator := by rcases hs with rfl | rfl <;> decide
    simp [text, hb.2, hn.newline, hw.2, hsep, hg.2, hv.newline, ha.2]

/-- A line that is ended, whichever way, is read by itself. -/
theorem map_read_lines {l : WrittenLine} (h : l.IsProper) (e : LineEnd) (rest : List Char) :
    (Text.lines (l.text ++ e.text ++ rest)).map Line.read =
      l.shape :: (Text.lines rest).map Line.read := by
  have hn := newline_not_mem_text h
  cases e with
  | feed =>
    rw [LineEnd.text, List.append_assoc, List.singleton_append, lines_append_newline rest _ hn,
      List.map_cons, Line.read_dropReturn, read_text h]
  | returnFeed =>
    have hsplit :
        l.text ++ LineEnd.returnFeed.text ++ rest = (l.text ++ ['\r']) ++ '\n' :: rest := by
      simp [LineEnd.text]
    have hn' : '\n' ∉ l.text ++ ['\r'] := by simp [hn]
    have hpad := Line.read_pad (w := []) (s := l.text) (v := ['\r']) (by simp [AllBlank])
      (by simp only [AllBlank, List.mem_singleton, forall_eq]; decide)
    rw [hsplit, lines_append_newline rest _ hn', List.map_cons, Line.read_dropReturn]
    rw [List.nil_append] at hpad
    rw [hpad, read_text h]

/-- An open line is read as well, unless nothing stands in it. -/
theorem map_read_lines_open {l : WrittenLine} (h : l.IsProper) :
    (Text.lines l.text).map Line.read = if l.text = [] then [] else [l.shape] := by
  by_cases he : l.text = []
  · rw [he, if_pos rfl]
    rfl
  · rw [if_neg he, lines_of_not_mem (newline_not_mem_text h) he, List.map_singleton, read_text h]

/-- A line that is not written says nothing. -/
theorem content?_of_text_eq_nil {l : WrittenLine} (h : l.text = []) : l.content? = none := by
  cases l <;> simp [text, content?] at h ⊢

end WrittenLine

theorem Event.dropMark_of_head?_ne {s : List Char} (h : s.head? ≠ some '\ufeff') :
    Event.dropMark s = s := by
  unfold Event.dropMark
  split
  · exact absurd rfl h
  · rfl

theorem Event.mem_of_mem_dropMark {s : List Char} {c : Char} (h : c ∈ Event.dropMark s) : c ∈ s := by
  unfold Event.dropMark at h
  split at h
  · exact List.mem_cons_of_mem _ h
  · exact h

namespace Layout

theorem dropMark_text {l : Layout} (h : l.mark = false → l.text.head? ≠ some '\ufeff') :
    Event.dropMark l.text = l.body := by
  cases hm : l.mark with
  | true =>
    rw [text, if_pos hm]
    rfl
  | false =>
    have htext : l.text = l.body := by rw [text, hm, if_neg (by decide)]
    rw [Event.dropMark_of_head?_ne (h hm), htext]

/-- Of the lines that are read, one stands for each line that is written, but for a last one in
which nothing stands. -/
theorem map_read_lines_body {open? : Option WrittenLine} (hopen : ∀ w ∈ open?, w.IsProper) :
    ∀ ended : List (WrittenLine × LineEnd), (∀ e ∈ ended, e.1.IsProper) →
      (Text.lines (ended.flatMap (fun e => e.1.text ++ e.2.text) ++
          open?.toList.flatMap WrittenLine.text)).map Line.read =
        ended.map (·.1.shape) ++
          (open?.toList.filter (·.text ≠ [])).map WrittenLine.shape
  | [], _ => by
    cases open? with
    | none => rfl
    | some w =>
      have h := WrittenLine.map_read_lines_open (hopen w rfl)
      by_cases he : w.text = []
      · simpa [he] using h
      · simpa [he] using h
  | (w, e) :: rest, hended => by
    have ih := map_read_lines_body hopen rest fun e he => hended e (List.mem_cons_of_mem _ he)
    have hw : w.IsProper := hended (w, e) List.mem_cons_self
    rw [List.flatMap_cons, List.append_assoc, WrittenLine.map_read_lines hw, ih]
    rfl

section

variable {l : Layout} {o : Outline}

theorem linesOf_text (h : l.Writes o) :
    Event.linesOf (String.ofList l.text) =
      l.ended.map (·.1.shape) ++ (l.open?.toList.filter (·.text ≠ [])).map WrittenLine.shape := by
  rw [Event.linesOf, String.toList_ofList, dropMark_text h.unmarked]
  refine map_read_lines_body ?_ _ ?_
  · intro w hw
    exact h.proper w (List.mem_append_right _ (Option.mem_toList.mpr hw))
  · intro e he
    exact h.proper e.1 (List.mem_append_left _ (List.mem_map_of_mem he))

theorem isSound_linesOf (h : l.Writes o) :
    ∀ line ∈ Event.linesOf (String.ofList l.text), line.IsSound := by
  intro line hline
  rw [linesOf_text h, List.mem_append, List.mem_map, List.mem_map] at hline
  rcases hline with ⟨e, -, rfl⟩ | ⟨w, -, rfl⟩
  · exact e.1.isSound_shape
  · exact w.isSound_shape

/-- **Reading keeps what the lines say.** -/
theorem filterMap_content?_linesOf (h : l.Writes o) :
    (Event.linesOf (String.ofList l.text)).filterMap Line.content? = o.contents := by
  have hopen : ∀ ws : List WrittenLine,
      (ws.filter (·.text ≠ [])).filterMap WrittenLine.content? =
        ws.filterMap WrittenLine.content? := by
    intro ws
    rw [List.filterMap_filter]
    refine List.filterMap_congr fun w _ => ?_
    by_cases hw : w.text = []
    · simp [hw, WrittenLine.content?_of_text_eq_nil hw]
    · simp [hw]
  have hshape : Line.content? ∘ WrittenLine.shape = WrittenLine.content? :=
    funext WrittenLine.content?_shape
  rw [linesOf_text h, ← h.contents, lines, List.filterMap_append, List.filterMap_append,
    List.filterMap_map, List.filterMap_map, List.filterMap_map, hshape, hopen]
  congr 1
  exact List.filterMap_congr fun e _ => e.1.content?_shape

end

end Layout

/-! ## 5. The chapters of sound lines -/

/-- Numbered lines and chapters say what an outline says. -/
structure Says (r : Registry) (directory version : String)
    (text : List (Nat × Line) × List Chapter) (o : Outline) : Prop where
  preamble : text.1.filterMap (·.2.setting? r) =
    (o.preamble.filter isKept).map fun s => Setting.declare r s.1 s.2
  sections : text.2.filterMap (·.section? r directory version) =
    o.sections.map (Outline.sectionOf r directory version)
  sound : bodyProblems text.1 = []
  chapters : text.2.flatMap Chapter.problems = []

theorem Line.setting?_setting (r : Registry) (name value : List Char) :
    (Line.setting name value).setting? r =
      if isKept (String.ofList name, String.ofList value) then
        some (Setting.declare r (String.ofList name) (String.ofList value)) else none := by
  have hlong : (decide (Setting.maxNameLength < (String.ofList name).length) ||
      decide (Setting.maxValueLength < (String.ofList value).length)) =
        !isKept (String.ofList name, String.ofList value) := by
    simp only [isKept, Bool.not_and, ← decide_not, not_le]
  simp only [Line.setting?, Setting.Draft.finish?, Option.bind_some, Option.getD_some, hlong]
  cases isKept (String.ofList name, String.ofList value) <;> rfl

namespace Says

section

variable {r : Registry} {directory version : String} {number : Nat} {rest : List Line}
  {o : Outline}

theorem blank (h : Says r directory version (chaptersFrom (number + 1) rest) o) :
    Says r directory version (chaptersFrom number (.blank :: rest)) o := by
  obtain ⟨hp, hs, hb, hc⟩ := h
  rw [chaptersFrom_cons rfl]
  exact ⟨by rw [← hp]; rfl, hs, by rw [← hb]; rfl, hc⟩

theorem setting (name value : List Char)
    (h : Says r directory version (chaptersFrom (number + 1) rest) o) :
    Says r directory version (chaptersFrom number (.setting name value :: rest))
      ⟨(String.ofList name, String.ofList value) :: o.preamble, o.sections⟩ := by
  obtain ⟨hp, hs, hb, hc⟩ := h
  rw [chaptersFrom_cons rfl]
  refine ⟨?_, hs, by rw [← hb]; rfl, hc⟩
  rw [List.filterMap_cons, List.filter_cons]
  by_cases hk : isKept (String.ofList name, String.ofList value) = true
  · simp only [Line.setting?_setting, hk, if_true, hp, List.map_cons]
  · simp only [Line.setting?_setting, hk, Bool.false_eq_true, if_false, hp]

theorem header (pattern : List Char)
    (h : Says r directory version (chaptersFrom (number + 1) rest) o) :
    Says r directory version (chaptersFrom number (.header pattern :: rest))
      ⟨[], (String.ofList pattern, o.preamble) :: o.sections⟩ := by
  obtain ⟨hp, hs, hb, hc⟩ := h
  refine ⟨rfl, ?_, rfl, ?_⟩
  · have hhead : Chapter.section? r directory version
        ⟨number, .closed pattern, (chaptersFrom (number + 1) rest).1⟩ =
          some (Outline.sectionOf r directory version (String.ofList pattern, o.preamble)) := by
      rw [Chapter.section?, bodySettings, hp]
      rfl
    rw [chaptersFrom, List.filterMap_cons_some hhead, hs]
    rfl
  · simp only [chaptersFrom, List.flatMap_cons, Chapter.problems, hb, hc, List.append_nil]

end

end Says

/-- **Sound lines say what their contents say.** -/
theorem chaptersFrom_of_sound (r : Registry) (directory version : String) :
    ∀ (lines : List Line) (number : Nat), (∀ line ∈ lines, line.IsSound) →
      Says r directory version (chaptersFrom number lines)
        (Outline.ofContents (lines.filterMap Line.content?))
  | [], _, _ => ⟨rfl, rfl, rfl, rfl⟩
  | line :: rest, number, h => by
    have ih := chaptersFrom_of_sound r directory version rest (number + 1)
      fun l hl => h l (List.mem_cons_of_mem _ hl)
    have hline : line.IsSound := h line List.mem_cons_self
    cases line with
    | blank => exact ih.blank
    | header pattern => exact ih.header pattern
    | setting name value => exact ih.setting name value
    | unclosed s => rcases hline with h | h <;> cases h
    | nameless => rcases hline with h | h <;> cases h
    | unseparated s => rcases hline with h | h <;> cases h

/-! ## 6. The document of a layout -/

/-- The settings that are kept say whether the file is a root as the outline does. -/
theorem rootFlag?_keptSettings (r : Registry) (o : Outline) :
    rootFlag? (keptSettings r o.preamble) = o.root? := by
  have hroot : asciiLower "root" = "root" := by decide
  have hfilter : ∀ s : String × String,
      (isKept s && (asciiLower s.1 == "root")) =
        (sameWord s.1 "root" && s.2.length ≤ Setting.maxValueLength) := by
    intro s
    rw [sameWord, hroot, isKept]
    by_cases h : asciiLower s.1 = "root"
    · have hlen : s.1.length = 4 := by rw [← length_asciiLower, h]; rfl
      simp [h, hlen, Setting.maxNameLength]
    · have hne : (asciiLower s.1 == "root") = false := beq_eq_false_iff_ne.mpr h
      rw [hne, Bool.and_false, Bool.false_and]
  have hfind : (keptSettings r o.preamble).find? Setting.Name.root =
      ((o.preamble.filter fun s =>
        sameWord s.1 "root" && s.2.length ≤ Setting.maxValueLength).getLast?).map fun s =>
          Setting.declare r s.1 s.2 := by
    rw [keptSettings, Keyed.find?_insertAll_empty, List.filter_map, List.filter_filter,
      List.getLast?_map]
    refine congrArg (Option.map _ ·.getLast?) (List.filter_congr fun s _ => ?_)
    rw [← hfilter s, Bool.and_comm]
    rfl
  rw [rootFlag?, Section.Draft.rootFlag?, hfind, Outline.root?, Option.map_map]
  refine Option.map_congr fun s hs => ?_
  have hmem := (List.mem_filter.mp (List.mem_of_getLast? hs)).2
  rw [sameWord, hroot, Bool.and_eq_true, beq_iff_eq] at hmem
  simp only [Function.comp_apply, Setting.declare, hmem.1]
  rfl

theorem ofChapters_of_says {r : Registry} {directory version : String}
    {text : List (Nat × Line) × List Chapter} {o : Outline}
    (h : Says r directory version text o) :
    Document.ofChapters r directory version text = ⟨o.document r directory version, []⟩ := by
  obtain ⟨hp, hs, hb, hc⟩ := h
  have hroot := rootFlag?_keptSettings r o
  rw [keptSettings, ← hp, ← bodySettings] at hroot
  rw [Document.ofChapters, hs, hb, hc, hroot]
  rfl

/-- Reading depends on what the lines say, if nothing is wrong with them. -/
theorem parse_eq_document (r : Registry) (directory version : String) {source : String}
    {o : Outline} (hsound : ∀ line ∈ Event.linesOf source, line.IsSound)
    (hcontents : (Event.linesOf source).filterMap Line.content? = o.contents) :
    Document.parse r directory version source = ⟨o.document r directory version, []⟩ := by
  have hsays := chaptersFrom_of_sound r directory version _ 1 hsound
  rw [hcontents, Outline.ofContents_contents] at hsays
  rw [Document.parse_eq, ofChapters_of_says hsays]

/-- **However an outline is written, reading gives its document**, and no problem. -/
theorem parse_written (r : Registry) (directory version : String) {l : Layout} {o : Outline}
    (h : l.Writes o) :
    Document.parse r directory version (String.ofList l.text) =
      ⟨o.document r directory version, []⟩ :=
  parse_eq_document r directory version (Layout.isSound_linesOf h)
    (Layout.filterMap_content?_linesOf h)

/-- A file with a byte order mark, mixed line ends and the last line open. -/
def mixedLayout : Layout where
  mark := true
  ended :=
    [(.setting [] "Root" [' '] ':' [] "TRUE" ['\t'], .returnFeed),
      (.comment [' '] '#' "[top]".toList, .feed),
      (.blank [' ', ' '], .returnFeed),
      (.header ['\t'] "*.[ch]" [' '], .feed),
      (.setting [] "Indent_Size" [] '=' [' '] "4" [], .returnFeed)]
  open? := some (.setting [] "indent_size" [' '] '=' [' '] "a = b" [])

/-- What the file says. -/
def mixedOutline : Outline where
  preamble := [("Root", "TRUE")]
  sections := [("*.[ch]", [("Indent_Size", "4"), ("indent_size", "a = b")])]

theorem writes_mixedLayout : mixedLayout.Writes mixedOutline :=
  ⟨by decide +kernel, by decide +kernel, by decide +kernel⟩

theorem parse_mixedLayout :
    mixedLayout.Writes mixedOutline ∧
      Document.parse Registry.builtin "/project" "0.17.2" (String.ofList mixedLayout.text) =
        ⟨mixedOutline.document Registry.builtin "/project" "0.17.2", []⟩ ∧
      mixedOutline.root? = some true :=
  ⟨writes_mixedLayout, parse_written _ _ _ writes_mixedLayout, by decide +kernel⟩

end EditorSettings
