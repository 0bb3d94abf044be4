/-
# Lines that are mended

Nothing is kept of a malformed line, nor of a line below an unclosed header.  `mendedFrom` puts a
blank line in the place of each of them, and `reportsFrom` lists what is wrong.  Both go through the
lines with one flag, whether the section that a line would belong to is open.

These two are all there is to a text: `parse_eq_mended` states that parsing gives the document of
the mended lines, in which nothing is malformed any more, with the problems of the list.  The
chapters of the mended lines are not those of the lines, since an unclosed header ends a chapter
and a blank line does not; but they make the same sections (`said_mendedFrom`).

The lines may as well be taken for the parts between the line feeds (`parse_eq_parts`).
-/
import EditorSettings.Proofs.Document.Layout

namespace EditorSettings

open EditorSettings.Text

/-! ## 1. Mending and reporting -/

namespace Line

/-- Whether a section is open below the line. -/
def leavesOpen (isOpen : Bool) : Line → Bool
  | .header _ => true
  | .unclosed _ => false
  | .blank => isOpen
  | .setting _ _ => isOpen
  | .nameless => isOpen
  | .unseparated _ => isOpen

/-- What counts of the line. -/
def mended (isOpen : Bool) : Line → Line
  | .header p => .header p
  | .setting n v => if isOpen then .setting n v else .blank
  | .blank => .blank
  | .unclosed _ => .blank
  | .nameless => .blank
  | .unseparated _ => .blank

/-- What is wrong with the line.  Below an unclosed header only the next header can be wrong. -/
def report? (isOpen : Bool) (number : Nat) : Line → Option Problem
  | .unclosed s => some (.unclosedHeader number (String.ofList s))
  | line => if isOpen then line.problem? number else none

/-- A line is a header, closed or not, or it is none. -/
theorem heading_cases (line : Line) :
    (∃ p, line = .header p) ∨ (∃ s, line = .unclosed s) ∨ line.isHeading = false := by
  cases line with
  | header p => exact Or.inl ⟨p, rfl⟩
  | unclosed s => exact Or.inr (Or.inl ⟨s, rfl⟩)
  | blank => exact Or.inr (Or.inr rfl)
  | setting n v => exact Or.inr (Or.inr rfl)
  | nameless => exact Or.inr (Or.inr rfl)
  | unseparated s => exact Or.inr (Or.inr rfl)

section

variable {line : Line} (h : line.isHeading = false) (isOpen : Bool)

include h

theorem leavesOpen_of_not_heading : line.leavesOpen isOpen = isOpen := by
  cases line with
  | header p => cases h
  | unclosed s => cases h
  | blank => rfl
  | setting n v => rfl
  | nameless => rfl
  | unseparated s => rfl

theorem report?_of_not_heading (number : Nat) :
    line.report? isOpen number = if isOpen then line.problem? number else none := by
  cases line <;> first | rfl | cases h

theorem isHeading_mended : (line.mended isOpen).isHeading = false := by
  cases line <;> cases isOpen <;> first | rfl | cases h

end

theorem setting?_mended (r : Registry) (isOpen : Bool) (line : Line) :
    (line.mended isOpen).setting? r = if isOpen then line.setting? r else none := by
  cases line <;> cases isOpen <;> rfl

end Line

/-- What counts of the lines. -/
def mendedFrom (isOpen : Bool) : List Line → List Line
  | [] => []
  | line :: rest => line.mended isOpen :: mendedFrom (line.leavesOpen isOpen) rest

/-- What is wrong with the lines from `number` on. -/
def reportsFrom (isOpen : Bool) (number : Nat) : List Line → List Problem
  | [] => []
  | line :: rest =>
    (line.report? isOpen number).toList ++ reportsFrom (line.leavesOpen isOpen) (number + 1) rest

/-- Whether a section is open below the lines. -/
def leftOpen (isOpen : Bool) (lines : List Line) : Bool := lines.foldl Line.leavesOpen isOpen

theorem mendedFrom_append (more : List Line) :
    ∀ (isOpen : Bool) (lines : List Line),
      mendedFrom isOpen (lines ++ more) =
        mendedFrom isOpen lines ++ mendedFrom (leftOpen isOpen lines) more
  | _, [] => rfl
  | isOpen, line :: rest => by
    rw [List.cons_append, mendedFrom, mendedFrom_append more, mendedFrom, List.cons_append]
    rfl

theorem reportsFrom_append (more : List Line) :
    ∀ (isOpen : Bool) (number : Nat) (lines : List Line),
      reportsFrom isOpen number (lines ++ more) =
        reportsFrom isOpen number lines ++
          reportsFrom (leftOpen isOpen lines) (number + lines.length) more
  | _, _, [] => rfl
  | isOpen, number, line :: rest => by
    rw [List.cons_append, reportsFrom, reportsFrom_append more, reportsFrom, List.append_assoc,
      List.length_cons, Nat.add_assoc, Nat.add_comm 1]
    rfl

/-- Nothing is wrong with a line that is mended. -/
theorem isSound_mended (isOpen : Bool) (line : Line) : (line.mended isOpen).IsSound := by
  cases line with
  | header p => exact Or.inr rfl
  | setting n v => cases isOpen with
    | true => exact Or.inr rfl
    | false => exact Or.inl rfl
  | blank => exact Or.inl rfl
  | unclosed s => exact Or.inl rfl
  | nameless => exact Or.inl rfl
  | unseparated s => exact Or.inl rfl

theorem isSound_of_mem_mendedFrom :
    ∀ (isOpen : Bool) (lines : List Line), ∀ line ∈ mendedFrom isOpen lines, line.IsSound
  | _, [], _, h => absurd h List.not_mem_nil
  | isOpen, line :: rest, l, h => by
    rcases List.mem_cons.mp h with rfl | h
    · exact isSound_mended isOpen line
    · exact isSound_of_mem_mendedFrom _ rest l h

/-- Lines without a fault stay as they are. -/
theorem mendedFrom_of_sound : ∀ {lines : List Line}, (∀ line ∈ lines, line.IsSound) →
    mendedFrom true lines = lines ∧ ∀ number, reportsFrom true number lines = []
  | [], _ => ⟨rfl, fun _ => rfl⟩
  | line :: rest, h => by
    obtain ⟨ihm, ihr⟩ := mendedFrom_of_sound fun l hl => h l (List.mem_cons_of_mem _ hl)
    have hline : line.IsSound := h line List.mem_cons_self
    cases line with
    | blank => exact ⟨congrArg _ ihm, fun n => ihr (n + 1)⟩
    | header p => exact ⟨congrArg _ ihm, fun n => ihr (n + 1)⟩
    | setting n v => exact ⟨congrArg _ ihm, fun n => ihr (n + 1)⟩
    | unclosed s => rcases hline with h | h <;> cases h
    | nameless => rcases hline with h | h <;> cases h
    | unseparated s => rcases hline with h | h <;> cases h

/-! ## 2. Problems -/

/-- The number of a problem is that of its line. -/
theorem line_of_report? {isOpen : Bool} {number : Nat} {line : Line} {p : Problem}
    (h : line.report? isOpen number = some p) : p.line = number := by
  cases line <;> cases isOpen <;> cases h <;> rfl

theorem le_line_of_mem_reportsFrom :
    ∀ {lines : List Line} {isOpen : Bool} {number : Nat},
      ∀ p ∈ reportsFrom isOpen number lines, number ≤ p.line
  | [], _, _, _, h => absurd h List.not_mem_nil
  | line :: rest, isOpen, number, p, h => by
    rcases List.mem_append.mp h with h | h
    · exact (line_of_report? (Option.mem_toList.mp h)).ge
    · exact Nat.le_of_succ_le (le_line_of_mem_reportsFrom p h)

/-- **Problems come in the order of their lines**, at most one for a line. -/
theorem pairwise_reportsFrom :
    ∀ (lines : List Line) (isOpen : Bool) (number : Nat),
      ((reportsFrom isOpen number lines).map Problem.line).Pairwise (· < ·)
  | [], _, _ => List.Pairwise.nil
  | line :: rest, isOpen, number => by
    have ih := pairwise_reportsFrom rest (line.leavesOpen isOpen) (number + 1)
    rw [reportsFrom]
    cases h : line.report? isOpen number with
    | none => exact ih
    | some p =>
      refine List.pairwise_cons.mpr ⟨fun n hn => ?_, ih⟩
      obtain ⟨q, hq, rfl⟩ := List.mem_map.mp hn
      rw [line_of_report? h]
      exact le_line_of_mem_reportsFrom q hq

/-- The problems of the chapters are those of the lines, inside a section and after an unclosed
header. -/
theorem problems_chaptersFrom (lines : List Line) :
    ∀ number,
      bodyProblems (chaptersFrom number lines).1 ++
          (chaptersFrom number lines).2.flatMap Chapter.problems = reportsFrom true number lines ∧
        (chaptersFrom number lines).2.flatMap Chapter.problems = reportsFrom false number lines := by
  induction lines with
  | nil => exact fun number => ⟨rfl, rfl⟩
  | cons line rest ih =>
    intro number
    obtain ⟨hopen, hdropped⟩ := ih (number + 1)
    rcases line.heading_cases with ⟨p, rfl⟩ | ⟨s, rfl⟩ | hline
    · exact ⟨hopen, hopen⟩
    · exact ⟨congrArg (_ :: ·) hdropped, congrArg (_ :: ·) hdropped⟩
    · simp only [reportsFrom, Line.report?_of_not_heading hline,
        Line.leavesOpen_of_not_heading hline, chaptersFrom_cons hline, ← hopen, ← hdropped]
      refine ⟨?_, rfl⟩
      rw [bodyProblems, List.filterMap_cons]
      cases line.problem? number <;> rfl

/-! ## 3. Sections -/

section

variable (r : Registry) (directory version : String)

/-- The settings of the preamble and the sections of the chapters. -/
def said (text : List (Nat × Line) × List Chapter) : List Setting × List Section :=
  (text.1.filterMap (·.2.setting? r), text.2.filterMap (·.section? r directory version))

theorem said_cons {line : Line} (h : line.isHeading = false) (number : Nat) (rest : List Line) :
    said r directory version (chaptersFrom number (line :: rest)) =
      ((line.setting? r).toList ++ (said r directory version (chaptersFrom (number + 1) rest)).1,
        (said r directory version (chaptersFrom (number + 1) rest)).2) := by
  rw [said, chaptersFrom_cons h, List.filterMap_cons]
  cases line.setting? r <;> rfl

theorem said_header (p : List Char) (number : Nat) (rest : List Line) :
    said r directory version (chaptersFrom number (.header p :: rest)) =
      ([], ⟨some (Glob.compile directory (String.ofList p)),
          Settings.derive r version (Keyed.empty.insertAll
            (said r directory version (chaptersFrom (number + 1) rest)).1)⟩ ::
        (said r directory version (chaptersFrom (number + 1) rest)).2) := rfl

/-- **Mended lines say what the lines say.**  After an unclosed header this holds of the sections
alone: the lines up to the next header are blank when they are mended. -/
theorem said_mendedFrom (lines : List Line) :
    ∀ number,
      said r directory version (chaptersFrom number (mendedFrom true lines)) =
          said r directory version (chaptersFrom number lines) ∧
        said r directory version (chaptersFrom number (mendedFrom false lines)) =
          ([], (said r directory version (chaptersFrom number lines)).2) := by
  induction lines with
  | nil => exact fun number => ⟨rfl, rfl⟩
  | cons line rest ih =>
    intro number
    obtain ⟨hopen, hdropped⟩ := ih (number + 1)
    rcases line.heading_cases with ⟨p, rfl⟩ | ⟨s, rfl⟩ | hline
    · rw [mendedFrom, mendedFrom, Line.mended, Line.mended, Line.leavesOpen, Line.leavesOpen,
        said_header, said_header, hopen]
      exact ⟨rfl, rfl⟩
    · -- the header itself is a blank line now, and belongs to what stands above
      have hblank : ∀ isOpen, said r directory version
          (chaptersFrom number (mendedFrom isOpen (.unclosed s :: rest))) =
            ([], (said r directory version (chaptersFrom (number + 1) rest)).2) := by
        intro isOpen
        rw [mendedFrom, Line.mended, said_cons r directory version rfl, Line.leavesOpen, hdropped]
        rfl
      exact ⟨hblank true, hblank false⟩
    · simp only [mendedFrom, Line.leavesOpen_of_not_heading hline,
        said_cons r directory version (Line.isHeading_mended hline _),
        said_cons r directory version hline, Line.setting?_mended, hopen, hdropped]
      exact ⟨rfl, rfl⟩

end

/-! ## 4. The document of a text -/

/-- What lines say, whatever is wrong with them. -/
def outlineOf (lines : List Line) : Outline :=
  Outline.ofContents ((mendedFrom true lines).filterMap Line.content?)

theorem document_ofChapters_congr {r : Registry} {directory version : String}
    {text text' : List (Nat × Line) × List Chapter}
    (h : said r directory version text = said r directory version text') :
    (Document.ofChapters r directory version text).document =
      (Document.ofChapters r directory version text').document := by
  obtain ⟨hsettings, hsections⟩ := Prod.mk.inj h
  simp only [Document.ofChapters, bodySettings, hsettings, hsections]

/-- **Parsing gives the document of the mended lines**, and reports what was wrong. -/
theorem parse_eq_mended (r : Registry) (directory version source : String) :
    Document.parse r directory version source =
      ⟨(outlineOf (Event.linesOf source)).document r directory version,
        reportsFrom true 1 (Event.linesOf source)⟩ := by
  have hsays := chaptersFrom_of_sound r directory version (mendedFrom true (Event.linesOf source)) 1
    (isSound_of_mem_mendedFrom true _)
  have hsaid := document_ofChapters_congr
    (said_mendedFrom r directory version (Event.linesOf source) 1).1
  have hmended := ofChapters_of_says hsays
  have hdocument := hsaid.symm.trans (congrArg Parsed.document hmended)
  rw [Document.parse_eq, outlineOf, ← (problems_chaptersFrom (Event.linesOf source) 1).1]
  exact congrArg (Parsed.mk · _) hdocument

/-! ## 5. The parts of a text -/

/-- The parts of a text between its line feeds, without the mark in front.  They are its lines,
but for carriage returns and an empty part after the last line feed. -/
def partsOf (source : String) : List (List Char) := (Event.dropMark source.toList).splitOn '\n'

theorem outlineOf_concat_blank (lines : List Line) :
    outlineOf (lines ++ [.blank]) = outlineOf lines := by
  rw [outlineOf, mendedFrom_append, List.filterMap_append, outlineOf]
  exact congrArg Outline.ofContents (List.append_nil _)

theorem reportsFrom_concat_blank (isOpen : Bool) (number : Nat) (lines : List Line) :
    reportsFrom isOpen number (lines ++ [.blank]) = reportsFrom isOpen number lines := by
  rw [reportsFrom_append]
  cases leftOpen isOpen lines <;> exact List.append_nil _

/-- Parsing depends on the parts of a text, each read by itself. -/
theorem parse_eq_parts (r : Registry) (directory version source : String) :
    Document.parse r directory version source =
      ⟨(outlineOf ((partsOf source).map Line.read)).document r directory version,
        reportsFrom true 1 ((partsOf source).map Line.read)⟩ := by
  rw [parse_eq_mended, Event.linesOf, partsOf]
  rcases map_lines_splitOn Line.read_dropReturn (Event.dropMark source.toList) with h | h
  · rw [h]
  · rw [h, Line.read_allBlank (s := []) (List.forall_mem_nil _), outlineOf_concat_blank,
      reportsFrom_concat_blank]

/-! ## 6. Lines as they are read -/

namespace Line

theorem isHeading_readHeader (s : List Char) : (readHeader s).isHeading = true := by
  unfold readHeader
  split <;> rfl

theorem isHeading_readSetting (s : List Char) : (readSetting s).isHeading = false := by
  unfold readSetting
  split
  · rfl
  · dsimp only
    split <;> rfl

theorem startsHeader_eq_isHeading (s : List Char) : startsHeader s = (read s).isHeading := by
  rcases read_cases s with ⟨-, hs, h⟩ | ⟨-, hs, rest, -, h⟩ | ⟨-, hs, c, rest, -, -, h⟩
  · rw [hs, h]
    rfl
  · rw [hs, h, isHeading_readHeader]
  · rw [hs, h, isHeading_readSetting]

theorem isVoid_iff {s : List Char} : isVoid s = true ↔ read s = .blank := by
  rcases read_cases s with ⟨hv, -, h⟩ | ⟨hv, -, rest, -, h⟩ | ⟨hv, -, c, rest, -, -, h⟩
  · exact iff_of_true hv h
  · rw [hv, h, readHeader]
    split <;> simp
  · rw [hv, h, readSetting]
    split
    · simp
    · dsimp only
      split <;> simp

end Line

end EditorSettings
