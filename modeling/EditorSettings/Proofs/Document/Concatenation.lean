/-
# Texts that are put together

A text that ends with a line feed can be followed by another one that opens with a header, and
each is read by itself: the sections of the second come after those of the first, and so do its
problems, with their line numbers moved on (`parse_append_of_heading`).  What is above the first
header stays alone in saying whether the file is a root.

The lines of the two do follow each other (`linesOf_append`).  What is left is that the second
text does not see the first: above its first header nothing is said, so that it does not matter
whether a section is open there (`mendedFrom_eq_of_opensWithHeading`), and its outline has no
preamble.
-/
import EditorSettings.Proofs.Document.Mending

namespace EditorSettings

open EditorSettings.Text

/-! ## 1. The lines of two texts -/

theorem dropMark_append_newline (s t : List Char) :
    Event.dropMark (s ++ '\n' :: t) = Event.dropMark s ++ '\n' :: t := by
  by_cases h : s.head? = some '\ufeff'
  · obtain ⟨rest, rfl⟩ := List.head?_eq_some_iff.mp h
    rfl
  · rw [Event.dropMark_of_head?_ne h, Event.dropMark_of_head?_ne]
    rw [List.head?_append]
    cases hs : s.head? with
    | none => exact fun e => absurd (Option.some.inj e) (by decide)
    | some c => rwa [hs] at h

/-- The mark in front does not count as a line. -/
theorem length_lines_dropMark {s : List Char} (h : s.getLast? = some '\n') :
    (lines (Event.dropMark s)).length = (lines s).length := by
  by_cases hmark : s.head? = some '\ufeff'
  · obtain ⟨rest, rfl⟩ := List.head?_eq_some_iff.mp hmark
    have hrest : rest ≠ [] := by
      rintro rfl
      exact absurd (Option.some.inj h) (by decide)
    rw [Event.dropMark, lines_cons_of_ne (by decide) fun t e => absurd (List.cons.inj e).1 (by decide)]
    cases hl : lines rest with
    | nil => exact absurd hl (lines_ne_nil hrest)
    | cons line more => rfl
  · rw [Event.dropMark_of_head?_ne hmark]

section

variable {a b : String} (ha : a = "" ∨ a.toList.getLast? = some '\n')

include ha

theorem length_linesOf : (Event.linesOf a).length = (lines a.toList).length := by
  rw [Event.linesOf, List.length_map]
  rcases ha with rfl | ha
  · rfl
  · exact length_lines_dropMark ha

/-- **The lines of the second text follow those of the first.** -/
theorem linesOf_append (hb : b.toList.head? ≠ some '\ufeff') :
    Event.linesOf (a ++ b) = Event.linesOf a ++ Event.linesOf b := by
  rcases ha with rfl | ha
  · rw [String.empty_append]
    rfl
  · have hsplit : a.toList = a.toList.dropLast ++ ['\n'] :=
      (List.dropLast_append_getLast? _ ha).symm
    unfold Event.linesOf
    rw [String.toList_append, hsplit, List.append_assoc, List.singleton_append,
      dropMark_append_newline, dropMark_append_newline, lines_append_cons_newline, List.map_append,
      Event.dropMark_of_head?_ne hb]

end

/-! ## 2. Lines that open with a header -/

/-- Nothing is said above the first header. -/
def opensWithHeading : List Line → Bool
  | [] => true
  | .blank :: rest => opensWithHeading rest
  | line :: _ => line.isHeading

theorem opensWithHeading_cons {line : Line} (h : line ≠ .blank) (rest : List Line) :
    opensWithHeading (line :: rest) = line.isHeading := by
  cases line <;> first | rfl | exact absurd rfl h

theorem opensWithHeading_map_read (s : List (List Char)) :
    opensWithHeading (s.map Line.read) =
      (s.find? (!Line.isVoid ·)).all Line.startsHeader := by
  induction s with
  | nil => rfl
  | cons line rest ih =>
    rw [List.map_cons, List.find?_cons]
    by_cases hblank : Line.read line = .blank
    · rw [Line.isVoid_iff.mpr hblank, hblank, opensWithHeading, ih]
      rfl
    · rw [Bool.eq_false_iff.mpr (mt Line.isVoid_iff.mp hblank), opensWithHeading_cons hblank,
        ← Line.startsHeader_eq_isHeading]
      rfl

/-- It does not matter whether a section is open above the lines. -/
theorem mendedFrom_eq_of_opensWithHeading :
    ∀ {lines : List Line}, opensWithHeading lines = true → ∀ isOpen,
      mendedFrom isOpen lines = mendedFrom true lines ∧
        ∀ number, reportsFrom isOpen number lines = reportsFrom true number lines
  | _, _, true => ⟨rfl, fun _ => rfl⟩
  | [], _, false => ⟨rfl, fun _ => rfl⟩
  | line :: rest, h, false => by
    cases line with
    | blank =>
      have hrest : opensWithHeading rest = true := h
      obtain ⟨ihm, ihr⟩ := mendedFrom_eq_of_opensWithHeading hrest false
      exact ⟨congrArg _ ihm, fun number => ihr (number + 1)⟩
    | header p => exact ⟨rfl, fun _ => rfl⟩
    | unclosed s => exact ⟨rfl, fun _ => rfl⟩
    | setting n v => cases h
    | nameless => cases h
    | unseparated s => cases h

/-- Where no section is open, nothing counts before the next header. -/
theorem preamble_mendedFrom_false : ∀ lines : List Line,
    (Outline.ofContents ((mendedFrom false lines).filterMap Line.content?)).preamble = []
  | [] => rfl
  | line :: rest => by
    have ih := preamble_mendedFrom_false rest
    cases line with
    | header p => rfl
    | blank => exact ih
    | unclosed s => exact ih
    | setting n v => exact ih
    | nameless => exact ih
    | unseparated s => exact ih

theorem ofContents_append {more : List Content} (h : (Outline.ofContents more).preamble = []) :
    ∀ contents : List Content,
      Outline.ofContents (contents ++ more) =
        ⟨(Outline.ofContents contents).preamble,
          (Outline.ofContents contents).sections ++ (Outline.ofContents more).sections⟩
  | [] => by
    rw [List.nil_append, Outline.ofContents, List.nil_append, ← h]
  | .header p :: rest => by
    rw [List.cons_append, Outline.ofContents, ofContents_append h rest]
    rfl
  | .setting n v :: rest => by
    rw [List.cons_append, Outline.ofContents, ofContents_append h rest]
    rfl

/-- The sections of the second lines follow those of the first, and the preamble is the first
one's. -/
theorem outlineOf_append {lines more : List Line} (h : opensWithHeading more = true) :
    outlineOf (lines ++ more) =
      ⟨(outlineOf lines).preamble, (outlineOf lines).sections ++ (outlineOf more).sections⟩ := by
  have hmore := fun isOpen => (mendedFrom_eq_of_opensWithHeading h isOpen).1
  rw [outlineOf, mendedFrom_append, hmore, List.filterMap_append, ofContents_append]
  · rfl
  · rw [← hmore false]
    exact preamble_mendedFrom_false more

/-! ## 3. Problems further down -/

namespace Problem

/-- The problem, some lines further down. -/
def movedDown (lines : Nat) (p : Problem) : Problem := { p with line := p.line + lines }

end Problem

theorem Line.report?_add (isOpen : Bool) (number k : Nat) (line : Line) :
    line.report? isOpen (number + k) = (line.report? isOpen number).map (Problem.movedDown k) := by
  cases line <;> cases isOpen <;> rfl

theorem reportsFrom_add (k : Nat) :
    ∀ (lines : List Line) (isOpen : Bool) (number : Nat),
      reportsFrom isOpen (number + k) lines =
        (reportsFrom isOpen number lines).map (Problem.movedDown k)
  | [], _, _ => rfl
  | line :: rest, isOpen, number => by
    rw [reportsFrom, reportsFrom, List.map_append, ← reportsFrom_add k rest, Line.report?_add,
      Nat.add_right_comm, Option.toList_map]

/-! ## 4. Texts that are put together -/

/-- **Files compose section by section.** -/
theorem parse_append_of_heading (r : Registry) (directory version : String) {a b : String}
    (ha : a = "" ∨ a.toList.getLast? = some '\n') (hmark : b.toList.head? ≠ some '\ufeff')
    (hb : ∀ line ∈ (lines b.toList).find? (!Line.isVoid ·), Line.startsHeader line = true) :
    Document.parse r directory version (a ++ b) =
      ⟨{ (Document.parse r directory version a).document with
          sections := (Document.parse r directory version a).document.sections ++
            (Document.parse r directory version b).document.sections },
        (Document.parse r directory version a).problems ++
          (Document.parse r directory version b).problems.map
            (Problem.movedDown (lines a.toList).length)⟩ := by
  have hopens : opensWithHeading (Event.linesOf b) = true := by
    rw [Event.linesOf, Event.dropMark_of_head?_ne hmark, opensWithHeading_map_read,
      Option.all_eq_true]
    exact hb
  -- whether `a` leaves its last section open or drops it, `b` is reported on as from its start
  have hreports := (mendedFrom_eq_of_opensWithHeading hopens (leftOpen true (Event.linesOf a))).2
  rw [parse_eq_mended, parse_eq_mended, parse_eq_mended, linesOf_append ha hmark,
    outlineOf_append hopens, reportsFrom_append, hreports, reportsFrom_add, length_linesOf ha]
  refine congrArg (Parsed.mk · _) ?_
  simp only [Outline.document, List.map_append, Outline.root?]

/-- A root file with a byte order mark, whose last section is dropped. -/
def rootText : String := "\ufeffroot = true\r\n[*.c]\r\nindent_size\r\n[*.h\r\n"

/-- A file that opens with a header, below a comment. -/
def headedText : String := "; sources\n  [*.rs]\n= 4\nroot = false"

theorem parse_rootText_append_headedText :
    (rootText = "" ∨ rootText.toList.getLast? = some '\n') ∧
      headedText.toList.head? ≠ some '\ufeff' ∧
      (∀ line ∈ (lines headedText.toList).find? (!Line.isVoid ·), Line.startsHeader line = true) ∧
      Document.parse Registry.builtin "/project" "0.17.2" (rootText ++ headedText) =
        ⟨{ (Document.parse Registry.builtin "/project" "0.17.2" rootText).document with
            sections :=
              (Document.parse Registry.builtin "/project" "0.17.2" rootText).document.sections ++
                (Document.parse Registry.builtin "/project" "0.17.2" headedText).document.sections },
          [.unseparated 3 "indent_size", .unclosedHeader 4 "[*.h", .nameless 7]⟩ := by
  have ha : rootText = "" ∨ rootText.toList.getLast? = some '\n' := Or.inr (by decide +kernel)
  have hmark : headedText.toList.head? ≠ some '\ufeff' := by decide +kernel
  have hb : ∀ line ∈ (lines headedText.toList).find? (!Line.isVoid ·),
      Line.startsHeader line = true := by decide +kernel
  refine ⟨ha, hmark, hb, (parse_append_of_heading _ _ _ ha hmark hb).trans ?_⟩
  exact congrArg (Parsed.mk _) (by decide +kernel)

end EditorSettings
