/-
# Faults

What is wrong with a line shows in the line and the lines above it (`fault?`): a header that is
not closed is always a fault, and any other line only where a section is open, which the nearest
header above decides (`isOpenBelow`).

Faults are isolated (`faults_isolated`).  Parsing reports each of them in its place and nothing
else, and if an empty line is put in the place of each, and of what an unclosed header takes with
it (`mendSource`), then the same document is read, and no problem.  Both come from the lines as
they are read: `fault?` is `Line.report?` and a line that is lost is one that `Line.mended` makes
blank, since the flag that goes through the lines is `isOpenBelow` (`isOpenBelow_concat`).
-/
import EditorSettings.Proofs.Document.Mending

namespace EditorSettings

open EditorSettings.Text

/-! ## 1. Lines that are faulty -/

namespace Line

/-- The line is a header in brackets. -/
def isHeader (s : List Char) : Bool := startsHeader s && (trim s).tail.getLast? == some ']'

/-- The line has a separator. -/
def isSeparated (s : List Char) : Bool := (trim s).any isSeparator

/-- What stands before the first separator. -/
def nameOf (s : List Char) : List Char := trim ((trim s).takeWhile (!isSeparator ·))

end Line

/-- A section is open below the lines: the nearest header is in brackets, or there is none and
the preamble goes on. -/
def isOpenBelow (above : List (List Char)) : Bool :=
  (above.reverse.find? Line.startsHeader).all Line.isHeader

/-- What is wrong with a line below others. -/
def fault? (above : List (List Char)) (line : List Char) : Option Problem :=
  let number := above.length + 1
  if Line.startsHeader line then
    if Line.isHeader line then none
    else some (.unclosedHeader number (String.ofList (trim line)))
  else if Line.isVoid line || !isOpenBelow above then none
  else if !Line.isSeparated line then some (.unseparated number (String.ofList (trim line)))
  else if (Line.nameOf line).isEmpty then some (.nameless number)
  else none

/-- Nothing is kept of the line: it is faulty, or it stands below an unclosed header. -/
def isLost (above : List (List Char)) (line : List Char) : Bool :=
  (fault? above line).isSome || (!Line.startsHeader line && !isOpenBelow above)

/-- The lines below others, with an empty one in the place of each that is lost. -/
def mendBelow (above : List (List Char)) : List (List Char) → List (List Char)
  | [] => []
  | line :: below =>
    (if isLost above line then [] else line) :: mendBelow (above ++ [line]) below

/-- The text with its lines mended. -/
def mendText (s : List Char) : List Char := ['\n'].intercalate (mendBelow [] (s.splitOn '\n'))

/-- The source with its lines mended, and the mark in front if there is one. -/
def mendSource (source : String) : String :=
  match source.toList with
  | '\ufeff' :: s => String.ofList ('\ufeff' :: mendText s)
  | s => String.ofList (mendText s)

/-! ## 2. Faults are what is reported -/

namespace Line

/-- A header in brackets leaves its section open, any other header leaves none. -/
theorem leavesOpen_read (s : List Char) (isOpen : Bool) :
    (read s).leavesOpen isOpen = if startsHeader s then isHeader s else isOpen := by
  rcases read_cases s with ⟨-, hs, h⟩ | ⟨-, hs, rest, ht, h⟩ | ⟨-, hs, c, rest, -, -, h⟩
  · rw [hs, h]
    rfl
  · rw [isHeader, hs, h, ht, List.tail_cons, Bool.true_and, readHeader]
    by_cases hlast : rest.getLast? = some ']'
    · rw [if_pos hlast, hlast]
      rfl
    · rw [if_neg hlast, beq_eq_false_iff_ne.mpr hlast]
      rfl
  · rw [hs, h, leavesOpen_of_not_heading (isHeading_readSetting _)]
    rfl

theorem report?_readSetting (isOpen : Bool) (number : Nat) (s : List Char) :
    (readSetting s).report? isOpen number =
      if !isOpen then none
      else if !s.any isSeparator then some (.unseparated number (String.ofList s))
      else if (trim (s.takeWhile (!isSeparator ·))).isEmpty then some (.nameless number)
      else none := by
  rw [report?_of_not_heading (isHeading_readSetting s)]
  have hany : s.any isSeparator = !(s.dropWhile (!isSeparator ·)).isEmpty := by
    rw [Bool.eq_iff_iff, List.any_eq_true, Bool.not_eq_true', List.isEmpty_eq_false_iff, ne_eq,
      List.dropWhile_eq_nil_iff]
    simp
  rw [hany]
  unfold readSetting
  cases isOpen with
  | false => rfl
  | true =>
    cases s.dropWhile (!isSeparator ·) with
    | nil => rfl
    | cons sep rest =>
      dsimp only
      cases (trim (s.takeWhile (!isSeparator ·))).isEmpty <;> rfl

end Line

theorem isOpenBelow_concat (above : List (List Char)) (line : List Char) :
    isOpenBelow (above ++ [line]) = (Line.read line).leavesOpen (isOpenBelow above) := by
  rw [Line.leavesOpen_read, isOpenBelow, List.reverse_concat, List.find?_cons]
  cases Line.startsHeader line <;> rfl

/-- **A fault is what is reported** of the line as it is read. -/
theorem fault?_eq (above : List (List Char)) (line : List Char) :
    fault? above line = (Line.read line).report? (isOpenBelow above) (above.length + 1) := by
  unfold fault?
  rcases Line.read_cases line with
    ⟨hv, hs, h⟩ | ⟨-, hs, rest, ht, h⟩ | ⟨hv, hs, c, rest, ht, -, h⟩
  · rw [hs, hv, h]
    cases isOpenBelow above <;> rfl
  · rw [Line.isHeader, hs, h, ht, List.tail_cons, Bool.true_and, Line.readHeader]
    by_cases hlast : rest.getLast? = some ']'
    · rw [if_pos hlast, hlast]
      cases isOpenBelow above <;> rfl
    · rw [if_neg hlast, beq_eq_false_iff_ne.mpr hlast]
      rfl
  · rw [hs, hv, h, Line.report?_readSetting, Line.isSeparated, Line.nameOf, ht]
    rfl

/-- **The reports are the faults**, each in its place. -/
theorem mem_reportsFrom_iff (p : Problem) :
    ∀ lines above : List (List Char),
      p ∈ reportsFrom (isOpenBelow above) (above.length + 1) (lines.map Line.read) ↔
        ∃ before line after, lines = before ++ line :: after ∧
          fault? (above ++ before) line = some p
  | [], above => by
    refine iff_of_false List.not_mem_nil ?_
    rintro ⟨before, line, after, h, -⟩
    exact List.append_ne_nil_of_right_ne_nil before (List.cons_ne_nil line after) h.symm
  | line :: rest, above => by
    have ih := mem_reportsFrom_iff p rest (above ++ [line])
    rw [isOpenBelow_concat, List.length_append, List.length_singleton] at ih
    rw [List.map_cons, reportsFrom, List.mem_append, ih, Option.mem_toList,
      ← fault?_eq]
    constructor
    · rintro (h | ⟨before, l, after, rfl, h⟩)
      · exact ⟨[], line, rest, rfl, by rwa [List.append_nil]⟩
      · exact ⟨line :: before, l, after, rfl, by rwa [List.append_assoc] at h⟩
    · rintro ⟨before, l, after, hlines, h⟩
      cases before with
      | nil =>
        cases hlines
        exact Or.inl (by rwa [List.append_nil] at h)
      | cons _ before =>
        cases hlines
        exact Or.inr ⟨before, l, after, rfl, by rwa [List.append_assoc]⟩

/-! ## 3. Mended lines -/

/-- A line is lost if nothing counts of it. -/
theorem read_mended (above : List (List Char)) (line : List Char) :
    Line.read (if isLost above line then [] else line) =
      (Line.read line).mended (isOpenBelow above) := by
  rw [apply_ite Line.read, isLost, fault?_eq, Line.startsHeader_eq_isHeading,
    Line.read_allBlank (s := []) (List.forall_mem_nil _)]
  cases Line.read line <;> cases isOpenBelow above <;> rfl

theorem map_read_mendBelow :
    ∀ lines above : List (List Char),
      (mendBelow above lines).map Line.read =
        mendedFrom (isOpenBelow above) (lines.map Line.read)
  | [], _ => rfl
  | line :: rest, above => by
    rw [mendBelow, List.map_cons, List.map_cons, mendedFrom, read_mended,
      map_read_mendBelow rest, isOpenBelow_concat]

/-! ## 4. Mended texts -/

theorem newline_not_mem_mendBelow :
    ∀ {lines above : List (List Char)}, (∀ line ∈ lines, '\n' ∉ line) →
      ∀ line ∈ mendBelow above lines, '\n' ∉ line
  | [], _, _, _, h => absurd h List.not_mem_nil
  | first :: rest, above, hlines, line, h => by
    obtain ⟨hfirst, hrest⟩ := List.forall_mem_cons.mp hlines
    rcases List.mem_cons.mp h with rfl | h
    · split
      · exact List.not_mem_nil
      · exact hfirst
    · exact newline_not_mem_mendBelow hrest line h

theorem splitOn_mendText (s : List Char) :
    (mendText s).splitOn '\n' = mendBelow [] (s.splitOn '\n') := by
  refine List.splitOn_intercalate '\n' ?_ ?_
  · exact newline_not_mem_mendBelow (newline_not_mem_of_mem_splitOn s)
  · cases h : s.splitOn '\n' with
    | nil => exact absurd h (List.splitOn_ne_nil '\n' s)
    | cons line rest => exact List.cons_ne_nil _ _

/-- Mending puts no mark in front. -/
theorem head?_mendText {s : List Char} (h : s.head? ≠ some '\ufeff') :
    (mendText s).head? ≠ some '\ufeff' := by
  have hs : ['\n'].intercalate (s.splitOn '\n') = s := List.intercalate_splitOn '\n'
  cases hparts : s.splitOn '\n' with
  | nil => exact absurd hparts (List.splitOn_ne_nil '\n' s)
  | cons line rest =>
    rw [← hs, hparts, head?_intercalate_cons] at h
    rw [mendText, hparts, mendBelow, head?_intercalate_cons]
    have hnewline : ∀ b : Bool, (if b then none else some '\n') ≠ some '\ufeff' := by decide
    -- a first line that is lost leaves the line feed behind it, if there is one
    split
    · exact hnewline _
    · cases hline : line.head? with
      | none => exact hnewline _
      | some c => rwa [hline] at h

theorem dropMark_mendSource (source : String) :
    Event.dropMark (mendSource source).toList = mendText (Event.dropMark source.toList) := by
  unfold mendSource
  split
  · rename_i s hs
    rw [String.toList_ofList, hs]
    rfl
  · rename_i s hs
    have hmark : source.toList.head? ≠ some '\ufeff' := by
      intro h
      obtain ⟨t, ht⟩ := List.head?_eq_some_iff.mp h
      exact hs t ht
    rw [String.toList_ofList, Event.dropMark_of_head?_ne (head?_mendText hmark),
      Event.dropMark_of_head?_ne hmark]

theorem partsOf_mendSource (source : String) :
    partsOf (mendSource source) = mendBelow [] (partsOf source) := by
  rw [partsOf, dropMark_mendSource, splitOn_mendText, partsOf]

/-! ## 5. Faults are isolated -/

/-- **Faults are isolated.**  The problems are the faults of the text in the order of its lines,
and without the lines that are lost the same document is read. -/
theorem faults_isolated (r : Registry) (directory version source : String) :
    ((Document.parse r directory version source).problems.map Problem.line).Pairwise (· < ·) ∧
      (∀ p, p ∈ (Document.parse r directory version source).problems ↔
        ∃ above line below, partsOf source = above ++ line :: below ∧
          fault? above line = some p) ∧
      Document.parse r directory version (mendSource source) =
        ⟨(Document.parse r directory version source).document, []⟩ := by
  have hmended := map_read_mendBelow (partsOf source) []
  rw [← partsOf_mendSource] at hmended
  have hsound := mendedFrom_of_sound
    (isSound_of_mem_mendedFrom true ((partsOf source).map Line.read))
  refine ⟨?_, fun p => ?_, ?_⟩
  · rw [parse_eq_parts]
    exact pairwise_reportsFrom _ _ _
  · rw [parse_eq_parts]
    exact mem_reportsFrom_iff p _ []
  · -- the parts of the mended source are the mended lines, in which there is nothing to mend
    rw [parse_eq_parts, parse_eq_parts, hmended]
    simp only [outlineOf, isOpenBelow, List.reverse_nil, List.find?_nil, Option.all_none, hsound]

example : mendSource "\ufeff[a\nx = 1\n[b]\r\ny\n= 2\nz = 3\n" =
    "\ufeff\n\n[b]\r\n\n\nz = 3\n" := by decide +kernel

end EditorSettings
