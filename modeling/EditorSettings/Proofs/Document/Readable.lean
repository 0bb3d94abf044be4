/-
# What every parsed document satisfies

However malformed a text is, what is kept of it could stand in a text that is well formed: a
pattern holds no line feed, every setting can be read from a line, and the widths are derived
already.  This is `Document.Readable`, and `readable_parse` states that parsing gives nothing else.

The statement follows the chapters of a text: what stands in a chapter comes from a line
(`isFrom_of_mem_chapters`), and no line holds a line feed.
-/
import EditorSettings.Proofs.Derivation
import EditorSettings.Proofs.Document.Chapter
import EditorSettings.Proofs.Document.Line

namespace EditorSettings

open EditorSettings.Text

/-! ## 1. Readable documents -/

/-- A section of settings that are read from lines, under a header that is. -/
structure Section.Readable (r : Registry) (directory version : String) (s : Section) : Prop where
  glob : ∃ pattern : String, s.glob? = some (Glob.compile directory pattern) ∧
    '\n' ∉ pattern.toList
  settings : ∀ x ∈ s.settings.toList, x.Readable r
  derived : s.settings.derive r version = s.settings

/-- A document of such sections. -/
def Document.Readable (r : Registry) (d : Document) : Prop :=
  ∀ s ∈ d.sections, s.Readable r d.directory d.version

/-! ## 2. Where a chapter comes from -/

theorem mem_of_mem_preamble :
    ∀ (lines : List Line) (number : Nat), ∀ l ∈ (chaptersFrom number lines).1, l.2 ∈ lines
  | [], _, _, hl => absurd hl List.not_mem_nil
  | line :: rest, number, l, hl => by
    cases hline : line.isHeading with
    | true =>
      have hempty : (chaptersFrom number (line :: rest)).1 = [] := by
        cases line <;> first | rfl | cases hline
      rw [hempty] at hl
      exact absurd hl List.not_mem_nil
    | false =>
      rw [chaptersFrom_cons hline] at hl
      rcases List.mem_cons.mp hl with rfl | hl
      · exact List.mem_cons_self
      · exact List.mem_cons_of_mem _ (mem_of_mem_preamble rest (number + 1) l hl)

/-- The header and the lines of a chapter are among the lines of the text. -/
def Chapter.IsFrom (lines : List Line) (c : Chapter) : Prop :=
  (∀ pattern, c.heading = .closed pattern → Line.header pattern ∈ lines) ∧
    ∀ l ∈ c.body, l.2 ∈ lines

theorem Chapter.IsFrom.cons {lines : List Line} {c : Chapter} (h : c.IsFrom lines) (line : Line) :
    c.IsFrom (line :: lines) :=
  ⟨fun p hp => List.mem_cons_of_mem _ (h.1 p hp), fun l hl => List.mem_cons_of_mem _ (h.2 l hl)⟩

theorem isFrom_of_mem_chapters :
    ∀ (lines : List Line) (number : Nat), ∀ c ∈ (chaptersFrom number lines).2, c.IsFrom lines
  | [], _, _, hc => absurd hc List.not_mem_nil
  | line :: rest, number, c, hc => by
    have ih := isFrom_of_mem_chapters rest (number + 1)
    have hbody := mem_of_mem_preamble rest (number + 1)
    cases line with
    | header p =>
      rcases List.mem_cons.mp hc with rfl | hc
      · refine ⟨?_, fun l hl => List.mem_cons_of_mem _ (hbody l hl)⟩
        intro pattern hp
        cases hp
        exact List.mem_cons_self
      · exact (ih c hc).cons _
    | unclosed s =>
      rcases List.mem_cons.mp hc with rfl | hc
      · refine ⟨?_, fun l hl => List.mem_cons_of_mem _ (hbody l hl)⟩
        intro pattern hp
        cases hp
      · exact (ih c hc).cons _
    | blank => exact (ih c hc).cons _
    | setting name value => exact (ih c hc).cons _
    | nameless => exact (ih c hc).cons _
    | unseparated s => exact (ih c hc).cons _

/-! ## 3. Reading -/

theorem exists_of_mem_linesOf {source : String} {line : Line} (h : line ∈ Event.linesOf source) :
    ∃ s, '\n' ∉ s ∧ Line.read s = line := by
  obtain ⟨s, hs, rfl⟩ := List.mem_map.mp h
  exact ⟨s, newline_not_mem_of_mem_lines _ s hs, rfl⟩

/-- A setting is declared with a name and a value that are not too long. -/
theorem exists_of_setting?_eq_some {r : Registry} {line : Line} {x : Setting}
    (h : line.setting? r = some x) :
    ∃ name value, line = .setting name value ∧
      (String.ofList name).length ≤ Setting.maxNameLength ∧
      (String.ofList value).length ≤ Setting.maxValueLength ∧
      x = Setting.declare r (String.ofList name) (String.ofList value) := by
  cases line with
  | setting name value =>
    unfold Line.setting? Setting.Draft.finish? at h
    simp only [Option.bind_some, Option.getD_some] at h
    split at h
    · cases h
    · rename_i hshort
      cases h
      rw [Bool.or_eq_true, decide_eq_true_eq, decide_eq_true_eq, not_or, not_lt, not_lt] at hshort
      exact ⟨name, value, rfl, hshort.1, hshort.2, rfl⟩
  | blank => cases h
  | header p => cases h
  | unclosed s => cases h
  | nameless => cases h
  | unseparated s => cases h

/-- A setting that a line declares can be read from a line. -/
theorem readable_of_setting? {source : String} {line : Line} {r : Registry} {x : Setting}
    (hline : line ∈ Event.linesOf source) (hx : line.setting? r = some x) : x.Readable r := by
  obtain ⟨s, hs, hread⟩ := exists_of_mem_linesOf hline
  obtain ⟨name, value, rfl, hname, -, rfl⟩ := exists_of_setting?_eq_some hx
  obtain ⟨hn, hv⟩ := Line.isName_and_isValue_of_read hs hread
  refine Setting.readable_declare r ?_ ?_ hname
  · rw [String.toList_ofList]
    exact hn
  · rw [String.toList_ofList]
    exact hv

/-- **The settings of a document** are declared by its lines, or derived. -/
theorem forall_mem_parse {p : Setting → Prop} {r : Registry} {source : String}
    (directory version : String)
    (hline : ∀ line ∈ Event.linesOf source, ∀ x, line.setting? r = some x → p x)
    (hderive : ∀ m : Settings, (∀ x ∈ m.toList, p x) → ∀ x ∈ (m.derive r version).toList, p x) :
    ∀ s ∈ (Document.parse r directory version source).document.sections,
      ∀ x ∈ s.settings.toList, p x := by
  rw [Document.parse_eq]
  intro s hs
  obtain ⟨c, hc, hcs⟩ := List.mem_filterMap.mp hs
  unfold Chapter.section? at hcs
  split at hcs
  · cases hcs
    refine hderive _ (Keyed.forall_mem_insertAll (fun x hx => absurd hx List.not_mem_nil) ?_)
    intro x hx
    obtain ⟨l, hl, hlx⟩ := List.mem_filterMap.mp hx
    exact hline l.2 ((isFrom_of_mem_chapters _ 1 c hc).2 l hl) x hlx
  · cases hcs

/-- **Parsing gives readable documents**, whatever the text. -/
theorem readable_parse (r : Registry) (directory version source : String) :
    (Document.parse r directory version source).document.Readable r := by
  have hsettings := forall_mem_parse directory version
    (fun line (hline : line ∈ Event.linesOf source) x hx => readable_of_setting? (r := r) hline hx)
    fun m hm => Settings.readable_derive hm version
  rw [Document.parse_eq] at hsettings ⊢
  intro s hs
  have hreadable := hsettings s hs
  obtain ⟨c, hc, hcs⟩ := List.mem_filterMap.mp hs
  have hheading := (isFrom_of_mem_chapters _ 1 c hc).1
  unfold Chapter.section? at hcs
  split at hcs
  · rename_i p hp
    cases hcs
    obtain ⟨t, ht, hread⟩ := exists_of_mem_linesOf (hheading p hp)
    refine ⟨⟨String.ofList p, rfl, ?_⟩, hreadable, ?_⟩
    · rw [String.toList_ofList]
      exact Line.newline_not_mem_of_read ht hread
    · exact Settings.derive_derive r version _
  · cases hcs

end EditorSettings
