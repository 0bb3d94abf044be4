/-
# Rendering and parsing

The canonical text of a document is one layout of one outline: a header for each section, a line
for each of its settings, and blank lines between the sections (`Document.layout`,
`Document.outline`).  Every parsed document is the document of that outline
(`document_outline`), so rendering it and parsing the text again leads back to it.

The main statement is `parse_render`, with what it means for a file that is its own canonical
text: a run finds no problem in it and nothing to change.
-/
import EditorSettings.Proofs.Document.Layout
import EditorSettings.Proofs.Document.Readable
import EditorSettings.Run
import EditorSettings.FileTree

namespace EditorSettings

open EditorSettings.Text

/-! ## 1. The canonical layout -/

/-- The line of a setting. -/
def Setting.written (x : Setting) : WrittenLine := .setting [] x.name [' '] '=' [' '] x.value []

namespace Section

/-- The pattern in the header. -/
def source (s : Section) : String := (s.glob?.map Glob.source).getD ""

/-- The lines of a section.  Below the header of an empty section there is a blank line. -/
def written (s : Section) : List WrittenLine :=
  .header [] s.source [] ::
    (if s.settings.toList = [] then [.blank []] else s.settings.toList.map Setting.written)

/-- What a section says. -/
def outline (s : Section) : String × List (String × String) :=
  (s.source, s.settings.toList.map fun x => (x.name, x.value))

end Section

namespace Document

/-- The word for a root, or for a file that is none. -/
def rootWord (root : Bool) : String := if root then "true" else "false"

/-- The lines that say whether the file is a root. -/
def writtenRoot (d : Document) : List WrittenLine :=
  match d.root? with
  | some root =>
    .setting [] "root" [' '] '=' [' '] (rootWord root) [] ::
      (if d.sections.isEmpty then [] else [.blank []])
  | none => []

/-- The lines of a document. -/
def written (d : Document) : List WrittenLine :=
  d.writtenRoot ++ [WrittenLine.blank []].intercalate (d.sections.map Section.written)

/-- The canonical layout. -/
def layout (d : Document) : Layout := ⟨false, d.written.map (·, .feed), none⟩

/-- What a document says. -/
def outline (d : Document) : Outline where
  preamble := d.root?.toList.map fun root => ("root", rootWord root)
  sections := d.sections.map Section.outline

end Document

/-! ## 2. The canonical text -/

/-- The text of lines that are ended by line feeds. -/
def closedText (ls : List WrittenLine) : List Char := ls.flatMap fun l => l.text ++ ['\n']

/-- The layout of such lines. -/
def closedLayout (ls : List WrittenLine) : Layout := ⟨false, ls.map (·, .feed), none⟩

theorem text_closedLayout (ls : List WrittenLine) : (closedLayout ls).text = closedText ls := by
  simp [Layout.text, Layout.body, closedLayout, closedText, LineEnd.text, List.flatMap_map]

theorem lines_closedLayout (ls : List WrittenLine) : (closedLayout ls).lines = ls := by
  rw [Layout.lines, closedLayout, List.map_map]
  exact (List.append_nil _).trans (List.map_id ls)

theorem closedText_append (a b : List WrittenLine) :
    closedText (a ++ b) = closedText a ++ closedText b := List.flatMap_append

/-- Blank lines between lists of lines are line feeds between their texts. -/
theorem closedText_intercalate :
    ∀ ls : List (List WrittenLine),
      closedText ([WrittenLine.blank []].intercalate ls) = ['\n'].intercalate (ls.map closedText)
  | [] => rfl
  | [l] => by
    rw [List.intercalate_singleton, List.map_singleton, List.intercalate_singleton]
  | l :: m :: rest => by
    have ih := closedText_intercalate (m :: rest)
    rw [List.map_cons] at ih
    rw [List.intercalate_cons_cons, closedText_append, closedText_append, ih, List.map_cons,
      List.map_cons, List.intercalate_cons_cons]
    rfl

/-- Lines with line feeds between them and one at the end are all closed. -/
theorem intercalate_append_newline :
    ∀ {ls : List WrittenLine}, ls ≠ [] →
      ['\n'].intercalate (ls.map WrittenLine.text) ++ ['\n'] = closedText ls
  | [], h => absurd rfl h
  | [l], _ => by
    rw [List.map_singleton, List.intercalate_singleton]
    exact (List.append_nil _).symm
  | l :: m :: rest, _ => by
    have ih := intercalate_append_newline (List.cons_ne_nil m rest)
    rw [List.map_cons] at ih
    rw [List.map_cons, List.map_cons, List.intercalate_cons_cons, List.append_assoc, ih]
    rfl

theorem toList_render_setting (x : Setting) : x.render.toList = x.written.text := by
  simp [Setting.render, Setting.written, WrittenLine.text]

theorem toList_render_section {s : Section} {g : Glob} (h : s.glob? = some g) :
    (s.render ++ "\n").toList = closedText s.written := by
  have hheader : s.renderHeader.toList = closedText [.header [] s.source []] := by
    rw [Section.renderHeader, Section.source, h]
    simp [closedText, WrittenLine.text]
  have hbody : (String.intercalate "\n" (s.settings.toList.map Setting.render)).toList ++ ['\n'] =
      closedText (if s.settings.toList = [] then [.blank []]
        else s.settings.toList.map Setting.written) := by
    have hmap : (s.settings.toList.map Setting.render).map String.toList =
        (s.settings.toList.map Setting.written).map WrittenLine.text := by
      rw [List.map_map, List.map_map]
      exact List.map_congr_left fun x _ => toList_render_setting x
    rw [String.toList_intercalate, hmap]
    split
    · rename_i hempty
      rw [hempty]
      rfl
    · rename_i hne
      exact intercalate_append_newline (mt List.map_eq_nil_iff.mp hne)
  rw [Section.render, String.toList_append, String.toList_append, List.append_assoc, hheader]
  exact (congrArg (closedText [.header [] s.source []] ++ ·) hbody).trans
    (closedText_append _ _).symm

theorem toList_renderRoot (d : Document) : d.renderRoot.toList = closedText d.writtenRoot := by
  rw [Document.renderRoot, Document.writtenRoot]
  cases d.root? with
  | none => rfl
  | some root => cases root <;> cases d.sections.isEmpty <;> rfl

theorem text_layout (d : Document) : d.layout.text = closedText d.written :=
  text_closedLayout d.written

/-- **The canonical text is the text of the canonical layout.** -/
theorem toList_render {d : Document} (h : ∀ s ∈ d.sections, ∃ g, s.glob? = some g) :
    d.render.toList = d.layout.text := by
  have hsections : (d.sections.map fun s => s.render ++ "\n").map String.toList =
      (d.sections.map Section.written).map closedText := by
    rw [List.map_map, List.map_map]
    refine List.map_congr_left fun s hs => ?_
    obtain ⟨g, hg⟩ := h s hs
    exact toList_render_section hg
  rw [text_layout, Document.render, Document.written, String.toList_append, toList_renderRoot,
    String.toList_intercalate, hsections, closedText_append, closedText_intercalate]
  rfl

/-! ## 3. The outline of a document -/

theorem filterMap_content?_written (s : Section) :
    s.written.filterMap WrittenLine.content? =
      .header s.outline.1 :: settingLines s.outline.2 := by
  have hheader : (WrittenLine.header [] s.source []).content? = some (.header s.source) := rfl
  rw [Section.written, List.filterMap_cons_some hheader]
  refine congrArg _ ?_
  split
  · rename_i hempty
    rw [Section.outline, hempty]
    rfl
  · rw [List.filterMap_map, Section.outline, settingLines, List.map_map, ← List.filterMap_eq_map]
    rfl

theorem filterMap_content?_intercalate :
    ∀ ls : List (List WrittenLine),
      ([WrittenLine.blank []].intercalate ls).filterMap WrittenLine.content? =
        ls.flatMap (List.filterMap WrittenLine.content?)
  | [] => rfl
  | [l] => by
    rw [List.intercalate_singleton, List.flatMap_singleton]
  | l :: m :: rest => by
    rw [List.intercalate_cons_cons, List.filterMap_append, List.filterMap_append,
      filterMap_content?_intercalate (m :: rest), List.flatMap_cons, List.append_assoc]
    rfl

/-- The lines of a document say what its outline says. -/
theorem filterMap_content?_document (d : Document) :
    d.written.filterMap WrittenLine.content? = d.outline.contents := by
  have hroot : d.writtenRoot.filterMap WrittenLine.content? = settingLines d.outline.preamble := by
    rw [Document.writtenRoot, Document.outline]
    cases d.root? with
    | none => rfl
    | some root => cases d.sections.isEmpty <;> rfl
  have hsection : List.filterMap WrittenLine.content? ∘ Section.written =
      (fun s : String × List (String × String) => .header s.1 :: settingLines s.2) ∘
        Section.outline := funext filterMap_content?_written
  rw [Document.written, List.filterMap_append, hroot, filterMap_content?_intercalate,
    Outline.contents, List.flatMap_map, ← Function.comp_def, hsection, Document.outline,
    List.flatMap_map]
  rfl

theorem source_eq {r : Registry} {directory version : String} {s : Section}
    (h : s.Readable r directory version) :
    '\n' ∉ s.source.toList ∧ s.glob? = some (Glob.compile directory s.source) := by
  obtain ⟨pattern, hglob, hnewline⟩ := h.glob
  have hsource : s.source = pattern := by
    rw [Section.source, hglob]
    rfl
  exact ⟨hsource ▸ hnewline, hsource ▸ hglob⟩

theorem isProper_written {r : Registry} {x : Setting} (h : x.Readable r) : x.written.IsProper :=
  ⟨by decide, h.name, by decide, Or.inl rfl, by decide, h.value, by decide⟩

theorem isProper_of_mem_section {r : Registry} {directory version : String} {s : Section}
    (h : s.Readable r directory version) : ∀ line ∈ s.written, line.IsProper := by
  intro line hline
  rcases List.mem_cons.mp hline with rfl | hline
  · exact ⟨by decide, (source_eq h).1, by decide⟩
  · split at hline
    · rw [List.mem_singleton.mp hline]
      exact ⟨by decide, by decide⟩
    · obtain ⟨x, hx, rfl⟩ := List.mem_map.mp hline
      exact isProper_written (h.settings x hx)

theorem isProper_of_mem_root {d : Document} : ∀ line ∈ d.writtenRoot, line.IsProper := by
  intro line hline
  unfold Document.writtenRoot at hline
  split at hline
  · rename_i root _
    rcases List.mem_cons.mp hline with rfl | hline
    · cases root <;> decide
    · split at hline
      · exact absurd hline List.not_mem_nil
      · rw [List.mem_singleton.mp hline]
        decide
  · exact absurd hline List.not_mem_nil

/-- The canonical text begins with the word `root` or with a bracket, if it is not empty. -/
theorem head?_closedText_written (d : Document) :
    ∀ c ∈ (closedText d.written).head?, c = 'r' ∨ c = '[' := by
  intro c hc
  rw [Document.written, Document.writtenRoot] at hc
  cases hroot : d.root? with
  | some root =>
    rw [hroot] at hc
    exact Or.inl (Option.some.inj hc).symm
  | none =>
    rw [hroot, List.nil_append, closedText_intercalate] at hc
    cases hsections : d.sections with
    | nil =>
      rw [hsections] at hc
      cases hc
    | cons s rest =>
      rw [hsections, List.map_cons, List.map_cons, head?_intercalate_cons] at hc
      exact Or.inr (Option.some.inj hc).symm

/-- **The canonical layout of a readable document writes its outline.** -/
theorem writes_outline {r : Registry} {d : Document} (h : d.Readable r) :
    d.layout.Writes d.outline := by
  have hlines : d.layout.lines = d.written := lines_closedLayout d.written
  refine ⟨?_, ?_, ?_⟩
  · intro line hline
    rw [hlines, Document.written, List.mem_append] at hline
    rcases hline with hline | hline
    · exact isProper_of_mem_root line hline
    · rcases mem_intercalate hline with hline | ⟨ls, hls, hline⟩
      · rw [List.mem_singleton.mp hline]
        decide
      · obtain ⟨s, hs, rfl⟩ := List.mem_map.mp hls
        exact isProper_of_mem_section (h s hs) line hline
  · rw [hlines, filterMap_content?_document]
  · intro _ hmark
    rw [text_layout] at hmark
    rcases head?_closedText_written d _ hmark with h | h
    · exact absurd h (by decide)
    · exact absurd h (by decide)

/-! ## 4. Back to the document -/

/-- No value is longer than what may be written for it. -/
def Document.IsShort (d : Document) : Prop :=
  ∀ s ∈ d.sections, ∀ x ∈ s.settings.toList, x.value.length ≤ Setting.maxValueLength

theorem keptSettings_outline {r : Registry} {m : Settings} (h : ∀ x ∈ m.toList, x.Readable r)
    (hshort : ∀ x ∈ m.toList, x.value.length ≤ Setting.maxValueLength) :
    keptSettings r (m.toList.map fun x => (x.name, x.value)) = m := by
  have hkept : (m.toList.map fun x => (x.name, x.value)).filter isKept =
      m.toList.map fun x => (x.name, x.value) := by
    refine List.filter_eq_self.mpr fun p hp => ?_
    obtain ⟨x, hx, rfl⟩ := List.mem_map.mp hp
    rw [isKept, Bool.and_eq_true, decide_eq_true_eq, decide_eq_true_eq]
    exact ⟨(h x hx).short, hshort x hx⟩
  have hdeclared : (m.toList.map fun x => (x.name, x.value)).map
      (fun s => Setting.declare r s.1 s.2) = m.toList := by
    rw [List.map_map]
    exact (List.map_congr_left fun x hx => (h x hx).declared).trans (List.map_id _)
  rw [keptSettings, hkept, hdeclared, Keyed.insertAll_toList]

theorem sectionOf_outline {r : Registry} {directory version : String} {s : Section}
    (h : s.Readable r directory version)
    (hshort : ∀ x ∈ s.settings.toList, x.value.length ≤ Setting.maxValueLength) :
    Outline.sectionOf r directory version s.outline = s := by
  have hglob := (source_eq h).2
  rw [Outline.sectionOf, Section.outline, keptSettings_outline h.settings hshort, h.derived,
    ← hglob]

theorem root?_outline (d : Document) : d.outline.root? = d.root? := by
  rw [Outline.root?, Document.outline]
  cases d.root? with
  | none => rfl
  | some root =>
    simp only [Option.toList_some, List.map_singleton]
    cases root <;> decide +kernel

/-- **A readable document is what its outline says.** -/
theorem document_outline {r : Registry} {d : Document} (h : d.Readable r) (hshort : d.IsShort) :
    d.outline.document r d.directory d.version = d := by
  have hsections : d.outline.sections.map (Outline.sectionOf r d.directory d.version) =
      d.sections := by
    rw [Document.outline, List.map_map]
    exact (List.map_congr_left fun s hs => sectionOf_outline (h s hs) (hshort s hs)).trans
      (List.map_id _)
  rw [Outline.document, root?_outline, hsections]

/-- Parsing undoes rendering. -/
theorem parse_render_of_readable {r : Registry} {d : Document} (h : d.Readable r)
    (hshort : d.IsShort) : Document.parse r d.directory d.version d.render = ⟨d, []⟩ := by
  have hglob : ∀ s ∈ d.sections, ∃ g, s.glob? = some g := fun s hs =>
    ⟨_, (source_eq (h s hs)).2⟩
  have hrender : d.render = String.ofList d.layout.text := by
    rw [← toList_render hglob, String.ofList_toList]
  have hwrites := writes_outline h
  rw [hrender, parse_eq_document r _ _ (Layout.isSound_linesOf hwrites)
    (Layout.filterMap_content?_linesOf hwrites), document_outline h hshort]

/-! ## 5. Files in canonical form -/

/-- The tree, seen from `cwd`, has a file with this text at `p`. -/
def FileTree.Holds (t : FileTree) (cwd p : Path) (text : String) : Prop :=
  t.readBytes (FileTree.namesOf cwd) p = .ok text.toUTF8

theorem fromUTF8?_toUTF8 (text : String) : String.fromUTF8? text.toUTF8 = some text :=
  dif_pos text.isValidUTF8

/-- What is done next starts where the step before has ended. -/
theorem run_bind_eq {α β : Type} {x : StateM FileTree α} {f : α → StateM FileTree β}
    {t t' : FileTree} {a : α} (h : x.run t = (a, t')) : (x >>= f).run t = (f a).run t' := by
  rw [StateT.run_bind, h]
  rfl

theorem run_read {t : FileTree} {cwd p : Path} {text : String} (h : t.Holds cwd p text) :
    ((FileTree.fileSystem cwd).read p).run t = (.ok text, t) := by
  have hbytes : ((FileTree.fileSystem cwd).readBytes p).run t = (.ok text.toUTF8, t) :=
    congrArg (·, t) h
  refine (run_bind_eq hbytes).trans ?_
  simp only [fromUTF8?_toUTF8]
  rfl

theorem renderingText_self (st : Style) (p : Path) (text : String) (rendering : Run.Rendering) :
    Run.renderingText st p text text rendering = if rendering = .text then text else "" := by
  cases rendering with
  | text => rfl
  | difference => exact if_pos rfl
  | check => exact if_pos rfl

/-- A file whose document renders to its own text is found canonical. -/
theorem run_canonical {t : FileTree} {cwd p : Path} {plan : Plan} {d : Document}
    (hp : t.Holds cwd p d.render)
    (habsolute : t.Holds cwd ((FileTree.fileSystem cwd).absolute p) d.render)
    (hparse : Document.parse .builtin
      (((FileTree.fileSystem cwd).absolute p).parent?.getD default).text plan.rules.version
        d.render = ⟨d, []⟩) (st : Style) (rendering : Run.Rendering) :
    (Run.canonical (FileTree.fileSystem cwd) plan st rendering p).run t =
      (.ok ⟨if rendering = .text then d.render else "", "", true⟩, t) := by
  refine (run_bind_eq (run_read hp)).trans ?_
  refine (run_bind_eq (run_read habsolute)).trans ?_
  simp only [hparse, renderingText_self, List.map_nil, String.join_nil, beq_self_eq_true]
  rfl

/-- **Rendering and parsing are inverse on what has been parsed.**  Whatever the text, if no value
of its document is too long, the rendered document is parsed without problems, into the same
document, which renders to the same text.  A file that holds this text is canonical: with the
settings of the file format, a run has nothing to report about it and nothing to change. -/
theorem parse_render (r : Registry) (directory version source : String) {d : Document}
    (hd : d = (Document.parse r directory version source).document) (hshort : d.IsShort) :
    Document.parse r directory version d.render = ⟨d, []⟩ ∧
    (Document.parse r directory version d.render).document.render = d.render ∧
    (r = .builtin → ∀ (t : FileTree) (cwd p : Path) (plan : Plan),
      plan.rules.version = version →
      (((FileTree.fileSystem cwd).absolute p).parent?.getD default).text = directory →
      t.Holds cwd p d.render → t.Holds cwd ((FileTree.fileSystem cwd).absolute p) d.render →
      ∀ (st : Style) (rendering : Run.Rendering),
        (Run.canonical (FileTree.fileSystem cwd) plan st rendering p).run t =
          (.ok ⟨if rendering = .text then d.render else "", "", true⟩, t)) := by
  have hread : d.Readable r := hd ▸ readable_parse r directory version source
  have hdirectory : d.directory = directory := by
    rw [hd, Document.parse_eq]
    rfl
  have hversion : d.version = version := by
    rw [hd, Document.parse_eq]
    rfl
  have hparse : Document.parse r directory version d.render = ⟨d, []⟩ := by
    have h := parse_render_of_readable hread hshort
    rw [hdirectory, hversion] at h
    exact h
  refine ⟨hparse, by rw [hparse], ?_⟩
  rintro rfl t cwd p plan rfl rfl hp habsolute st rendering
  exact run_canonical hp habsolute hparse st rendering

/-- The document of a file with mixed line ends and a size that is declared twice. -/
def mixedDocument : Document := mixedOutline.document .builtin "/project" defaultVersion

theorem isShort_mixedDocument : mixedDocument.IsShort := by
  unfold Document.IsShort
  decide +kernel

/-- A tree with the canonical text of the document. -/
def mixedTree : FileTree :=
  ⟨[(["project"], .directory), (["project", "e"], .file mixedDocument.render.toUTF8)]⟩

theorem parse_render_mixedDocument :
    mixedDocument = (Document.parse .builtin "/project" defaultVersion
      (String.ofList mixedLayout.text)).document ∧
    Document.parse .builtin "/project" defaultVersion mixedDocument.render = ⟨mixedDocument, []⟩ ∧
    (Run.canonical (FileTree.fileSystem ⟨"/"⟩) {} {} .check ⟨"/project/e"⟩).run mixedTree =
      (.ok ⟨"", "", true⟩, mixedTree) := by
  have hd : mixedDocument = (Document.parse .builtin "/project" defaultVersion
      (String.ofList mixedLayout.text)).document := by
    rw [parse_eq_document _ _ _ (Layout.isSound_linesOf writes_mixedLayout)
      (Layout.filterMap_content?_linesOf writes_mixedLayout)]
    rfl
  have habsolute : (FileTree.fileSystem ⟨"/"⟩).absolute ⟨"/project/e"⟩ = ⟨"/project/e"⟩ := by
    decide +kernel
  have hparent : ((Path.mk "/project/e").parent?.getD default).text = "/project" := by
    decide +kernel
  have hholds : mixedTree.Holds ⟨"/"⟩ ⟨"/project/e"⟩ mixedDocument.render := rfl
  obtain ⟨hparse, -, hrun⟩ :=
    parse_render .builtin "/project" defaultVersion _ hd isShort_mixedDocument
  refine ⟨hd, hparse, hrun rfl mixedTree ⟨"/"⟩ ⟨"/project/e"⟩ {} rfl ?_ hholds ?_ {} .check⟩
  · rw [habsolute, hparent]
  · rw [habsolute]
    exact hholds

end EditorSettings
