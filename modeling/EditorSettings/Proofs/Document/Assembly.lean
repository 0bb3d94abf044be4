/-
# Assemblies, whatever they are fed

An assembly takes events in any order, well nested or not.  What holds of it then is said here, one
lemma for a step and one for a run:

* Problems are collected beside everything else.  They change nothing but the list of problems
  (`feed_withProblems`), so leaving them out gives the same document (`foldl_feed_filter_counts`).
* An assembly is orderly: every section that is closed has a glob, and the names of its settings
  are in small letters (`Orderly.foldl_feed`).
* A section that is closed stays as it is: a step leaves the sections alone or puts one behind
  them (`sections_prefix_foldl_feed`).
* To finish is to close the section that is open, and `openSection?` is what this adds
  (`sections_finish`).  So events that close it make no difference to what is finished.

The main statement is `ofEvents_in_any_order`.
-/
import EditorSettings.Proofs.Derivation
import EditorSettings.Proofs.Document.Chapter

namespace EditorSettings

open EditorSettings.Text

/-! ## 1. Events that do not count -/

namespace Event

/-- The problem that an event reports. -/
def problem? : Event → Option Problem
  | problem p => some p
  | documentStart => none
  | documentEnd => none
  | sectionStart => none
  | sectionEnd => none
  | pattern _ => none
  | settingStart => none
  | settingName _ => none
  | settingValue _ => none
  | settingEnd => none

/-- The event counts for the document: it does not report a problem, and it does not begin the
document either, since there is nothing to begin. -/
def counts (e : Event) : Bool := e.problem?.isNone && e != documentStart

end Event

/-! ## 2. What an assembly has open -/

/-- An assembly of which nothing has been read. -/
def Assembly.start (r : Registry) (directory version : String) : Assembly :=
  { registry := r, document := { directory, version } }

theorem Document.ofEvents_eq (r : Registry) (directory version : String) (events : List Event) :
    Document.ofEvents r directory version events =
      (events.foldl Assembly.feed (.start r directory version)).finish := rfl

namespace Assembly

/-- The section that is open, with the setting that is. -/
def draft? (a : Assembly) : Option Section.Draft :=
  match a.stage with
  | .outside => none
  | .inSection d => some d
  | .inSetting d s => some (endSetting a.registry d s)

/-- What the section that is open would be if it were closed now; the preamble would be none. -/
def openSection? (a : Assembly) : Option Section :=
  a.draft?.bind fun d => d.glob?.map fun _ => d.complete a.registry a.document.version

theorem closeSection_eq (a : Assembly) :
    a.closeSection =
      match a.draft? with
      | none => a
      | some d => { a with document := a.document.close a.registry d, stage := .outside } := by
  unfold closeSection draft?
  cases a.stage <;> rfl

theorem stage_closeSection (a : Assembly) : a.closeSection.stage = .outside := by
  unfold closeSection
  cases h : a.stage with
  | outside => exact h
  | inSection d => rfl
  | inSetting d s => rfl

/-- What is closed is not closed again. -/
theorem closeSection_of_outside {a : Assembly} (h : a.stage = .outside) : a.closeSection = a := by
  rw [closeSection_eq, draft?, h]

theorem closeSection_closeSection (a : Assembly) : a.closeSection.closeSection = a.closeSection :=
  closeSection_of_outside a.stage_closeSection

theorem problems_closeSection (a : Assembly) : a.closeSection.problems = a.problems := by
  unfold closeSection
  cases a.stage <;> rfl

/-- Finishing closes the section itself. -/
theorem finish_closeSection (a : Assembly) : a.closeSection.finish = a.finish := by
  rw [finish, finish, closeSection_closeSection, problems_closeSection]

/-- Ending the setting and then the section is closing the section. -/
theorem feed_settingEnd_feed_sectionEnd (a : Assembly) :
    (a.feed .settingEnd).feed .sectionEnd = a.closeSection := by
  rw [feed, feed]
  unfold closeSection
  cases h : a.stage with
  | outside => simp [h]
  | inSection d => simp [h]
  | inSetting d s => simp

/-! ## 3. Problems -/

/-- The assembly with other problems. -/
def withProblems (a : Assembly) (ps : List Problem) : Assembly := { a with problems := ps }

theorem withProblems_self (a : Assembly) : a.withProblems a.problems = a := rfl

theorem withProblems_withProblems (a : Assembly) (ps qs : List Problem) :
    (a.withProblems ps).withProblems qs = a.withProblems qs := rfl

theorem closeSection_withProblems (a : Assembly) (ps : List Problem) :
    (a.withProblems ps).closeSection = a.closeSection.withProblems ps := by
  obtain ⟨r, doc, stage, qs⟩ := a
  cases stage <;> rfl

/-- **A step does not depend on the problems**, and adds the one that its event reports. -/
theorem feed_withProblems (a : Assembly) (ps : List Problem) (e : Event) :
    (a.withProblems ps).feed e = (a.feed e).withProblems (ps ++ e.problem?.toList) := by
  obtain ⟨r, doc, stage, qs⟩ := a
  cases e with
  | problem p => rfl
  | documentStart => simp [feed, Event.problem?, withProblems]
  | documentEnd => simp [feed, Event.problem?, closeSection_withProblems]
  | sectionEnd => simp [feed, Event.problem?, closeSection_withProblems]
  | sectionStart =>
    rw [feed, closeSection_withProblems]
    simp [feed, Event.problem?, withProblems]
  | pattern s => cases stage <;> simp [feed, Event.problem?, withProblems]
  | settingStart => cases stage <;> simp [feed, Event.problem?, withProblems]
  | settingName n => cases stage <;> simp [feed, Event.problem?, withProblems]
  | settingValue v => cases stage <;> simp [feed, Event.problem?, withProblems]
  | settingEnd => cases stage <;> simp [feed, Event.problem?, withProblems]

theorem problems_feed (a : Assembly) (e : Event) :
    (a.feed e).problems = a.problems ++ e.problem?.toList :=
  congrArg problems (a.feed_withProblems a.problems e)

/-- A run adds the problems that its events report, in their order. -/
theorem foldl_feed_withProblems :
    ∀ (events : List Event) (a : Assembly) (ps : List Problem),
      events.foldl feed (a.withProblems ps) =
        (events.foldl feed a).withProblems (ps ++ events.filterMap Event.problem?)
  | [], a, ps => by simp
  | e :: rest, a, ps => by
    rw [List.foldl_cons, feed_withProblems, foldl_feed_withProblems rest, List.append_assoc,
      List.foldl_cons, List.filterMap_cons]
    cases e.problem? <;> rfl

theorem problems_foldl_feed (events : List Event) (a : Assembly) :
    (events.foldl feed a).problems = a.problems ++ events.filterMap Event.problem? :=
  congrArg problems (foldl_feed_withProblems events a a.problems)

/-- An event that does not count changes nothing but the problems. -/
theorem feed_of_not_counts {e : Event} (h : e.counts = false) (a : Assembly) :
    a.feed e = a.withProblems (a.problems ++ e.problem?.toList) := by
  cases e with
  | problem p => rfl
  | documentStart => simp [feed, Event.problem?, withProblems_self]
  | documentEnd => cases h
  | sectionStart => cases h
  | sectionEnd => cases h
  | pattern s => cases h
  | settingStart => cases h
  | settingName n => cases h
  | settingValue v => cases h
  | settingEnd => cases h

/-- **Leaving out the events that do not count** changes nothing but the problems. -/
theorem foldl_feed_filter_counts :
    ∀ (events : List Event) (a : Assembly),
      (events.filter Event.counts).foldl feed a = (events.foldl feed a).withProblems a.problems
  | [], a => rfl
  | e :: rest, a => by
    cases h : e.counts with
    | false =>
      rw [List.filter_cons_of_neg (by simp [h]), foldl_feed_filter_counts rest, List.foldl_cons,
        feed_of_not_counts h, foldl_feed_withProblems, withProblems_withProblems]
    | true =>
      have hnone : e.problem? = none := by
        have := (Bool.and_eq_true_iff.mp h).1
        simpa using this
      rw [List.filter_cons_of_pos h, List.foldl_cons, foldl_feed_filter_counts rest,
        problems_feed, hnone]
      simp

/-! ## 4. Order in the sections -/

/-- The names of the settings are in small letters. -/
def HasSmallNames (m : Settings) : Prop := ∀ x ∈ m.toList, asciiLower x.name = x.name

theorem asciiLower_name_declare (r : Registry) (name value : String) :
    asciiLower (Setting.declare r name value).name = (Setting.declare r name value).name :=
  asciiLower_asciiLower name

/-- A section that is read has a glob relative to the directory, if it has any. -/
structure OrderlyDraft (directory : String) (d : Section.Draft) : Prop where
  glob : ∀ g ∈ d.glob?, ∃ pattern, g = Glob.compile directory pattern
  small : HasSmallNames d.settings

/-- A section that is closed has a glob relative to the directory. -/
structure OrderlySection (directory : String) (s : Section) : Prop where
  glob : ∃ pattern, s.glob? = some (Glob.compile directory pattern)
  small : HasSmallNames s.settings

/-- All sections of the assembly are in order, those that are closed and the one that is open. -/
structure Orderly (directory : String) (a : Assembly) : Prop where
  place : a.document.directory = directory
  sections : ∀ s ∈ a.document.sections, OrderlySection directory s
  inSection : ∀ d, a.stage = .inSection d → OrderlyDraft directory d
  inSetting : ∀ d s, a.stage = .inSetting d s → OrderlyDraft directory d

section

variable {directory : String}

theorem orderlyDraft_empty : OrderlyDraft directory {} where
  glob := by simp
  small := by simp [HasSmallNames]

theorem OrderlyDraft.withGlob {d : Section.Draft} (h : OrderlyDraft directory d) {g : Glob}
    (hg : ∃ pattern, g = Glob.compile directory pattern) :
    OrderlyDraft directory (d.withGlob g) where
  glob := by
    intro g' hg'
    cases hg'
    exact hg
  small := h.small

theorem OrderlyDraft.endSetting (r : Registry) {d : Section.Draft} (h : OrderlyDraft directory d)
    (s : Setting.Draft) : OrderlyDraft directory (endSetting r d s) := by
  unfold Assembly.endSetting
  split
  · rename_i x hx
    refine ⟨h.glob, Keyed.forall_mem_insert h.small ?_⟩
    obtain ⟨name, -, hname⟩ := Option.bind_eq_some_iff.mp hx
    dsimp only at hname
    split at hname
    · cases hname
    · cases hname
      exact asciiLower_name_declare r name _
  · exact h

/-- What is derived has its name in small letters. -/
theorem OrderlyDraft.complete (r : Registry) (version : String) {d : Section.Draft}
    (h : OrderlyDraft directory d) (hglob : d.glob?.isSome = true) :
    OrderlySection directory (d.complete r version) := by
  obtain ⟨g, hg⟩ := Option.isSome_iff_exists.mp hglob
  obtain ⟨pattern, rfl⟩ := h.glob g hg
  refine ⟨⟨pattern, hg⟩, ?_⟩
  exact Settings.forall_mem_derive (asciiLower_name_declare r _ _)
    (fun x _ => asciiLower_name_declare r _ x.value)
    (fun x _ => asciiLower_name_declare r _ x.value) h.small version

theorem Orderly.draft? {a : Assembly} (h : Orderly directory a) :
    ∀ d ∈ a.draft?, OrderlyDraft directory d := by
  intro d hd
  unfold Assembly.draft? at hd
  split at hd
  · cases hd
  · cases hd
    exact h.inSection d ‹_›
  · cases hd
    exact (h.inSetting _ _ ‹_›).endSetting a.registry _

/-- A document that takes up a section in order stays in order. -/
theorem OrderlyDraft.forall_mem_close (r : Registry) {doc : Document} {d : Section.Draft}
    (h : OrderlyDraft directory d) (hdoc : ∀ s ∈ doc.sections, OrderlySection directory s) :
    ∀ s ∈ (doc.close r d).sections, OrderlySection directory s := by
  unfold Document.close
  split
  · rename_i g flag hg
    intro s hs
    rcases List.mem_append.mp hs with hs | hs
    · exact hdoc s hs
    · rw [List.mem_singleton.mp hs]
      exact h.complete r doc.version (by rw [hg]; rfl)
  · exact hdoc
  · exact hdoc

theorem Orderly.closeSection {a : Assembly} (h : Orderly directory a) :
    Orderly directory a.closeSection := by
  rw [closeSection_eq]
  split
  · exact h
  · rename_i d hd
    refine ⟨(Document.directory_close a.registry a.document d).trans h.place,
      (h.draft? d hd).forall_mem_close a.registry h.sections, ?_, ?_⟩
    · intro d' hd'
      cases hd'
    · intro d' s' hd'
      cases hd'

theorem Orderly.toSection {a : Assembly} (h : Orderly directory a) {d : Section.Draft}
    (hd : OrderlyDraft directory d) : Orderly directory { a with stage := .inSection d } := by
  refine ⟨h.place, h.sections, ?_, ?_⟩
  · rintro _ ⟨⟩
    exact hd
  · rintro _ _ ⟨⟩

theorem Orderly.toSetting {a : Assembly} (h : Orderly directory a) {d : Section.Draft}
    (hd : OrderlyDraft directory d) (s : Setting.Draft) :
    Orderly directory { a with stage := .inSetting d s } := by
  refine ⟨h.place, h.sections, ?_, ?_⟩
  · rintro _ ⟨⟩
  · rintro _ _ ⟨⟩
    exact hd

/-- **A step keeps order.** -/
theorem Orderly.feed {a : Assembly} (h : Orderly directory a) (e : Event) :
    Orderly directory (a.feed e) := by
  cases e with
  | documentStart => exact h
  | documentEnd => exact h.closeSection
  | sectionEnd => exact h.closeSection
  | problem p => exact ⟨h.place, h.sections, h.inSection, h.inSetting⟩
  | sectionStart => exact h.closeSection.toSection orderlyDraft_empty
  | pattern p =>
    rw [Assembly.feed]
    split
    · rename_i d hd
      exact h.toSection ((h.inSection d hd).withGlob ⟨p, congrArg (Glob.compile · p) h.place⟩)
    · exact h
  | settingStart =>
    rw [Assembly.feed]
    split
    · exact h
    · rename_i d hd
      exact h.toSetting (h.inSection d hd) {}
    · rename_i d s hd
      exact h.toSetting (h.inSetting d s hd) {}
  | settingName n =>
    rw [Assembly.feed]
    split
    · rename_i d s hd
      exact h.toSetting (h.inSetting d s hd) (s.withName n)
    · exact h
  | settingValue v =>
    rw [Assembly.feed]
    split
    · rename_i d s hd
      exact h.toSetting (h.inSetting d s hd) (s.withValue v)
    · exact h
  | settingEnd =>
    rw [Assembly.feed]
    split
    · rename_i d s hd
      exact h.toSection ((h.inSetting d s hd).endSetting a.registry s)
    · exact h

theorem Orderly.foldl_feed {a : Assembly} (h : Orderly directory a) (events : List Event) :
    Orderly directory (events.foldl Assembly.feed a) := by
  induction events generalizing a with
  | nil => exact h
  | cons e rest ih => exact ih (h.feed e)

theorem orderly_start (r : Registry) (version : String) :
    Orderly directory (start r directory version) where
  place := rfl
  sections := by simp [start]
  inSection := by simp [start]
  inSetting := by simp [start]

end

/-! ## 5. Sections that are closed -/

theorem sections_close (r : Registry) (doc : Document) (d : Section.Draft) :
    (doc.close r d).sections =
      doc.sections ++ (d.glob?.map fun _ => d.complete r doc.version).toList := by
  unfold Document.close
  split
  · rename_i h
    simp [h]
  · rename_i h _
    simp [h]
  · rename_i h _
    simp [h]

/-- Closing puts the section that is open behind the others. -/
theorem sections_closeSection (a : Assembly) :
    a.closeSection.document.sections = a.document.sections ++ a.openSection?.toList := by
  rw [closeSection_eq, openSection?]
  cases a.draft? with
  | none => simp
  | some d => exact sections_close a.registry a.document d

theorem sections_finish (a : Assembly) :
    a.finish.document.sections = a.document.sections ++ a.openSection?.toList :=
  a.sections_closeSection

theorem sections_prefix_closeSection (a : Assembly) :
    a.document.sections <+: a.closeSection.document.sections :=
  ⟨a.openSection?.toList, a.sections_closeSection.symm⟩

/-- **A step keeps the sections that are closed**, in their places. -/
theorem sections_prefix_feed (a : Assembly) (e : Event) :
    a.document.sections <+: (a.feed e).document.sections := by
  cases e with
  | documentStart => exact List.prefix_rfl
  | problem p => exact List.prefix_rfl
  | documentEnd => exact a.sections_prefix_closeSection
  | sectionStart => exact a.sections_prefix_closeSection
  | sectionEnd => exact a.sections_prefix_closeSection
  | pattern s => cases h : a.stage <;> simp [feed, h]
  | settingStart => cases h : a.stage <;> simp [feed, h]
  | settingName n => cases h : a.stage <;> simp [feed, h]
  | settingValue v => cases h : a.stage <;> simp [feed, h]
  | settingEnd => cases h : a.stage <;> simp [feed, h]

theorem sections_prefix_foldl_feed :
    ∀ (events : List Event) (a : Assembly),
      a.document.sections <+: (events.foldl feed a).document.sections
  | [], _ => List.prefix_rfl
  | e :: rest, a =>
    (a.sections_prefix_feed e).trans (sections_prefix_foldl_feed rest (a.feed e))

/-- But for the last one, the sections of what is finished were closed before. -/
theorem dropLast_sections_finish_prefix (a : Assembly) :
    a.finish.document.sections.dropLast <+: a.document.sections := by
  rw [sections_finish]
  cases a.openSection? with
  | none => simpa using List.dropLast_prefix a.document.sections
  | some s => simp

end Assembly

/-! ## 6. The document of any events -/

/-- **An assembly can be fed events in any order.**  The problems are those that the events
report, in their order, and without the events that do not count the same document comes out.
Every section has a glob, and its settings have different names in small letters.  Whether the
document, or the setting and the section, are ended before the assembly is finished makes no
difference.  And a section that has been followed by another one is there for good, whatever
events come after it. -/
theorem Document.ofEvents_in_any_order (r : Registry) (directory version : String)
    (events : List Event) :
    (ofEvents r directory version events).problems = events.filterMap Event.problem? ∧
    ofEvents r directory version (events.filter Event.counts) =
      ⟨(ofEvents r directory version events).document, []⟩ ∧
    (∀ s ∈ (ofEvents r directory version events).document.sections,
      (∃ pattern, s.glob? = some (Glob.compile directory pattern)) ∧
      (s.settings.toList.map Setting.name).Nodup ∧
      ∀ x ∈ s.settings.toList, asciiLower x.name = x.name) ∧
    ofEvents r directory version (events ++ [.documentEnd]) =
      ofEvents r directory version events ∧
    ofEvents r directory version (events ++ [.settingEnd, .sectionEnd]) =
      ofEvents r directory version events ∧
    ∀ before, before <+: events →
      (ofEvents r directory version before).document.sections.dropLast <+:
        (ofEvents r directory version events).document.sections := by
  refine ⟨?_, ?_, ?_, ?_, ?_, ?_⟩
  · exact Assembly.problems_foldl_feed events (.start r directory version)
  · rw [ofEvents_eq, Assembly.foldl_feed_filter_counts, Assembly.finish,
      Assembly.closeSection_withProblems]
    rfl
  · intro s hs
    have horderly : Assembly.Orderly directory
        (events.foldl Assembly.feed (.start r directory version)).closeSection :=
      ((Assembly.orderly_start r version).foldl_feed events).closeSection
    have hsection := horderly.sections s hs
    exact ⟨hsection.glob, s.settings.nodup, hsection.small⟩
  · rw [ofEvents_eq, ofEvents_eq, List.foldl_append, List.foldl_cons, List.foldl_nil]
    exact Assembly.finish_closeSection _
  · rw [ofEvents_eq, ofEvents_eq, List.foldl_append, List.foldl_cons, List.foldl_cons,
      List.foldl_nil, Assembly.feed_settingEnd_feed_sectionEnd]
    exact Assembly.finish_closeSection _
  · rintro before ⟨after, rfl⟩
    have hbefore := Assembly.dropLast_sections_finish_prefix
      (before.foldl Assembly.feed (.start r directory version))
    have hafter := Assembly.sections_prefix_foldl_feed after
      (before.foldl Assembly.feed (.start r directory version))
    rw [← List.foldl_append] at hafter
    exact (hbefore.trans hafter).trans (Assembly.sections_prefix_closeSection _)

/-- A name outside a setting is ignored, a setting that never ends is kept by the next section, and
a pattern inside a setting is ignored. -/
example : (Document.ofEvents .builtin "/w" defaultVersion
    [.settingName "a", .sectionStart, .pattern "*", .settingStart, .settingName "A",
      .settingValue "b", .sectionStart, .settingStart, .pattern "x"]).document.render =
    "[*]\na = b\n" := by
  decide +kernel

end EditorSettings
