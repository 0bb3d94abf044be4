/-
# Assembling a document

Events are put together to a document.  An assembly stands outside a section, in one, or in a
setting of one; an event that has no place where the assembly stands is ignored, and an event
that needs more room closes what is open.  So every sequence of events gives a document, well
nested or not, and the problems among the events are kept in their order.
-/
import EditorSettings.Document.Basic
import EditorSettings.Document.Event

namespace EditorSettings

/-! ## 1. Assemblies -/

/-- Where in the document an assembly stands. -/
inductive Stage
  | outside
  | inSection (d : Section.Draft)
  | inSetting (d : Section.Draft) (s : Setting.Draft)

/-- A document that is being put together. -/
structure Assembly where
  registry : Registry
  document : Document
  stage : Stage := .outside
  problems : List Problem := []

/-- A document with the problems met on the way to it. -/
structure Parsed where
  document : Document
  problems : List Problem

namespace Assembly

/-- The section with a setting that has ended; one that cannot be finished is dropped. -/
def endSetting (r : Registry) (d : Section.Draft) (s : Setting.Draft) : Section.Draft :=
  match s.finish? r with
  | some s => d.add s
  | none => d

/-- Close the section that is open, if there is one. -/
def closeSection (a : Assembly) : Assembly :=
  match a.stage with
  | .outside => a
  | .inSection d => { a with document := a.document.close a.registry d, stage := .outside }
  | .inSetting d s =>
    { a with document := a.document.close a.registry (endSetting a.registry d s),
             stage := .outside }

/-- The assembly after one more event. -/
def feed (a : Assembly) : Event → Assembly
  | .documentStart => a
  | .documentEnd => a.closeSection
  | .sectionStart => { a.closeSection with stage := .inSection {} }
  | .sectionEnd => a.closeSection
  | .pattern s =>
    match a.stage with
    | .inSection d => { a with stage := .inSection (d.withGlob (a.document.compileGlob s)) }
    | _ => a
  | .settingStart =>
    match a.stage with
    | .outside => a
    | .inSection d => { a with stage := .inSetting d {} }
    | .inSetting d _ => { a with stage := .inSetting d {} }
  | .settingName n =>
    match a.stage with
    | .inSetting d s => { a with stage := .inSetting d (s.withName n) }
    | _ => a
  | .settingValue v =>
    match a.stage with
    | .inSetting d s => { a with stage := .inSetting d (s.withValue v) }
    | _ => a
  | .settingEnd =>
    match a.stage with
    | .inSetting d s => { a with stage := .inSection (endSetting a.registry d s) }
    | _ => a
  | .problem p => { a with problems := a.problems ++ [p] }

/-- What has been put together. -/
def finish (a : Assembly) : Parsed := ⟨a.closeSection.document, a.problems⟩

end Assembly

/-! ## 2. Documents of events and of texts -/

namespace Document

/-- The document that a sequence of events describes. -/
def ofEvents (r : Registry) (directory version : String) (events : List Event) : Parsed :=
  let start : Assembly := { registry := r, document := { directory, version } }
  (events.foldl Assembly.feed start).finish

/-- The document that a text in the directory describes. -/
def parse (r : Registry) (directory version source : String) : Parsed :=
  ofEvents r directory version (Event.ofText source)

end Document
end EditorSettings
