/-
# How long values are

Names and values that are too long are dropped when they are read.  The limit holds for names
ever after (`Setting.Readable.short`).  For values it holds as they are written; where case does
not matter, small letters are kept in their place, and the dotted capital I has two of them.  So
a value that is kept can be longer than the limit, and then the line that renders it is dropped
when it is read again (`value_above_limit`).

`limits_parse` states what does hold.  It rests on where values come from: each is a value of the
source within the limit, as written or in small letters (`Setting.IsWritten`), and this is kept
when sizes and widths are derived from each other.
-/
import EditorSettings.Proofs.Document.RoundTrip

namespace EditorSettings

open EditorSettings.Text

namespace Setting

/-! ## 1. Where values come from -/

/-- The value was written within the limit, with a dotted capital only if the source has one. -/
def IsWritten (source : String) (x : Setting) : Prop :=
  ∃ w : String, w.length ≤ maxValueLength ∧ (x.value = w ∨ x.value = lower w) ∧
    ('\u0130' ∈ w.toList → '\u0130' ∈ source.toList)

section

variable {source : String} (r : Registry) (name : String)

theorem isWritten_declare {value : String} (hlen : value.length ≤ maxValueLength)
    (hdotted : '\u0130' ∈ value.toList → '\u0130' ∈ source.toList) :
    (declare r name value).IsWritten source := by
  refine ⟨value, hlen, ?_, hdotted⟩
  rw [value_declare, canonicalValue]
  split
  · exact Or.inr rfl
  · exact Or.inl rfl

/-- A value that is declared again has the same origin. -/
theorem IsWritten.declare {x : Setting} (h : x.IsWritten source) :
    (declare r name x.value).IsWritten source := by
  obtain ⟨w, hlen, hw, hdotted⟩ := h
  refine ⟨w, hlen, ?_, hdotted⟩
  rw [value_declare, canonicalValue]
  split
  · rcases hw with hw | hw
    · exact Or.inr (congrArg lower hw)
    · exact Or.inr (by rw [hw, lower_lower])
  · exact hw

end

theorem isWritten_of_setting? {source : String} {line : Line} {r : Registry} {x : Setting}
    (hline : line ∈ Event.linesOf source) (hx : line.setting? r = some x) :
    x.IsWritten source := by
  obtain ⟨s, hs, hread⟩ := List.mem_map.mp hline
  obtain ⟨name, value, rfl, -, hlen, rfl⟩ := exists_of_setting?_eq_some hx
  refine isWritten_declare r _ hlen fun hdotted => ?_
  rw [String.toList_ofList] at hdotted
  have hs' := (mem_of_mem_lines _ s hs _ (Line.mem_of_read_eq_setting hread hdotted)).1
  exact Event.mem_of_mem_dropMark hs'

theorem isWritten_parse (r : Registry) (directory version source : String) :
    ∀ s ∈ (Document.parse r directory version source).document.sections,
      ∀ x ∈ s.settings.toList, x.IsWritten source := by
  refine forall_mem_parse directory version (fun line hline x hx => isWritten_of_setting? hline hx) ?_
  intro m hm
  exact Settings.forall_mem_derive
    (isWritten_declare r Name.indentSize (by decide) fun h => absurd h (by decide))
    (fun x hx => hx.declare r Name.indentSize) (fun x hx => hx.declare r Name.tabWidth) hm version

/-! ## 2. How long they are -/

section

variable {source : String} {x : Setting} (h : x.IsWritten source)

include h

/-- A value exceeds the limit by its combining dots at most. -/
theorem IsWritten.length_le : x.value.length ≤ maxValueLength + x.value.toList.count '\u0307' := by
  obtain ⟨w, hlen, hw | hw, -⟩ := h
  · exact hw ▸ hlen.trans (Nat.le_add_right _ _)
  · rw [hw, length_lower]
    exact Nat.add_le_add hlen (count_lower_le w)

/-- It is at most twice as long as the limit. -/
theorem IsWritten.length_le_twice : x.value.length ≤ 2 * maxValueLength := by
  obtain ⟨w, hlen, hw | hw, -⟩ := h
  · rw [hw]
    omega
  · have hcount := List.count_le_length (a := '\u0130') (l := w.toList)
    rw [String.length_toList] at hcount
    rw [hw, length_lower]
    omega

/-- Without dotted capitals the limit holds. -/
theorem IsWritten.length_le_of_not_mem (hsource : '\u0130' ∉ source.toList) :
    x.value.length ≤ maxValueLength := by
  obtain ⟨w, hlen, hw | hw, hdotted⟩ := h
  · exact hw ▸ hlen
  · rw [hw, length_lower, List.count_eq_zero.mpr (mt hdotted hsource)]
    exact hlen

end

/-- **A setting is read again from its line if its value is within the limit**, and dropped
otherwise. -/
theorem setting?_read_render {r : Registry} {x : Setting} (h : x.Readable r) :
    (Line.read x.render.toList).setting? r =
      if x.value.length ≤ maxValueLength then some x else none := by
  have hname : x.name.length ≤ maxNameLength := h.short
  have hread : Line.read x.render.toList = .setting x.name.toList x.value.toList := by
    rw [toList_render_setting, WrittenLine.read_text (isProper_written h)]
    rfl
  rw [hread, Line.setting?_setting, String.ofList_toList, String.ofList_toList, h.declared, isKept,
    decide_eq_true hname, Bool.true_and]
  simp only [decide_eq_true_eq]

end Setting

/-! ## 3. The limits of a document -/

/-- **Names are within their limit, and values but for their dots.**  Every value is within the
limit if the source has no dotted capital I, and a setting is read again from the line that
renders it just if its value is. -/
theorem limits_parse (r : Registry) (directory version source : String) :
    ∀ s ∈ (Document.parse r directory version source).document.sections,
      ∀ x ∈ s.settings.toList,
        x.name.length ≤ Setting.maxNameLength ∧
          x.value.length ≤ Setting.maxValueLength + x.value.toList.count '\u0307' ∧
          x.value.length ≤ 2 * Setting.maxValueLength ∧
          ('\u0130' ∉ source.toList → x.value.length ≤ Setting.maxValueLength) ∧
          (Line.read x.render.toList).setting? r =
            if x.value.length ≤ Setting.maxValueLength then some x else none := by
  intro s hs x hx
  have hwritten := Setting.isWritten_parse r directory version source s hs x hx
  have hreadable := (readable_parse r directory version source s hs).settings x hx
  have hread := Setting.setting?_read_render hreadable
  exact ⟨hreadable.short, hwritten.length_le, hwritten.length_le_twice,
    hwritten.length_le_of_not_mem, hread⟩

/-- A width that is derived from a size with a dotted capital. -/
def dottedSize : Setting := ⟨"tab_width", "i\u0307", Registry.builtin.type? "tab_width"⟩

theorem limits_parse_dottedSize :
    (∃ s ∈ (Document.parse .builtin "/project" defaultVersion
        "[*]\nindent_size = \u0130").document.sections,
      dottedSize ∈ s.settings.toList) ∧
      dottedSize.value.length ≤ Setting.maxValueLength + dottedSize.value.toList.count '\u0307' ∧
      (Line.read dottedSize.render.toList).setting? .builtin = some dottedSize := by
  have hmem : ∃ s ∈ (Document.parse .builtin "/project" defaultVersion
        "[*]\nindent_size = \u0130").document.sections,
      dottedSize ∈ s.settings.toList := by decide +kernel
  have hshort : dottedSize.value.length ≤ Setting.maxValueLength := by decide
  refine ⟨hmem, ?_⟩
  obtain ⟨s, hs, hx⟩ := hmem
  obtain ⟨-, hlength, -, -, hread⟩ := limits_parse _ _ _ _ s hs _ hx
  exact ⟨hlength, hread.trans (if_pos hshort)⟩

/-- A section with a value for one setting, in which case does not matter. -/
def charsetText (value : String) : String := "[*]\ncharset = " ++ value ++ "\n"

/-- How the section is written. -/
def charsetLayout (value : String) : Layout where
  mark := false
  ended := [(.header [] "*" [], .feed), (.setting [] "charset" [' '] '=' [' '] value [], .feed)]
  open? := none

theorem ofList_charsetLayout (value : String) :
    String.ofList (charsetLayout value).text = charsetText value := by
  rw [← String.toList_inj, String.toList_ofList]
  simp [charsetText, charsetLayout, Layout.text, Layout.body, WrittenLine.text, LineEnd.text]

section

variable {value : String}

theorem writes_charsetLayout (h : IsValue value.toList) :
    (charsetLayout value).Writes ⟨[], [("*", [("charset", value)])]⟩ := by
  have hheader : (WrittenLine.header [] "*" []).IsProper := by decide
  have hsetting : (WrittenLine.setting [] "charset" [' '] '=' [' '] value []).IsProper :=
    ⟨by decide, by decide, by decide, Or.inl rfl, by decide, h, by decide⟩
  refine ⟨?_, rfl, fun _ => ?_⟩
  · exact List.forall_mem_cons.mpr ⟨hheader, List.forall_mem_singleton.mpr hsetting⟩
  · exact fun e => absurd (Option.some.inj e) (by decide)

theorem parse_charsetText (r : Registry) (directory version : String) (h : IsValue value.toList)
    (hlen : value.length ≤ Setting.maxValueLength) :
    (Document.parse r directory version (charsetText value)).document.sections =
      [⟨some (Glob.compile directory "*"),
        Keyed.empty.insert (Setting.declare r "charset" value)⟩] := by
  have hname : "charset".length ≤ Setting.maxNameLength := by decide
  have hkept : isKept ("charset", value) = true :=
    Bool.and_eq_true_iff.mpr ⟨decide_eq_true hname, decide_eq_true hlen⟩
  rw [← ofList_charsetLayout, parse_written r directory version (writes_charsetLayout h)]
  simp only [Outline.document, List.map_singleton, Outline.sectionOf, keptSettings,
    List.filter_cons_of_pos hkept, List.filter_nil]
  rfl

end

/-- A value of dotted capitals. -/
def dots (n : Nat) : String := String.ofList (List.replicate n '\u0130')

theorem length_dots (n : Nat) : (dots n).length = n := by
  rw [dots, String.length_ofList, List.length_replicate]

theorem length_lower_dots (n : Nat) : (lower (dots n)).length = n + n := by
  rw [length_lower, length_dots, dots, String.toList_ofList, List.count_replicate_self]

theorem isValue_dots (n : Nat) : IsValue (dots n).toList := by
  have hmem : ∀ c ∈ List.replicate n '\u0130', isBlank c = false := by
    intro c hc
    rw [List.eq_of_mem_replicate hc]
    decide
  rw [dots, String.toList_ofList]
  refine ⟨⟨fun c hc => hmem c (List.mem_of_mem_head? hc),
    fun c hc => hmem c (List.mem_of_getLast? hc)⟩, fun h => ?_⟩
  exact absurd (hmem '\n' h) (by decide)

/-- **A value can be longer than the limit**, and is then lost when its line is read again. -/
theorem value_above_limit :
    ∃ s ∈ (Document.parse .builtin "/project" defaultVersion
        (charsetText (dots 128))).document.sections,
      ∃ x ∈ s.settings.toList, x.value.length = 256 ∧ Setting.maxValueLength < x.value.length ∧
        (Line.read x.render.toList).setting? .builtin = none := by
  have hlen : (dots 128).length ≤ Setting.maxValueLength := by
    rw [length_dots]
    decide
  have hcase : Setting.Name.isCaseless (asciiLower "charset") = true := by decide +kernel
  have hvalue : (Setting.declare .builtin "charset" (dots 128)).value.length = 256 := by
    rw [Setting.value_declare, Setting.canonicalValue, if_pos hcase, length_lower_dots]
  have hlong :
      Setting.maxValueLength < (Setting.declare .builtin "charset" (dots 128)).value.length := by
    rw [hvalue]
    decide
  have hreadable : (Setting.declare .builtin "charset" (dots 128)).Readable .builtin :=
    Setting.readable_declare .builtin (by decide) (isValue_dots 128) (by decide)
  rw [parse_charsetText .builtin "/project" defaultVersion (isValue_dots 128) hlen]
  refine ⟨_, List.mem_singleton_self _, _, List.mem_singleton_self _, hvalue, hlong, ?_⟩
  rw [Setting.setting?_read_render hreadable, if_neg (Nat.not_le.mpr hlong)]

end EditorSettings
