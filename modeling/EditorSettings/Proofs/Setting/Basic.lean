/-
# Settings that can be declared again

What is stored of a declaration is in canonical form: declaring the stored name and the stored
value once more changes nothing (`declare_declare`).  And what has been read from a line can be
read from a line again, since canonical spelling keeps names names and values values
(`IsName.asciiLower`, `IsValue.canonicalValue`).  Together this is `Setting.Readable`.
-/
import EditorSettings.Proofs.Document.Line
import EditorSettings.Proofs.Text.Lowercase
import EditorSettings.Setting.Basic
import Mathlib

namespace EditorSettings

open EditorSettings.Text

/-! ## 1. Small ASCII letters -/

namespace Text

theorem length_asciiLower (s : String) : (asciiLower s).length = s.length := by
  rw [asciiLower, String.length_ofList, List.length_map, String.length_toList]

theorem isLower_iff {c : Char} : c.isLower = true ↔ 97 ≤ c.toNat ∧ c.toNat ≤ 122 := by
  have hval : c.isLower = (decide (97 ≤ c.val) && decide (c.val ≤ 122)) := rfl
  rw [hval, Bool.and_eq_true, decide_eq_true_iff, decide_eq_true_iff]
  exact and_congr UInt32.le_iff_toNat_le UInt32.le_iff_toNat_le

/-- Lowering keeps a character or gives a small letter. -/
theorem toLower_cases (c : Char) : c.toLower = c ∨ c.toLower.isLower = true := by
  by_cases h : c.isUpper = true
  · rw [Char.isLower_toLower_eq_isAlpha, Char.isAlpha, h, Bool.true_or]
    exact Or.inr rfl
  · exact Or.inl (Char.toLower_eq_of_not_isUpper h)

theorem asciiLower_asciiLower (s : String) : asciiLower (asciiLower s) = asciiLower s := by
  have htwice : Char.toLower ∘ Char.toLower = Char.toLower :=
    funext Char.toLower_toLower_eq_toLower
  rw [asciiLower, asciiLower, String.toList_ofList, List.map_map, htwice]

theorem isBlank_eq_false_of_isLower {c : Char} (h : c.isLower = true) : isBlank c = false := by
  have hrange := isLower_iff.mp h
  by_contra hb
  obtain ⟨span, hspan, hlow, hhigh⟩ := inSpans_iff.mp (Bool.not_eq_false _ |>.mp hb)
  simp only [blankSpans, List.mem_cons, List.not_mem_nil, or_false] at hspan
  rcases hspan with rfl | rfl | rfl | rfl | rfl | rfl | rfl | rfl | rfl | rfl <;>
    simp only at hlow hhigh <;> omega

theorem isBlank_toLower {c : Char} (h : isBlank c = false) : isBlank c.toLower = false := by
  rcases toLower_cases c with hc | hc
  · rw [hc, h]
  · exact isBlank_eq_false_of_isLower hc

end Text

/-- A character that is no small letter is not made by lowering. -/
theorem eq_of_toLower_eq {c d : Char} (hd : d.isLower = false) (h : c.toLower = d) : c = d := by
  rcases toLower_cases c with hc | hc
  · rw [← hc, h]
  · rw [h, hd] at hc
    cases hc

/-! ## 2. Names and values -/

/-- The canonical spelling of a name is a name. -/
theorem IsName.asciiLower {n : String} (h : IsName n.toList) : IsName (asciiLower n).toList := by
  rw [Text.asciiLower, String.toList_ofList]
  refine ⟨by simpa using h.ne_nil, ⟨?_, ?_⟩, ?_, ?_, ?_⟩
  · intro c hc
    rw [List.head?_map, Option.mem_def, Option.map_eq_some_iff] at hc
    obtain ⟨d, hd, rfl⟩ := hc
    exact isBlank_toLower (h.trimmed.1 d hd)
  · intro c hc
    rw [List.getLast?_map, Option.mem_def, Option.map_eq_some_iff] at hc
    obtain ⟨d, hd, rfl⟩ := hc
    exact isBlank_toLower (h.trimmed.2 d hd)
  · intro c hc
    obtain ⟨d, hd, rfl⟩ := List.mem_map.mp hc
    by_contra hs
    have hdsep : Line.isSeparator d = true := by
      rcases isSeparator_iff.mp (Bool.not_eq_false _ |>.mp hs) with he | he
      · rw [eq_of_toLower_eq (by decide) he]
        rfl
      · rw [eq_of_toLower_eq (by decide) he]
        rfl
    rw [h.not_separator d hd] at hdsep
    cases hdsep
  · intro hc
    obtain ⟨d, hd, he⟩ := List.mem_map.mp hc
    exact h.newline (eq_of_toLower_eq (by decide) he ▸ hd)
  · intro c hc
    rw [List.head?_map, Option.mem_def, Option.map_eq_some_iff] at hc
    obtain ⟨d, hd, rfl⟩ := hc
    obtain ⟨h1, h2, h3⟩ := h.first d hd
    exact ⟨fun e => h1 (eq_of_toLower_eq (by decide) e),
      fun e => h2 (eq_of_toLower_eq (by decide) e), fun e => h3 (eq_of_toLower_eq (by decide) e)⟩

/-- The canonical form of a value is a value. -/
theorem IsValue.canonicalValue {v : String} (h : IsValue v.toList) (name : String) :
    IsValue (Setting.canonicalValue name v).toList := by
  unfold Setting.canonicalValue
  split
  · exact ⟨trimmed_lower h.trimmed, newline_not_mem_lower h.newline⟩
  · exact h

namespace Setting

theorem name_declare (r : Registry) (name value : String) :
    (declare r name value).name = asciiLower name := rfl

theorem value_declare (r : Registry) (name value : String) :
    (declare r name value).value = canonicalValue (asciiLower name) value := by
  rw [declare]

/-- A name in small letters is kept, and its type is the one that the registry has for it. -/
theorem declare_of_small {name : String} (h : asciiLower name = name) (r : Registry)
    (value : String) : declare r name value = ⟨name, canonicalValue name value, r.type? name⟩ := by
  rw [declare, h]

theorem canonicalValue_canonicalValue (name value : String) :
    canonicalValue name (canonicalValue name value) = canonicalValue name value := by
  unfold canonicalValue
  split
  · exact lower_lower value
  · rfl

/-- **Declaring is done once and for all.** -/
theorem declare_declare (r : Registry) (name value : String) :
    declare r (declare r name value).name (declare r name value).value = declare r name value := by
  simp only [declare, asciiLower_asciiLower, canonicalValue_canonicalValue]

/-! ## 3. Readable settings -/

/-- The setting can be written in a line and is read back from it. -/
structure Readable (r : Registry) (x : Setting) : Prop where
  name : IsName x.name.toList
  value : IsValue x.value.toList
  short : x.name.length ≤ maxNameLength
  declared : declare r x.name x.value = x

theorem readable_declare (r : Registry) {name value : String} (hn : IsName name.toList)
    (hv : IsValue value.toList) (hs : name.length ≤ maxNameLength) :
    (declare r name value).Readable r := by
  refine ⟨?_, ?_, ?_, declare_declare r name value⟩
  · rw [name_declare]
    exact hn.asciiLower
  · rw [value_declare]
    exact hv.canonicalValue (asciiLower name)
  · rw [name_declare, length_asciiLower]
    exact hs

end Setting
end EditorSettings
