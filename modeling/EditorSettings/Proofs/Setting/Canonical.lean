/-
# The canonical form of a setting

What is kept of a declaration is its canonical form.  Two declarations come to the same setting if
they differ in the case of the name only, or in the value too where its case does not matter, and
in no other case (`declare_eq_iff`).  So the canonical form is reached in one step: the setting
declares itself.

The type belongs to the name in whatever case it is written (`type?_declare`), and a setting is
valid, and has a meaning, just as its type accepts the value and reads it (`check_eq_ok_iff`,
`meaning?_declare`).

The main statement is `declare_canonical`.
-/
import EditorSettings.Proofs.Keyed
import EditorSettings.Proofs.Setting.Basic

namespace EditorSettings

open EditorSettings.Text

/-! ## 1. Names up to case -/

theorem sameWord_iff {a b : String} : sameWord a b = true ↔ asciiLower a = asciiLower b :=
  beq_iff_eq

namespace Setting

theorem isCaseless_asciiLower_iff {name : String} :
    Name.isCaseless (asciiLower name) = true ↔ asciiLower name ∈ Name.caseless := by
  have hsmall : ∀ known ∈ Name.caseless, asciiLower known = known := by decide
  rw [Name.isCaseless, List.any_eq_true]
  constructor
  · rintro ⟨known, hknown, hsame⟩
    rw [sameWord_iff, hsmall known hknown, asciiLower_asciiLower] at hsame
    exact hsame ▸ hknown
  · intro h
    exact ⟨_, h, sameWord_iff.mpr rfl⟩

/-! ## 2. Declarations of the same setting -/

/-- Two values are kept as the same one if they are the same, or if their case does not matter and
they are lowered to the same text. -/
theorem canonicalValue_eq_iff {name value value' : String} :
    canonicalValue name value' = canonicalValue name value ↔
      value' = value ∨ Name.isCaseless name = true ∧ lower value' = lower value := by
  unfold canonicalValue
  by_cases hcase : Name.isCaseless name = true
  · rw [if_pos hcase, if_pos hcase]
    exact ⟨fun h => Or.inr ⟨hcase, h⟩, fun h => h.elim (congrArg lower) And.right⟩
  · rw [if_neg hcase, if_neg hcase]
    exact ⟨Or.inl, fun h => h.resolve_right fun ⟨hcaseless, _⟩ => hcase hcaseless⟩

/-- **When two declarations come to the same setting.** -/
theorem declare_eq_iff {r : Registry} {name name' value value' : String} :
    declare r name' value' = declare r name value ↔
      sameWord name' name = true ∧
        (value' = value ∨ asciiLower name ∈ Name.caseless ∧ lower value' = lower value) := by
  rw [sameWord_iff, ← isCaseless_asciiLower_iff, ← canonicalValue_eq_iff]
  constructor
  · intro h
    have hname := congrArg Setting.name h
    have hvalue := congrArg Setting.value h
    rw [name_declare, name_declare] at hname
    rw [value_declare, value_declare, hname] at hvalue
    exact ⟨hname, hvalue⟩
  · rintro ⟨hname, hvalue⟩
    rw [declare, declare, hname, hvalue]

end Setting

/-! ## 3. Types and meanings -/

/-- A type accepts the texts that it can read, and with what it reads. -/
theorem SettingType.check_eq_ok_iff {t : SettingType} {text : String} {v : Value} :
    t.check text = .ok v ↔ t.read? text = some v := by
  unfold check
  cases t.read? text with
  | none => exact ⟨nofun, nofun⟩
  | some w => exact ⟨fun h => congrArg some (Except.ok.inj h),
      fun h => congrArg Except.ok (Option.some.inj h)⟩

/-- A type is found under its own name. -/
theorem Registry.name_of_type? {r : Registry} {name : String} {t : SettingType}
    (h : r.type? name = some t) : t.name = asciiLower name := Keyed.key_of_find? h

namespace Setting

section

variable {r : Registry} {name value : String}

/-- The type is found in whatever case the name is written. -/
theorem type?_declare : (declare r name value).type? = r.type? name := by
  rw [declare, Registry.type?, asciiLower_asciiLower]
  rfl

/-- **The meaning of a declaration** is what the type for its name reads from the value kept. -/
theorem meaning?_declare {v : Value} :
    (declare r name value).meaning? = some v ↔
      ∃ t, r.type? name = some t ∧ t.read? (declare r name value).value = some v := by
  rw [meaning?, type?_declare, Option.bind_eq_some_iff]

end

/-- **Settings are in canonical form, and typed.**  The setting that a name and a value declare
declares itself.  It is declared just as well by the same name in another case, and by another
value in the place of this one only if the setting is one of those whose values ignore case, and
both values are lowered to the same text.  It is valid exactly if the registry has a type for the
name, which bears the name of the setting, and this type accepts the value that is kept; and
exactly if it has a meaning, which is what the type reads from the value. -/
theorem declare_canonical (r : Registry) (name value : String) :
    declare r (declare r name value).name (declare r name value).value = declare r name value ∧
    (∀ name' value', declare r name' value' = declare r name value ↔
      sameWord name' name = true ∧
        (value' = value ∨ asciiLower name ∈ Name.caseless ∧ lower value' = lower value)) ∧
    ((declare r name value).isValid = true ↔
      ∃ t, r.type? name = some t ∧ t.name = (declare r name value).name ∧
        ∃ v, t.check (declare r name value).value = .ok v) ∧
    ((declare r name value).isValid = true ↔ ∃ v, (declare r name value).meaning? = some v) ∧
    (∀ v, (declare r name value).meaning? = some v ↔
      ∃ t, r.type? name = some t ∧ t.read? (declare r name value).value = some v) := by
  have hvalid : (declare r name value).isValid = true ↔
      ∃ v, (declare r name value).meaning? = some v := Option.isSome_iff_exists
  refine ⟨declare_declare r name value, fun _ _ => declare_eq_iff, ?_, hvalid,
    fun _ => meaning?_declare⟩
  rw [hvalid]
  simp only [meaning?_declare, SettingType.check_eq_ok_iff]
  constructor
  · rintro ⟨v, t, ht, hread⟩
    exact ⟨t, ht, Registry.name_of_type? ht, v, hread⟩
  · rintro ⟨t, ht, -, v, hread⟩
    exact ⟨v, t, ht, hread⟩

end Setting
end EditorSettings
