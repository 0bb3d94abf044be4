/-
# A width under another name

The size of an indentation and the width of a tab are given each other's values.  They are not of
one kind: a size may be `tab` as well, and its case does not matter.  Neither concerns a value that
is an integer or `unset`.  A value of a tab, in lower case, means the same as a size
(`read?_lower_of_positiveInt`), and a size that is not `tab` means the same for a tab
(`read?_positiveIntOrTab`).

Lowering follows the table of all letters, while words ignore the case of ASCII letters only.  Both
are the same on ASCII texts (`lower_of_isAscii`), and what is the same word as an ASCII text is one
itself (`lower_of_sameWord`).
-/
import EditorSettings.Proofs.Keyed
import EditorSettings.Proofs.Setting.Basic
import EditorSettings.Proofs.Text.Decimal

namespace EditorSettings

open EditorSettings.Text

/-! ## 1. ASCII texts in lower case -/

namespace Text

/-- All characters are ASCII characters. -/
def IsAscii (s : List Char) : Prop := ∀ c ∈ s, c.toNat < 128

instance (s : List Char) : Decidable (IsAscii s) :=
  List.decidableBAll (fun c : Char => c.toNat < 128) s

theorem lowerChar_of_ascii {c : Char} (h : c.toNat < 128) : lowerChar c = [c.toLower] := by
  -- they are few enough to look each of them up in the table
  have hall : ∀ n < 128, lowerChar (Char.ofNat n) = [(Char.ofNat n).toLower] := by
    decide +kernel
  have hc := hall c.toNat h
  rwa [Char.ofNat_toNat] at hc

theorem lowerAfter_of_isAscii {s : List Char} (h : IsAscii s) (before : List Char) :
    lowerAfter before s = s.map Char.toLower := by
  induction s generalizing before with
  | nil => rfl
  | cons c s ih =>
    obtain ⟨hc, hs⟩ := List.forall_mem_cons.mp h
    have hsigma : c ≠ '\u03a3' := by
      rintro rfl
      exact absurd hc (by decide)
    rw [lowerAfter, if_neg hsigma, lowerChar_of_ascii hc, ih hs, List.singleton_append,
      List.map_cons]

/-- **On ASCII texts, only the ASCII letters are lowered.** -/
theorem lower_of_isAscii {s : String} (h : IsAscii s.toList) : lower s = asciiLower s := by
  rw [lower, lowerAfter_of_isAscii h, asciiLower]

/-- Only an ASCII character becomes one when its case is ignored. -/
theorem toNat_lt_of_toLower {c : Char} (h : c.toLower.toNat < 128) : c.toNat < 128 := by
  unfold Char.toLower at h
  split at h
  · rename_i hrange
    have hle : c.toNat ≤ 90 := UInt32.le_iff_toNat_le.mp hrange.2
    omega
  · exact h

/-- **What is the same word as an ASCII text** is lowered to it. -/
theorem lower_of_sameWord {s w : String} (hw : IsAscii (asciiLower w).toList)
    (h : sameWord s w = true) : lower s = asciiLower w := by
  have hlower : asciiLower s = asciiLower w := beq_iff_eq.mp h
  have hs : IsAscii s.toList := by
    rw [← hlower, asciiLower, String.toList_ofList] at hw
    exact fun c hc => toNat_lt_of_toLower (hw _ (List.mem_map_of_mem hc))
  rw [lower_of_isAscii hs, hlower]

/-- A run of digits has no case. -/
theorem lower_of_isDigit {s : String} (h : ∀ c ∈ s.toList, isDigit c = true) : lower s = s := by
  have hdigit : ∀ c ∈ s.toList, c.toNat < 128 ∧ c.toLower = c := by
    intro c hc
    have hrange := h c hc
    rw [isDigit, Bool.and_eq_true, decide_eq_true_iff, decide_eq_true_iff] at hrange
    have hle : c.toNat ≤ 57 := UInt32.le_iff_toNat_le.mp hrange.2
    have hcase : ¬ (c.val ≥ 'A'.val ∧ c.val ≤ 'Z'.val) := by
      rintro ⟨hge, -⟩
      have hge' : 65 ≤ c.toNat := UInt32.le_iff_toNat_le.mp hge
      omega
    exact ⟨by omega, dif_neg hcase⟩
  have hmap : s.toList.map Char.toLower = s.toList :=
    (List.map_congr_left fun c hc => (hdigit c hc).2).trans (List.map_id' s.toList)
  rw [lower_of_isAscii fun c hc => (hdigit c hc).1, asciiLower, hmap, String.ofList_toList]

/-- A run of digits is no word of small ASCII letters. -/
theorem sameWord_of_isDigit {s w : String} (hs : ∀ c ∈ s.toList, isDigit c = true)
    (hw : IsAscii (asciiLower w).toList ∧ asciiLower w = w ∧ w.toList.all isDigit = false) :
    sameWord s w = false := by
  obtain ⟨hascii, hsmall, hdigit⟩ := hw
  refine Bool.eq_false_iff.mpr fun hsame => ?_
  have hlower : lower s = asciiLower w := lower_of_sameWord hascii hsame
  rw [lower_of_isDigit hs, hsmall] at hlower
  rw [← hlower, List.all_eq_true.mpr hs] at hdigit
  cases hdigit

end Text

/-! ## 2. Values of the two kinds -/

namespace Kind

/-- A size that is not `tab` is read as the width of a tab is. -/
theorem read?_positiveIntOrTab {s : String} (h : sameWord s "tab" = false) :
    positiveIntOrTab.read? s = positiveInt.read? s := by
  simp only [read?, readOwn?, h]
  rfl

/-- A value of a tab is `unset` or a run of digits. -/
theorem unset_or_digits_of_read? {s : String} {x : Value} (h : positiveInt.read? s = some x) :
    sameWord s "unset" = true ∨ s.toList ≠ [] ∧ ∀ c ∈ s.toList, isDigit c = true := by
  unfold read? at h
  split at h
  · rename_i hunset
    exact Or.inl hunset
  · obtain ⟨n, hn, -⟩ := Option.map_eq_some_iff.mp h
    obtain ⟨hne, hdigits, -⟩ := natural?_eq_some_iff.mp (Option.mem_filter_iff.mp hn).1
    exact Or.inr ⟨hne, hdigits⟩

/-- **A value of a tab means the same in lower case**, and it is no `tab`. -/
theorem read?_lower_of_positiveInt {s : String} {x : Value} (h : positiveInt.read? s = some x) :
    positiveInt.read? (lower s) = some x ∧ sameWord (lower s) "tab" = false := by
  rcases unset_or_digits_of_read? h with hunset | ⟨hne, hdigits⟩
  · have hlower : lower s = "unset" := lower_of_sameWord (by decide) hunset
    rw [read?, if_pos hunset] at h
    rw [hlower, ← h]
    exact ⟨by decide, by decide⟩
  · rw [lower_of_isDigit hdigits]
    exact ⟨h, sameWord_of_isDigit hdigits (by decide)⟩

end Kind

/-! ## 3. The settings of the file format -/

/-- Every type of the file format is found under its name. -/
theorem Registry.type?_of_mem_builtin {t : SettingType} (ht : t ∈ builtin.toList) :
    builtin.type? t.name = some t := by
  have hsmall : ∀ t ∈ builtin.toList, asciiLower t.name = t.name := by decide +kernel
  rw [type?, hsmall t ht]
  exact Keyed.find?_of_mem ht

theorem Registry.size_mem_builtin :
    ⟨Setting.Name.indentSize, .positiveIntOrTab⟩ ∈ builtin.toList := by
  decide

theorem Registry.width_mem_builtin : ⟨Setting.Name.tabWidth, .positiveInt⟩ ∈ builtin.toList := by
  decide

namespace Setting

/-- The setting has been declared, with this registry. -/
def DeclaredBy (r : Registry) (x : Setting) : Prop := ∃ name value, x = declare r name value

theorem DeclaredBy.declare_eq {r : Registry} {x : Setting} (h : x.DeclaredBy r) :
    declare r x.name x.value = x := by
  obtain ⟨name, value, rfl⟩ := h
  exact declare_declare r name value

theorem DeclaredBy.type?_eq {r : Registry} {x : Setting} (h : x.DeclaredBy r) :
    x.type? = r.type? x.name := by
  obtain ⟨name, value, rfl⟩ := h
  rfl

/-- A declared setting of the file format means what its kind reads from the value. -/
theorem DeclaredBy.meaning?_eq {x : Setting} (h : x.DeclaredBy .builtin) {name : String}
    {kind : Kind} (ht : ⟨name, kind⟩ ∈ Registry.builtin.toList) (hname : x.name = name) :
    x.meaning? = kind.read? x.value := by
  rw [meaning?, h.type?_eq, hname, Registry.type?_of_mem_builtin ht, Option.bind_some]
  rfl

end Setting
end EditorSettings
