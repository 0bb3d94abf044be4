/-
# Deriving is done once

The rules for widths are applied once, in their order, and that is enough: applying them to their
own result changes nothing (`derive_derive`).  The proof separates the first rule from the other
two (`derive_eq_settle`).  The first rule cannot apply twice, since it gives the size whose absence
it asks for; the other two each leave a state in which neither changes anything
(`settle_settle`).

What is derived is declared from a value that was there already, or from the word `tab`
(`forall_mem_derive`).
-/
import EditorSettings.Derivation
import EditorSettings.Proofs.Keyed
import EditorSettings.Proofs.Setting.Basic

namespace EditorSettings

open EditorSettings.Text

namespace Settings

open EditorSettings.Setting

/-! ## 1. Values under a name -/

theorem value?_insert (m : Settings) (x : Setting) (name : String) :
    value? (m.insert x) name = if name = x.name then some x.value else m.value? name := by
  rw [value?, Keyed.find?_insert, Function.update_apply]
  split
  · rfl
  · rfl

theorem lower_tab : lower "tab" = "tab" := by decide +kernel

/-- The case of a size does not matter. -/
theorem declare_size (r : Registry) (value : String) :
    declare r Name.indentSize value =
      ⟨Name.indentSize, lower value, r.type? Name.indentSize⟩ := by
  have hcase : Name.isCaseless Name.indentSize = true := by decide +kernel
  rw [declare_of_small (by decide), canonicalValue, hcase, if_pos rfl]

/-- The width of a tab is kept as written. -/
theorem declare_width (r : Registry) (value : String) :
    declare r Name.tabWidth value = ⟨Name.tabWidth, value, r.type? Name.tabWidth⟩ := by
  have hcase : Name.isCaseless Name.tabWidth = false := by decide +kernel
  rw [declare_of_small (by decide), canonicalValue, hcase, if_neg (by decide)]

/-! ## 2. The second and the third rule -/

/-- The second and the third rule. -/
def settle (r : Registry) (m : Settings) : Settings :=
  m.deriveWidth r (m.value? Name.indentSize) (m.value? Name.tabWidth)

/-- One of the two rules applies, or neither. -/
theorem settle_cases (r : Registry) (m : Settings) :
    settle r m = m ∨
    (∃ size, m.value? Name.indentSize = some size ∧ size ≠ "tab" ∧
      settle r m = m.insert (declare r Name.tabWidth size)) ∨
    (∃ width, m.value? Name.indentSize = some "tab" ∧ m.value? Name.tabWidth = some width ∧
      settle r m = m.insert (declare r Name.indentSize width)) := by
  unfold settle
  cases hsize : m.value? Name.indentSize with
  | none => exact Or.inl (by rw [deriveWidth])
  | some size =>
    cases hwidth : m.value? Name.tabWidth with
    | none =>
      by_cases htab : size = "tab"
      · exact Or.inl (by rw [deriveWidth, if_pos htab])
      · exact Or.inr (Or.inl ⟨size, rfl, htab, by rw [deriveWidth, if_neg htab]⟩)
    | some width =>
      by_cases htab : size = "tab"
      · subst htab
        exact Or.inr (Or.inr ⟨width, rfl, rfl, by rw [deriveWidth, if_pos rfl]⟩)
      · exact Or.inl (by rw [deriveWidth, if_neg htab])

theorem settle_eq_self_of_width {r : Registry} {m : Settings} {size width : String}
    (hsize : m.value? Name.indentSize = some size) (htab : size ≠ "tab")
    (hwidth : m.value? Name.tabWidth = some width) : settle r m = m := by
  rw [settle, hsize, hwidth, deriveWidth, if_neg htab]

/-- **Neither rule applies to what one of them has made.** -/
theorem settle_settle (r : Registry) (m : Settings) : settle r (settle r m) = settle r m := by
  have hne : Name.indentSize ≠ Name.tabWidth := by decide
  rcases settle_cases r m with h | ⟨size, hsize, htab, h⟩ | ⟨width, hsize, hwidth, h⟩
  · rw [h, h]
  · -- the width is there now, and the size is no `tab`
    have hsize' : value? (m.insert (declare r Name.tabWidth size)) Name.indentSize = some size := by
      rw [declare_width, value?_insert, if_neg hne, hsize]
    have hwidth' : value? (m.insert (declare r Name.tabWidth size)) Name.tabWidth = some size := by
      rw [declare_width, value?_insert, if_pos rfl]
    rw [h]
    exact settle_eq_self_of_width hsize' htab hwidth'
  · have hsize' : value? (m.insert (declare r Name.indentSize width)) Name.indentSize =
        some (lower width) := by
      rw [declare_size, value?_insert, if_pos rfl]
    have hwidth' : value? (m.insert (declare r Name.indentSize width)) Name.tabWidth =
        some width := by
      rw [declare_size, value?_insert, if_neg hne.symm, hwidth]
    rw [h]
    by_cases htab : lower width = "tab"
    · rw [settle, hsize', hwidth', deriveWidth, if_pos htab]
      exact Keyed.insert_insert m rfl
    · exact settle_eq_self_of_width hsize' htab hwidth'

/-! ## 3. All rules -/

theorem styleGivesSize_of_isSome {version : String} {m : Settings}
    (h : (m.value? Name.indentSize).isSome = true) : styleGivesSize version m = false := by
  obtain ⟨size, hsize⟩ := Option.isSome_iff_exists.mp h
  rw [styleGivesSize, hsize, Option.isNone_some, Bool.and_false, Bool.false_and]

/-- Where the first rule does not apply, the other two are all there is. -/
theorem derive_eq_of_not {version : String} {m : Settings} (r : Registry)
    (h : styleGivesSize version m = false) : m.derive r version = settle r m := by
  rw [derive, deriveSizeFromStyle, h]
  rfl

/-- The rules are the first one, and then the other two on its result. -/
theorem derive_eq_settle (r : Registry) (version : String) (m : Settings) :
    m.derive r version = settle r (m.deriveSizeFromStyle r version) := by
  cases h : styleGivesSize version m with
  | false =>
    rw [derive_eq_of_not r h, deriveSizeFromStyle, h]
    rfl
  | true =>
    have hne : Name.tabWidth ≠ Name.indentSize := by decide
    have hsize : value? (m.insert (declare r Name.indentSize "tab")) Name.indentSize =
        some "tab" := by
      rw [declare_size, value?_insert, if_pos rfl, lower_tab]
    have hwidth : value? (m.insert (declare r Name.indentSize "tab")) Name.tabWidth =
        m.value? Name.tabWidth := by
      rw [declare_size, value?_insert, if_neg hne]
    rw [derive, deriveSizeFromStyle, h, if_pos rfl, if_pos rfl, settle, hsize, hwidth]

theorem styleGivesSize_deriveSizeFromStyle (r : Registry) (version : String) (m : Settings) :
    styleGivesSize version (m.deriveSizeFromStyle r version) = false := by
  unfold deriveSizeFromStyle
  split
  · refine styleGivesSize_of_isSome ?_
    rw [declare_size, value?_insert, if_pos rfl, Option.isSome_some]
  · rename_i h
    exact Bool.not_eq_true _ |>.mp h

/-- The other rules keep a size, and the style. -/
theorem styleGivesSize_settle {r : Registry} {version : String} {m : Settings}
    (h : styleGivesSize version m = false) : styleGivesSize version (settle r m) = false := by
  rcases settle_cases r m with hm | ⟨size, hsize, -, hm⟩ | ⟨width, -, -, hm⟩
  · rw [hm, h]
  · refine styleGivesSize_of_isSome ?_
    have hne : Name.indentSize ≠ Name.tabWidth := by decide
    rw [hm, declare_width, value?_insert, if_neg hne, hsize, Option.isSome_some]
  · refine styleGivesSize_of_isSome ?_
    rw [hm, declare_size, value?_insert, if_pos rfl, Option.isSome_some]

/-- **What has been derived implies nothing more.** -/
theorem derive_derive (r : Registry) (version : String) (m : Settings) :
    (m.derive r version).derive r version = m.derive r version := by
  have hstyle := styleGivesSize_deriveSizeFromStyle r version m
  rw [derive_eq_settle r version m, derive_eq_of_not r (styleGivesSize_settle hstyle),
    settle_settle]

/-! ## 4. What is derived -/

theorem exists_of_value?_eq_some {m : Settings} {name value : String}
    (h : m.value? name = some value) : ∃ x ∈ m.toList, x.value = value := by
  obtain ⟨x, hx, rfl⟩ := Option.map_eq_some_iff.mp h
  exact ⟨x, List.mem_of_find?_eq_some hx, rfl⟩

theorem isName_indentSize : IsName Name.indentSize.toList := by decide

theorem isName_tabWidth : IsName Name.tabWidth.toList := by decide

/-- **What is derived is declared from a value that was there**, or from the word `tab`. -/
theorem forall_mem_derive {p : Setting → Prop} {r : Registry}
    (htab : p (declare r Name.indentSize "tab"))
    (hsize : ∀ x, p x → p (declare r Name.indentSize x.value))
    (hwidth : ∀ x, p x → p (declare r Name.tabWidth x.value)) {m : Settings}
    (h : ∀ x ∈ m.toList, p x) (version : String) :
    ∀ x ∈ (m.derive r version).toList, p x := by
  have hstyle : ∀ x ∈ (m.deriveSizeFromStyle r version).toList, p x := by
    unfold deriveSizeFromStyle
    split
    · exact Keyed.forall_mem_insert h htab
    · exact h
  rw [derive_eq_settle]
  rcases settle_cases r (m.deriveSizeFromStyle r version) with hm | ⟨size, hs, -, hm⟩ |
    ⟨width, -, hw, hm⟩
  · rw [hm]
    exact hstyle
  · obtain ⟨x, hx, rfl⟩ := exists_of_value?_eq_some hs
    rw [hm]
    exact Keyed.forall_mem_insert hstyle (hwidth x (hstyle x hx))
  · obtain ⟨x, hx, rfl⟩ := exists_of_value?_eq_some hw
    rw [hm]
    exact Keyed.forall_mem_insert hstyle (hsize x (hstyle x hx))

/-- Settings that are read from lines can still be read from lines after deriving. -/
theorem readable_derive {r : Registry} {m : Settings} (h : ∀ x ∈ m.toList, x.Readable r)
    (version : String) : ∀ x ∈ (m.derive r version).toList, x.Readable r := by
  have hsize : ∀ {value : String}, IsValue value.toList →
      (declare r Name.indentSize value).Readable r := fun hv =>
    readable_declare r isName_indentSize hv (by decide)
  exact forall_mem_derive (hsize (by decide)) (fun x hx => hsize hx.value)
    (fun x hx => readable_declare r isName_tabWidth hx.value (by decide)) h version

end Settings
end EditorSettings
