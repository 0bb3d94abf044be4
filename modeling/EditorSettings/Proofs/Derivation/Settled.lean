/-
# Settings that imply nothing more

Three conditions say that none of the rules has anything left to do (`Settled`): an indentation by
tabs has a size, a size that is not `tab` has a width beside it, and a size of `tab` has none, or
one that is `tab` again.

Settings to which the rules do nothing are settled (`settled_of_derive_eq`), since whatever is
derived stands under its name afterwards.  Deriving twice is deriving once, so what is derived is
settled.  For settings that are all declared with one registry, the converse holds too
(`derive_eq_self_iff`).

The main statement is `derive_settles`.
-/
import EditorSettings.Proofs.Derivation.Frame

namespace EditorSettings

open EditorSettings.Text

namespace Settings

open EditorSettings.Setting

/-- None of the rules has anything left to do. -/
structure Settled (version : String) (m : Settings) : Prop where
  size : m.value? Name.indentStyle = some "tab" →
    (Version.compare (.ofString version) (.ofString "0.10.0")).isGE = true →
    (m.find? Name.indentSize).isSome = true
  width : ∀ {size}, m.value? Name.indentSize = some size → size ≠ "tab" →
    (m.find? Name.tabWidth).isSome = true
  tab : ∀ {width}, m.value? Name.indentSize = some "tab" → m.value? Name.tabWidth = some width →
    lower width = "tab"

/-! ## 1. Settled settings are the fixed points -/

/-- Where deriving does nothing, what it derives is there already. -/
theorem find?_of_derive_eq {r : Registry} {version : String} {m : Settings} {x : Setting}
    (h : m.derive r version = m) (hx : derived? r version m = some x) :
    m.find? x.name = some x := by
  have hfound := find?_derive hx
  rwa [h] at hfound

theorem settled_of_derive_eq {r : Registry} {version : String} {m : Settings}
    (h : m.derive r version = m) : m.Settled version where
  size hstyle hsince := by
    by_contra hsize
    have hnone : m.find? Name.indentSize = none := Option.not_isSome_iff_eq_none.mp hsize
    have hgives : styleGivesSize version m = true :=
      styleGivesSize_iff.mpr ⟨hstyle, congrArg _ hnone, hsince⟩
    have hthere := find?_of_derive_eq h (by rw [derived?, hgives, if_pos rfl])
    rw [declare_size, hnone] at hthere
    cases hthere
  width := by
    intro size hsize htab
    by_contra hwidth
    have hnone : m.find? Name.tabWidth = none := Option.not_isSome_iff_eq_none.mp hwidth
    have hnone' : m.value? Name.tabWidth = none := congrArg _ hnone
    have hderived : derived? r version m = some (declare r Name.tabWidth size) := by
      rw [derived?_of_isSome r (by rw [hsize]; rfl), hsize, hnone', width?, if_neg htab]
    have hthere := find?_of_derive_eq h hderived
    rw [declare_width, hnone] at hthere
    cases hthere
  tab := by
    intro width hsize hwidth
    have hderived : derived? r version m = some (declare r Name.indentSize width) := by
      rw [derived?_of_isSome r (by rw [hsize]; rfl), hsize, hwidth, width?, if_pos rfl]
    have hthere := find?_of_derive_eq h hderived
    rw [declare_size] at hthere
    rw [value?, hthere, Option.map_some] at hsize
    exact Option.some.inj hsize

theorem settled_derive (r : Registry) (version : String) (m : Settings) :
    (m.derive r version).Settled version :=
  settled_of_derive_eq (derive_derive r version m)

/-- **Settings that are all declared with one registry are settled if and only if deriving keeps
them.** -/
theorem derive_eq_self_iff {r : Registry} {m : Settings} (version : String)
    (hdeclared : ∀ x ∈ m.toList, x.DeclaredBy r) :
    m.derive r version = m ↔ m.Settled version := by
  refine ⟨settled_of_derive_eq, fun h => ?_⟩
  have hstyle : styleGivesSize version m = false := by
    refine Bool.eq_false_iff.mpr fun hgives => ?_
    obtain ⟨htab, hnone, hsince⟩ := styleGivesSize_iff.mp hgives
    have hsize := h.size htab hsince
    rw [find?_eq_none_of_value? hnone] at hsize
    cases hsize
  rw [derive_eq_insert, derived?, hstyle, if_neg (by decide)]
  cases hsize : m.value? Name.indentSize with
  | none => rfl
  | some size =>
    cases hwidth : m.value? Name.tabWidth with
    | none =>
      have htab : size = "tab" := by
        by_contra hother
        have hthere := h.width hsize hother
        rw [find?_eq_none_of_value? hwidth] at hthere
        cases hthere
      rw [width?, if_pos htab]
      rfl
    | some width =>
      by_cases htab : size = "tab"
      · -- the size that is declared from the width is the one that is there
        subst htab
        obtain ⟨x, hx, hvalue⟩ := Option.map_eq_some_iff.mp hsize
        have hsame : declare r Name.indentSize width = x := by
          rw [← (hdeclared x (List.mem_of_find?_eq_some hx)).declare_eq, Keyed.key_of_find? hx,
            hvalue, declare_size, declare_size, h.tab hsize hwidth, lower_tab]
        rw [width?, if_pos rfl, hsame]
        exact Keyed.insert_of_find? (by rw [Keyed.key_of_find? hx, hx])
      · rw [width?, if_neg htab]
        rfl

/-! ## 2. What deriving leaves -/

/-- **Deriving reaches a fixed point at once.**  What is derived implies nothing more, and it is
settled.  With the settings of the file format, no size of `tab` is left beside a valid width. -/
theorem derive_settles (r : Registry) (version : String) (m : Settings) :
    (m.derive r version).derive r version = m.derive r version ∧
    (m.derive r version).Settled version ∧
    ((∀ x ∈ m.toList, x.DeclaredBy .builtin) →
      ¬ ∃ width, (m.derive .builtin version).value? Name.indentSize = some "tab" ∧
        (m.derive .builtin version).find? Name.tabWidth = some width ∧ width.isValid = true) := by
  refine ⟨derive_derive r version m, settled_derive r version m, fun hdeclared => ?_⟩
  rintro ⟨width, hsize, hwidth, hvalid⟩
  have hall : ∀ x ∈ (m.derive .builtin version).toList, x.DeclaredBy .builtin :=
    forall_mem_derive ⟨_, _, rfl⟩ (fun _ _ => ⟨_, _, rfl⟩) (fun _ _ => ⟨_, _, rfl⟩) hdeclared
      version
  obtain ⟨value, hvalue⟩ := Option.isSome_iff_exists.mp hvalid
  have hmeaning : width.meaning? = Kind.positiveInt.read? width.value :=
    (hall width (List.mem_of_find?_eq_some hwidth)).meaning?_eq Registry.width_mem_builtin
      (Keyed.key_of_find? hwidth)
  have htab : lower width.value = "tab" :=
    (settled_derive .builtin version m).tab hsize (congrArg _ hwidth)
  have hno := (Kind.read?_lower_of_positiveInt (hmeaning.symm.trans hvalue)).2
  rw [htab] at hno
  exact absurd hno (by decide)

theorem derive_settles_capital_tab :
    ¬ ∃ width,
      ((declareAll .builtin [("indent_style", "tab"), ("tab_width", "TAB")]).derive .builtin
        "0.12.0").value? Name.indentSize = some "tab" ∧
      ((declareAll .builtin [("indent_style", "tab"), ("tab_width", "TAB")]).derive .builtin
        "0.12.0").find? Name.tabWidth = some width ∧ width.isValid = true :=
  (derive_settles .builtin "0.12.0"
    (declareAll .builtin [("indent_style", "tab"), ("tab_width", "TAB")])).2.2
    (declaredBy_declareAll _ _)

end Settings
end EditorSettings
