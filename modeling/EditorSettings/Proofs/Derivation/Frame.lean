/-
# What deriving leaves alone

However the three rules feed each other, what they do together is to declare one setting at most
(`derive_eq_insert`).  So every setting keeps its place, and it is kept itself, unless it is a size
of `tab` and there is the width of a tab to take its place (`Becomes`).  Behind the others one
setting may come that was not there before, a size or a width (`Follows`).

With the settings of the file format, a width that is copied keeps its meaning.

The main statement is `derive_keeps`.
-/
import EditorSettings.Proofs.Derivation
import EditorSettings.Proofs.Setting.Width
import Mathlib.Data.List.Forall2

namespace EditorSettings

open EditorSettings.Text

namespace Settings

open EditorSettings.Setting

/-! ## 1. The setting that is derived -/

/-- The setting that the second or the third rule declares. -/
def width? (r : Registry) : Option String → Option String → Option Setting
  | some size, none => if size = "tab" then none else some (declare r Name.tabWidth size)
  | some size, some width => if size = "tab" then some (declare r Name.indentSize width) else none
  | none, _ => none

theorem deriveWidth_eq_insert (r : Registry) (m : Settings) (size width : Option String) :
    m.deriveWidth r size width = (width? r size width).elim m m.insert := by
  cases size with
  | none => rfl
  | some size =>
    cases width with
    | none =>
      rw [deriveWidth, width?]
      split
      · rfl
      · rfl
    | some width =>
      rw [deriveWidth, width?]
      split
      · rfl
      · rfl

/-- The setting that all rules together declare, if there is one. -/
def derived? (r : Registry) (version : String) (m : Settings) : Option Setting :=
  if styleGivesSize version m then
    some (declare r Name.indentSize ((m.value? Name.tabWidth).getD "tab"))
  else width? r (m.value? Name.indentSize) (m.value? Name.tabWidth)

theorem derived?_of_isSome {version : String} {m : Settings} (r : Registry)
    (h : (m.value? Name.indentSize).isSome = true) :
    derived? r version m = width? r (m.value? Name.indentSize) (m.value? Name.tabWidth) := by
  rw [derived?, styleGivesSize_of_isSome h, if_neg (by decide)]

/-- **Deriving declares one setting at most.**  A size that follows from the style may be replaced
by a width at once, but both are declared under one name. -/
theorem derive_eq_insert (r : Registry) (version : String) (m : Settings) :
    m.derive r version = (derived? r version m).elim m m.insert := by
  unfold derived?
  cases hstyle : styleGivesSize version m with
  | true =>
    rw [derive, deriveSizeFromStyle, hstyle, if_pos rfl, if_pos rfl, if_pos rfl]
    cases m.value? Name.tabWidth with
    | none => rfl
    | some width =>
      have hname : (declare r Name.indentSize "tab").name =
          (declare r Name.indentSize width).name := rfl
      exact Keyed.insert_insert m hname
  | false =>
    rw [derive_eq_of_not r hstyle, settle, deriveWidth_eq_insert, if_neg (by decide)]

/-! ## 2. What becomes of the others -/

/-- What becomes of a setting when the widths are filled in. -/
inductive Becomes (r : Registry) (m : Settings) : Setting → Setting → Prop
  /-- It is kept. -/
  | kept {x : Setting}
      (h : x.name = Name.indentSize → x.value = "tab" → m.value? Name.tabWidth = none) :
      Becomes r m x x
  /-- A size of `tab` is replaced by the width of a tab. -/
  | replaced {x : Setting} {width : String} (name : x.name = Name.indentSize)
      (tab : x.value = "tab") (declared : m.value? Name.tabWidth = some width) :
      Becomes r m x ⟨Name.indentSize, lower width, r.type? Name.indentSize⟩

/-- What may follow the settings when the widths have been filled in. -/
inductive Follows (r : Registry) (version : String) (m : Settings) : List Setting → Prop
  | nothing : Follows r version m []
  /-- A size that the style implies. -/
  | size (absent : m.find? Name.indentSize = none)
      (style : m.value? Name.indentStyle = some "tab")
      (since : (Version.compare (.ofString version) (.ofString "0.10.0")).isGE = true) :
      Follows r version m
        [⟨Name.indentSize, lower ((m.value? Name.tabWidth).getD "tab"), r.type? Name.indentSize⟩]
  /-- A width that a size implies. -/
  | width {size : String} (absent : m.find? Name.tabWidth = none)
      (declared : m.value? Name.indentSize = some size) (other : size ≠ "tab") :
      Follows r version m [⟨Name.tabWidth, size, r.type? Name.tabWidth⟩]

theorem value?_of_mem {m : Settings} {x : Setting} (h : x ∈ m.toList) :
    m.value? x.name = some x.value := by
  rw [value?, Keyed.find?_of_mem h, Option.map_some]

theorem find?_eq_none_of_value? {m : Settings} {name : String} (h : m.value? name = none) :
    m.find? name = none := Option.map_eq_none_iff.mp h

/-- All settings are kept, unless there is a width for a size of `tab`. -/
theorem becomes_kept (r : Registry) {m : Settings}
    (h : m.value? Name.indentSize = some "tab" → m.value? Name.tabWidth = none) :
    List.Forall₂ (Becomes r m) m.toList m.toList := by
  refine List.forall₂_same.mpr fun x hx => .kept fun hname htab => h ?_
  rw [← hname, value?_of_mem hx, htab]

/-- A size of `tab` is replaced in its place, and the others are kept. -/
theorem becomes_replaced {r : Registry} {m : Settings} {width : String}
    (hsize : m.value? Name.indentSize = some "tab")
    (hwidth : m.value? Name.tabWidth = some width) :
    List.Forall₂ (Becomes r m) m.toList (m.insert (declare r Name.indentSize width)).toList := by
  have hthere : (m.find? Name.indentSize).isSome = true := by
    rw [← Option.isSome_map (f := Setting.value)]
    exact Option.isSome_of_eq_some hsize
  rw [declare_size, Keyed.toList_insert_of_isSome hthere, List.forall₂_map_right_iff,
    List.forall₂_same]
  intro x hx
  by_cases hname : x.name = Name.indentSize
  · have htab : some x.value = some "tab" := by rw [← value?_of_mem hx, hname, hsize]
    rw [if_pos hname]
    exact .replaced hname (Option.some.inj htab) hwidth
  · rw [if_neg hname]
    exact .kept fun h => absurd h hname

theorem styleGivesSize_iff {version : String} {m : Settings} :
    styleGivesSize version m = true ↔ m.value? Name.indentStyle = some "tab" ∧
      m.value? Name.indentSize = none ∧
      (Version.compare (.ofString version) (.ofString "0.10.0")).isGE = true := by
  have hsince : sizeFromStyleSince = .ofString "0.10.0" := by decide +kernel
  rw [styleGivesSize, Bool.and_eq_true, Bool.and_eq_true, beq_iff_eq, Option.isNone_iff_eq_none,
    hsince, and_assoc]

/-- **Every setting keeps its place**, a size of `tab` makes way for a width, and one setting at
most comes behind the others. -/
theorem exists_kept_append (r : Registry) (version : String) (m : Settings) :
    ∃ kept more, (m.derive r version).toList = kept ++ more ∧
      List.Forall₂ (Becomes r m) m.toList kept ∧ Follows r version m more := by
  rw [derive_eq_insert, derived?]
  cases hstyle : styleGivesSize version m with
  | true =>
    obtain ⟨htab, hsize, hsince⟩ := styleGivesSize_iff.mp hstyle
    have habsent : m.find? Name.indentSize = none := find?_eq_none_of_value? hsize
    have hkept := becomes_kept r (m := m) fun h => by
      rw [hsize] at h
      cases h
    refine ⟨m.toList, _, ?_, hkept, .size habsent htab hsince⟩
    rw [if_pos rfl, declare_size]
    exact Keyed.toList_insert_of_find?_eq_none habsent
  | false =>
    rw [if_neg (by decide)]
    cases hsize : m.value? Name.indentSize with
    | none =>
      have hkept := becomes_kept r (m := m) fun h => by
        rw [hsize] at h
        cases h
      exact ⟨m.toList, [], (List.append_nil _).symm, hkept, .nothing⟩
    | some size =>
      cases hwidth : m.value? Name.tabWidth with
      | none =>
        have hkept := becomes_kept r fun _ => hwidth
        by_cases htab : size = "tab"
        · rw [width?, if_pos htab]
          exact ⟨m.toList, [], (List.append_nil _).symm, hkept, .nothing⟩
        · have habsent : m.find? Name.tabWidth = none := find?_eq_none_of_value? hwidth
          rw [width?, if_neg htab, declare_width]
          exact ⟨m.toList, _, Keyed.toList_insert_of_find?_eq_none habsent, hkept,
            .width habsent hsize htab⟩
      | some width =>
        by_cases htab : size = "tab"
        · subst htab
          rw [width?, if_pos rfl]
          exact ⟨_, [], (List.append_nil _).symm, becomes_replaced hsize hwidth, .nothing⟩
        · rw [width?, if_neg htab]
          refine ⟨m.toList, [], (List.append_nil _).symm, becomes_kept r fun h => ?_, .nothing⟩
          exact absurd (Option.some.inj (hsize.symm.trans h)) htab

/-! ## 3. The meaning of a width that is copied -/

/-- What is derived stands under its name. -/
theorem find?_derive {r : Registry} {version : String} {m : Settings} {x : Setting}
    (h : derived? r version m = some x) : (m.derive r version).find? x.name = some x := by
  rw [derive_eq_insert, h, Option.elim_some, Keyed.find?_insert, Function.update_self]

section

variable {version : String} {m : Settings}

/-- A width means what the size means from which it is copied. -/
theorem exists_width_of_size (hdeclared : ∀ x ∈ m.toList, x.DeclaredBy .builtin) {size : Setting}
    (hsize : m.find? Name.indentSize = some size) (hother : size.value ≠ "tab")
    (hwidth : m.find? Name.tabWidth = none) :
    ∃ width, (m.derive .builtin version).find? Name.tabWidth = some width ∧
      width.meaning? = size.meaning? := by
  have hname := Keyed.key_of_find? hsize
  have hdecl : size.DeclaredBy .builtin := hdeclared size (List.mem_of_find?_eq_some hsize)
  have hlower : lower size.value = size.value := by
    have hvalue := congrArg Setting.value hdecl.declare_eq
    rwa [hname, declare_size] at hvalue
  have htab : sameWord size.value "tab" = false := by
    refine Bool.eq_false_iff.mpr fun htab => hother ?_
    rw [← hlower, lower_of_sameWord (by decide) htab]
    decide
  have hsize' : m.value? Name.indentSize = some size.value := congrArg _ hsize
  have hwidth' : m.value? Name.tabWidth = none := congrArg _ hwidth
  have hderived : derived? .builtin version m =
      some (declare .builtin Name.tabWidth size.value) := by
    rw [derived?_of_isSome .builtin (by rw [hsize']; rfl), hsize', hwidth', width?, if_neg hother]
  have hmeaning : size.meaning? = Kind.positiveIntOrTab.read? size.value :=
    hdecl.meaning?_eq Registry.size_mem_builtin hname
  have hcopied : DeclaredBy .builtin ⟨Name.tabWidth, size.value, _⟩ :=
    ⟨_, _, (declare_width _ _).symm⟩
  rw [declare_width] at hderived
  refine ⟨_, find?_derive hderived, ?_⟩
  rw [hcopied.meaning?_eq Registry.width_mem_builtin rfl, hmeaning, Kind.read?_positiveIntOrTab htab]

/-- A size means what the width of a tab means from which it is copied, if that is valid. -/
theorem exists_size_of_width (hdeclared : ∀ x ∈ m.toList, x.DeclaredBy .builtin) {width : Setting}
    (hwidth : m.find? Name.tabWidth = some width)
    (hsize : m.value? Name.indentSize = some "tab" ∨ styleGivesSize version m = true)
    (hvalid : width.isValid = true) :
    ∃ size, (m.derive .builtin version).find? Name.indentSize = some size ∧
      size.meaning? = width.meaning? := by
  obtain ⟨value, hvalue⟩ := Option.isSome_iff_exists.mp hvalid
  have hmeaning : width.meaning? = Kind.positiveInt.read? width.value :=
    (hdeclared width (List.mem_of_find?_eq_some hwidth)).meaning?_eq Registry.width_mem_builtin
      (Keyed.key_of_find? hwidth)
  obtain ⟨hlower, htab⟩ := Kind.read?_lower_of_positiveInt (hmeaning.symm.trans hvalue)
  have hwidth' : m.value? Name.tabWidth = some width.value := congrArg _ hwidth
  have hderived : derived? .builtin version m =
      some (declare .builtin Name.indentSize width.value) := by
    cases hstyle : styleGivesSize version m with
    | true => rw [derived?, hstyle, if_pos rfl, hwidth', Option.getD_some]
    | false =>
      have hsize' := hsize.resolve_right (hstyle ▸ Bool.false_ne_true)
      rw [derived?, hstyle, if_neg (by decide), hsize', hwidth', width?, if_pos rfl]
  have hcopied : DeclaredBy .builtin ⟨Name.indentSize, lower width.value, _⟩ :=
    ⟨_, _, (declare_size _ _).symm⟩
  rw [declare_size] at hderived
  refine ⟨_, find?_derive hderived, ?_⟩
  rw [hcopied.meaning?_eq Registry.size_mem_builtin rfl, Kind.read?_positiveIntOrTab htab, hlower,
    hvalue]

end

/-- **Deriving changes nothing that it should not.**  Every setting keeps its place and is kept
itself, unless it is a size of `tab` for which there is a width; and one size or one width may
follow, where there was none.  With the settings of the file format, a width that is copied from a
valid setting gives a valid setting of the same meaning. -/
theorem derive_keeps (r : Registry) (version : String) (m : Settings) :
    (∃ kept more, (m.derive r version).toList = kept ++ more ∧
      List.Forall₂ (Becomes r m) m.toList kept ∧ Follows r version m more) ∧
    ((∀ x ∈ m.toList, x.DeclaredBy .builtin) →
      (∀ size, m.find? Name.indentSize = some size → size.value ≠ "tab" →
        m.find? Name.tabWidth = none → size.isValid = true →
        ∃ width, (m.derive .builtin version).find? Name.tabWidth = some width ∧
          width.isValid = true ∧ width.meaning? = size.meaning?) ∧
      ∀ width, m.find? Name.tabWidth = some width →
        m.value? Name.indentSize = some "tab" ∨ styleGivesSize version m = true →
        width.isValid = true →
        ∃ size, (m.derive .builtin version).find? Name.indentSize = some size ∧
          size.isValid = true ∧ size.meaning? = width.meaning?) := by
  refine ⟨exists_kept_append r version m, fun hdeclared => ⟨?_, ?_⟩⟩
  · intro size hsize hother hwidth hvalid
    obtain ⟨width, hfound, hmeaning⟩ := exists_width_of_size hdeclared hsize hother hwidth
    exact ⟨width, hfound, by rwa [isValid, hmeaning], hmeaning⟩
  · intro width hwidth hsize hvalid
    obtain ⟨size, hfound, hmeaning⟩ := exists_size_of_width hdeclared hwidth hsize hvalid
    exact ⟨size, hfound, by rwa [isValid, hmeaning], hmeaning⟩

/-- The settings that the pairs of a name and a value declare, in order. -/
def declareAll (r : Registry) (pairs : List (String × String)) : Settings :=
  Keyed.empty.insertAll (pairs.map fun pair => declare r pair.1 pair.2)

theorem declaredBy_declareAll (r : Registry) (pairs : List (String × String)) :
    ∀ x ∈ (declareAll r pairs).toList, x.DeclaredBy r :=
  Keyed.forall_mem_insertAll (fun _ hx => absurd hx List.not_mem_nil)
    (List.forall_mem_map.mpr fun pair _ => ⟨pair.1, pair.2, rfl⟩)

theorem derive_keeps_four_and_eight :
    (∃ width, ((declareAll .builtin [("indent_size", "4"), ("charset", "latin1")]).derive
        .builtin "0.9.0").find? Name.tabWidth = some width ∧ width.isValid = true ∧
        width.meaning? = some (.int 4)) ∧
    ∃ size, ((declareAll .builtin [("Indent_Size", "TAB"), ("tab_width", "8")]).derive
        .builtin "0.9.0").find? Name.indentSize = some size ∧ size.isValid = true ∧
        size.meaning? = some (.int 8) := by
  have hwidth := ((derive_keeps .builtin "0.9.0" (declareAll .builtin
    [("indent_size", "4"), ("charset", "latin1")])).2 (declaredBy_declareAll _ _)).1
    (declare .builtin "indent_size" "4") (by decide +kernel) (by decide +kernel)
    (by decide +kernel) (by decide +kernel)
  have hsize := ((derive_keeps .builtin "0.9.0" (declareAll .builtin
    [("Indent_Size", "TAB"), ("tab_width", "8")])).2 (declaredBy_declareAll _ _)).2
    (declare .builtin "tab_width" "8") (by decide +kernel) (.inl (by decide +kernel))
    (by decide +kernel)
  have hfour : (declare .builtin "indent_size" "4").meaning? = some (.int 4) := by decide +kernel
  have height : (declare .builtin "tab_width" "8").meaning? = some (.int 8) := by decide +kernel
  rw [hfour] at hwidth
  rw [height] at hsize
  exact ⟨hwidth, hsize⟩

end Settings
end EditorSettings
