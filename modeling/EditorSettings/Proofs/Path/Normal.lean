/-
# Normal forms of paths

A path is brought into its normal form by cancelling steps: a `.` is dropped, a `..` cancels the
name before it, and at the root it cancels nothing.  Each of these is one step of a rewriting
(`Cancels`).  In whatever order it is done, the same names remain (`remain_iff`), and the normal
form of a path is the root with these names behind it (`absolute_eq_ofNames`).

A path that is made of names has just these names for steps (`components_ofNames`), and its
parent is made of all of them but the last (`directory?_ofNames_concat`).  So the directories above
it are made of the beginnings of its names.
-/
import EditorSettings.Path.Normal
import EditorSettings.Path.Parent
import Mathlib.Data.List.Infix
import Mathlib.Logic.Relation

namespace EditorSettings.Path

open EditorSettings.Text

/-! ## 1. Pieces of a text -/

theorem pieces_eq_splitOn (sep : Char) (s : List Char) : pieces sep s = s.splitOn sep := by
  induction s with
  | nil => rw [pieces, List.splitOn_nil]
  | cons c s ih =>
    rw [pieces, List.splitOn_cons_eq_if_modifyHead, ih]
    by_cases hc : c = sep
    · rw [if_pos hc, if_pos (beq_iff_eq.mpr hc)]
    · rw [if_neg hc, if_neg (mt beq_iff_eq.mp hc)]
      cases h : s.splitOn sep with
      | nil => exact absurd h (List.splitOn_ne_nil sep s)
      | cons piece more => rfl

theorem not_mem_of_mem_pieces {sep : Char} {s : List Char} :
    ∀ piece ∈ pieces sep s, sep ∉ piece := by
  fun_induction pieces sep s with
  | case1 => simp
  | case2 rest ih => exact List.forall_mem_cons.mpr ⟨List.not_mem_nil, ih⟩
  | case3 c rest hc h ih => exact absurd h (pieces_ne_nil sep rest)
  | case4 c rest hc piece more h ih =>
    rw [h] at ih
    obtain ⟨hpiece, hmore⟩ := List.forall_mem_cons.mp ih
    refine List.forall_mem_cons.mpr ⟨?_, hmore⟩
    rw [List.mem_cons, not_or]
    exact ⟨Ne.symm hc, hpiece⟩

theorem joinPieces_eq_intercalate (parts : List (List Char)) :
    joinPieces parts = ['/'].intercalate parts := by
  fun_induction joinPieces parts with
  | case1 => rfl
  | case2 piece => exact (List.intercalate_singleton).symm
  | case3 piece next rest ih => rw [ih, List.intercalate_cons_cons, List.append_assoc]; rfl

/-! ## 2. Paths made of names -/

/-- The text is the name of a file: it has no slash in it, it is not empty, and it is neither a dot
nor two. -/
structure IsFileName (s : String) : Prop where
  slash : '/' ∉ s.toList
  proper : component? s.toList = some (.name s)

theorem IsFileName.not_void {s : String} (h : IsFileName s) : isVoid s.toList = false := by
  have hproper := h.proper
  unfold component? at hproper
  split at hproper
  · cases hproper
  · rename_i hvoid
    exact Bool.not_eq_true _ ▸ hvoid

/-- The names among the steps of a path are names of files. -/
theorem isFileName_of_component? {piece : List Char} {s : String} (hslash : '/' ∉ piece)
    (h : component? piece = some (.name s)) : IsFileName s := by
  have hpiece : s.toList = piece := by
    unfold component? at h
    split at h
    · cases h
    · split at h
      · cases h
      · cases h
        exact String.toList_ofList
  exact ⟨hpiece ▸ hslash, hpiece ▸ h⟩

theorem toList_text_ofNames (names : List String) :
    (ofNames names).text.toList = '/' :: ['/'].intercalate (names.map String.toList) := by
  rw [ofNames, String.toList_append, String.toList_intercalate]
  rfl

/-- The text of a path made of names is split into the names. -/
theorem split_ofNames {names : List String} (h : ∀ s ∈ names, IsFileName s) (hne : names ≠ []) :
    split (ofNames names).text.toList = (.root, names.map String.toList) := by
  have hslash : ∀ piece ∈ names.map String.toList, '/' ∉ piece := by
    intro piece hpiece
    obtain ⟨s, hs, rfl⟩ := List.mem_map.mp hpiece
    exact (h s hs).slash
  rw [toList_text_ofNames, split, pieces_eq_splitOn,
    List.splitOn_intercalate '/' hslash (by simpa using hne)]

/-- **A path made of names has them for steps**, behind the root. -/
theorem components_ofNames {names : List String} (h : ∀ s ∈ names, IsFileName s) :
    (ofNames names).components = .root :: names.map .name := by
  by_cases hne : names = []
  · subst hne
    rfl
  · have hnames : (names.map String.toList).filterMap component? = names.map .name := by
      rw [List.filterMap_map, ← List.filterMap_eq_map]
      exact List.filterMap_congr fun s hs => (h s hs).proper
    unfold components
    rw [split_ofNames h hne]
    exact congrArg (Component.root :: ·) hnames

theorem isAbsolute_ofNames (names : List String) : (ofNames names).isAbsolute = true := by
  rw [isAbsolute, ofNames, String.toList_append]
  rfl

/-- A path made of names does not end in a slash, unless it is the root. -/
theorem getLast?_ofNames {names : List String} (h : ∀ s ∈ names, IsFileName s)
    (hne : names ≠ []) : (ofNames names).text.toList.getLast? ≠ some '/' := by
  intro hlast
  obtain ⟨rest, hrest⟩ : ∃ rest, (ofNames names).text.toList = '/' :: rest :=
    List.head?_eq_some_iff.mp (beq_iff_eq.mp (isAbsolute_ofNames names))
  have hsplit : pieces '/' rest = names.map String.toList := by
    have hnames := split_ofNames h hne
    rw [hrest] at hnames
    exact congrArg Prod.snd hnames
  have hempty : [] ∈ pieces '/' rest := by
    rw [hrest] at hlast
    rcases List.eq_nil_or_concat rest with rfl | ⟨v, c, rfl⟩
    · exact List.mem_cons_self
    · rw [List.concat_eq_append, ← List.cons_append, List.getLast?_concat] at hlast
      rw [Option.some.inj hlast, pieces_eq_splitOn, List.concat_eq_append,
        List.splitOn_append_cons_self]
      exact List.mem_append_right _ List.mem_cons_self
  rw [hsplit] at hempty
  obtain ⟨s, hs, hnil⟩ := List.mem_map.mp hempty
  have hvoid := (h s hs).not_void
  rw [hnil] at hvoid
  cases hvoid

theorem intercalate_concat {l : List (List Char)} (hne : l ≠ []) (a : List Char) :
    ['/'].intercalate (l ++ [a]) = ['/'].intercalate l ++ '/' :: a := by
  induction l with
  | nil => exact absurd rfl hne
  | cons b l ih =>
    by_cases hl : l = []
    · subst hl
      simp [List.intercalate_cons_cons]
    · rw [List.cons_append, List.intercalate_cons_of_ne_nil (by simp), ih hl,
        List.intercalate_cons_of_ne_nil hl, List.append_assoc _ _ ('/' :: a)]

/-- **A name joined to a path made of names** is one more of them. -/
theorem join_ofNames {names : List String} {name : String} (h : ∀ s ∈ names, IsFileName s)
    (hname : IsFileName name) : (ofNames names).join name = ofNames (names ++ [name]) := by
  have hrelative : ¬ (Path.mk name).isAbsolute = true := fun habsolute =>
    hname.slash (List.mem_of_mem_head? (beq_iff_eq.mp habsolute))
  have htext : (ofNames names).text.toList ++ slashAfter (ofNames names).text.toList ++
      name.toList = (ofNames (names ++ [name])).text.toList := by
    by_cases hne : names = []
    · subst hne
      have hroot : (ofNames []).text.toList = ['/'] := rfl
      rw [hroot, List.nil_append [name], toList_text_ofNames]
      simp [slashAfter]
    · have hlast : ((ofNames names).text.toList.getLast? == some '/') = false :=
        beq_eq_false_iff_ne.mpr (getLast?_ofNames h hne)
      rw [slashAfter, hlast, toList_text_ofNames, toList_text_ofNames, List.map_append,
        List.map_singleton, intercalate_concat (by simpa using hne)]
      simp
  rw [join, if_neg hrelative, htext, String.ofList_toList]

theorem map_name_inj {l m : List String} :
    l.map Component.name = m.map Component.name ↔ l = m :=
  (List.map_injective_iff.mpr fun _ _ => Component.name.inj).eq_iff

theorem ofNames_inj {l m : List String} (hl : ∀ s ∈ l, IsFileName s) (hm : ∀ s ∈ m, IsFileName s)
    (h : ofNames l = ofNames m) : l = m := by
  have hsteps := congrArg components h
  rw [components_ofNames hl, components_ofNames hm, List.cons.injEq, map_name_inj] at hsteps
  exact hsteps.2

/-- The pieces of names are none of them void. -/
theorem dropVoidEnd_names {names : List String} (h : ∀ s ∈ names, IsFileName s) :
    dropVoidEnd (names.map String.toList) = names.map String.toList := by
  unfold dropVoidEnd
  cases hnames : (names.map String.toList).reverse with
  | nil => rw [List.reverse_eq_nil_iff.mp hnames]; rfl
  | cons piece more =>
    have hpiece : piece ∈ names.map String.toList :=
      List.mem_reverse.mp (hnames ▸ List.mem_cons_self)
    obtain ⟨s, hs, rfl⟩ := List.mem_map.mp hpiece
    rw [List.dropWhile_cons_of_neg (by simp [(h s hs).not_void]), ← hnames, List.reverse_reverse]

theorem directory?_ofNames_nil : (ofNames []).directory? = none := rfl

/-- **The directory of a path made of names** is made of all of them but the last. -/
theorem directory?_ofNames_concat {names : List String} {s : String}
    (h : ∀ x ∈ names ++ [s], IsFileName x) :
    (ofNames (names ++ [s])).directory? = some (ofNames names) := by
  have hnames : ∀ x ∈ names, IsFileName x := fun x hx => h x (List.mem_append_left [s] hx)
  have hmap : (names ++ [s]).map String.toList = names.map String.toList ++ [s.toList] := by simp
  have hparent : parentText? (ofNames (names ++ [s])).text.toList =
      some ('/' :: joinPieces (names.map String.toList)) := by
    unfold parentText?
    rw [split_ofNames h (by simp)]
    dsimp only
    rw [dropVoidEnd_names h, hmap, if_neg (by simp), List.dropLast_concat,
      dropVoidEnd_names hnames]
    rfl
  have hof : (⟨String.ofList ('/' :: joinPieces (names.map String.toList))⟩ : Path) =
      ofNames names := by
    refine congrArg Path.mk (String.toList_inj.mp ?_)
    rw [String.toList_ofList, String.toList_append, String.toList_intercalate,
      joinPieces_eq_intercalate]
    rfl
  have hparent? : (ofNames (names ++ [s])).parent? = some (ofNames names) := by
    rw [parent?, hparent, Option.map_some, hof]
  have hne : (ofNames names).text.isEmpty = false := by
    rw [ofNames, String.isEmpty_eq_false_iff]
    intro he
    have := congrArg String.toList he
    rw [String.toList_append] at this
    cases this
  rw [directory?, hparent?, Option.filter_some, hne]
  rfl

theorem parent?_ofNames_concat {names : List String} {s : String}
    (h : ∀ x ∈ names ++ [s], IsFileName x) :
    (ofNames (names ++ [s])).parent? = some (ofNames names) :=
  (Option.filter_eq_some_iff.mp (directory?_ofNames_concat h)).1

/-- **The parents of a path made of names** are made of the beginnings of its names, the path
itself being the first of them. -/
theorem withParents_ofNames {names : List String} (h : ∀ s ∈ names, IsFileName s) :
    (ofNames names).withParents = names.inits.reverse.map ofNames := by
  induction names using List.reverseRecOn with
  | nil => rw [withParents]; rfl
  | append_singleton names s ih =>
    rw [withParents]
    split
    · rename_i q hq
      rw [parent?_ofNames_concat h, Option.some.injEq] at hq
      rw [← hq, ih fun x hx => h x (List.mem_append_left [s] hx), List.inits_append]
      simp
    · rename_i hq
      rw [parent?_ofNames_concat h] at hq
      cases hq

/-! ## 3. Steps that cancel -/

/-- One step of a path is dropped, or two of them cancel each other. -/
inductive Cancels : List Component → List Component → Prop
  | here (before after : List Component) : Cancels (before ++ .here :: after) (before ++ after)
  | name (before : List Component) (s : String) (after : List Component) :
    Cancels (before ++ .name s :: .up :: after) (before ++ after)
  /-- Above the root is nothing else. -/
  | root (after : List Component) : Cancels (.root :: .up :: after) (.root :: after)

/-- The names that remain of the steps of a path, when nothing more can be cancelled. -/
def Remain (p : Path) (names : List String) : Prop :=
  Relation.ReflTransGen Cancels p.components (.root :: names.map .name)

theorem Cancels.append {a b : List Component} (h : Cancels a b) (c : List Component) :
    Cancels (a ++ c) (b ++ c) := by
  cases h with
  | here before after => simpa using Cancels.here before (after ++ c)
  | name before s after => simpa using Cancels.name before s (after ++ c)
  | root after => exact Cancels.root (after ++ c)

/-- Cancelling does not change the names that the steps lead to. -/
theorem Cancels.normalNames_eq {a b : List Component} (h : Cancels a b) :
    normalNames a = normalNames b := by
  cases h with
  | here before after => simp [normalNames, walk]
  | name before s after => simp [normalNames, walk]
  | root after => rfl

theorem normalNames_eq_of_reflTransGen {a b : List Component}
    (h : Relation.ReflTransGen Cancels a b) : normalNames a = normalNames b := by
  induction h with
  | refl => rfl
  | tail _ hstep ih => exact ih.trans hstep.normalNames_eq

theorem foldl_walk_names (names before : List String) :
    (names.map Component.name).foldl walk before = names.reverse ++ before := by
  induction names generalizing before with
  | nil => rfl
  | cons s names ih => rw [List.map_cons, List.foldl_cons, ih]; simp [walk]

theorem normalNames_names (names : List String) :
    normalNames (.root :: names.map .name) = names := by
  rw [normalNames, List.foldl_cons, walk, foldl_walk_names, List.append_nil, List.reverse_reverse]

/-- **Steps behind the root can be cancelled until only names are left.**  The induction is from
the last step backward: what stands before it has been cancelled already. -/
theorem reflTransGen_cancels {steps : List Component} (h : .root ∉ steps) :
    ∃ names : List String,
      Relation.ReflTransGen Cancels (.root :: steps) (.root :: names.map .name) := by
  induction steps using List.reverseRecOn with
  | nil => exact ⟨[], .refl⟩
  | append_singleton steps step ih =>
    rw [List.mem_append, not_or, List.mem_singleton] at h
    obtain ⟨names, hnames⟩ := ih h.1
    have hbefore : Relation.ReflTransGen Cancels (.root :: (steps ++ [step]))
        (.root :: names.map .name ++ [step]) :=
      hnames.lift (· ++ [step]) fun _ _ hab => hab.append [step]
    cases step with
    | root => exact absurd rfl h.2
    | here =>
      have hlast := Cancels.here (.root :: names.map .name) []
      rw [List.append_nil] at hlast
      exact ⟨names, hbefore.tail hlast⟩
    | up =>
      -- the step up meets the last name that has remained, or the root
      rcases List.eq_nil_or_concat names with rfl | ⟨more, s, rfl⟩
      · exact ⟨[], hbefore.tail (.root [])⟩
      · refine ⟨more, hbefore.tail ?_⟩
        simpa using Cancels.name (.root :: more.map .name) s []
    | name s => exact ⟨names ++ [s], by simpa using hbefore⟩

/-- An absolute path has a root, and behind it no other one. -/
theorem exists_components_eq {p : Path} (h : p.isAbsolute = true) :
    ∃ steps, p.components = .root :: steps ∧ .root ∉ steps ∧
      ∀ s, .name s ∈ steps → IsFileName s := by
  obtain ⟨rest, hrest⟩ : ∃ rest, p.text.toList = '/' :: rest :=
    List.head?_eq_some_iff.mp (beq_iff_eq.mp h)
  refine ⟨(pieces '/' rest).filterMap component?, ?_, ?_, ?_⟩
  · unfold components
    rw [hrest, split]
    rfl
  · intro hroot
    obtain ⟨piece, -, hpiece⟩ := List.mem_filterMap.mp hroot
    unfold component? at hpiece
    split at hpiece
    · cases hpiece
    · split at hpiece <;> cases hpiece
  · intro s hs
    obtain ⟨piece, hpiece, hname⟩ := List.mem_filterMap.mp hs
    exact isFileName_of_component? (not_mem_of_mem_pieces piece hpiece) hname

theorem mem_foldl_walk {steps : List Component} {s : String} :
    ∀ {names : List String}, s ∈ steps.foldl walk names → s ∈ names ∨ .name s ∈ steps := by
  induction steps with
  | nil => exact fun h => Or.inl h
  | cons step steps ih =>
    intro names h
    rcases ih h with h | h
    · cases step with
      | root => cases h
      | here => exact Or.inl h
      | up => exact Or.inl (List.mem_of_mem_tail h)
      | name t =>
        rcases List.mem_cons.mp h with rfl | h
        · exact Or.inr List.mem_cons_self
        · exact Or.inl h
    · exact Or.inr (List.mem_cons_of_mem step h)

/-- **The same names remain however steps are cancelled**, and there are such names. -/
theorem remain_iff {p : Path} (h : p.isAbsolute = true) (names : List String) :
    Remain p names ↔ names = normalNames p.components := by
  obtain ⟨steps, hsteps, hroot, -⟩ := exists_components_eq h
  obtain ⟨remaining, hremaining⟩ := reflTransGen_cancels hroot
  rw [← hsteps] at hremaining
  have hunique : ∀ l : List String, Remain p l → l = normalNames p.components := fun l hl => by
    rw [normalNames_eq_of_reflTransGen hl, normalNames_names]
  constructor
  · exact hunique names
  · rintro rfl
    rw [← hunique remaining hremaining]
    exact hremaining

theorem isFileName_of_mem_normalNames {p : Path} (h : p.isAbsolute = true) :
    ∀ s ∈ normalNames p.components, IsFileName s := by
  obtain ⟨steps, hsteps, -, hnames⟩ := exists_components_eq h
  intro s hs
  rw [normalNames, List.mem_reverse, hsteps] at hs
  rcases mem_foldl_walk hs with hs | hs
  · cases hs
  · rcases List.mem_cons.mp hs with hs | hs
    · cases hs
    · exact hnames s hs

/-! ## 4. Normal forms -/

/-- The path `q` is the normal form of `p`.  It is the root, and behind it the names that remain of
`p`, with single slashes between them. -/
structure IsNormalForm (p : Path) (names : List String) (q : Path) : Prop where
  remain : ∀ l, Remain p l ↔ l = names
  text : q.text = "/" ++ String.intercalate "/" names

/-- The normal form of an absolute path is made of the names that remain of it. -/
theorem absolute_eq_ofNames {p : Path} (h : p.isAbsolute = true) (cwd : Path) :
    absolute cwd p = ofNames (normalNames p.components) := by
  unfold absolute
  rw [if_pos h]

/-- The normal form is made of names, for a relative path too if the working directory is
absolute. -/
theorem exists_absolute_eq_ofNames {cwd p : Path}
    (h : p.isAbsolute = true ∨ cwd.isAbsolute = true) :
    ∃ names, (∀ s ∈ names, IsFileName s) ∧ absolute cwd p = ofNames names := by
  have hfrom : (if p.isAbsolute then p else cwd.join p.text).isAbsolute = true := by
    split
    · assumption
    · rename_i hrelative
      obtain ⟨rest, hrest⟩ : ∃ rest, cwd.text.toList = '/' :: rest :=
        List.head?_eq_some_iff.mp (beq_iff_eq.mp (h.resolve_left hrelative))
      rw [join, if_neg hrelative, isAbsolute, String.toList_ofList, hrest]
      rfl
  exact ⟨_, isFileName_of_mem_normalNames hfrom, rfl⟩

theorem components_absolute {p : Path} (h : p.isAbsolute = true) (cwd : Path) :
    (absolute cwd p).components = .root :: (normalNames p.components).map .name := by
  rw [absolute_eq_ofNames h, components_ofNames (isFileName_of_mem_normalNames h)]

/-- **An absolute path has a normal form**, and it is found. -/
theorem isNormalForm_absolute {p : Path} (h : p.isAbsolute = true) (cwd : Path) :
    IsNormalForm p (normalNames p.components) (absolute cwd p) := by
  refine ⟨remain_iff h, ?_⟩
  rw [absolute_eq_ofNames h]
  rfl

/-- A normal form is its own normal form. -/
theorem absolute_absolute {p : Path} (h : p.isAbsolute = true) (cwd : Path) :
    absolute cwd (absolute cwd p) = absolute cwd p := by
  have habsolute : (absolute cwd p).isAbsolute = true := by
    rw [absolute_eq_ofNames h]
    exact isAbsolute_ofNames _
  rw [absolute_eq_ofNames habsolute, components_absolute h, normalNames_names,
    absolute_eq_ofNames h]

/-- Normal forms with the same steps are written in the same way. -/
theorem absolute_inj {p q : Path} (hp : p.isAbsolute = true) (hq : q.isAbsolute = true)
    {cwd : Path} (h : (absolute cwd p).components = (absolute cwd q).components) :
    absolute cwd p = absolute cwd q := by
  rw [components_absolute hp, components_absolute hq, List.cons.injEq, map_name_inj] at h
  rw [absolute_eq_ofNames hp, absolute_eq_ofNames hq, h.2]

/-! ## 5. The beginnings of names -/

theorem inits_concat {α : Type} (l : List α) (a : α) : (l ++ [a]).inits = l.inits ++ [l ++ [a]] := by
  rw [List.inits_append]
  rfl

/-- The beginnings of a list, the longest one first, begin with the list. -/
theorem reverse_inits {α : Type} (l : List α) : l.inits.reverse = l :: l.inits.dropLast.reverse := by
  rcases List.eq_nil_or_concat l with rfl | ⟨l, a, rfl⟩
  · rfl
  · rw [List.concat_eq_append, inits_concat, List.reverse_concat, List.dropLast_concat]

/-- The beginnings of names, without the whole. -/
theorem mem_beginnings {names l : List String} :
    l ∈ names.inits.dropLast.reverse ↔ l <+: names ∧ l ≠ names := by
  rcases List.eq_nil_or_concat names with rfl | ⟨more, s, rfl⟩
  · simp
  · rw [List.concat_eq_append, inits_concat, List.dropLast_concat, List.mem_reverse,
      List.mem_inits, List.prefix_concat_iff]
    constructor
    · intro h
      refine ⟨Or.inr h, ?_⟩
      rintro rfl
      exact absurd h.length_le (by simp)
    · rintro ⟨h | h, hne⟩
      · exact absurd h hne
      · exact h

theorem exists_prefix_reverse_inits {α : Type} {l a : List α} (h : a <+: l) :
    ∃ longer, longer ++ [a] <+: l.inits.reverse := by
  have hmem : a ∈ l.inits.reverse := List.mem_reverse.mpr ((List.mem_inits a l).mpr h)
  obtain ⟨longer, shorter, hsplit⟩ := List.append_of_mem hmem
  exact ⟨longer, shorter, by rw [hsplit, List.append_assoc]; rfl⟩

/-- Of the beginnings of a list, the longest one first, those in front of one are those that begin
with it. -/
theorem prefix_reverse_inits {α : Type} {l a : List α} {longer : List (List α)}
    (h : longer ++ [a] <+: l.inits.reverse) :
    a <+: l ∧ ∀ b, b ∈ longer ↔ a <+: b ∧ b <+: l ∧ b ≠ a := by
  induction longer generalizing l with
  | nil =>
    rw [reverse_inits] at h
    obtain rfl : a = l := (List.cons_prefix_cons.mp h).1
    refine ⟨List.prefix_rfl, fun b => iff_of_false List.not_mem_nil ?_⟩
    rintro ⟨hb, hb', hne⟩
    exact hne (hb'.eq_of_length_le hb.length_le)
  | cons first longer ih =>
    rcases List.eq_nil_or_concat l with rfl | ⟨l, x, rfl⟩
    · exact absurd (List.cons_prefix_cons.mp h).2 (by simp)
    · rw [List.concat_eq_append, inits_concat, List.reverse_concat] at h
      obtain ⟨rfl, hmore⟩ := List.cons_prefix_cons.mp h
      obtain ⟨hbegins, hlonger⟩ := ih hmore
      have hwhole : a <+: l ++ [x] := hbegins.trans (List.prefix_append l [x])
      have hne : l ++ [x] ≠ a := by
        rintro rfl
        exact absurd hbegins.length_le (by simp)
      rw [List.concat_eq_append]
      refine ⟨hwhole, fun b => ?_⟩
      rw [List.mem_cons, hlonger, List.prefix_concat_iff]
      constructor
      · rintro (rfl | ⟨hb, hb', hba⟩)
        · exact ⟨hwhole, Or.inl rfl, hne⟩
        · exact ⟨hb, Or.inr hb', hba⟩
      · rintro ⟨hb, hb' | hb', hba⟩
        · exact Or.inl hb'
        · exact Or.inr ⟨hb, hb', hba⟩

/-- The shortest beginning makes the root. -/
theorem getLast?_beginnings {names : List String} (hne : names ≠ []) :
    (names.inits.dropLast.reverse.map ofNames).getLast? = some ⟨"/"⟩ := by
  cases names with
  | nil => exact absurd rfl hne
  | cons s names =>
    rw [List.getLast?_map, List.getLast?_reverse]
    cases names <;> rfl

end EditorSettings.Path
