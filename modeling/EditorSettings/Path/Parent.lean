/-
# Parents of a path

The parent of a path lacks its last component.  It keeps the front of the text as it was
written, so its text is shorter (`length_directory?_lt`): going from parent to parent comes to an
end.

The proof counts one character more for each piece than it has, for the slash after it.  A text
then has one character less than its pieces count for, and the parent loses at least one piece
that is not empty.
-/
import EditorSettings.Path.Basic

namespace EditorSettings.Path

open EditorSettings.Text

/-! ## 1. Parents -/

/-- The pieces without void ones at the end. -/
def dropVoidEnd (parts : List (List Char)) : List (List Char) :=
  (parts.reverse.dropWhile isVoid).reverse

/-- The text of a start with pieces. -/
def assemble : Start → List (List Char) → List Char
  | .root, parts => '/' :: joinPieces parts
  | .plain, parts => joinPieces parts
  | .here, [] => ['.']
  | .here, parts => '.' :: '/' :: joinPieces parts

/-- The text without its last component; the root and the empty text have none. -/
def parentText? (s : List Char) : Option (List Char) :=
  let (start, parts) := split s
  let named := dropVoidEnd parts
  if named = [] then if start = .here then some [] else none
  else some (assemble start (dropVoidEnd named.dropLast))

/-- The path without its last component. -/
def parent? (p : Path) : Option Path := (parentText? p.text.toList).map fun s => ⟨String.ofList s⟩

/-- The directory that the path lies in, if the path names one. -/
def directory? (p : Path) : Option Path := p.parent?.filter (!·.text.isEmpty)

/-! ## 2. A text and its pieces -/

theorem pieces_ne_nil (sep : Char) (s : List Char) : pieces sep s ≠ [] := by
  cases s with
  | nil => simp [pieces]
  | cons c rest =>
    unfold pieces
    split
    · simp
    · split <;> simp

theorem joinPieces_pieces (s : List Char) : joinPieces (pieces '/' s) = s := by
  induction s with
  | nil => rfl
  | cons c rest ih =>
    unfold pieces
    split
    · rename_i hc
      cases hp : pieces '/' rest with
      | nil => exact absurd hp (pieces_ne_nil _ _)
      | cons p more => simp [joinPieces, ← hp, ih, hc]
    · split
      · rename_i hp; exact absurd hp (pieces_ne_nil _ _)
      · rename_i p more hp
        rw [hp] at ih
        cases more with
        | nil => simpa [joinPieces] using ih
        | cons q more => simpa [joinPieces] using ih

theorem assemble_split (s : List Char) : assemble (split s).1 (split s).2 = s := by
  unfold split
  split
  · simp [assemble, joinPieces_pieces]
  · have h := joinPieces_pieces s
    split
    · rename_i rest hp
      rw [hp] at h
      cases rest with
      | nil => simpa [assemble, joinPieces] using h
      | cons => simpa [assemble, joinPieces] using h
    · simpa [assemble] using h

/-! ## 3. Parents are shorter -/

/-- The characters of the pieces, and one more for each of them. -/
def weight : List (List Char) → Nat
  | [] => 0
  | p :: rest => p.length + 1 + weight rest

theorem weight_append (a b : List (List Char)) : weight (a ++ b) = weight a + weight b := by
  induction a with
  | nil => simp [weight]
  | cons p rest ih => simp only [List.cons_append, weight, ih]; omega

theorem length_joinPieces (parts : List (List Char)) :
    (joinPieces parts).length = weight parts - 1 := by
  fun_induction joinPieces parts
  case case1 => simp [weight]
  case case2 => simp [weight]
  case case3 ih => simp [weight] at ih ⊢; omega

theorem length_assemble_lt (start : Start) {a b : List (List Char)}
    (h : weight a + 2 ≤ weight b) : (assemble start a).length < (assemble start b).length := by
  have ha := length_joinPieces a
  have hb := length_joinPieces b
  have hne : b ≠ [] := fun e => by simp [e, weight] at h
  cases start
  case here =>
    cases b with
    | nil => contradiction
    | cons q b =>
      cases a with
      | nil => simp [assemble]
      | cons p a => simp [assemble]; omega
  all_goals simp [assemble]; omega

theorem weight_dropVoidEnd_le (parts : List (List Char)) :
    weight (dropVoidEnd parts) ≤ weight parts := by
  have h := congrArg List.reverse
    (@List.takeWhile_append_dropWhile _ isVoid parts.reverse)
  rw [List.reverse_append, List.reverse_reverse] at h
  have := congrArg weight h
  rw [weight_append] at this
  unfold dropVoidEnd
  omega

/-- Pieces that do not end with a void one end with one that is not empty. -/
theorem weight_dropLast_dropVoidEnd {parts : List (List Char)} (h : dropVoidEnd parts ≠ []) :
    weight (dropVoidEnd parts).dropLast + 2 ≤ weight (dropVoidEnd parts) := by
  have hv : isVoid ((dropVoidEnd parts).getLast h) = false := by
    have hne : parts.reverse.dropWhile isVoid ≠ [] := by simpa [dropVoidEnd] using h
    have := List.head_dropWhile_not isVoid hne
    simpa [dropVoidEnd] using this
  have hlen : 1 ≤ ((dropVoidEnd parts).getLast h).length := by
    cases hg : (dropVoidEnd parts).getLast h with
    | nil => simp [hg, isVoid] at hv
    | cons => simp
  have := congrArg weight (List.dropLast_concat_getLast h)
  rw [weight_append] at this
  have hs : weight [(dropVoidEnd parts).getLast h] =
      ((dropVoidEnd parts).getLast h).length + 1 := by
    simp [weight]
  omega

theorem length_parentText?_lt {s t : List Char} (h : parentText? s = some t) :
    t.length < s.length := by
  have hs := congrArg List.length (assemble_split s)
  unfold parentText? at h
  split at h
  rename_i start parts hsp
  simp only at h
  rw [hsp] at hs
  split at h
  · split at h
    · rename_i hstart
      obtain rfl := Option.some.inj h
      rw [hstart] at hs
      cases parts <;> simp [assemble] at hs <;> simp <;> omega
    · contradiction
  · rename_i hne
    obtain rfl := Option.some.inj h
    have h1 := weight_dropLast_dropVoidEnd hne
    have h2 := weight_dropVoidEnd_le parts
    have h3 := weight_dropVoidEnd_le (dropVoidEnd parts).dropLast
    have h4 := length_assemble_lt start
      (show weight (dropVoidEnd (dropVoidEnd parts).dropLast) + 2 ≤ weight parts by omega)
    exact hs ▸ h4

theorem length_parent?_lt {p q : Path} (h : p.parent? = some q) :
    q.text.length < p.text.length := by
  obtain ⟨t, ht, rfl⟩ := Option.map_eq_some_iff.1 h
  simpa [String.length] using length_parentText?_lt ht

/-- A directory has a shorter text than what lies in it. -/
theorem length_directory?_lt {p q : Path} (h : p.directory? = some q) :
    q.text.length < p.text.length :=
  length_parent?_lt (Option.filter_eq_some_iff.1 h).1

/-! ## 4. All parents -/

/-- The path and its parents, from the path itself upward. -/
def withParents (p : Path) : List Path :=
  p ::
    match _h : p.parent? with
    | some q => withParents q
    | none => []
termination_by p.text.length
decreasing_by exact length_parent?_lt _h

end EditorSettings.Path
