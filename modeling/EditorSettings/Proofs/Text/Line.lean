/-
# Lines and their ends

A text is a sequence of lines, each closed by a line feed, with perhaps an open one at its end
(`lines_append_newline`, `lines_of_not_mem`).  Of a carriage return in front of the line feed
nothing is seen once the line has been trimmed (`trim_dropReturn`), and the same holds of all
blanks around a text (`trim_pad`).  So the lines are the parts between the line feeds, but for a
last part in which nothing stands (`map_lines_splitOn`), and behind a line feed they begin anew
(`lines_append_cons_newline`).
-/
import EditorSettings.Text.Blank
import EditorSettings.Text.Line
import Mathlib.Data.List.Infix
import Mathlib.Data.List.TakeWhile

namespace EditorSettings.Text

/-! ## 1. Trimming -/

/-- A text of blanks. -/
def AllBlank (s : List Char) : Prop := ∀ c ∈ s, isBlank c = true

-- Named, here and below: what is found otherwise may go through all the characters there are.
instance (s : List Char) : Decidable (AllBlank s) := List.decidableBAll (isBlank · = true) s

theorem allBlank_append {s t : List Char} : AllBlank (s ++ t) ↔ AllBlank s ∧ AllBlank t :=
  List.forall_mem_append

theorem trimStart_eq_nil {s : List Char} (h : AllBlank s) : trimStart s = [] :=
  List.dropWhile_eq_nil_iff.mpr h

theorem trimStart_append_left {w s : List Char} (h : AllBlank w) :
    trimStart (w ++ s) = trimStart s := by
  unfold trimStart
  rw [List.dropWhile_append, List.dropWhile_eq_nil_iff.mpr h, List.isEmpty_nil, if_pos rfl]

theorem trimEnd_append_right {w s : List Char} (h : AllBlank w) :
    trimEnd (s ++ w) = trimEnd s := by
  have hr : AllBlank w.reverse := fun c hc => h c (List.mem_reverse.mp hc)
  unfold trimEnd
  rw [List.reverse_append, ← trimStart, trimStart_append_left hr]
  rfl

theorem trim_eq_nil {s : List Char} (h : AllBlank s) : trim s = [] := by
  rw [trim, trimStart_eq_nil h]
  rfl

theorem trim_append_left {w s : List Char} (h : AllBlank w) : trim (w ++ s) = trim s := by
  rw [trim, trimStart_append_left h, trim]

theorem trim_append_right {w s : List Char} (h : AllBlank w) : trim (s ++ w) = trim s := by
  by_cases hs : trimStart s = []
  · have hall : AllBlank s := List.dropWhile_eq_nil_iff.mp hs
    rw [trim_eq_nil hall, trim_eq_nil (allBlank_append.mpr ⟨hall, h⟩)]
  · have hne : (s.dropWhile isBlank).isEmpty = false := by simpa [trimStart] using hs
    have hstart : trimStart (s ++ w) = trimStart s ++ w := by
      unfold trimStart
      rw [List.dropWhile_append, hne, if_neg (by decide)]
    rw [trim, hstart, trimEnd_append_right h, trim]

/-- **Blanks around a text do not count.** -/
theorem trim_pad {w s v : List Char} (hw : AllBlank w) (hv : AllBlank v) :
    trim (w ++ s ++ v) = trim s := by
  rw [trim_append_right hv, trim_append_left hw]

theorem trim_trimEnd (s : List Char) : trim (trimEnd s) = trim s := by
  have hs : s = trimEnd s ++ (s.reverse.takeWhile isBlank).reverse := by
    rw [trimEnd, ← List.reverse_append, List.takeWhile_append_dropWhile, List.reverse_reverse]
  have hblank : AllBlank (s.reverse.takeWhile isBlank).reverse := fun c hc =>
    List.mem_takeWhile_imp (List.mem_reverse.mp hc)
  conv_rhs => rw [hs, trim_append_right hblank]

theorem trimEnd_append_cons {s t : List Char} {c : Char} (h : isBlank c = false) :
    trimEnd (s ++ c :: t) = s ++ c :: trimEnd t := by
  have hrev : (s ++ c :: t).reverse = t.reverse ++ (c :: s.reverse) := by simp
  unfold trimEnd
  rw [hrev, List.dropWhile_append]
  split
  · rename_i he
    rw [List.isEmpty_iff.mp he, List.dropWhile_cons, if_neg (by simp [h])]
    simp
  · simp

/-- The text ends in something else than a blank, or is empty. -/
def EndsWithoutBlank (s : List Char) : Prop := ∀ c ∈ s.getLast?, isBlank c = false

instance (s : List Char) : Decidable (EndsWithoutBlank s) := Option.decidableForallMem s.getLast?

theorem Trimmed.append {s t : List Char} (hs : Trimmed s) (ht : Trimmed t) :
    Trimmed (s ++ t) := by
  refine ⟨fun c hc => ?_, fun c hc => ?_⟩
  · rw [List.head?_append, Option.mem_def, Option.or_eq_some_iff] at hc
    exact hc.elim (hs.1 c) fun hc => ht.1 c hc.2
  · rw [List.getLast?_append, Option.mem_def, Option.or_eq_some_iff] at hc
    exact hc.elim (ht.2 c) fun hc => hs.2 c hc.2

/-- What stands behind a text that does not end in a blank stands behind the trimmed text. -/
theorem trim_append {s t : List Char} (hs : EndsWithoutBlank s) (ht : Trimmed t) :
    trim (s ++ t) = trim s ++ t := by
  have hparts : s.takeWhile isBlank ++ trimStart s = s := List.takeWhile_append_dropWhile
  have hblank : AllBlank (s.takeWhile isBlank) := fun c hc => List.mem_takeWhile_imp hc
  have hstart : Trimmed (trimStart s) := by
    refine ⟨isBlank_head?_trimStart s, fun c hc => hs c ?_⟩
    rw [← hparts, List.getLast?_append, Option.mem_def.mp hc]
    rfl
  calc trim (s ++ t)
      = trim (s.takeWhile isBlank ++ (trimStart s ++ t)) := by
        rw [← List.append_assoc, hparts]
    _ = trimStart s ++ t := by
        rw [trim_append_left hblank, trim_eq_self (hstart.append ht)]
    _ = trim s ++ t := by
        conv_rhs => rw [← hparts, trim_append_left hblank, trim_eq_self hstart]

theorem mem_of_mem_trim {s : List Char} {c : Char} (h : c ∈ trim s) : c ∈ s := by
  have h1 : c ∈ trimStart s := by
    have := List.mem_reverse.mp h
    exact List.mem_reverse.mp (List.dropWhile_sublist _ |>.mem this)
  exact (List.dropWhile_sublist _).mem h1

/-! ## 2. Lines -/

/-- The text without a carriage return at its end. -/
def dropReturn (s : List Char) : List Char := if s.getLast? = some '\r' then s.dropLast else s

theorem dropReturn_cons_cons (c d : Char) (s : List Char) :
    dropReturn (c :: d :: s) = c :: dropReturn (d :: s) := by
  unfold dropReturn
  rw [List.getLast?_cons_cons, List.dropLast_cons_cons]
  split <;> rfl

/-- A carriage return is a blank like any other. -/
theorem trim_dropReturn (s : List Char) : trim (dropReturn s) = trim s := by
  unfold dropReturn
  split
  · rename_i h
    have hs : s = s.dropLast ++ ['\r'] := (List.dropLast_append_getLast? _ h).symm
    have hblank : AllBlank ['\r'] := by
      intro c hc
      rw [List.mem_singleton.mp hc]
      decide
    conv_rhs => rw [hs, trim_append_right hblank]
  · rfl

theorem lines_cons_of_ne {c : Char} {rest : List Char} (hn : c ≠ '\n')
    (hr : ∀ t, c :: rest ≠ '\r' :: '\n' :: t) :
    lines (c :: rest) =
      match lines rest with
      | [] => [[c]]
      | line :: more => (c :: line) :: more := by
  rw [lines.eq_def]
  split
  · rename_i h
    cases h
  · rename_i h
    cases h
    exact absurd rfl hn
  · rename_i t h
    exact absurd h (hr t)
  · rename_i h
    cases h
    rfl

/-- **A line feed closes a line.** -/
theorem lines_append_newline (rest : List Char) :
    ∀ s : List Char, '\n' ∉ s → lines (s ++ '\n' :: rest) = dropReturn s :: lines rest
  | [], _ => rfl
  | [c], h => by
    have hn : c ≠ '\n' := fun e => h (e ▸ List.mem_cons_self)
    by_cases hr : c = '\r'
    · subst hr
      rfl
    · have hc : ∀ t, c :: '\n' :: rest ≠ '\r' :: '\n' :: t := by
        intro t e
        exact hr (List.cons.inj e).1
      have hd : dropReturn [c] = [c] := by simp [dropReturn, hr]
      have hrest : lines (c :: '\n' :: rest) = [c] :: lines rest := by
        rw [lines_cons_of_ne hn hc]
        rfl
      rw [List.singleton_append, hrest, hd]
  | c :: d :: s, h => by
    have hn : c ≠ '\n' := fun e => h (e ▸ List.mem_cons_self)
    have hd : d ≠ '\n' := fun e => h (e ▸ List.mem_cons_of_mem _ List.mem_cons_self)
    have hc : ∀ t, c :: ((d :: s) ++ '\n' :: rest) ≠ '\r' :: '\n' :: t := by
      intro t e
      exact hd (List.cons.inj (List.cons.inj e).2).1
    have ih := lines_append_newline rest (d :: s) fun e => h (List.mem_cons_of_mem _ e)
    rw [List.cons_append, lines_cons_of_ne hn hc, ih, dropReturn_cons_cons]

/-- A text without a line feed is one line, if it is anything. -/
theorem lines_of_not_mem : ∀ {s : List Char}, '\n' ∉ s → s ≠ [] → lines s = [s]
  | [], _, hne => absurd rfl hne
  | [c], h, _ => by
    have hn : c ≠ '\n' := fun e => h (e ▸ List.mem_cons_self)
    rw [lines_cons_of_ne hn (by simp)]
    rfl
  | c :: d :: s, h, _ => by
    have hn : c ≠ '\n' := fun e => h (e ▸ List.mem_cons_self)
    have hd : d ≠ '\n' := fun e => h (e ▸ List.mem_cons_of_mem _ List.mem_cons_self)
    have hc : ∀ t, c :: d :: s ≠ '\r' :: '\n' :: t := by
      intro t e
      exact hd (List.cons.inj (List.cons.inj e).2).1
    rw [lines_cons_of_ne hn hc, lines_of_not_mem (fun e => h (List.mem_cons_of_mem _ e)) (by simp)]

/-- Every text ends, or a line feed closes its first line. -/
theorem eq_or_exists_newline (s : List Char) :
    '\n' ∉ s ∨ ∃ line rest, s = line ++ '\n' :: rest ∧ '\n' ∉ line := by
  by_cases h : '\n' ∈ s
  · obtain ⟨line, rest, hs, hl⟩ := List.eq_append_cons_of_mem h
    exact Or.inr ⟨line, rest, hs, hl⟩
  · exact Or.inl h

/-- An induction over the lines of a text: it is a last line, or a line is put before it. -/
theorem lines_induction {motive : List Char → Prop} (last : ∀ s, '\n' ∉ s → motive s)
    (line : ∀ s rest, '\n' ∉ s → motive rest → motive (s ++ '\n' :: rest)) :
    ∀ s, motive s := by
  intro s
  induction hlen : s.length using Nat.strongRecOn generalizing s with
  | ind n ih =>
    rcases eq_or_exists_newline s with h | ⟨first, rest, rfl, hfirst⟩
    · exact last s h
    · refine line first rest hfirst (ih rest.length ?_ rest rfl)
      simp only [List.length_append, List.length_cons] at hlen
      omega

theorem mem_of_mem_dropReturn {s : List Char} {c : Char} (h : c ∈ dropReturn s) : c ∈ s := by
  unfold dropReturn at h
  split at h
  · exact List.mem_of_mem_dropLast h
  · exact h

/-- What stands in a line stands in the text, and is no line feed. -/
theorem mem_of_mem_lines (s : List Char) : ∀ line ∈ lines s, ∀ c ∈ line, c ∈ s ∧ c ≠ '\n' := by
  have hne : ∀ {s : List Char} {c : Char}, '\n' ∉ s → c ∈ s → c ≠ '\n' := fun h hc e =>
    h (e ▸ hc)
  induction s using lines_induction with
  | last s h =>
    by_cases hs : s = []
    · subst hs
      exact fun line hline => absurd hline List.not_mem_nil
    · rw [lines_of_not_mem h hs]
      intro line hline c hc
      rw [List.mem_singleton.mp hline] at hc
      exact ⟨hc, hne h hc⟩
  | line s rest h ih =>
    rw [lines_append_newline rest s h]
    intro line hline c hc
    rcases List.mem_cons.mp hline with rfl | hline
    · have hc := mem_of_mem_dropReturn hc
      exact ⟨List.mem_append_left _ hc, hne h hc⟩
    · obtain ⟨hmem, hc⟩ := ih line hline c hc
      exact ⟨List.mem_append_right _ (List.mem_cons_of_mem _ hmem), hc⟩

/-- No line holds a line feed. -/
theorem newline_not_mem_of_mem_lines (s : List Char) : ∀ line ∈ lines s, '\n' ∉ line :=
  fun line hline h => (mem_of_mem_lines s line hline '\n' h).2 rfl

/-- Behind a line feed the lines begin anew. -/
theorem lines_append_cons_newline (s t : List Char) :
    lines (s ++ '\n' :: t) = lines (s ++ ['\n']) ++ lines t := by
  induction s using lines_induction with
  | last s h =>
    rw [lines_append_newline t s h, lines_append_newline [] s h]
    rfl
  | line s rest h ih =>
    rw [List.append_assoc, List.append_assoc, List.cons_append, List.cons_append,
      lines_append_newline _ s h, lines_append_newline _ s h, ih, List.cons_append]

theorem lines_ne_nil {s : List Char} (hs : s ≠ []) : lines s ≠ [] := by
  rcases eq_or_exists_newline s with h | ⟨line, rest, rfl, hline⟩
  · rw [lines_of_not_mem h hs]
    exact List.cons_ne_nil s []
  · rw [lines_append_newline rest line hline]
    exact List.cons_ne_nil _ _

/-! ## 3. Splitting and joining -/

/-- What stands in a joined text stands in one of its parts, or between them. -/
theorem mem_intercalate {α : Type} {sep : List α} {x : α} :
    ∀ {ls : List (List α)}, x ∈ sep.intercalate ls → x ∈ sep ∨ ∃ l ∈ ls, x ∈ l
  | [], h => absurd h List.not_mem_nil
  | [l], h => by
    rw [List.intercalate_singleton] at h
    exact Or.inr ⟨l, List.mem_singleton_self l, h⟩
  | l :: m :: rest, h => by
    rw [List.intercalate_cons_cons, List.append_assoc, List.mem_append, List.mem_append] at h
    rcases h with h | h | h
    · exact Or.inr ⟨l, List.mem_cons_self, h⟩
    · exact Or.inl h
    · rcases mem_intercalate h with h | ⟨l', hl', h⟩
      · exact Or.inl h
      · exact Or.inr ⟨l', List.mem_cons_of_mem _ hl', h⟩

theorem head?_intercalate_cons (line : List Char) (rest : List (List Char)) :
    (['\n'].intercalate (line :: rest)).head? =
      line.head?.or (if rest.isEmpty then none else some '\n') := by
  cases rest with
  | nil => rw [List.intercalate_singleton, List.isEmpty_nil, if_pos rfl, Option.or_none]
  | cons next more =>
    rw [List.intercalate_cons_cons, List.append_assoc, List.head?_append]
    rfl

theorem newline_not_mem_of_mem_splitOn (s : List Char) :
    ∀ part ∈ s.splitOn '\n', '\n' ∉ part := by
  induction s using lines_induction with
  | last s h =>
    rw [List.splitOn_eq_singleton h]
    simpa using h
  | line s rest h ih =>
    rw [List.splitOn_append_cons_self_of_not_mem h]
    exact List.forall_mem_cons.mpr ⟨h, ih⟩

/-- Seen through a function that does not see carriage returns, the lines of a text are its parts,
but for the last part if that is empty. -/
theorem map_lines_splitOn {α : Type} {f : List Char → α} (hf : ∀ s, f (dropReturn s) = f s)
    (s : List Char) :
    (s.splitOn '\n').map f = (lines s).map f ∨
      (s.splitOn '\n').map f = (lines s).map f ++ [f []] := by
  induction s using lines_induction with
  | last s h =>
    rw [List.splitOn_eq_singleton h]
    by_cases hs : s = []
    · subst hs
      exact Or.inr rfl
    · rw [lines_of_not_mem h hs]
      exact Or.inl rfl
  | line s rest h ih =>
    rw [List.splitOn_append_cons_self_of_not_mem h, lines_append_newline rest s h, List.map_cons,
      List.map_cons, hf, List.cons_append]
    rcases ih with ih | ih
    · exact Or.inl (congrArg _ ih)
    · exact Or.inr (congrArg _ ih)

end EditorSettings.Text
