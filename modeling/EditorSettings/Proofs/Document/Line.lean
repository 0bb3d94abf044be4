/-
# What a line says

`Line.read` sees a line only after trimming (`read_pad`).  What it can read as a name and as a
value is said by `IsName` and `IsValue`, and they are exact: a name, a separator and a value give
back a setting (`read_setting`), and every setting that is read consists of a name and a value
(`isName_and_isValue_of_read`).  Likewise for patterns, which only cannot hold a line feed
(`read_header`, `newline_not_mem_of_read`).
-/
import EditorSettings.Document.Event
import EditorSettings.Proofs.Text.Line

namespace EditorSettings

open EditorSettings.Text

/-! ## 1. Names and values -/

/-- What can be the name of a setting in a line. -/
structure IsName (n : List Char) : Prop where
  ne_nil : n ≠ []
  trimmed : Trimmed n
  not_separator : ∀ c ∈ n, Line.isSeparator c = false
  newline : '\n' ∉ n
  first : ∀ c ∈ n.head?, c ≠ '#' ∧ c ≠ ';' ∧ c ≠ '['

/-- What can be the value of a setting in a line. -/
structure IsValue (v : List Char) : Prop where
  trimmed : Trimmed v
  newline : '\n' ∉ v

instance (s : List Char) : Decidable (Trimmed s) :=
  have (o : Option Char) : Decidable (∀ c ∈ o, isBlank c = false) := Option.decidableForallMem o
  inferInstanceAs (Decidable (_ ∧ _))

instance (s : List Char) : Decidable (IsName s) :=
  have : Decidable (∀ c ∈ s, Line.isSeparator c = false) := List.decidableBAll _ s
  have : Decidable (∀ c ∈ s.head?, c ≠ '#' ∧ c ≠ ';' ∧ c ≠ '[') :=
    Option.decidableForallMem s.head?
  decidable_of_iff (s ≠ [] ∧ Trimmed s ∧ (∀ c ∈ s, Line.isSeparator c = false) ∧ '\n' ∉ s ∧
      ∀ c ∈ s.head?, c ≠ '#' ∧ c ≠ ';' ∧ c ≠ '[')
    ⟨fun ⟨h1, h2, h3, h4, h5⟩ => ⟨h1, h2, h3, h4, h5⟩,
      fun ⟨h1, h2, h3, h4, h5⟩ => ⟨h1, h2, h3, h4, h5⟩⟩

instance (s : List Char) : Decidable (IsValue s) :=
  decidable_of_iff (Trimmed s ∧ '\n' ∉ s) ⟨fun ⟨h1, h2⟩ => ⟨h1, h2⟩, fun ⟨h1, h2⟩ => ⟨h1, h2⟩⟩

theorem isSeparator_iff {c : Char} : Line.isSeparator c = true ↔ c = '=' ∨ c = ':' := by
  simp [Line.isSeparator]

theorem isBlank_eq_false_of_isSeparator {c : Char} (h : Line.isSeparator c = true) :
    isBlank c = false := by
  rcases isSeparator_iff.mp h with rfl | rfl
  · decide
  · decide

namespace Line

/-! ## 2. Reading a line -/

/-- Nothing stands in the line, or a comment. -/
def isVoid (s : List Char) : Bool := (trim s).head?.all fun c => c == '#' || c == ';'

/-- The line starts with an opening bracket. -/
def startsHeader (s : List Char) : Bool := (trim s).head? == some '['

theorem read_congr {s t : List Char} (h : trim s = trim t) : read s = read t := by
  unfold read
  rw [h]

theorem read_pad {w s v : List Char} (hw : AllBlank w) (hv : AllBlank v) :
    read (w ++ s ++ v) = read s := read_congr (trim_pad hw hv)

theorem read_dropReturn (s : List Char) : read (dropReturn s) = read s :=
  read_congr (trim_dropReturn s)

theorem trim_cons {c : Char} (h : isBlank c = false) (s : List Char) :
    trim (c :: s) = c :: trimEnd s := by
  have hstart : trimStart (c :: s) = c :: s := dropWhile_eq_self (by simpa using h)
  rw [trim, hstart]
  exact trimEnd_append_cons (s := []) h

theorem read_eq_blank_of_nil {s : List Char} (h : trim s = []) : read s = .blank := by
  unfold read
  rw [h]

theorem read_eq_blank_of_mark {s t : List Char} {c : Char} (h : trim s = c :: t)
    (hc : c = '#' ∨ c = ';') : read s = .blank := by
  unfold read
  rw [h]
  rcases hc with rfl | rfl
  · rfl
  · rfl

theorem read_eq_readHeader {s t : List Char} (h : trim s = '[' :: t) : read s = readHeader t := by
  unfold read
  rw [h]
  rfl

theorem read_allBlank {s : List Char} (h : AllBlank s) : read s = .blank :=
  read_eq_blank_of_nil (trim_eq_nil h)

theorem read_comment {mark : Char} (h : mark = '#' ∨ mark = ';') (s : List Char) :
    read (mark :: s) = .blank := by
  have hb : isBlank mark = false := by
    rcases h with rfl | rfl
    · decide
    · decide
  exact read_eq_blank_of_mark (trim_cons hb s) h

theorem read_header (p : List Char) : read ('[' :: p ++ [']']) = .header p := by
  have htrim : trim ('[' :: p ++ [']']) = '[' :: (p ++ [']']) := by
    rw [List.cons_append, trim_cons (by decide)]
    exact congrArg _ (trimEnd_append_cons (s := p) (t := []) (c := ']') (by decide))
  rw [read_eq_readHeader htrim]
  simp [readHeader]

/-- A line that begins with none of the marks is read as a setting. -/
theorem read_eq_readSetting {s t : List Char} {c : Char} (h : trim s = c :: t)
    (hc : c ≠ '#' ∧ c ≠ ';' ∧ c ≠ '[') : read s = readSetting (c :: t) := by
  unfold read
  rw [h]
  split
  · rename_i e
    cases e
  · rename_i e
    cases e
    exact absurd rfl hc.1
  · rename_i e
    cases e
    exact absurd rfl hc.2.1
  · rename_i e
    cases e
    exact absurd rfl hc.2.2
  · rfl

theorem readSetting_append {a : List Char} (ha : ∀ c ∈ a, isSeparator c = false) {sep : Char}
    (hsep : isSeparator sep = true) (rest : List Char) :
    readSetting (a ++ sep :: rest) =
      if (trim a).isEmpty then .nameless else .setting (trim a) (trim rest) := by
  have hall : ∀ c ∈ a, (!isSeparator c) = true := fun c hc => by simp [ha c hc]
  have htake : (a ++ sep :: rest).takeWhile (!isSeparator ·) = a := by
    rw [List.takeWhile_append_of_pos hall, List.takeWhile_cons_of_neg (by simp [hsep]),
      List.append_nil]
  have hdrop : (a ++ sep :: rest).dropWhile (!isSeparator ·) = sep :: rest := by
    rw [List.dropWhile_append_of_pos hall, List.dropWhile_cons_of_neg (by simp [hsep])]
  unfold readSetting
  rw [hdrop, htake]

/-- **A name, a separator and a value are a setting**, with blanks around the separator or
without. -/
theorem read_setting {name between gap value : List Char} {sep : Char} (hn : IsName name)
    (hb : AllBlank between) (hsep : isSeparator sep = true) (hg : AllBlank gap)
    (hv : IsValue value) :
    read (name ++ between ++ sep :: (gap ++ value)) = .setting name value := by
  obtain ⟨c, n, rfl⟩ := List.exists_cons_of_ne_nil hn.ne_nil
  have hc : isBlank c = false := hn.trimmed.1 c rfl
  have htrim : trim (c :: n ++ between ++ sep :: (gap ++ value)) =
      c :: (n ++ between ++ sep :: trimEnd (gap ++ value)) := by
    rw [List.cons_append, List.cons_append, trim_cons hc,
      trimEnd_append_cons (isBlank_eq_false_of_isSeparator hsep)]
  have hsepfree : ∀ x ∈ c :: n ++ between, isSeparator x = false := by
    intro x hx
    rcases List.mem_append.mp hx with hx | hx
    · exact hn.not_separator x hx
    · by_contra hs
      have := isBlank_eq_false_of_isSeparator (Bool.not_eq_false _ |>.mp hs)
      rw [hb x hx] at this
      cases this
  have hname : trim (c :: n ++ between) = c :: n := by
    rw [trim_append_right hb, trim_eq_self hn.trimmed]
  have hvalue : trim (trimEnd (gap ++ value)) = value := by
    rw [trim_trimEnd, trim_append_left hg, trim_eq_self hv.trimmed]
  rw [read_eq_readSetting htrim (hn.first c rfl), ← List.cons_append, ← List.cons_append,
    readSetting_append hsepfree hsep, hname, hvalue]
  rfl

/-! ## 3. What has been read -/

theorem readHeader_eq_header {s p : List Char} (h : readHeader s = .header p) : s = p ++ [']'] := by
  unfold readHeader at h
  split at h
  · rename_i hlast
    cases h
    exact (List.dropLast_append_getLast? _ hlast).symm
  · cases h

/-- A setting that has been read stands in the line. -/
theorem readSetting_eq_setting {s name value : List Char}
    (h : readSetting s = .setting name value) :
    ∃ a sep rest, s = a ++ sep :: rest ∧ (∀ c ∈ a, isSeparator c = false) ∧
      isSeparator sep = true ∧ name = trim a ∧ name ≠ [] ∧ value = trim rest := by
  unfold readSetting at h
  split at h
  · cases h
  · rename_i sep rest hdrop
    dsimp only at h
    split at h
    · cases h
    · rename_i hne
      cases h
      have hsep : isSeparator sep = true := by
        have hfirst := List.head?_dropWhile_not (!isSeparator ·) s
        rw [hdrop] at hfirst
        simpa using hfirst
      refine ⟨s.takeWhile (!isSeparator ·), sep, rest, ?_, ?_, hsep, rfl, ?_, rfl⟩
      · rw [← hdrop, List.takeWhile_append_dropWhile]
      · intro c hc
        simpa using List.mem_takeWhile_imp hc
      · simpa using hne

/-- The three kinds of lines: void ones, headers, closed or not, and settings, well formed or
not. -/
theorem read_cases (s : List Char) :
    (isVoid s = true ∧ startsHeader s = false ∧ read s = .blank) ∨
    (isVoid s = false ∧ startsHeader s = true ∧
      ∃ rest, trim s = '[' :: rest ∧ read s = readHeader rest) ∨
    (isVoid s = false ∧ startsHeader s = false ∧
      ∃ c rest, trim s = c :: rest ∧ (c ≠ '#' ∧ c ≠ ';' ∧ c ≠ '[') ∧
        read s = readSetting (c :: rest)) := by
  unfold isVoid startsHeader
  cases ht : trim s with
  | nil => exact Or.inl ⟨rfl, rfl, read_eq_blank_of_nil ht⟩
  | cons c rest =>
    by_cases hmark : c = '#' ∨ c = ';'
    · refine Or.inl ⟨?_, ?_, read_eq_blank_of_mark ht hmark⟩
      · simpa using hmark
      · rcases hmark with rfl | rfl <;> rfl
    · have hvoid : ((c :: rest).head?.all fun c => c == '#' || c == ';') = false := by
        simpa using hmark
      obtain ⟨h1, h2⟩ := not_or.mp hmark
      by_cases h3 : c = '['
      · subst h3
        exact Or.inr (Or.inl ⟨hvoid, rfl, rest, rfl, read_eq_readHeader ht⟩)
      · refine Or.inr (Or.inr ⟨hvoid, ?_, c, rest, rfl, ⟨h1, h2, h3⟩, ?_⟩)
        · simpa using h3
        · exact read_eq_readSetting ht ⟨h1, h2, h3⟩

theorem readSetting_ne_header (s p : List Char) : readSetting s ≠ .header p := by
  unfold readSetting
  split
  · simp
  · dsimp only
    split <;> simp

theorem readHeader_ne_setting (s n v : List Char) : readHeader s ≠ .setting n v := by
  unfold readHeader
  split <;> simp

/-- A pattern that has been read holds no line feed, if the line holds none. -/
theorem newline_not_mem_of_read {s p : List Char} (hs : '\n' ∉ s) (h : read s = .header p) :
    '\n' ∉ p := by
  rcases read_cases s with ⟨-, -, h1⟩ | ⟨-, -, rest, ht, h1⟩ | ⟨-, -, c, rest, -, -, h1⟩
  · rw [h1] at h
    cases h
  · rw [h1] at h
    intro hmem
    have hp := readHeader_eq_header h
    have hin : '\n' ∈ trim s := by simp [ht, hp, hmem]
    exact hs (mem_of_mem_trim hin)
  · rw [h1] at h
    exact absurd h (readSetting_ne_header _ _)

/-- The value of a setting that has been read stands in the line. -/
theorem mem_of_read_eq_setting {s name value : List Char} (h : read s = .setting name value)
    {c : Char} (hc : c ∈ value) : c ∈ s := by
  rcases read_cases s with ⟨-, -, h1⟩ | ⟨-, -, rest, -, h1⟩ | ⟨-, -, d, t, ht, -, h1⟩
  · rw [h1] at h
    cases h
  · rw [h1] at h
    exact absurd h (readHeader_ne_setting _ _ _)
  · rw [h1] at h
    obtain ⟨a, sep, rest, happ, -, -, -, -, rfl⟩ := readSetting_eq_setting h
    refine mem_of_mem_trim ?_
    rw [ht, happ]
    exact List.mem_append_right _ (List.mem_cons_of_mem _ (mem_of_mem_trim hc))

/-- **Names are names and values are values.** -/
theorem isName_and_isValue_of_read {s name value : List Char} (hs : '\n' ∉ s)
    (h : read s = .setting name value) : IsName name ∧ IsValue value := by
  have hvalue : '\n' ∉ value := fun hx => hs (mem_of_read_eq_setting h hx)
  rcases read_cases s with ⟨-, -, h1⟩ | ⟨-, -, rest, -, h1⟩ | ⟨-, -, c, t, ht, hc, h1⟩
  · rw [h1] at h
    cases h
  · rw [h1] at h
    exact absurd h (readHeader_ne_setting _ _ _)
  · rw [h1] at h
    obtain ⟨a, sep, rest, happ, ha, hsep, rfl, hne, rfl⟩ := readSetting_eq_setting h
    have hin : ∀ x ∈ c :: t, x ≠ '\n' := by
      intro x hx e
      exact hs (mem_of_mem_trim (by rw [ht]; exact e ▸ hx))
    -- the part before the separator is not empty, so it begins as the trimmed line does
    obtain ⟨a', rfl⟩ : ∃ a', a = c :: a' := by
      cases a with
      | nil => exact absurd rfl hne
      | cons d a' =>
        rw [List.cons_append] at happ
        exact ⟨a', by rw [(List.cons.inj happ).1]⟩
    have hcb : isBlank c = false := (trimmed_trim s).1 c (by rw [ht]; rfl)
    refine ⟨⟨hne, trimmed_trim _, ?_, ?_, ?_⟩, ⟨trimmed_trim _, hvalue⟩⟩
    · exact fun x hx => ha x (mem_of_mem_trim hx)
    · intro hx
      exact hin '\n' (by rw [happ]; exact List.mem_append_left _ (mem_of_mem_trim hx)) rfl
    · intro x hx
      rw [trim_cons hcb, List.head?_cons, Option.mem_def, Option.some.injEq] at hx
      exact hx ▸ hc

end Line
end EditorSettings
