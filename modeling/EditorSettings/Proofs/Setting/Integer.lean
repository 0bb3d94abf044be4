/-
# Settings that are integers

Three kinds of settings have positive integers as values.  A text is read as an integer exactly if
it is a run of ASCII digits that writes it, zeros in front included, and if it is neither zero nor
above the bound (`positive?_eq_some_iff`).  However long the run is, nothing wraps: the bound is
compared with the number that all the digits write.

Apart from integers, such a kind has a few words, whose case does not matter.  No word is a run of
digits (`sameWord_of_writes`), so it makes no difference that words are looked for first, and all
other texts are refused (`read?_integer`).
-/
import EditorSettings.Proofs.Setting.Width

namespace EditorSettings

open EditorSettings.Text

/-! ## 1. Runs of digits -/

namespace Text

/-- The text is a run of ASCII digits, and `n` is the number that they write. -/
structure Writes (s : String) (n : Nat) : Prop where
  ne_nil : s.toList ≠ []
  isDigit_of_mem : ∀ c ∈ s.toList, isDigit c = true
  value : n = Nat.ofDigitChars 10 s.toList 0

theorem natural?_eq_some_iff_writes {s : String} {n : Nat} :
    natural? s.toList = some n ↔ Writes s n :=
  natural?_eq_some_iff.trans ⟨fun ⟨hne, hdigits, hn⟩ => ⟨hne, hdigits, hn⟩,
    fun h => ⟨h.ne_nil, h.isDigit_of_mem, h.value⟩⟩

/-- Zeros in front of digits change nothing. -/
theorem ofDigitChars_zeros (zeros : Nat) (s : List Char) :
    Nat.ofDigitChars 10 (List.replicate zeros '0' ++ s) 0 = Nat.ofDigitChars 10 s 0 := by
  induction zeros with
  | zero => rfl
  | succ zeros ih => rw [List.replicate_succ, List.cons_append, Nat.ofDigitChars_cons]; exact ih

/-- **A number is written by its decimal**, with any zeros in front of it. -/
theorem writes_zeros_append (zeros n : Nat) :
    Writes (String.ofList (List.replicate zeros '0') ++ toString n) n := by
  have htext : (String.ofList (List.replicate zeros '0') ++ toString n).toList =
      List.replicate zeros '0' ++ Nat.toDigits 10 n := by
    rw [String.toList_append, String.toList_ofList, Nat.toString_eq_repr, Nat.toList_repr]
  refine ⟨?_, ?_, ?_⟩
  · rw [htext]
    exact List.append_ne_nil_of_right_ne_nil _ Nat.toDigits_ne_nil
  · rw [htext]
    refine List.forall_mem_append.mpr ⟨?_, fun c => isDigit_of_mem_toDigits⟩
    intro c hc
    rw [List.eq_of_mem_replicate hc]
    rfl
  · rw [htext, ofDigitChars_zeros, Nat.ofDigitChars_ten_toDigits]

end Text

/-! ## 2. Kinds of integers -/

namespace Kind

/-- The kind has integers as values. -/
inductive IsInteger : Kind → Prop
  | positiveInt : IsInteger .positiveInt
  | positiveIntOrTab : IsInteger .positiveIntOrTab
  | positiveIntOrOff : IsInteger .positiveIntOrOff

/-- The words of the kinds of integers, and what they mean. -/
inductive HasWord : Kind → String → Value → Prop
  | unset (k : Kind) : HasWord k "unset" .unset
  | tab : HasWord .positiveIntOrTab "tab" .tab
  | off : HasWord .positiveIntOrOff "off" .off

variable {k : Kind} {s w : String} {n : Nat} {v : Value}

/-- **A text is read as the number that it writes**, if that is within the bounds. -/
theorem positive?_eq_some_iff :
    positive? s = some v ↔ ∃ n, v = .int n ∧ Writes s n ∧ 1 ≤ n ∧ n ≤ maxInteger := by
  simp only [positive?, Option.map_eq_some_iff, Option.filter_eq_some_iff,
    natural?_eq_some_iff_writes, Bool.and_eq_true, decide_eq_true_eq]
  constructor
  · rintro ⟨n, ⟨hwrites, hbounds⟩, rfl⟩
    exact ⟨n, rfl, hwrites, hbounds⟩
  · rintro ⟨n, rfl, hwrites, hbounds⟩
    exact ⟨n, ⟨hwrites, hbounds⟩, rfl⟩

/-- Words are different in more than the case of their letters. -/
theorem HasWord.unique {w' : String} {v' : Value} (h : k.HasWord w v) (h' : k.HasWord w' v')
    (hs : sameWord s w = true) (hs' : sameWord s w' = true) : v = v' := by
  have hlower : asciiLower w = asciiLower w' := (beq_iff_eq.mp hs).symm.trans (beq_iff_eq.mp hs')
  cases h with
  | unset =>
    cases h' with
    | unset => rfl
    | tab => exact absurd hlower (by decide)
    | off => exact absurd hlower (by decide)
  | tab =>
    cases h' with
    | unset => exact absurd hlower (by decide)
    | tab => rfl
  | off =>
    cases h' with
    | unset => exact absurd hlower (by decide)
    | off => rfl

/-- No word is a run of digits. -/
theorem sameWord_of_writes (hword : k.HasWord w v) (h : Writes s n) : sameWord s w = false := by
  refine sameWord_of_isDigit h.isDigit_of_mem ?_
  cases hword <;> decide

/-- A text is one of the words, or it is read as a positive integer. -/
theorem read?_cases (hk : k.IsInteger) (s : String) :
    (∃ w v, k.HasWord w v ∧ sameWord s w = true ∧ k.read? s = some v) ∨
      (∀ w v, k.HasWord w v → sameWord s w = false) ∧ k.read? s = positive? s := by
  by_cases hunset : sameWord s "unset" = true
  · exact Or.inl ⟨_, _, .unset k, hunset, if_pos hunset⟩
  have hread : k.read? s = k.readOwn? s := if_neg hunset
  rw [Bool.not_eq_true] at hunset
  rw [hread]
  cases hk with
  | positiveInt =>
    refine Or.inr ⟨?_, rfl⟩
    rintro w v ⟨⟩
    exact hunset
  | positiveIntOrTab =>
    by_cases htab : sameWord s "tab" = true
    · exact Or.inl ⟨_, _, .tab, htab, if_pos htab⟩
    · refine Or.inr ⟨?_, if_neg htab⟩
      rintro w v (_ | _)
      · exact hunset
      · exact Bool.not_eq_true _ ▸ htab
  | positiveIntOrOff =>
    by_cases hoff : sameWord s "off" = true
    · exact Or.inl ⟨_, _, .off, hoff, if_pos hoff⟩
    · refine Or.inr ⟨?_, if_neg hoff⟩
      rintro w v (_ | _)
      · exact hunset
      · exact Bool.not_eq_true _ ▸ hoff

/-- A word is read as what it means, whatever the case of its letters. -/
theorem read?_of_hasWord (hk : k.IsInteger) (hword : k.HasWord w v) (hs : sameWord s w = true) :
    k.read? s = some v := by
  rcases read?_cases hk s with ⟨w', v', hword', hs', hread⟩ | ⟨hnone, -⟩
  · rw [hread, hword.unique hword' hs hs']
  · rw [hnone w v hword] at hs
    cases hs

/-- A run of digits is read as a positive integer. -/
theorem read?_of_writes (hk : k.IsInteger) (h : Writes s n) : k.read? s = positive? s := by
  rcases read?_cases hk s with ⟨w, v, hword, hs, -⟩ | ⟨-, hread⟩
  · rw [sameWord_of_writes hword h] at hs
    cases hs
  · exact hread

/-- **The values of a kind of integers** are its words and the positive integers. -/
theorem read?_eq_some_iff (hk : k.IsInteger) :
    k.read? s = some v ↔ (∃ w, k.HasWord w v ∧ sameWord s w = true) ∨
      ∃ n, v = .int n ∧ Writes s n ∧ 1 ≤ n ∧ n ≤ maxInteger := by
  constructor
  · intro h
    rcases read?_cases hk s with ⟨w, v', hword, hs, hread⟩ | ⟨-, hread⟩
    · rw [hread] at h
      cases h
      exact Or.inl ⟨w, hword, hs⟩
    · rw [hread] at h
      exact Or.inr (positive?_eq_some_iff.mp h)
  · rintro (⟨w, hword, hs⟩ | ⟨n, hv, hwrites, hbounds⟩)
    · exact read?_of_hasWord hk hword hs
    · rw [read?_of_writes hk hwrites]
      exact positive?_eq_some_iff.mpr ⟨n, hv, hwrites, hbounds⟩

theorem HasWord.ne_int (h : k.HasWord w v) (n : Nat) : v ≠ .int n := by
  cases h <;> nofun

end Kind

/-- **Settings that are integers are read exactly.**  A text is read as an integer if and only if it
is a run of ASCII digits that writes it, and it is neither zero nor above the bound.  It is read as
something else if and only if it is a word of the kind, up to the case of ASCII letters, and
everything that is neither is refused.  Every such integer is read back from its decimal, with
zeros in front of it or without. -/
theorem SettingType.read?_integer (t : SettingType) (ht : t.kind.IsInteger) :
    (∀ s n, t.read? s = some (.int n) ↔ Writes s n ∧ 1 ≤ n ∧ n ≤ Kind.maxInteger) ∧
    (∀ s v, (∀ n, v ≠ .int n) →
      (t.read? s = some v ↔ ∃ w, t.kind.HasWord w v ∧ sameWord s w = true)) ∧
    (∀ s, t.read? s = none ↔ (∀ n, Writes s n → n = 0 ∨ Kind.maxInteger < n) ∧
      ∀ w v, t.kind.HasWord w v → sameWord s w = false) ∧
    ∀ zeros n : Nat, 1 ≤ n → n ≤ Kind.maxInteger →
      t.read? (String.ofList (List.replicate zeros '0') ++ toString n) = some (.int n) := by
  have hread : ∀ s v, t.read? s = some v ↔ (∃ w, t.kind.HasWord w v ∧ sameWord s w = true) ∨
      ∃ n, v = .int n ∧ Writes s n ∧ 1 ≤ n ∧ n ≤ Kind.maxInteger :=
    fun s v => Kind.read?_eq_some_iff ht
  have hint : ∀ s n, t.read? s = some (.int n) ↔ Writes s n ∧ 1 ≤ n ∧ n ≤ Kind.maxInteger := by
    intro s n
    rw [hread]
    constructor
    · rintro (⟨w, hword, -⟩ | ⟨n', hn, h⟩)
      · exact absurd rfl (hword.ne_int n)
      · cases hn
        exact h
    · intro h
      exact Or.inr ⟨n, rfl, h⟩
  refine ⟨hint, fun s v hv => ?_, fun s => ?_, fun zeros n hpos hle => ?_⟩
  · rw [hread]
    constructor
    · rintro (hword | ⟨n, hn, -⟩)
      · exact hword
      · exact absurd hn (hv n)
    · exact Or.inl
  · rw [Option.eq_none_iff_forall_ne_some]
    constructor
    · -- An integer within the bounds or a word would have been read.
      intro hnone
      refine ⟨fun n hn => ?_, fun w v hword => ?_⟩
      · by_contra hbounds
        exact hnone (.int n) ((hint s n).mpr ⟨hn, by omega⟩)
      · rw [Bool.eq_false_iff]
        exact fun hs => hnone v ((hread s v).mpr (Or.inl ⟨w, hword, hs⟩))
    · rintro ⟨hbounds, hwords⟩ v hv
      rcases (hread s v).mp hv with ⟨w, hword, hs⟩ | ⟨n, -, hn, hpos, hle⟩
      · rw [hwords w v hword] at hs
        cases hs
      · have hout := hbounds n hn
        omega
  · exact (hint _ n).mpr ⟨writes_zeros_append zeros n, hpos, hle⟩

theorem SettingType.read?_integer_indentSize :
    (named "indent_size" .positiveIntOrTab).read? "00004294967295" = some (.int 4294967295) ∧
    (named "indent_size" .positiveIntOrTab).read? "4294967296" = none ∧
    (named "indent_size" .positiveIntOrTab).read? "TAB" = some .tab := by
  obtain ⟨hint, hword, hnone, -⟩ :=
    SettingType.read?_integer (named "indent_size" .positiveIntOrTab) .positiveIntOrTab
  have htab : ∀ n, Value.tab ≠ .int n := fun n => nofun
  have hwrites : Writes "00004294967295" 4294967295 :=
    ⟨by decide, List.all_eq_true.mp (by decide), by decide⟩
  refine ⟨(hint _ _).mpr ⟨hwrites, by decide, by decide⟩,
    (hnone _).mpr ⟨fun n hn => Or.inr ?_, ?_⟩, (hword _ _ htab).mpr ⟨"tab", .tab, by decide⟩⟩
  · rw [hn.value]
    decide
  · rintro w v (_ | _)
    · decide
    · decide

end EditorSettings
