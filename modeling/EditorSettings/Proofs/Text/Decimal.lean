/-
# Numerals and decimals

An integer may be written in many ways, with a sign or without, and with zeros in front.  A
`Numeral` is one of them, and the texts of numerals are just the texts that can be read
(`integer?_eq_some_iff`).

The decimal of an integer is one of its numerals, and has no zero that could be left out
(`exists_numeral_decimal`); so it is read back as the integer (`integer?_decimal`).
-/
import EditorSettings.Text.Decimal
import Mathlib.Tactic.Common

namespace EditorSettings.Text

/-! ## 1. Digits -/

theorem isDigit_of_mem_toDigits {n : Nat} {c : Char} (h : c ∈ Nat.toDigits 10 n) :
    isDigit c = true := by
  have hdigit : c.isDigit = true := Nat.isDigit_of_mem_toDigits (by decide) (by decide) h
  simpa [isDigit, Char.isDigit, Char.le_def] using hdigit

theorem digitsFrom_cons (acc : Nat) (c : Char) (s : List Char) :
    digitsFrom acc (c :: s) = digitsFrom (10 * acc + digitValue c) s := by
  conv_lhs => unfold digitsFrom

theorem digitsFrom_eq (acc : Nat) (s : List Char) :
    digitsFrom acc s = Nat.ofDigitChars 10 s acc := by
  induction s generalizing acc with
  | nil => exact Nat.ofDigitChars_nil.symm
  | cons c s ih =>
    rw [digitsFrom_cons, ih, Nat.ofDigitChars_cons]
    rfl

/-- The digits of a number begin with a digit. -/
theorem exists_toDigits_eq_cons (k : Nat) :
    ∃ d ds, Nat.toDigits 10 k = d :: ds ∧ isDigit d = true := by
  cases hdigits : Nat.toDigits 10 k with
  | nil => exact absurd hdigits Nat.toDigits_ne_nil
  | cons d ds => exact ⟨d, ds, rfl, isDigit_of_mem_toDigits (n := k) (by simp [hdigits])⟩

/-- No number but zero begins with a zero. -/
theorem head?_toDigits_ne_zero {n : Nat} (h : 0 < n) : (Nat.toDigits 10 n).head? ≠ some '0' := by
  induction n using Nat.strongRecOn with
  | ind n ih =>
    rw [Nat.toDigits_eq_if (by decide)]
    split
    · rename_i hlt
      intro hhead
      have hvalue := Nat.toNat_digitChar_sub_48_of_lt_ten hlt
      rw [Option.some.inj hhead] at hvalue
      exact Nat.ne_of_lt h hvalue
    · have hfirst := ih (n / 10) (by omega) (by omega)
      obtain ⟨d, ds, hdigits, -⟩ := exists_toDigits_eq_cons (n / 10)
      rw [hdigits] at hfirst ⊢
      exact hfirst

theorem not_sign_of_isDigit {d : Char} (h : isDigit d = true) : d ≠ '+' ∧ d ≠ '-' := by
  refine ⟨?_, ?_⟩
  · rintro rfl
    exact absurd h (by decide)
  · rintro rfl
    exact absurd h (by decide)

/-! ## 2. Numerals -/

/-- What stands before the digits of an integer. -/
inductive Sign
  | absent
  | plus
  | minus
  deriving DecidableEq

/-- The sign as it is written. -/
def Sign.text : Sign → List Char
  | absent => []
  | plus => ['+']
  | minus => ['-']

/-- A way to write an integer: digits, with a sign or without. -/
structure Numeral where
  sign : Sign
  digits : List Char
  digits_ne_nil : digits ≠ []
  isDigit_of_mem : ∀ c ∈ digits, isDigit c = true

namespace Numeral

/-- The numeral as it is written. -/
def text (x : Numeral) : List Char := x.sign.text ++ x.digits

/-- The integer that the numeral stands for. -/
def value (x : Numeral) : Int :=
  if x.sign = .minus then -(Nat.ofDigitChars 10 x.digits 0 : Int)
  else Nat.ofDigitChars 10 x.digits 0

/-- No zero could be left out. -/
def IsCanonical (x : Numeral) : Prop := x.digits.head? = some '0' → x.digits = ['0']

instance (x : Numeral) : Decidable x.IsCanonical := inferInstanceAs (Decidable (_ → _))

theorem exists_digits_eq_cons (x : Numeral) :
    ∃ d ds, x.digits = d :: ds ∧ isDigit d = true ∧ ∀ c ∈ ds, isDigit c = true := by
  obtain ⟨d, ds, hdigits⟩ := List.exists_cons_of_ne_nil x.digits_ne_nil
  have hall := x.isDigit_of_mem
  rw [hdigits] at hall
  exact ⟨d, ds, hdigits, List.forall_mem_cons.mp hall⟩

theorem of_mem_text {x : Numeral} {c : Char} (h : c ∈ x.text) :
    c = '+' ∨ c = '-' ∨ isDigit c = true := by
  rcases List.mem_append.mp h with h | h
  · cases hsign : x.sign with
    | absent => rw [hsign] at h; cases h
    | plus => rw [hsign] at h; exact Or.inl (List.mem_singleton.mp h)
    | minus => rw [hsign] at h; exact Or.inr (Or.inl (List.mem_singleton.mp h))
  · exact Or.inr (Or.inr (x.isDigit_of_mem c h))

theorem not_mem_text {c : Char} (h : c ≠ '+' ∧ c ≠ '-' ∧ isDigit c = false) (x : Numeral) :
    c ∉ x.text := by
  obtain ⟨hplus, hminus, hdigit⟩ := h
  intro hc
  rcases of_mem_text hc with hc | hc | hc
  · exact hplus hc
  · exact hminus hc
  · rw [hdigit] at hc
    cases hc

theorem text_ne_nil (x : Numeral) : x.text ≠ [] :=
  List.append_ne_nil_of_right_ne_nil _ x.digits_ne_nil

/-- Only the first character of a numeral need not be a digit. -/
theorem isDigit_of_mem_tail {x : Numeral} {c : Char} (h : c ∈ x.text.tail) :
    isDigit c = true := by
  refine x.isDigit_of_mem c ?_
  cases hsign : x.sign with
  | absent =>
    rw [text, hsign] at h
    exact List.mem_of_mem_tail h
  | plus =>
    rw [text, hsign] at h
    exact h
  | minus =>
    rw [text, hsign] at h
    exact h

/-- A numeral ends where the text goes on without a digit. -/
theorem text_prefix_unique {x y : Numeral} {a b : List Char}
    (hb : ∀ c ∈ b.head?, isDigit c = false) (h : x.text ++ a = y.text ++ b)
    (hle : y.text.length ≤ x.text.length) : x.text = y.text := by
  obtain ⟨k, hk⟩ : y.text <+: x.text :=
    List.prefix_of_prefix_length_le ⟨b, h.symm⟩ (List.prefix_append _ _) hle
  rw [← hk, List.append_assoc, List.append_cancel_left_eq] at h
  cases k with
  | nil => rw [← hk, List.append_nil]
  | cons c k =>
    have hmem : c ∈ x.text.tail := by
      rw [← hk, List.tail_append_of_ne_nil y.text_ne_nil]
      exact List.mem_append_right _ List.mem_cons_self
    have hnot := hb c (by rw [← h]; rfl)
    rw [isDigit_of_mem_tail hmem] at hnot
    cases hnot

/-- The sign can be seen from the first character. -/
theorem head?_text (x : Numeral) :
    (x.text.head? = some '+' ↔ x.sign = .plus) ∧ (x.text.head? = some '-' ↔ x.sign = .minus) := by
  obtain ⟨d, ds, hdigits, hd, -⟩ := x.exists_digits_eq_cons
  obtain ⟨hplus, hminus⟩ := not_sign_of_isDigit hd
  rw [text]
  cases x.sign <;> simp [Sign.text, hdigits, hplus, hminus]

theorem text_inj {x y : Numeral} (h : x.text = y.text) : x = y := by
  have hplus : x.sign = .plus ↔ y.sign = .plus :=
    x.head?_text.1.symm.trans (h ▸ y.head?_text.1)
  have hminus : x.sign = .minus ↔ y.sign = .minus :=
    x.head?_text.2.symm.trans (h ▸ y.head?_text.2)
  have hsign : x.sign = y.sign := by
    cases hx : x.sign <;> cases hy : y.sign <;> simp_all
  have hdigits : x.digits = y.digits := by
    rw [text, text, hsign] at h
    exact List.append_cancel_left h
  cases x
  cases y
  cases hsign
  cases hdigits
  rfl

end Numeral

theorem natural?_eq_some_iff {s : List Char} {n : Nat} :
    natural? s = some n ↔
      s ≠ [] ∧ (∀ c ∈ s, isDigit c = true) ∧ n = Nat.ofDigitChars 10 s 0 := by
  rw [natural?, digitsFrom_eq]
  simp only [Bool.or_eq_true, List.isEmpty_iff, Bool.not_eq_true', Option.ite_none_left_eq_some,
    not_or, Bool.not_eq_false, List.all_eq_true, Option.some.injEq, ne_eq, eq_comm (a := n),
    and_assoc]

theorem integer?_minus (digits : List Char) :
    integer? ('-' :: digits) = (natural? digits).map fun n : Nat => -(n : Int) := by
  rw [integer?]
  cases natural? digits <;> rfl

theorem integer?_of_head?_ne {s : List Char} (h : s.head? ≠ some '-') :
    integer? s = (natural? (dropSign s)).map Int.ofNat := by
  refine integer?.eq_2 s fun rest e => h ?_
  rw [e]
  rfl

/-- Where no minus stands, a text that can be read is digits, or digits behind a plus. -/
theorem dropSign_cases {s : List Char} (h : s.head? ≠ some '-') :
    s = '+' :: dropSign s ∨ s = dropSign s := by
  cases s with
  | nil => exact Or.inr rfl
  | cons c rest =>
    by_cases hplus : c = '+'
    · subst hplus
      exact Or.inl rfl
    · have hminus : c ≠ '-' := fun hc => h (congrArg some hc)
      have hdrop : dropSign (c :: rest) = c :: rest := if_neg (by simp [hplus, hminus])
      exact Or.inr hdrop.symm

/-- The text of a numeral is read as its value. -/
theorem integer?_text (x : Numeral) : integer? x.text = some x.value := by
  have hread : natural? x.digits = some (Nat.ofDigitChars 10 x.digits 0) :=
    natural?_eq_some_iff.mpr ⟨x.digits_ne_nil, x.isDigit_of_mem, rfl⟩
  rw [Numeral.text, Numeral.value]
  cases hsign : x.sign with
  | absent =>
    obtain ⟨d, ds, hdigits, hd, -⟩ := x.exists_digits_eq_cons
    obtain ⟨hplus, hminus⟩ := not_sign_of_isDigit hd
    have hhead : x.digits.head? ≠ some '-' := by
      rw [hdigits]
      exact fun e => hminus (Option.some.inj e)
    have hdrop : dropSign x.digits = x.digits := by
      rw [hdigits]
      exact if_neg (by simp [hplus, hminus])
    rw [Sign.text, List.nil_append, integer?_of_head?_ne hhead, hdrop, hread]
    rfl
  | plus =>
    have hhead : ('+' :: x.digits).head? ≠ some '-' := fun e => absurd (Option.some.inj e) (by decide)
    have hdrop : dropSign ('+' :: x.digits) = x.digits := rfl
    rw [Sign.text, List.singleton_append, integer?_of_head?_ne hhead, hdrop, hread]
    rfl
  | minus =>
    rw [Sign.text, List.singleton_append, integer?_minus, hread]
    rfl

/-- **What can be read as an integer is the text of a numeral**, and it is read as its value. -/
theorem integer?_eq_some_iff {s : List Char} {n : Int} :
    integer? s = some n ↔ ∃ x : Numeral, x.text = s ∧ x.value = n := by
  constructor
  · intro h
    by_cases hminus : s.head? = some '-'
    · obtain ⟨digits, rfl⟩ := List.head?_eq_some_iff.mp hminus
      rw [integer?_minus] at h
      obtain ⟨k, hk, rfl⟩ := Option.map_eq_some_iff.mp h
      obtain ⟨hne, hall, rfl⟩ := natural?_eq_some_iff.mp hk
      exact ⟨⟨.minus, digits, hne, hall⟩, rfl, rfl⟩
    · rw [integer?_of_head?_ne hminus] at h
      obtain ⟨k, hk, rfl⟩ := Option.map_eq_some_iff.mp h
      obtain ⟨hne, hall, rfl⟩ := natural?_eq_some_iff.mp hk
      rcases dropSign_cases hminus with hs | hs
      · exact ⟨⟨.plus, dropSign s, hne, hall⟩, hs.symm, rfl⟩
      · exact ⟨⟨.absent, dropSign s, hne, hall⟩, hs.symm, rfl⟩
  · rintro ⟨x, rfl, rfl⟩
    exact integer?_text x

/-- The integer fits a signed word of 64 bits. -/
def FitsInt64 (n : Int) : Prop := int64Bounds.1 ≤ n ∧ n ≤ int64Bounds.2

instance (n : Int) : Decidable (FitsInt64 n) := inferInstanceAs (Decidable (_ ∧ _))

theorem int64?_eq_some_iff {s : List Char} {n : Int} :
    int64? s = some n ↔ ∃ x : Numeral, x.text = s ∧ x.value = n ∧ FitsInt64 n := by
  rw [int64?, Option.filter_eq_some_iff, integer?_eq_some_iff, Bool.and_eq_true,
    decide_eq_true_eq, decide_eq_true_eq]
  constructor
  · rintro ⟨⟨x, htext, hvalue⟩, hfits⟩
    exact ⟨x, htext, hvalue, hfits⟩
  · rintro ⟨x, htext, hvalue, hfits⟩
    exact ⟨⟨x, htext, hvalue⟩, hfits⟩

/-! ## 3. Decimals -/

/-- The decimal of an integer. -/
def decimal (n : Int) : List Char := (toString n).toList

/-- A decimal is the digits of a number, or a sign and the digits of a number that is not zero. -/
theorem decimal_cases (n : Int) :
    (∃ k : Nat, n = k ∧ decimal n = Nat.toDigits 10 k) ∨
      ∃ k : Nat, 0 < k ∧ n = -(k : Int) ∧ decimal n = '-' :: Nat.toDigits 10 k := by
  by_cases hn : 0 ≤ n
  · refine Or.inl ⟨n.toNat, by omega, ?_⟩
    rw [decimal, Int.toString_eq_repr, Int.repr_eq_if, if_pos hn, Nat.toList_repr]
  · refine Or.inr ⟨(-n).toNat, by omega, by omega, ?_⟩
    rw [decimal, Int.toString_eq_repr, Int.repr_eq_if, if_neg hn, String.toList_append,
      Nat.toList_repr]
    rfl

/-- The decimal of an integer is the shortest of its numerals. -/
theorem exists_numeral_decimal (n : Int) :
    ∃ x : Numeral, x.text = decimal n ∧ x.value = n ∧ x.IsCanonical := by
  have hcanonical : ∀ k : Nat, (Nat.toDigits 10 k).head? = some '0' → Nat.toDigits 10 k = ['0'] := by
    intro k hhead
    rcases Nat.eq_zero_or_pos k with rfl | hk
    · exact Nat.toDigits_zero 10
    · exact absurd hhead (head?_toDigits_ne_zero hk)
  rcases decimal_cases n with ⟨k, rfl, hdecimal⟩ | ⟨k, -, rfl, hdecimal⟩
  · refine ⟨⟨.absent, Nat.toDigits 10 k, Nat.toDigits_ne_nil, fun c => isDigit_of_mem_toDigits⟩,
      hdecimal.symm, ?_, hcanonical k⟩
    simp [Numeral.value, Nat.ofDigitChars_ten_toDigits]
  · refine ⟨⟨.minus, Nat.toDigits 10 k, Nat.toDigits_ne_nil, fun c => isDigit_of_mem_toDigits⟩,
      hdecimal.symm, ?_, hcanonical k⟩
    simp [Numeral.value, Nat.ofDigitChars_ten_toDigits]

/-- **The decimal of an integer is read back.** -/
theorem integer?_decimal (n : Int) : integer? (decimal n) = some n := by
  obtain ⟨x, htext, hvalue, -⟩ := exists_numeral_decimal n
  exact integer?_eq_some_iff.mpr ⟨x, htext, hvalue⟩

theorem int64?_decimal {n : Int} (h : FitsInt64 n) : int64? (decimal n) = some n := by
  obtain ⟨x, htext, hvalue, -⟩ := exists_numeral_decimal n
  exact int64?_eq_some_iff.mpr ⟨x, htext, hvalue, h⟩

end EditorSettings.Text
