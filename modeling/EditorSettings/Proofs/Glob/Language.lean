/-
# The language of an expression

An expression denotes a set of texts, its language.  What the matcher needs to know of a language
is where it leads to from a place in a text: `Reaches` says that a text of the language stands
between the place and another one.  Products of languages are one step after the other
(`reaches_mul`), sums are a choice (`reaches_add`), and a run of characters stands still or takes
a step and goes on (`reaches_runs_cons`).
-/
import EditorSettings.Glob.Expr
import EditorSettings.Text.Decimal
import Mathlib.Computability.Language
import Mathlib.Data.List.Infix

namespace EditorSettings.Glob

open EditorSettings.Text

/-! ## 1. Languages -/

/-- The characters of a kind, each as a text. -/
def ones (p : Char → Bool) : Language Char := {w | ∃ c, p c = true ∧ w = [c]}

/-- The texts of characters of a kind. -/
def runs (p : Char → Bool) : Language Char := {w | ∀ c ∈ w, p c = true}

/-- The integers, with or without a sign. -/
def numerals : Language Char :=
  {w | ∃ sign d ds, sign ∈ [[], ['+'], ['-']] ∧ isDigit d = true ∧ ds ∈ runs isDigit ∧
    w = sign ++ d :: ds}

/-- What an atom matches. -/
def Atom.language : Atom → Language Char
  | .char c => ones (· == c)
  | .set s => ones s.has
  | .one => ones (· != '/')
  | .run => runs (· != '/')
  | .any => runs fun _ => true
  | .number _ => numerals

/-- What an expression matches. -/
def Expr.language : Expr → Language Char
  | .empty => 1
  | .atom a => a.language
  | .seq a b => a.language * b.language
  | .either a b => a.language + b.language
  | .group e => e.language

/-! ## 2. Steps through a text -/

/-- From the text `a`, one comes to its end `b` by a text of the language. -/
def Reaches (l : Language Char) (a b : List Char) : Prop := ∃ w ∈ l, a = w ++ b

theorem Reaches.suffix {l : Language Char} {a b : List Char} (h : Reaches l a b) : b <:+ a := by
  obtain ⟨w, -, rfl⟩ := h
  exact List.suffix_append w b

theorem reaches_one {a b : List Char} : Reaches 1 a b ↔ a = b := by
  constructor
  · rintro ⟨w, hw, rfl⟩
    rw [(Language.mem_one w).mp hw, List.nil_append]
  · rintro rfl
    exact ⟨[], Language.nil_mem_one, rfl⟩

theorem reaches_mul {l m : Language Char} {a b : List Char} :
    Reaches (l * m) a b ↔ ∃ c, Reaches l a c ∧ Reaches m c b := by
  constructor
  · rintro ⟨w, hw, rfl⟩
    obtain ⟨u, hu, v, hv, rfl⟩ := Language.mem_mul.mp hw
    exact ⟨v ++ b, ⟨u, hu, List.append_assoc u v b⟩, ⟨v, hv, rfl⟩⟩
  · rintro ⟨c, ⟨u, hu, rfl⟩, ⟨v, hv, rfl⟩⟩
    exact ⟨u ++ v, Language.mem_mul.mpr ⟨u, hu, v, hv, rfl⟩, (List.append_assoc u v b).symm⟩

theorem reaches_add {l m : Language Char} {a b : List Char} :
    Reaches (l + m) a b ↔ Reaches l a b ∨ Reaches m a b := by
  constructor
  · rintro ⟨w, hw, rfl⟩
    rcases (Language.mem_add l m w).mp hw with hw | hw
    · exact Or.inl ⟨w, hw, rfl⟩
    · exact Or.inr ⟨w, hw, rfl⟩
  · rintro (⟨w, hw, rfl⟩ | ⟨w, hw, rfl⟩)
    · exact ⟨w, (Language.mem_add l m w).mpr (Or.inl hw), rfl⟩
    · exact ⟨w, (Language.mem_add l m w).mpr (Or.inr hw), rfl⟩

theorem reaches_nil {l : Language Char} {a : List Char} : Reaches l a [] ↔ a ∈ l := by
  constructor
  · rintro ⟨w, hw, rfl⟩
    rw [List.append_nil]
    exact hw
  · intro h
    exact ⟨a, h, (List.append_nil a).symm⟩

theorem reaches_ones {p : Char → Bool} {a b : List Char} :
    Reaches (ones p) a b ↔ ∃ c, p c = true ∧ a = c :: b := by
  constructor
  · rintro ⟨w, ⟨c, hc, rfl⟩, rfl⟩
    exact ⟨c, hc, rfl⟩
  · rintro ⟨c, hc, rfl⟩
    exact ⟨[c], ⟨c, hc, rfl⟩, rfl⟩

theorem reaches_runs_refl (p : Char → Bool) (a : List Char) : Reaches (runs p) a a :=
  ⟨[], fun _ hc => absurd hc List.not_mem_nil, rfl⟩

theorem reaches_runs_nil {p : Char → Bool} {b : List Char} : Reaches (runs p) [] b ↔ b = [] := by
  constructor
  · rintro ⟨w, -, h⟩
    exact (List.append_eq_nil_iff.mp h.symm).2
  · rintro rfl
    exact reaches_runs_refl p []

/-- A run stands still or takes a step. -/
theorem reaches_runs_cons {p : Char → Bool} {c : Char} {a b : List Char} :
    Reaches (runs p) (c :: a) b ↔ c :: a = b ∨ p c = true ∧ Reaches (runs p) a b := by
  constructor
  · rintro ⟨w, hw, h⟩
    cases w with
    | nil => exact Or.inl h
    | cons d w =>
      rw [List.cons_append, List.cons.injEq] at h
      obtain ⟨rfl, rfl⟩ := h
      exact Or.inr ⟨hw _ List.mem_cons_self, w, fun x hx => hw x (List.mem_cons_of_mem _ hx), rfl⟩
  · rintro (rfl | ⟨hc, w, hw, rfl⟩)
    · exact reaches_runs_refl p _
    · refine ⟨c :: w, ?_, rfl⟩
      intro x hx
      rcases List.mem_cons.mp hx with rfl | hx
      · exact hc
      · exact hw x hx

theorem reaches_runs_trans {p : Char → Bool} {a b c : List Char} (hab : Reaches (runs p) a b)
    (hbc : Reaches (runs p) b c) : Reaches (runs p) a c := by
  obtain ⟨u, hu, rfl⟩ := hab
  obtain ⟨v, hv, rfl⟩ := hbc
  refine ⟨u ++ v, ?_, (List.append_assoc u v c).symm⟩
  intro x hx
  rcases List.mem_append.mp hx with hx | hx
  · exact hu x hx
  · exact hv x hx

end EditorSettings.Glob
