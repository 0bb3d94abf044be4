/-
# Readings find the language

The matcher does not go through the texts of a language, but through all readings at once, and
drops those that come to a place where another one has been.  Here it is shown that this loses no
place: the readings that continue those of a list come to exactly the places that the language
reaches from there (`come_readings`).  So a whole text can be read if and only if it is in the
language (`whole?_isSome_iff`).

Two facts carry the proof.  All places are in one text, so that a place is known by how much
follows (`eq_of_suffix_of_length_eq`).  And the places that have been seen are closed under
reading on, so that a run may stop at the first of them (`Closed`).
-/
import EditorSettings.Glob.Reading
import EditorSettings.Proofs.Glob.Language

namespace EditorSettings.Glob

open EditorSettings.Text

/-! ## 1. Places of one text -/

theorem Place.ext {a b : Place} (h : a.rest = b.rest) : a = b := by
  obtain ⟨rest, left, rfl⟩ := a
  obtain ⟨rest', left', rfl⟩ := b
  cases h
  rfl

/-- Two ends of one text are equal if they are equally long. -/
theorem eq_of_suffix_of_length_eq {s a b : List Char} (ha : a <:+ s) (hb : b <:+ s)
    (h : a.length = b.length) : a = b :=
  (List.suffix_of_suffix_length_le ha hb h.le).eq_of_length h

theorem testBit_mark (seen : Nat) (a : Place) (k : Nat) :
    (mark seen a).testBit k = true ↔ seen.testBit k = true ∨ a.left = k := by
  rw [mark, Nat.testBit_or, Nat.one_shiftLeft, Nat.testBit_two_pow, Bool.or_eq_true,
    decide_eq_true_eq]

theorem testBit_foldl_mark (found : List Place) :
    ∀ (seen k : Nat), (found.foldl mark seen).testBit k = true ↔
      seen.testBit k = true ∨ ∃ x ∈ found, x.left = k := by
  induction found with
  | nil => intro seen k; simp
  | cons a rest ih =>
    intro seen k
    rw [List.foldl_cons, ih, testBit_mark, or_assoc]
    simp

/-- The readings of a list are in the text. -/
def Within (s : List Char) (rs : List Reading) : Prop := ∀ r ∈ rs, r.place.rest <:+ s

/-- A reading of the list has come to `b`. -/
def Come (rs : List Reading) (b : List Char) : Prop := ∃ r ∈ rs, r.place.rest = b

theorem come_cons {r : Reading} {rs : List Reading} {b : List Char} :
    Come (r :: rs) b ↔ r.place.rest = b ∨ Come rs b := List.exists_mem_cons_iff _ _ _

theorem come_append {rs ts : List Reading} {b : List Char} :
    Come (rs ++ ts) b ↔ Come rs b ∨ Come ts b := by
  simp only [Come, List.mem_append, or_and_right, exists_or]

/-- The reading that all others continue is in the text. -/
theorem within_start (s : List Char) : Within s [⟨.start s, [], []⟩] := by
  intro r hr
  rw [List.mem_singleton.mp hr]
  exact List.suffix_refl s

theorem Within.cons {s : List Char} {r : Reading} {rs : List Reading} (h : Within s (r :: rs)) :
    r.place.rest <:+ s ∧ Within s rs := List.forall_mem_cons.mp h

/-- Dropping the readings that come later to a place loses no place. -/
theorem come_distinct {s : List Char} :
    ∀ (rs : List Reading) (seen : Nat), Within s rs → ∀ b,
      Come (distinct seen rs) b ↔ seen.testBit b.length = false ∧ Come rs b
  | [], seen, _, b => by simp [distinct, Come]
  | r :: more, seen, hs, b => by
    obtain ⟨hr, hmore⟩ := hs.cons
    have hleft : r.place.left = r.place.rest.length := r.place.left_eq
    by_cases hseen : seen.testBit r.place.left = true
    · rw [distinct, if_pos hseen, come_distinct more seen hmore, come_cons]
      constructor
      · rintro ⟨hb, hcome⟩
        exact ⟨hb, Or.inr hcome⟩
      · rintro ⟨hb, rfl | hcome⟩
        · rw [hleft, hb] at hseen
          cases hseen
        · exact ⟨hb, hcome⟩
    · rw [distinct, if_neg hseen, come_cons, come_cons, come_distinct more _ hmore,
        ← Bool.not_eq_true, testBit_mark, not_or, Bool.not_eq_true]
      constructor
      · rintro (rfl | ⟨⟨hb, -⟩, hcome⟩)
        · rw [hleft, Bool.not_eq_true] at hseen
          exact ⟨hseen, Or.inl rfl⟩
        · exact ⟨hb, Or.inr hcome⟩
      · rintro ⟨hb, hcome⟩
        by_cases hrb : r.place.rest = b
        · exact Or.inl hrb
        · have hcome := hcome.resolve_left hrb
          refine Or.inr ⟨⟨hb, fun hlen => hrb ?_⟩, hcome⟩
          obtain ⟨t, ht, rfl⟩ := hcome
          exact eq_of_suffix_of_length_eq hr (hmore t ht) (hleft ▸ hlen)

/-! ## 2. Runs -/

/-- With a place that has been seen, all places have been seen to which characters of the kind
lead from there. -/
def Closed (p : Char → Bool) (s : List Char) (seen : Nat) : Prop :=
  ∀ a b, a <:+ s → Reaches (runs p) a b → seen.testBit a.length = true →
    seen.testBit b.length = true

/-- From a place that has been seen, nothing can be reached that has not been seen. -/
theorem Closed.not_reaches {p : Char → Bool} {s rest : List Char} {seen : Nat}
    (hclosed : Closed p s seen) (hs : rest <:+ s) (hseen : seen.testBit rest.length = true)
    (x : Place) : ¬ (seen.testBit x.left = false ∧ Reaches (runs p) rest x.rest) := by
  rintro ⟨hx, hr⟩
  have hall := hclosed _ _ hs hr hseen
  rw [← x.left_eq, hx] at hall
  cases hall

/-- The place that is added to those that have been passed. -/
theorem mem_cons_passed {seen : Nat} {a : Place} (ha : ¬ seen.testBit a.left = true) (x : Place)
    (passed : List Place) :
    x ∈ a :: passed ↔ x ∈ passed ∨ seen.testBit x.left = false ∧ x = a := by
  rw [List.mem_cons, or_comm]
  refine or_congr_right ⟨?_, And.right⟩
  rintro rfl
  exact ⟨Bool.not_eq_true _ |>.mp ha, rfl⟩

/-- A stretch is what can be reached and has not been seen. -/
theorem mem_stretch {p : Char → Bool} {s : List Char} {seen : Nat} (hclosed : Closed p s seen)
    (x : Place) :
    ∀ (rest : List Char) (left : Nat) (h : left = rest.length) (passed : List Place), rest <:+ s →
      (x ∈ stretch p seen passed rest left h ↔
        x ∈ passed ∨ seen.testBit x.left = false ∧ Reaches (runs p) rest x.rest)
  | [], left, h, passed, hs => by
    rw [stretch]
    by_cases hseen : seen.testBit left = true
    · rw [if_pos hseen, or_iff_left (hclosed.not_reaches hs (h ▸ hseen) x)]
    · have hx : Reaches (runs p) [] x.rest ↔ x = ⟨[], left, h⟩ := by
        rw [reaches_runs_nil]
        exact ⟨fun e => Place.ext e, fun e => e ▸ rfl⟩
      rw [if_neg hseen, hx]
      exact mem_cons_passed hseen x passed
  | c :: rest, left, h, passed, hs => by
    rw [stretch]
    by_cases hseen : seen.testBit left = true
    · rw [if_pos hseen, or_iff_left (hclosed.not_reaches hs (h ▸ hseen) x)]
    · have hx : c :: rest = x.rest ↔ x = ⟨c :: rest, left, h⟩ :=
        ⟨fun e => Place.ext e.symm, fun e => e ▸ rfl⟩
      have hhere := mem_cons_passed (a := ⟨c :: rest, left, h⟩) hseen x passed
      rw [if_neg hseen, reaches_runs_cons, hx]
      by_cases hc : p c = true
      · have hrest : rest <:+ s := (List.suffix_cons c rest).trans hs
        rw [if_pos hc, mem_stretch hclosed x rest _ _ _ hrest, hhere, or_assoc, ← and_or_left,
          and_iff_right hc]
      · have hstop : ¬ (p c = true ∧ Reaches (runs p) rest x.rest) := fun hmore => hc hmore.1
        rw [if_neg hc, hhere, or_iff_left hstop]

/-- The stretch from a place. -/
theorem mem_stretch_nil {p : Char → Bool} {s : List Char} {seen : Nat} (hclosed : Closed p s seen)
    {a : Place} (ha : a.rest <:+ s) (x : Place) :
    x ∈ stretch p seen [] a.rest a.left a.left_eq ↔
      seen.testBit x.left = false ∧ Reaches (runs p) a.rest x.rest := by
  rw [mem_stretch hclosed x _ _ _ _ ha]
  exact or_iff_right List.not_mem_nil

/-- After a stretch the places that have been seen are closed again. -/
theorem Closed.foldl_mark {p : Char → Bool} {s : List Char} {seen : Nat}
    (hclosed : Closed p s seen) {a : Place} (ha : a.rest <:+ s) :
    Closed p s ((stretch p seen [] a.rest a.left a.left_eq).foldl mark seen) := by
  intro b c hb hbc hseen
  rw [testBit_foldl_mark] at hseen ⊢
  rcases hseen with hseen | ⟨x, hx, hleft⟩
  · exact Or.inl (hclosed b c hb hbc hseen)
  · obtain ⟨-, hax⟩ := (mem_stretch_nil hclosed ha x).mp hx
    have hxb : x.rest = b :=
      eq_of_suffix_of_length_eq (hax.suffix.trans ha) hb (x.left_eq ▸ hleft)
    have hac : Reaches (runs p) a.rest c := reaches_runs_trans hax (hxb ▸ hbc)
    by_cases hc : seen.testBit c.length = true
    · exact Or.inl hc
    · refine Or.inr ⟨⟨c, c.length, rfl⟩, ?_, rfl⟩
      exact (mem_stretch_nil hclosed ha _).mpr ⟨Bool.not_eq_true _ |>.mp hc, hac⟩

/-- The readings of a stretch come to its places. -/
theorem come_map_stretch {p : Char → Bool} {s : List Char} {seen : Nat}
    (hclosed : Closed p s seen) {a : Place} (ha : a.rest <:+ s) {become : Place → Reading}
    (hbecome : ∀ x, (become x).place = x) (b : List Char) :
    Come ((stretch p seen [] a.rest a.left a.left_eq).map become) b ↔
      seen.testBit b.length = false ∧ Reaches (runs p) a.rest b := by
  constructor
  · rintro ⟨r, hr, rfl⟩
    obtain ⟨x, hx, rfl⟩ := List.mem_map.mp hr
    rw [hbecome, ← x.left_eq]
    exact (mem_stretch_nil hclosed ha x).mp hx
  · intro h
    refine ⟨become ⟨b, b.length, rfl⟩, List.mem_map_of_mem ?_, by rw [hbecome]⟩
    exact (mem_stretch_nil hclosed ha _).mpr h

/-- Spreading comes to all places that can be reached and have not been seen. -/
theorem come_spread {p : Char → Bool} {s : List Char} :
    ∀ (starts : List (Place × (Place → Reading))) (seen : Nat),
      (∀ t ∈ starts, t.1.rest <:+ s ∧ ∀ x, (t.2 x).place = x) → Closed p s seen → ∀ b,
      (Come (spread p seen starts) b ↔
        seen.testBit b.length = false ∧ ∃ t ∈ starts, Reaches (runs p) t.1.rest b)
  | [], seen, _, _, b => by simp [spread, Come]
  | (a, become) :: more, seen, hstarts, hclosed, b => by
    obtain ⟨⟨ha, hbecome⟩, hmore⟩ := List.forall_mem_cons.mp hstarts
    have hclosed' := hclosed.foldl_mark ha
    rw [spread, come_append, come_map_stretch hclosed ha hbecome,
      come_spread more _ hmore hclosed', List.exists_mem_cons_iff]
    constructor
    · rintro (⟨hb, hr⟩ | ⟨hb, ht⟩)
      · exact ⟨hb, Or.inl hr⟩
      · refine ⟨?_, Or.inr ht⟩
        rw [← Bool.not_eq_true, testBit_foldl_mark, not_or] at hb
        exact Bool.not_eq_true _ |>.mp hb.1
    · rintro ⟨hb, hr⟩
      by_cases hab : Reaches (runs p) a.rest b
      · exact Or.inl ⟨hb, hab⟩
      · obtain ⟨t, ht, htb⟩ := hr.resolve_left hab
        refine Or.inr ⟨?_, t, ht, htb⟩
        rw [← Bool.not_eq_true, testBit_foldl_mark]
        rintro (hseen | ⟨x, hx, hleft⟩)
        · rw [hb] at hseen
          cases hseen
        · have hax := (mem_stretch_nil hclosed ha x).mp hx
          have hxb : x.rest = b := eq_of_suffix_of_length_eq (hax.2.suffix.trans ha)
            (htb.suffix.trans (hmore t ht).1) (x.left_eq ▸ hleft)
          exact hab (hxb ▸ hax.2)

theorem closed_zero (p : Char → Bool) (s : List Char) : Closed p s 0 := by
  intro a b _ _ h
  rw [Nat.zero_testBit] at h
  cases h

/-! ## 3. Atoms -/

theorem Place.after?_eq_some {p : Char → Bool} {x y : Place} :
    x.after? p = some y ↔ ∃ c, p c = true ∧ x.rest = c :: y.rest := by
  obtain ⟨rest, left, rfl⟩ := x
  cases rest with
  | nil => simp [Place.after?]
  | cons c rest =>
    by_cases hc : p c = true
    · rw [Place.after?, if_pos hc, Option.some.injEq]
      constructor
      · rintro rfl
        exact ⟨c, hc, rfl⟩
      · rintro ⟨d, -, hd⟩
        exact Place.ext (List.cons.inj hd).2
    · rw [Place.after?, if_neg hc]
      constructor
      · intro h
        cases h
      · rintro ⟨d, hd, hcd⟩
        rw [← (List.cons.inj hcd).1] at hd
        exact absurd hd hc

theorem Place.rest_afterSign {x : Place} {c : Char} {rest : List Char}
    (hc : (c == '+' || c == '-') = true) (hx : x.rest = c :: rest) : x.afterSign.rest = rest := by
  have hy : (x.after? fun c => c == '+' || c == '-') = some ⟨rest, rest.length, rfl⟩ :=
    Place.after?_eq_some.mpr ⟨c, hc, hx⟩
  rw [Place.afterSign, hy, Option.getD_some]

theorem Place.afterSign_eq_self {x : Place} {c : Char} {rest : List Char}
    (hc : (c == '+' || c == '-') = false) (hx : x.rest = c :: rest) : x.afterSign = x := by
  cases hy : x.after? fun c => c == '+' || c == '-' with
  | none => rw [Place.afterSign, hy, Option.getD_none]
  | some y =>
    obtain ⟨d, hd, hdx⟩ := Place.after?_eq_some.mp hy
    rw [hx] at hdx
    rw [(List.cons.inj hdx).1, hd] at hc
    cases hc

theorem sign_eq_false_of_isDigit {d : Char} (hd : isDigit d = true) :
    (d == '+' || d == '-') = false := by
  by_contra hsign
  rw [Bool.not_eq_false, Bool.or_eq_true, beq_iff_eq, beq_iff_eq] at hsign
  rcases hsign with rfl | rfl
  · revert hd
    decide
  · revert hd
    decide

/-- An integer is read digit by digit after its sign. -/
theorem reaches_numerals {x : Place} {b : List Char} :
    Reaches numerals x.rest b ↔
      ∃ a, x.afterSign.after? isDigit = some a ∧ Reaches (runs isDigit) a.rest b := by
  constructor
  · rintro ⟨w, ⟨sign, d, ds, hsign, hd, hds, rfl⟩, hx⟩
    refine ⟨⟨ds ++ b, (ds ++ b).length, rfl⟩, Place.after?_eq_some.mpr ⟨d, hd, ?_⟩, ds, hds, rfl⟩
    simp only [List.mem_cons, List.not_mem_nil, or_false] at hsign
    rcases hsign with rfl | rfl | rfl
    · rw [Place.afterSign_eq_self (sign_eq_false_of_isDigit hd) hx, hx]
      rfl
    · exact Place.rest_afterSign (by decide) hx
    · exact Place.rest_afterSign (by decide) hx
  · rintro ⟨a, ha, ds, hds, hab⟩
    obtain ⟨d, hd, hda⟩ := Place.after?_eq_some.mp ha
    cases hy : x.after? fun c => c == '+' || c == '-' with
    | none =>
      rw [Place.afterSign, hy, Option.getD_none] at hda
      exact ⟨d :: ds, ⟨[], d, ds, by simp, hd, hds, rfl⟩, by rw [hda, hab]; rfl⟩
    | some y =>
      rw [Place.afterSign, hy, Option.getD_some] at hda
      obtain ⟨c, hc, hcx⟩ := Place.after?_eq_some.mp hy
      refine ⟨c :: d :: ds, ⟨[c], d, ds, ?_, hd, hds, rfl⟩, by rw [hcx, hda, hab]; rfl⟩
      rw [Bool.or_eq_true, beq_iff_eq, beq_iff_eq] at hc
      rcases hc with rfl | rfl
      · simp
      · simp

section

variable {s : List Char} {rs : List Reading} {b : List Char}

theorem come_byOne {p : Char → Bool} :
    Come (Reading.byOne p rs) b ↔ ∃ r ∈ rs, Reaches (ones p) r.place.rest b := by
  constructor
  · rintro ⟨r, hr, rfl⟩
    obtain ⟨t, ht, htr⟩ := List.mem_filterMap.mp hr
    obtain ⟨y, hy, rfl⟩ := Option.map_eq_some_iff.mp htr
    exact ⟨t, ht, reaches_ones.mpr (Place.after?_eq_some.mp hy)⟩
  · rintro ⟨r, hr, hb⟩
    have hy : r.place.after? p = some ⟨b, b.length, rfl⟩ :=
      Place.after?_eq_some.mpr (reaches_ones.mp hb)
    exact ⟨r.moveTo ⟨b, b.length, rfl⟩,
      List.mem_filterMap.mpr ⟨r, hr, Option.map_eq_some_iff.mpr ⟨_, hy, rfl⟩⟩, rfl⟩

/-- A run is read from places in the text. -/
theorem runStarts_within (hs : Within s rs) :
    ∀ t ∈ rs.map fun r => (r.place, r.moveTo), t.1.rest <:+ s ∧ ∀ x, (t.2 x).place = x := by
  intro t ht
  obtain ⟨r, hr, rfl⟩ := List.mem_map.mp ht
  exact ⟨hs r hr, fun x => rfl⟩

theorem come_byRun {p : Char → Bool} (hs : Within s rs) :
    Come (Reading.byRun p rs) b ↔ ∃ r ∈ rs, Reaches (runs p) r.place.rest b := by
  rw [Reading.byRun, come_spread _ _ (runStarts_within hs) (closed_zero p s), Nat.zero_testBit]
  constructor
  · rintro ⟨-, t, ht, hb⟩
    obtain ⟨r, hr, rfl⟩ := List.mem_map.mp ht
    exact ⟨r, hr, hb⟩
  · rintro ⟨r, hr, hb⟩
    exact ⟨rfl, _, List.mem_map_of_mem hr, hb⟩

/-- The further digits of an integer are read from places in the text. -/
theorem numberStarts_within {index : Nat} (hs : Within s rs) :
    ∀ t ∈ rs.filterMap fun r =>
        (r.place.afterSign.after? isDigit).map fun a => (a, r.numberTo index),
      t.1.rest <:+ s ∧ ∀ x, (t.2 x).place = x := by
  intro t ht
  obtain ⟨r, hr, hrt⟩ := List.mem_filterMap.mp ht
  obtain ⟨a, ha, rfl⟩ := Option.map_eq_some_iff.mp hrt
  have hra : Reaches numerals r.place.rest a.rest :=
    reaches_numerals.mpr ⟨a, ha, reaches_runs_refl isDigit a.rest⟩
  exact ⟨hra.suffix.trans (hs r hr), fun x => rfl⟩

theorem come_byNumber {index : Nat} (hs : Within s rs) :
    Come (Reading.byNumber index rs) b ↔ ∃ r ∈ rs, Reaches numerals r.place.rest b := by
  rw [Reading.byNumber, come_spread _ _ (numberStarts_within hs) (closed_zero isDigit s),
    Nat.zero_testBit]
  constructor
  · rintro ⟨-, t, ht, hb⟩
    obtain ⟨r, hr, hrt⟩ := List.mem_filterMap.mp ht
    obtain ⟨a, ha, rfl⟩ := Option.map_eq_some_iff.mp hrt
    exact ⟨r, hr, reaches_numerals.mpr ⟨a, ha, hb⟩⟩
  · rintro ⟨r, hr, hb⟩
    obtain ⟨a, ha, hab⟩ := reaches_numerals.mp hb
    exact ⟨rfl, _, List.mem_filterMap.mpr ⟨r, hr, Option.map_eq_some_iff.mpr ⟨a, ha, rfl⟩⟩, hab⟩

/-- An atom leads the readings to the places that its language reaches. -/
theorem come_atom (a : Atom) (hs : Within s rs) :
    Come (a.readings rs) b ↔ ∃ r ∈ rs, Reaches a.language r.place.rest b := by
  cases a with
  | char c => exact come_byOne
  | set set => exact come_byOne
  | one => exact come_byOne
  | run => exact come_byRun hs
  | any => exact come_byRun hs
  | number index => exact come_byNumber hs

end

/-! ## 4. Expressions -/

theorem exists_come {rs : List Reading} {p : List Char → Prop} :
    (∃ a, Come rs a ∧ p a) ↔ ∃ r ∈ rs, p r.place.rest := by
  constructor
  · rintro ⟨a, ⟨r, hr, rfl⟩, ha⟩
    exact ⟨r, hr, ha⟩
  · rintro ⟨r, hr, ha⟩
    exact ⟨r.place.rest, ⟨r, hr, rfl⟩, ha⟩

theorem come_leave {rs : List Reading} {b : List Char} :
    Come (rs.map Reading.leave) b ↔ Come rs b := by
  constructor
  · rintro ⟨r, hr, rfl⟩
    obtain ⟨t, ht, rfl⟩ := List.mem_map.mp hr
    exact ⟨t, ht, rfl⟩
  · rintro ⟨r, hr, rfl⟩
    exact ⟨r.leave, List.mem_map_of_mem hr, rfl⟩

theorem come_enter {rs : List Reading} {b : List Char} : Come (Reading.enter rs) b ↔ Come rs b := by
  constructor
  · rintro ⟨r, hr, rfl⟩
    obtain ⟨⟨t, i⟩, ht, rfl⟩ := List.mem_map.mp hr
    exact ⟨t, (List.mem_zipIdx' ht).2 ▸ List.getElem_mem _, rfl⟩
  · rintro ⟨r, hr, rfl⟩
    obtain ⟨i, hi, rfl⟩ := List.getElem_of_mem hr
    have hmem := List.mk_mem_zipIdx_iff_getElem?.mpr (List.getElem?_eq_getElem hi)
    exact ⟨_, List.mem_map_of_mem hmem, rfl⟩

theorem come_merge {rs ts : List Reading} {le : Reading → Reading → Bool} {b : List Char} :
    Come (rs.merge ts le) b ↔ Come rs b ∨ Come ts b := by
  simp only [Come, List.mem_merge, or_and_right, exists_or]

theorem within_iff {s : List Char} {rs : List Reading} :
    Within s rs ↔ ∀ b, Come rs b → b <:+ s := by
  constructor
  · rintro h b ⟨r, hr, rfl⟩
    exact h r hr
  · intro h r hr
    exact h _ ⟨r, hr, rfl⟩

/-- **Going through an expression** leads a list of readings to the places that the language
reaches, and to no others. -/
theorem come_readings (e : Expr) {s : List Char} :
    ∀ {rs : List Reading}, Within s rs → ∀ b,
      (Come (e.readings rs) b ↔ ∃ a, Come rs a ∧ Reaches e.language a b) := by
  induction e with
  | empty =>
    intro rs _ b
    simp only [Expr.readings, Expr.language, reaches_one, exists_eq_right]
  | atom a =>
    intro rs hs b
    rw [Expr.readings, come_atom a hs, Expr.language, exists_come]
  | seq e f ihe ihf =>
    intro rs hs b
    have hwithin : Within s (e.readings rs) := by
      refine within_iff.mpr fun c hc => ?_
      obtain ⟨a, ha, hac⟩ := (ihe hs c).mp hc
      exact hac.suffix.trans (within_iff.mp hs a ha)
    rw [Expr.readings, ihf hwithin, Expr.language]
    constructor
    · rintro ⟨c, hc, hcb⟩
      obtain ⟨a, ha, hac⟩ := (ihe hs c).mp hc
      exact ⟨a, ha, reaches_mul.mpr ⟨c, hac, hcb⟩⟩
    · rintro ⟨a, ha, hab⟩
      obtain ⟨c, hac, hcb⟩ := reaches_mul.mp hab
      exact ⟨c, (ihe hs c).mpr ⟨a, ha, hac⟩, hcb⟩
  | either e f ihe ihf =>
    intro rs hs b
    have henter : Within s (Reading.enter rs) :=
      within_iff.mpr fun c hc => within_iff.mp hs c (come_enter.mp hc)
    have hboth : ∀ c, Come (((e.readings (Reading.enter rs)).merge (f.readings (Reading.enter rs))
        Reading.notAfter).map Reading.leave) c ↔
          ∃ a, Come rs a ∧ Reaches (e.language + f.language) a c := by
      intro c
      rw [come_leave, come_merge, ihe henter, ihf henter]
      simp only [come_enter, reaches_add, and_or_left, exists_or]
    have hwithin : Within s (((e.readings (Reading.enter rs)).merge
        (f.readings (Reading.enter rs)) Reading.notAfter).map Reading.leave) := by
      refine within_iff.mpr fun c hc => ?_
      obtain ⟨a, ha, hac⟩ := (hboth c).mp hc
      exact hac.suffix.trans (within_iff.mp hs a ha)
    rw [Expr.readings, come_distinct _ _ hwithin, Nat.zero_testBit, hboth, Expr.language]
    exact and_iff_right rfl
  | group e ih =>
    intro rs hs b
    exact ih hs b

/-- **A whole text can be read if and only if it is in the language.** -/
theorem whole?_isSome_iff (e : Expr) (s : List Char) :
    (e.whole? s).isSome = true ↔ s ∈ e.language := by
  have hstart : ∀ a, Come [⟨.start s, [], []⟩] a ↔ s = a := by
    intro a
    rw [come_cons]
    exact or_iff_left (fun ⟨_, h, _⟩ => absurd h List.not_mem_nil)
  have hend : (e.whole? s).isSome = true ↔ Come (e.readings [⟨.start s, [], []⟩]) [] := by
    rw [Expr.whole?, List.find?_isSome]
    simp only [List.isEmpty_iff, Come]
  rw [hend, come_readings e (within_start s)]
  simp only [hstart, exists_eq_left', reaches_nil]

end EditorSettings.Glob
