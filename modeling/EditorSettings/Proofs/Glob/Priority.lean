/-
# The reading that counts

The readings of an expression have an order.  It is the order in which they are found by trying:
earlier branches first, and repetitions as long as possible first, from left to right.  `Expr.tries`
lists them in that order, one by one and with all repetitions.  The matcher does not: it goes
through the text with all readings at once, and of those that have come to one place it keeps the
first.  Here it is shown that it keeps the right ones (`readings_eq_distinct`), so that the
reading that counts is the first one that trying finds (`whole?_eq_find?`).

Whatever is dropped has come to a place where an earlier reading is.  The later one goes on in the
same ways (`places_tries`), and everything that it comes to is dropped in turn
(`distinct_flatMap_distinct`).
-/
import EditorSettings.Proofs.Glob.Reading

namespace EditorSettings.Glob

open EditorSettings.Text

/-! ## 1. Trying -/

/-- The places after a run of characters of a kind, the longest run first. -/
def greedy (p : Char → Bool) : List Char → List Place
  | [] => [.start []]
  | c :: rest => (if p c then greedy p rest else []) ++ [.start (c :: rest)]

/-- The reading that continues a reading by one character of a kind, if there is one. -/
def Reading.tryOne (p : Char → Bool) (r : Reading) : List Reading :=
  ((r.place.after? p).map r.moveTo).toList

/-- The readings that continue a reading by a run of characters of a kind, in order. -/
def Reading.tryRun (p : Char → Bool) (r : Reading) : List Reading :=
  (greedy p r.place.rest).map r.moveTo

/-- The readings that continue a reading by an integer, in order. -/
def Reading.tryNumber (index : Nat) (r : Reading) : List Reading :=
  match r.place.afterSign.after? isDigit with
  | some a => (greedy isDigit a.rest).map (r.numberTo index)
  | none => []

/-- The readings that continue a reading by an atom, in order. -/
def Atom.tries : Atom → Reading → List Reading
  | .char c => Reading.tryOne (· == c)
  | .set s => Reading.tryOne s.has
  | .one => Reading.tryOne (· != '/')
  | .run => Reading.tryRun (· != '/')
  | .any => Reading.tryRun fun _ => true
  | .number index => Reading.tryNumber index

/-- The readings that continue a reading, in order. -/
def Expr.tries : Expr → Reading → List Reading
  | .empty, r => [r]
  | .atom a, r => a.tries r
  | .seq a b, r => (a.tries r).flatMap b.tries
  | .either a b, r => a.tries r ++ b.tries r
  | .group e, r => e.tries r

/-- A reading that goes on behind another one. -/
def Reading.behind (r t : Reading) : Reading := ⟨t.place, t.numbers ++ r.numbers, r.origins⟩

theorem Atom.tries_eq_map (a : Atom) (r : Reading) :
    a.tries r = (a.tries ⟨r.place, [], []⟩).map r.behind := by
  have hone : ∀ p, r.tryOne p = (Reading.tryOne p ⟨r.place, [], []⟩).map r.behind := by
    intro p
    unfold Reading.tryOne
    cases r.place.after? p with
    | none => rfl
    | some y => rfl
  have hrun : ∀ p, r.tryRun p = (Reading.tryRun p ⟨r.place, [], []⟩).map r.behind := by
    intro p
    simp only [Reading.tryRun, List.map_map]
    rfl
  cases a with
  | char c => exact hone _
  | set s => exact hone _
  | one => exact hone _
  | run => exact hrun _
  | any => exact hrun _
  | number index =>
    simp only [Atom.tries, Reading.tryNumber]
    split
    · rw [List.map_map]
      rfl
    · rfl

/-- **How a reading goes on depends on its place alone.** -/
theorem Expr.tries_eq_map (e : Expr) (r : Reading) :
    e.tries r = (e.tries ⟨r.place, [], []⟩).map r.behind := by
  induction e generalizing r with
  | empty => rfl
  | atom a => exact a.tries_eq_map r
  | seq a b iha ihb =>
    rw [Expr.tries, iha, List.flatMap_map, Expr.tries, List.map_flatMap]
    refine congrArg (List.flatMap · _) (funext fun t => ?_)
    rw [ihb, ihb t, List.map_map]
    refine congrArg (List.map · _) (funext fun u => ?_)
    simp [Reading.behind]
  | either a b iha ihb =>
    rw [Expr.tries, iha, ihb, Expr.tries, List.map_append]
  | group e ih => exact ih r

theorem places_tries (e : Expr) {r t : Reading} (h : r.place = t.place) :
    (e.tries r).map Reading.place = (e.tries t).map Reading.place := by
  rw [e.tries_eq_map r, e.tries_eq_map t, h, List.map_map, List.map_map]
  rfl

theorem origins_of_mem_tries {e : Expr} {r t : Reading} (h : t ∈ e.tries r) :
    t.origins = r.origins := by
  rw [e.tries_eq_map] at h
  obtain ⟨u, -, rfl⟩ := List.mem_map.mp h
  rfl

/-- The origins of a reading are carried along. -/
theorem tries_origins (e : Expr) (r : Reading) (origins : List Nat) :
    e.tries { r with origins := origins } =
      (e.tries r).map fun t => { t with origins := origins } := by
  rw [e.tries_eq_map, e.tries_eq_map r, List.map_map]
  rfl

/-! ## 2. Dropping readings -/

/-- The places that have been seen, with those of the readings of a list. -/
def seenWith (seen : Nat) (rs : List Reading) : Nat := (rs.map Reading.place).foldl mark seen

/-- All places that have been seen here have been seen there. -/
def SeenIn (m n : Nat) : Prop := ∀ k, m.testBit k = true → n.testBit k = true

theorem testBit_seenWith (seen : Nat) (rs : List Reading) (k : Nat) :
    (seenWith seen rs).testBit k = true ↔
      seen.testBit k = true ∨ ∃ r ∈ rs, r.place.left = k := by
  rw [seenWith, testBit_foldl_mark]
  simp

theorem seenWith_cons (seen : Nat) (r : Reading) (rs : List Reading) :
    seenWith seen (r :: rs) = seenWith (mark seen r.place) rs := rfl

theorem eq_of_testBit_iff {m n : Nat} (h : ∀ k, m.testBit k = true ↔ n.testBit k = true) :
    m = n := Nat.eq_of_testBit_eq fun k => Bool.eq_iff_iff.mpr (h k)

theorem seenWith_eq_self {seen : Nat} {rs : List Reading}
    (h : ∀ r ∈ rs, seen.testBit r.place.left = true) : seenWith seen rs = seen := by
  refine eq_of_testBit_iff fun k => ?_
  rw [testBit_seenWith, or_iff_left_iff_imp]
  rintro ⟨r, hr, rfl⟩
  exact h r hr

theorem mark_eq_self {seen : Nat} {a : Place} (h : seen.testBit a.left = true) :
    mark seen a = seen := by
  refine eq_of_testBit_iff fun k => ?_
  rw [testBit_mark, or_iff_left_iff_imp]
  rintro rfl
  exact h

theorem SeenIn.mark {m n : Nat} (h : SeenIn m n) (a : Place) : SeenIn (mark m a) (mark n a) := by
  intro k hk
  rw [testBit_mark] at hk ⊢
  exact hk.imp_left (h k)

theorem SeenIn.mark_left {m n : Nat} (h : SeenIn m n) {a : Place} (ha : n.testBit a.left = true) :
    SeenIn (Glob.mark m a) n := by
  intro k hk
  rw [testBit_mark] at hk
  rcases hk with hk | rfl
  · exact h k hk
  · exact ha

theorem SeenIn.seenWith {m n : Nat} (h : SeenIn m n) (rs : List Reading) :
    SeenIn (seenWith m rs) (seenWith n rs) := by
  intro k hk
  rw [testBit_seenWith] at hk ⊢
  exact hk.imp_left (h k)

theorem seenIn_seenWith (seen : Nat) (rs : List Reading) : SeenIn seen (seenWith seen rs) := by
  intro k hk
  rw [testBit_seenWith]
  exact Or.inl hk

theorem distinct_append (seen : Nat) (rs ts : List Reading) :
    distinct seen (rs ++ ts) = distinct seen rs ++ distinct (seenWith seen rs) ts := by
  induction rs generalizing seen with
  | nil => rfl
  | cons r rs ih =>
    rw [List.cons_append, seenWith_cons]
    by_cases hr : seen.testBit r.place.left = true
    · rw [distinct, if_pos hr, ih, distinct, if_pos hr, mark_eq_self hr]
    · rw [distinct, if_neg hr, ih, distinct, if_neg hr, List.cons_append]

/-- What has been seen may be dropped before. -/
theorem distinct_distinct {m n : Nat} (h : SeenIn m n) (rs : List Reading) :
    distinct n (distinct m rs) = distinct n rs := by
  induction rs generalizing m n with
  | nil => rfl
  | cons r rs ih =>
    by_cases hm : m.testBit r.place.left = true
    · rw [distinct, if_pos hm, distinct, if_pos (h _ hm), ih h]
    · rw [distinct, if_neg hm]
      by_cases hn : n.testBit r.place.left = true
      · rw [distinct, if_pos hn, distinct, if_pos hn, ih (h.mark_left hn)]
      · rw [distinct, if_neg hn, distinct, if_neg hn, ih (h.mark r.place)]

theorem seenWith_distinct {m n : Nat} (h : SeenIn m n) (rs : List Reading) :
    seenWith n (distinct m rs) = seenWith n rs := by
  induction rs generalizing m n with
  | nil => rfl
  | cons r rs ih =>
    rw [seenWith_cons]
    by_cases hm : m.testBit r.place.left = true
    · rw [distinct, if_pos hm, ih h, mark_eq_self (h _ hm)]
    · rw [distinct, if_neg hm, seenWith_cons, ih (h.mark r.place)]

theorem distinct_eq_nil {seen : Nat} {rs : List Reading}
    (h : ∀ r ∈ rs, seen.testBit r.place.left = true) : distinct seen rs = [] := by
  induction rs with
  | nil => rfl
  | cons r rs ih =>
    obtain ⟨hr, hrs⟩ := List.forall_mem_cons.mp h
    rw [distinct, if_pos hr, ih hrs]

/-- **A reading at a place that has been seen may be dropped before it goes on**, if readings at
one place come to the same places. -/
theorem distinct_flatMap_distinct {g : Reading → List Reading} {rs : List Reading}
    (hg : ∀ r ∈ rs, ∀ t ∈ rs, r.place.left = t.place.left →
      (g r).map Reading.place = (g t).map Reading.place) {m n : Nat}
    (h : ∀ r ∈ rs, m.testBit r.place.left = true → ∀ u ∈ g r, n.testBit u.place.left = true) :
    distinct n ((distinct m rs).flatMap g) = distinct n (rs.flatMap g) := by
  induction rs generalizing m n with
  | nil => rfl
  | cons r rs ih =>
    have hg' : ∀ r ∈ rs, ∀ t ∈ rs, r.place.left = t.place.left →
        (g r).map Reading.place = (g t).map Reading.place := fun r hr t ht =>
      hg r (List.mem_cons_of_mem _ hr) t (List.mem_cons_of_mem _ ht)
    obtain ⟨hr, hrs⟩ := List.forall_mem_cons.mp h
    rw [List.flatMap_cons, distinct_append]
    by_cases hm : m.testBit r.place.left = true
    · rw [distinct, if_pos hm, ih hg' hrs, distinct_eq_nil (hr hm), seenWith_eq_self (hr hm),
        List.nil_append]
    · rw [distinct, if_neg hm, List.flatMap_cons, distinct_append, ih hg']
      intro t ht hseen u hu
      rw [testBit_seenWith]
      rw [testBit_mark] at hseen
      rcases hseen with hseen | hsame
      · exact Or.inl (hrs t ht hseen u hu)
      · have hplaces := hg r List.mem_cons_self t (List.mem_cons_of_mem _ ht) hsame
        have hmem : u.place ∈ (g r).map Reading.place := hplaces ▸ List.mem_map_of_mem hu
        obtain ⟨v, hv, hvu⟩ := List.mem_map.mp hmem
        exact Or.inr ⟨v, hv, by rw [hvu]⟩

theorem distinct_map {f : Reading → Reading} (hf : ∀ r, (f r).place = r.place) (seen : Nat)
    (rs : List Reading) : distinct seen (rs.map f) = (distinct seen rs).map f := by
  induction rs generalizing seen with
  | nil => rfl
  | cons r rs ih =>
    rw [List.map_cons, distinct, distinct, hf, ih, ih]
    split <;> rfl

/-- No two readings have come to one place. -/
def Separate (rs : List Reading) : Prop :=
  rs.Pairwise fun r t => r.place.left ≠ t.place.left

theorem distinct_eq_filter {rs : List Reading} (h : Separate rs) (seen : Nat) :
    distinct seen rs = rs.filter fun r => !seen.testBit r.place.left := by
  induction rs generalizing seen with
  | nil => rfl
  | cons r rs ih =>
    obtain ⟨hr, hrs⟩ := List.pairwise_cons.mp h
    by_cases hseen : seen.testBit r.place.left = true
    · rw [distinct, if_pos hseen, ih hrs, List.filter_cons_of_neg (by simp [hseen])]
    · have hrest : rs.filter (fun t => !(mark seen r.place).testBit t.place.left) =
          rs.filter fun t => !seen.testBit t.place.left := by
        refine List.filter_congr fun t ht => congrArg (! ·) (Bool.eq_iff_iff.mpr ?_)
        rw [testBit_mark]
        exact or_iff_left (hr t ht)
      rw [distinct, if_neg hseen, ih hrs, hrest, List.filter_cons_of_pos (by simp [hseen])]

theorem Separate.distinct_eq_self {rs : List Reading} (h : Separate rs) : distinct 0 rs = rs := by
  rw [distinct_eq_filter h]
  simp

theorem mem_distinct {seen : Nat} {rs : List Reading} {r : Reading} (h : r ∈ distinct seen rs) :
    r ∈ rs ∧ seen.testBit r.place.left = false := by
  induction rs generalizing seen with
  | nil => cases h
  | cons t rs ih =>
    by_cases ht : seen.testBit t.place.left = true
    · rw [distinct, if_pos ht] at h
      exact ⟨List.mem_cons_of_mem t (ih h).1, (ih h).2⟩
    · rw [distinct, if_neg ht, List.mem_cons] at h
      rcases h with rfl | h
      · exact ⟨List.mem_cons_self, Bool.not_eq_true _ |>.mp ht⟩
      · obtain ⟨hmem, hseen⟩ := ih h
        rw [← Bool.not_eq_true, testBit_mark, not_or, Bool.not_eq_true] at hseen
        exact ⟨List.mem_cons_of_mem t hmem, hseen.1⟩

theorem separate_distinct (seen : Nat) (rs : List Reading) : Separate (distinct seen rs) := by
  induction rs generalizing seen with
  | nil => exact List.Pairwise.nil
  | cons r rs ih =>
    by_cases hr : seen.testBit r.place.left = true
    · rw [distinct, if_pos hr]
      exact ih seen
    · rw [distinct, if_neg hr]
      refine List.pairwise_cons.mpr ⟨fun t ht heq => ?_, ih _⟩
      have hseen := (mem_distinct ht).2
      rw [← Bool.not_eq_true, testBit_mark, not_or] at hseen
      exact hseen.2 heq

/-! ## 3. Runs -/

theorem mem_greedy {p : Char → Bool} {s : List Char} {x : Place} :
    x ∈ greedy p s ↔ Reaches (runs p) s x.rest := by
  have hstart : ∀ t : List Char, x = .start t ↔ t = x.rest := fun t =>
    ⟨fun h => by rw [h]; rfl, fun h => Place.ext h.symm⟩
  induction s with
  | nil =>
    rw [greedy, List.mem_singleton, hstart, reaches_runs_nil]
    exact eq_comm
  | cons c s ih =>
    rw [greedy, List.mem_append, List.mem_singleton, hstart, reaches_runs_cons, or_comm]
    refine or_congr_right ?_
    by_cases hc : p c = true
    · simp [hc, ih]
    · simp [hc]

/-- A run comes to each place once. -/
theorem pairwise_greedy (p : Char → Bool) (s : List Char) :
    (greedy p s).Pairwise fun x y => x.left ≠ y.left := by
  induction s with
  | nil => exact List.pairwise_singleton _ _
  | cons c s ih =>
    rw [greedy]
    split
    · refine List.pairwise_append.mpr ⟨ih, List.pairwise_singleton _ _, fun x hx y hy => ?_⟩
      have hlength := (mem_greedy.mp hx).suffix.length_le
      rw [List.mem_singleton.mp hy, x.left_eq]
      change x.rest.length ≠ s.length + 1
      omega
    · exact List.pairwise_singleton _ _

/-- A stretch is a run without the places that have been seen. -/
theorem stretch_eq_filter {p : Char → Bool} {s : List Char} {seen : Nat}
    (hclosed : Closed p s seen) :
    ∀ (rest : List Char) (left : Nat) (h : left = rest.length) (passed : List Place), rest <:+ s →
      stretch p seen passed rest left h =
        ((greedy p rest).filter fun x => !seen.testBit x.left) ++ passed
  | [], left, h, passed, _ => by
    subst h
    rw [stretch, greedy]
    by_cases hseen : seen.testBit ([] : List Char).length = true
    · rw [if_pos hseen, List.filter_cons_of_neg (by simpa [Place.start] using hseen)]
      rfl
    · rw [if_neg hseen, List.filter_cons_of_pos (by simpa [Place.start] using hseen)]
      rfl
  | c :: rest, left, h, passed, hs => by
    subst h
    rw [stretch]
    by_cases hseen : seen.testBit (c :: rest).length = true
    · have hall : ∀ x ∈ greedy p (c :: rest), ¬ (!seen.testBit x.left) = true := by
        intro x hx
        rw [x.left_eq, hclosed _ _ hs (mem_greedy.mp hx) hseen]
        decide
      rw [if_pos hseen, List.filter_eq_nil_iff.mpr hall]
      rfl
    · have hhere : ([Place.start (c :: rest)].filter fun x => !seen.testBit x.left) =
          [Place.start (c :: rest)] := List.filter_cons_of_pos (by simpa [Place.start] using hseen)
      have hrest : rest <:+ s := (List.suffix_cons c rest).trans hs
      rw [if_neg hseen, greedy, List.filter_append, hhere]
      by_cases hc : p c = true
      · rw [if_pos hc, if_pos hc, stretch_eq_filter hclosed rest _ _ _ hrest, List.append_assoc]
        rfl
      · rw [if_neg hc, if_neg hc]
        rfl

/-- **Spreading drops what trying finds again.** -/
theorem spread_eq_distinct {p : Char → Bool} {s : List Char} :
    ∀ (starts : List (Place × (Place → Reading))) (seen : Nat),
      (∀ t ∈ starts, t.1.rest <:+ s ∧ ∀ x, (t.2 x).place = x) → Closed p s seen →
      spread p seen starts = distinct seen (starts.flatMap fun t => (greedy p t.1.rest).map t.2)
  | [], _, _, _ => rfl
  | (a, become) :: more, seen, hstarts, hclosed => by
    obtain ⟨⟨ha, hbecome⟩, hmore⟩ := List.forall_mem_cons.mp hstarts
    have hfound : stretch p seen [] a.rest a.left a.left_eq =
        (greedy p a.rest).filter fun x => !seen.testBit x.left := by
      rw [stretch_eq_filter hclosed _ _ _ _ ha, List.append_nil]
    have hplaces : ((greedy p a.rest).map become).map Reading.place = greedy p a.rest := by
      rw [List.map_map]
      exact (List.map_congr_left fun x _ => hbecome x).trans (List.map_id _)
    have hseparate : Separate ((greedy p a.rest).map become) := by
      refine List.pairwise_map.mpr ((pairwise_greedy p a.rest).imp fun h => ?_)
      rw [hbecome, hbecome]
      exact h
    have hfirst : distinct seen ((greedy p a.rest).map become) =
        (stretch p seen [] a.rest a.left a.left_eq).map become := by
      rw [distinct_eq_filter hseparate, List.filter_map, hfound]
      refine congrArg (List.map become) (List.filter_congr fun x _ => ?_)
      rw [Function.comp_apply, hbecome]
    have hmarks : seenWith seen ((greedy p a.rest).map become) =
        (stretch p seen [] a.rest a.left a.left_eq).foldl mark seen := by
      refine eq_of_testBit_iff fun k => ?_
      rw [seenWith, hplaces, hfound, testBit_foldl_mark, testBit_foldl_mark]
      constructor
      · rintro (hk | ⟨x, hx, rfl⟩)
        · exact Or.inl hk
        · by_cases hk : seen.testBit x.left = true
          · exact Or.inl hk
          · exact Or.inr ⟨x, List.mem_filter.mpr ⟨hx, by simp [hk]⟩, rfl⟩
      · rintro (hk | ⟨x, hx, rfl⟩)
        · exact Or.inl hk
        · exact Or.inr ⟨x, (List.mem_filter.mp hx).1, rfl⟩
    rw [spread, List.flatMap_cons, distinct_append, hfirst, hmarks,
      spread_eq_distinct more _ hmore (hclosed.foldl_mark ha)]

/-! ## 4. Branches -/

/-- Readings with their numbers in a list that begins with the number `k`. -/
def enterFrom (k : Nat) (rs : List Reading) : List Reading :=
  (rs.zipIdx k).map fun (r, i) => { r with origins := i :: r.origins }

theorem enter_eq (rs : List Reading) : Reading.enter rs = enterFrom 0 rs := rfl

theorem enterFrom_cons (k : Nat) (r : Reading) (rs : List Reading) :
    enterFrom k (r :: rs) = { r with origins := k :: r.origins } :: enterFrom (k + 1) rs := rfl

theorem places_enterFrom (k : Nat) (rs : List Reading) :
    (enterFrom k rs).map Reading.place = rs.map Reading.place := by
  induction rs generalizing k with
  | nil => rfl
  | cons r rs ih => rw [enterFrom_cons, List.map_cons, List.map_cons, ih]

theorem origin_of_mem_enterFrom {k : Nat} {rs : List Reading} {r : Reading}
    (h : r ∈ enterFrom k rs) : k ≤ r.origins.headD 0 := by
  induction rs generalizing k with
  | nil => cases h
  | cons t rs ih =>
    rw [enterFrom_cons, List.mem_cons] at h
    rcases h with rfl | h
    · exact le_rfl
    · have hle := ih h
      omega

section

variable {α : Type} {le : α → α → Bool}

theorem merge_append_left {first : List α} {more other : List α}
    (h : ∀ x ∈ first, ∀ y ∈ other, le x y = true) :
    (first ++ more).merge other le = first ++ more.merge other le := by
  cases other with
  | nil => rw [List.merge_right, List.merge_right]
  | cons y other =>
    induction first with
    | nil => rfl
    | cons x first ih =>
      have hx : le x y = true := h x List.mem_cons_self y List.mem_cons_self
      have hfirst := ih fun z hz => h z (List.mem_cons_of_mem x hz)
      rw [List.cons_append, List.cons_merge_cons_pos le _ _ hx, hfirst, List.cons_append]

theorem merge_append_right {first : List α} {more other : List α}
    (h : ∀ x ∈ other, ∀ y ∈ first, ¬ le x y = true) :
    other.merge (first ++ more) le = first ++ other.merge more le := by
  cases other with
  | nil => rw [List.nil_merge, List.nil_merge]
  | cons x other =>
    induction first with
    | nil => rfl
    | cons y first ih =>
      have hy : ¬ le x y = true := h x List.mem_cons_self y List.mem_cons_self
      have hfirst := ih fun z hz t ht => h z hz t (List.mem_cons_of_mem y ht)
      rw [List.cons_append, List.cons_merge_cons_neg le _ _ hy, hfirst, List.cons_append]

end

theorem seenWith_append (seen : Nat) (rs ts : List Reading) :
    seenWith seen (rs ++ ts) = seenWith (seenWith seen rs) ts := by
  rw [seenWith, List.map_append, List.foldl_append]
  rfl

/-- What a reading becomes keeps its origins. -/
def KeepsOrigins (f : Reading → List Reading) : Prop := ∀ r, ∀ t ∈ f r, t.origins = r.origins

theorem KeepsOrigins.le {f : Reading → List Reading} (hf : KeepsOrigins f) {k seen : Nat}
    {rs : List Reading} {t : Reading} (h : t ∈ distinct seen ((enterFrom k rs).flatMap f)) :
    k ≤ t.origins.headD 0 := by
  obtain ⟨r, hr, ht⟩ := List.mem_flatMap.mp (mem_distinct h).1
  rw [hf r t ht]
  exact origin_of_mem_enterFrom hr

/-- **Merged by their origins, the readings of two branches are in order**: for each reading, those
of the first branch and then those of the second. -/
theorem distinct_merge {f g : Reading → List Reading} (hf : KeepsOrigins f) (hg : KeepsOrigins g) :
    ∀ (rs : List Reading) (k : Nat) {ma mb n : Nat}, SeenIn ma n → SeenIn mb n →
      distinct n ((distinct ma ((enterFrom k rs).flatMap f)).merge
          (distinct mb ((enterFrom k rs).flatMap g)) Reading.notAfter) =
        distinct n ((enterFrom k rs).flatMap fun r => f r ++ g r)
  | [], _, _, _, _, _, _ => by simp [enterFrom, distinct]
  | r :: rs, k, ma, mb, n, hma, hmb => by
    have hhere : ∀ {h : Reading → List Reading}, KeepsOrigins h → ∀ {seen : Nat},
        ∀ t ∈ distinct seen (h { r with origins := k :: r.origins }), t.origins.headD 0 = k := by
      intro h hh seen t ht
      rw [hh _ t (mem_distinct ht).1]
      rfl
    have hleft : ∀ x ∈ distinct ma (f { r with origins := k :: r.origins }),
        ∀ y ∈ distinct mb (g { r with origins := k :: r.origins }) ++
          distinct (seenWith mb (g { r with origins := k :: r.origins }))
            ((enterFrom (k + 1) rs).flatMap g), Reading.notAfter x y = true := by
      intro x hx y hy
      rw [Reading.notAfter, decide_eq_true_eq, hhere hf x hx]
      rcases List.mem_append.mp hy with hy | hy
      · exact (hhere hg y hy).ge
      · exact (Nat.le_succ k).trans (hg.le hy)
    have hright : ∀ x ∈ distinct (seenWith ma (f { r with origins := k :: r.origins }))
          ((enterFrom (k + 1) rs).flatMap f),
        ∀ y ∈ distinct mb (g { r with origins := k :: r.origins }),
          ¬ Reading.notAfter x y = true := by
      intro x hx y hy
      rw [Reading.notAfter, decide_eq_true_eq, hhere hg y hy]
      have hle := hf.le hx
      omega
    rw [enterFrom_cons, List.flatMap_cons, List.flatMap_cons, List.flatMap_cons, distinct_append ma,
      distinct_append mb, merge_append_left hleft, merge_append_right hright, distinct_append n,
      distinct_append, distinct_distinct hma, seenWith_distinct hma, distinct_append n,
      distinct_append n, seenWith_append]
    have hmb' : SeenIn mb (seenWith n (f { r with origins := k :: r.origins })) :=
      fun j hj => seenIn_seenWith n _ j (hmb j hj)
    rw [distinct_distinct hmb', seenWith_distinct hmb', distinct_merge hf hg rs (k + 1),
      List.append_assoc]
    · intro j hj
      exact seenIn_seenWith _ _ j (hma.seenWith _ j hj)
    · exact hmb'.seenWith _

/-! ## 5. Expressions -/

theorem Atom.reaches_of_mem_tries {a : Atom} {r t : Reading} (h : t ∈ a.tries r) :
    Reaches a.language r.place.rest t.place.rest := by
  have hone : ∀ p, t ∈ r.tryOne p → Reaches (ones p) r.place.rest t.place.rest := by
    intro p ht
    obtain ⟨x, hx, rfl⟩ := Option.map_eq_some_iff.mp (Option.mem_toList.mp ht)
    exact reaches_ones.mpr (Place.after?_eq_some.mp hx)
  have hrun : ∀ p, t ∈ r.tryRun p → Reaches (runs p) r.place.rest t.place.rest := by
    intro p ht
    obtain ⟨x, hx, rfl⟩ := List.mem_map.mp ht
    exact mem_greedy.mp hx
  cases a with
  | char c => exact hone _ h
  | set s => exact hone _ h
  | one => exact hone _ h
  | run => exact hrun _ h
  | any => exact hrun _ h
  | number index =>
    simp only [Atom.tries, Reading.tryNumber] at h
    split at h
    · rename_i a ha
      obtain ⟨x, hx, rfl⟩ := List.mem_map.mp h
      exact reaches_numerals.mpr ⟨a, ha, mem_greedy.mp hx⟩
    · cases h

/-- What trying finds is in the language. -/
theorem reaches_of_mem_tries {e : Expr} {r t : Reading} (h : t ∈ e.tries r) :
    Reaches e.language r.place.rest t.place.rest := by
  induction e generalizing r t with
  | empty =>
    rw [List.mem_singleton.mp h]
    exact reaches_one.mpr rfl
  | atom a => exact Atom.reaches_of_mem_tries h
  | seq a b iha ihb =>
    obtain ⟨u, hu, ht⟩ := List.mem_flatMap.mp h
    exact reaches_mul.mpr ⟨u.place.rest, iha hu, ihb ht⟩
  | either a b iha ihb =>
    rcases List.mem_append.mp h with h | h
    · exact reaches_add.mpr (Or.inl (iha h))
    · exact reaches_add.mpr (Or.inr (ihb h))
  | group e ih => exact ih h

theorem within_tries (e : Expr) {s : List Char} {rs : List Reading} (hs : Within s rs) :
    Within s (rs.flatMap e.tries) := by
  intro t ht
  obtain ⟨r, hr, htr⟩ := List.mem_flatMap.mp ht
  exact (reaches_of_mem_tries htr).suffix.trans (hs r hr)

theorem within_readings (e : Expr) {s : List Char} {rs : List Reading} (hs : Within s rs) :
    Within s (e.readings rs) := by
  refine within_iff.mpr fun b hb => ?_
  obtain ⟨a, ha, hab⟩ := (come_readings e hs b).mp hb
  exact hab.suffix.trans (within_iff.mp hs a ha)

theorem Place.eq_of_left {s : List Char} {a b : Place} (ha : a.rest <:+ s) (hb : b.rest <:+ s)
    (h : a.left = b.left) : a = b :=
  Place.ext (eq_of_suffix_of_length_eq ha hb (by rw [← a.left_eq, ← b.left_eq, h]))

theorem byOne_eq_distinct (p : Char → Bool) {rs : List Reading} (h : Separate rs) :
    Reading.byOne p rs = distinct 0 (rs.flatMap (Reading.tryOne p)) := by
  have hflat : rs.flatMap (Reading.tryOne p) = Reading.byOne p rs :=
    (List.filterMap_eq_flatMap_toList _ rs).symm
  have hseparate : Separate (Reading.byOne p rs) := by
    refine h.filterMap _ fun r t hne x hx y hy heq => hne ?_
    obtain ⟨a, ha, rfl⟩ := Option.map_eq_some_iff.mp hx
    obtain ⟨b, hb, rfl⟩ := Option.map_eq_some_iff.mp hy
    obtain ⟨c, -, hc⟩ := Place.after?_eq_some.mp ha
    obtain ⟨d, -, hd⟩ := Place.after?_eq_some.mp hb
    have heq' : a.left = b.left := heq
    rw [r.place.left_eq, t.place.left_eq, hc, hd, List.length_cons, List.length_cons, ← a.left_eq,
      ← b.left_eq, heq']
  rw [hflat, hseparate.distinct_eq_self]

theorem byRun_eq_distinct (p : Char → Bool) {s : List Char} {rs : List Reading}
    (hs : Within s rs) : Reading.byRun p rs = distinct 0 (rs.flatMap (Reading.tryRun p)) := by
  rw [Reading.byRun, spread_eq_distinct _ _ (runStarts_within hs) (closed_zero p s),
    List.flatMap_map]
  rfl

theorem byNumber_eq_distinct (index : Nat) {s : List Char} {rs : List Reading}
    (hs : Within s rs) :
    Reading.byNumber index rs = distinct 0 (rs.flatMap (Reading.tryNumber index)) := by
  rw [Reading.byNumber, spread_eq_distinct _ _ (numberStarts_within hs) (closed_zero isDigit s),
    List.filterMap_eq_flatMap_toList, List.flatMap_assoc]
  refine congrArg (fun f => distinct 0 (rs.flatMap f)) (funext fun r => ?_)
  unfold Reading.tryNumber
  cases r.place.afterSign.after? isDigit with
  | none => rfl
  | some a => exact List.append_nil _

/-- The matcher keeps the first of the readings that trying finds for each place. -/
theorem Atom.readings_eq_distinct (a : Atom) {s : List Char} {rs : List Reading}
    (hs : Within s rs) (h : Separate rs) : a.readings rs = distinct 0 (rs.flatMap a.tries) := by
  cases a with
  | char c => exact byOne_eq_distinct _ h
  | set set => exact byOne_eq_distinct _ h
  | one => exact byOne_eq_distinct _ h
  | run => exact byRun_eq_distinct _ hs
  | any => exact byRun_eq_distinct _ hs
  | number index => exact byNumber_eq_distinct index hs

theorem within_enterFrom {s : List Char} {rs : List Reading} (hs : Within s rs) (k : Nat) :
    Within s (enterFrom k rs) := by
  intro r hr
  have hplace : r.place ∈ (enterFrom k rs).map Reading.place := List.mem_map_of_mem hr
  rw [places_enterFrom] at hplace
  obtain ⟨t, ht, htr⟩ := List.mem_map.mp hplace
  rw [← htr]
  exact hs t ht

theorem separate_iff {rs : List Reading} :
    Separate rs ↔ (rs.map Reading.place).Pairwise fun a b => a.left ≠ b.left := by
  rw [Separate, List.pairwise_map]

theorem Separate.enterFrom {rs : List Reading} (h : Separate rs) (k : Nat) :
    Separate (enterFrom k rs) := by
  rw [separate_iff, places_enterFrom]
  exact separate_iff.mp h

theorem keepsOrigins_tries (e : Expr) : KeepsOrigins e.tries := fun _ _ => origins_of_mem_tries

/-- Entering and leaving a branching expression changes no reading. -/
theorem leave_tries (e : Expr) (rs : List Reading) (k : Nat) :
    ((enterFrom k rs).flatMap e.tries).map Reading.leave = rs.flatMap e.tries := by
  induction rs generalizing k with
  | nil => rfl
  | cons r rs ih =>
    have hhere : (e.tries { r with origins := k :: r.origins }).map Reading.leave = e.tries r := by
      rw [tries_origins, List.map_map]
      refine (List.map_congr_left fun t ht => ?_).trans (List.map_id _)
      have horigins := origins_of_mem_tries ht
      simp [Reading.leave, ← horigins]
    rw [enterFrom_cons, List.flatMap_cons, List.map_append, ih, hhere, List.flatMap_cons]

/-- **The matcher keeps the first of the readings that trying finds for each place.** -/
theorem readings_eq_distinct (e : Expr) {s : List Char} {rs : List Reading} (hs : Within s rs)
    (h : Separate rs) : e.readings rs = distinct 0 (rs.flatMap e.tries) := by
  induction e generalizing rs with
  | empty =>
    have hflat : rs.flatMap Expr.empty.tries = rs := List.flatMap_singleton' rs
    rw [hflat, h.distinct_eq_self]
    rfl
  | atom a => exact a.readings_eq_distinct hs h
  | seq a b iha ihb =>
    have ha := iha hs h
    have hseparate : Separate (a.readings rs) := by
      rw [ha]
      exact separate_distinct 0 _
    have hplaces : ∀ r ∈ rs.flatMap a.tries, ∀ t ∈ rs.flatMap a.tries,
        r.place.left = t.place.left →
          (b.tries r).map Reading.place = (b.tries t).map Reading.place := by
      intro r hr t ht heq
      have hwithin := within_tries a hs
      exact places_tries b (Place.eq_of_left (hwithin r hr) (hwithin t ht) heq)
    have hnone : ∀ r ∈ rs.flatMap a.tries, (0 : Nat).testBit r.place.left = true →
        ∀ u ∈ b.tries r, (0 : Nat).testBit u.place.left = true := by
      intro r _ hr
      rw [Nat.zero_testBit] at hr
      cases hr
    rw [Expr.readings, ihb (within_readings a hs) hseparate, ha,
      distinct_flatMap_distinct hplaces hnone, List.flatMap_assoc]
    rfl
  | either a b iha ihb =>
    have hseen : SeenIn 0 0 := fun _ hk => hk
    have hleave : ∀ r : Reading, r.leave.place = r.place := fun _ => rfl
    rw [Expr.readings, enter_eq, iha (within_enterFrom hs 0) (h.enterFrom 0),
      ihb (within_enterFrom hs 0) (h.enterFrom 0), distinct_map hleave,
      distinct_merge (keepsOrigins_tries a) (keepsOrigins_tries b) rs 0 hseen hseen,
      ← distinct_map hleave]
    exact congrArg (distinct 0) (leave_tries (.either a b) rs 0)
  | group e ih => exact ih hs h

/-- The first reading at the end of the text is never dropped. -/
theorem find?_distinct (rs : List Reading) {seen : Nat} (h : seen.testBit 0 = false) :
    (distinct seen rs).find? (·.place.rest.isEmpty) = rs.find? (·.place.rest.isEmpty) := by
  induction rs generalizing seen with
  | nil => rfl
  | cons r rs ih =>
    have hleft : r.place.rest.isEmpty = true ↔ r.place.left = 0 := by
      rw [r.place.left_eq, List.isEmpty_iff, List.length_eq_zero_iff]
    by_cases hend : r.place.rest.isEmpty = true
    · have hseen : ¬ seen.testBit r.place.left = true := by
        rw [hleft.mp hend, h]
        decide
      rw [distinct, if_neg hseen]
      simp [hend]
    · have hskip : ∀ ts : List Reading, (r :: ts).find? (·.place.rest.isEmpty) =
          ts.find? (·.place.rest.isEmpty) := fun ts => by simp [hend]
      rw [hskip]
      by_cases hseen : seen.testBit r.place.left = true
      · rw [distinct, if_pos hseen, ih h]
      · have hmark : (mark seen r.place).testBit 0 = false := by
          rw [← Bool.not_eq_true, testBit_mark, not_or, h]
          exact ⟨by decide, fun heq => hend (hleft.mpr heq)⟩
        rw [distinct, if_neg hseen, hskip, ih hmark]

/-- **The reading that counts is the first one that trying finds.**  So of the ways to read a whole
text, that one counts which takes the earliest branches and the longest runs, from left to right. -/
theorem whole?_eq_find? (e : Expr) (s : List Char) :
    e.whole? s = (e.tries ⟨.start s, [], []⟩).find? (·.place.rest.isEmpty) := by
  rw [Expr.whole?, readings_eq_distinct e (within_start s) (List.pairwise_singleton _ _),
    find?_distinct _ (Nat.zero_testBit 0), List.flatMap_singleton]

end EditorSettings.Glob
