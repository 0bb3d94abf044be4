/-
# Sliding edits together

An insertion between two runs of kept lines can often slide: if the lines before it end as the
insertion does, it may as well stand earlier.  Sliding an edit up as far as it goes, and then
down, brings together edits that belong together, since edits of one sort that meet are joined.

Deletions slide past insertions only, insertions past kept lines as well.  All deletions slide
first, then all insertions.
-/
import EditorSettings.Diff.Edit

namespace EditorSettings.Diff

/-! ## 1. One edit -/

/-- An edit between those before it, the nearest first, and those after it. -/
structure Slot where
  before : List Edit
  edit : Edit
  after : List Edit

/-- Lines and edits that may still be passed. -/
def weight : List Edit → Nat
  | [] => 0
  | e :: rest => e.size + 1 + weight rest

theorem weight_cons (e : Edit) (edits : List Edit) :
    weight (e :: edits) = e.size + 1 + weight edits := rfl

/-- Kept lines in front of a list of edits. -/
def keepMore (n : Nat) : List Edit → List Edit
  | .keep k :: rest => .keep (n + k) :: rest
  | rest => .keep n :: rest

section

variable (old new : Array (List Char))

/-- How many of the `k` kept lines after `before` an edit can slide up past. -/
def slackUp (before : List Edit) (k : Nat) (e : Edit) : Nat :=
  min k (commonBack old new ⟨Edit.oldTotal before, k⟩ ⟨Edit.newTotal before + k, e.newSize⟩)

/-- How many of the `k` kept lines that follow it an edit can slide down past. -/
def slackDown (before : List Edit) (e : Edit) (k : Nat) : Nat :=
  min k (commonFront old new ⟨Edit.oldTotal before + e.oldSize, k⟩
    ⟨Edit.newTotal before, e.newSize⟩)

/-- Kept lines in front of others, if there are any. -/
def keepRest (n : Nat) (rest : List Edit) : List Edit :=
  if n = 0 then rest else .keep n :: rest

theorem weight_keepRest_le (n : Nat) (rest : List Edit) :
    weight (keepRest n rest) ≤ n + 1 + weight rest := by
  unfold keepRest
  split
  · omega
  · simp [weight_cons, Edit.size]

/-- Slide up as far as possible. -/
def slideUp (s : Slot) : Slot :=
  match _hb : s.before with
  | [] => s
  | .keep k :: before =>
    if k = 0 then slideUp { s with before }
    else if _h : slackUp old new before k s.edit = 0 then s
    else
      slideUp ⟨keepRest (k - slackUp old new before k s.edit) before, s.edit,
        keepMore (slackUp old new before k s.edit) s.after⟩
  | .insert m :: before =>
    match s.edit with
    | .insert n => slideUp ⟨before, .insert (m + n), s.after⟩
    | _ => slideUp ⟨before, s.edit, .insert m :: s.after⟩
  | .delete m :: before =>
    match s.edit with
    | .delete n => slideUp ⟨before, .delete (m + n), s.after⟩
    | _ => slideUp ⟨before, s.edit, .delete m :: s.after⟩
termination_by weight s.before
decreasing_by
  · simp only [_hb, weight_cons, Edit.size]; omega
  · have := weight_keepRest_le (k - slackUp old new before k s.edit) before
    simp only [_hb, weight_cons, Edit.size]
    omega
  all_goals simp only [_hb, weight_cons, Edit.size]; omega

/-- Slide down as far as possible. -/
def slideDown (s : Slot) : Slot :=
  match _ha : s.after with
  | [] => s
  | .keep k :: after =>
    if k = 0 then slideDown { s with after }
    else if _h : slackDown old new s.before s.edit k = 0 then s
    else
      slideDown ⟨keepMore (slackDown old new s.before s.edit k) s.before, s.edit,
        keepRest (k - slackDown old new s.before s.edit k) after⟩
  | .insert m :: after =>
    match s.edit with
    | .insert n => slideDown ⟨s.before, .insert (n + m), after⟩
    | _ => slideDown ⟨.insert m :: s.before, s.edit, after⟩
  | .delete m :: after =>
    match s.edit with
    | .delete n => slideDown ⟨s.before, .delete (n + m), after⟩
    | _ => slideDown ⟨.delete m :: s.before, s.edit, after⟩
termination_by weight s.after
decreasing_by
  · simp only [_ha, weight_cons, Edit.size]; omega
  · have := weight_keepRest_le (k - slackDown old new s.before s.edit k) after
    simp only [_ha, weight_cons, Edit.size]
    omega
  all_goals simp only [_ha, weight_cons, Edit.size]; omega

/-! ## 2. All edits of a sort -/

/-- Slide the edits of a sort, those in `rest` still to come.  There are at most `fuel` of them
to look at. -/
def slideAll (sort : Edit → Bool) (before : List Edit) : Nat → List Edit → List Edit
  | _, [] => before.reverse
  | 0, rest => before.reverse ++ rest
  | fuel + 1, e :: rest =>
    if sort e then
      let s := slideDown old new (slideUp old new ⟨before, e, rest⟩)
      slideAll sort (s.edit :: s.before) fuel s.after
    else slideAll sort (e :: before) fuel rest

/-- The edit deletes. -/
def isDelete : Edit → Bool
  | .delete _ => true
  | _ => false

/-- The edit inserts. -/
def isInsert : Edit → Bool
  | .insert _ => true
  | _ => false

/-- The edits after sliding. -/
def slid (edits : List Edit) : List Edit :=
  let fuel := 2 * (weight edits + 1)
  slideAll old new isInsert [] fuel (slideAll old new isDelete [] fuel edits)

end
end EditorSettings.Diff
