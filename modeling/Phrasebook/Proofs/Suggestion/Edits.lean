import Mathlib.Data.List.Basic
import Mathlib.Order.Bounds.Defs
import Phrasebook.Suggestion

/-!
# Edits

An edit inserts, deletes or replaces one character anywhere in a text.  The distance of two texts is the least number of
edits that lead from one to the other (`isLeast_distance`).  The table of distances grows at the end of the texts, so it
computes the recurrence for the texts read backwards (`distance_eq_cost`), which makes no difference to the number of
edits (`Edits.reverse`).
-/

namespace Phrasebook.Suggestion

/-- One character is inserted, deleted or replaced. -/
inductive Edit : List Char → List Char → Prop
  | insert (before after : List Char) (c : Char) : Edit (before ++ after) (before ++ c :: after)
  | delete (before after : List Char) (c : Char) : Edit (before ++ c :: after) (before ++ after)
  | replace (before after : List Char) (c d : Char) : Edit (before ++ c :: after) (before ++ d :: after)

/-- So many edits, one after the other, lead from one text to the other. -/
inductive Edits : Nat → List Char → List Char → Prop
  | refl (text : List Char) : Edits 0 text text
  | step {n : Nat} {first next last : List Char} (h : Edit first next) (hrest : Edits n next last) :
      Edits (n + 1) first last

variable {n : Nat} {as bs first next last : List Char}

theorem Edit.cons (h : Edit first next) (c : Char) : Edit (c :: first) (c :: next) := by
  cases h with
  | insert before after d => exact .insert (c :: before) after d
  | delete before after d => exact .delete (c :: before) after d
  | replace before after d e => exact .replace (c :: before) after d e

theorem Edits.cons (h : Edits n as bs) (c : Char) : Edits n (c :: as) (c :: bs) := by
  induction h with
  | refl text => exact .refl _
  | step h _ ih => exact .step (h.cons c) ih

theorem Edit.reverse (h : Edit first next) : Edit first.reverse next.reverse := by
  cases h with
  | insert before after c => simpa using Edit.insert after.reverse before.reverse c
  | delete before after c => simpa using Edit.delete after.reverse before.reverse c
  | replace before after c d => simpa using Edit.replace after.reverse before.reverse c d

theorem Edits.reverse (h : Edits n as bs) : Edits n as.reverse bs.reverse := by
  induction h with
  | refl text => exact .refl _
  | step h _ ih => exact .step h.reverse ih

theorem Edit.length_le (h : Edit first next) : next.length ≤ first.length + 1 := by
  cases h with
  | insert | delete | replace =>
    simp only [List.length_append, List.length_cons]
    omega

theorem Edits.length_le (h : Edits n as bs) : bs.length ≤ as.length + n := by
  induction h with
  | refl text => exact Nat.le_refl _
  | step h _ ih =>
    have hstep := h.length_le
    omega

/-! ### The recurrence -/

/-- The least number of edits, by what happens to the first characters: one of them is deleted or inserted, or one
takes the place of the other. -/
def cost : List Char → List Char → Nat
  | [], bs => bs.length
  | as, [] => as.length
  | a :: as, b :: bs =>
    min (min (cost as (b :: bs) + 1) (cost (a :: as) bs + 1)) (if a = b then cost as bs else cost as bs + 1)
termination_by as bs => as.length + bs.length

theorem cost_nil_left (bs : List Char) : cost [] bs = bs.length := by
  rw [cost]

theorem cost_nil_right (as : List Char) : cost as [] = as.length := by
  cases as <;> simp [cost]

theorem cost_cons_cons (a b : Char) (as bs : List Char) : cost (a :: as) (b :: bs) =
    min (min (cost as (b :: bs) + 1) (cost (a :: as) bs + 1)) (if a = b then cost as bs else cost as bs + 1) := by
  rw [cost]

theorem cost_cons_left_le (a : Char) (as bs : List Char) : cost (a :: as) bs ≤ cost as bs + 1 := by
  cases bs with
  | nil => simp [cost_nil_right]
  | cons b bs =>
    rw [cost_cons_cons]
    omega

theorem cost_cons_right_le (b : Char) (as bs : List Char) : cost as (b :: bs) ≤ cost as bs + 1 := by
  cases as with
  | nil => simp [cost_nil_left]
  | cons a as =>
    rw [cost_cons_cons]
    omega

theorem cost_le_cost_cons_left (a : Char) (as bs : List Char) : cost as bs ≤ cost (a :: as) bs + 1 := by
  induction bs with
  | nil =>
    simp only [cost_nil_right, List.length_cons]
    omega
  | cons b bs ih =>
    have hinsert := cost_cons_right_le b as bs
    rw [cost_cons_cons]
    split <;> omega

theorem cost_replace_le (c d : Char) (as bs : List Char) : cost (c :: as) bs ≤ cost (d :: as) bs + 1 := by
  induction bs with
  | nil => simp [cost_nil_right]
  | cons b bs ih =>
    rw [cost_cons_cons c, cost_cons_cons d]
    split <;> split <;> omega

/-- What can be done in one more edit can be done so behind a common first character. -/
theorem cost_cons_le_of_forall {as as' : List Char} (h : ∀ bs, cost as bs ≤ cost as' bs + 1) (c : Char)
    (bs : List Char) : cost (c :: as) bs ≤ cost (c :: as') bs + 1 := by
  induction bs with
  | nil => simpa [cost_nil_right] using h []
  | cons b bs ih =>
    have hdelete := h (b :: bs)
    have hplace := h bs
    rw [cost_cons_cons c, cost_cons_cons c]
    split <;> omega

theorem cost_append_le_of_forall {as as' : List Char} (h : ∀ bs, cost as bs ≤ cost as' bs + 1)
    (before bs : List Char) : cost (before ++ as) bs ≤ cost (before ++ as') bs + 1 := by
  induction before generalizing bs with
  | nil => exact h bs
  | cons c before ih => exact cost_cons_le_of_forall ih c bs

theorem cost_le_of_edit (h : Edit first next) (last : List Char) : cost first last ≤ cost next last + 1 := by
  cases h with
  | insert before after c => exact cost_append_le_of_forall (cost_le_cost_cons_left c after) before last
  | delete before after c => exact cost_append_le_of_forall (cost_cons_left_le c after) before last
  | replace before after c d => exact cost_append_le_of_forall (cost_replace_le c d after) before last

theorem cost_self (text : List Char) : cost text text = 0 := by
  induction text with
  | nil => simp [cost_nil_left]
  | cons c text ih =>
    rw [cost_cons_cons, if_pos rfl, ih]
    omega

theorem cost_le_of_edits (h : Edits n first last) : cost first last ≤ n := by
  induction h with
  | refl text => exact Nat.le_of_eq (cost_self text)
  | @step n first next last h _ ih =>
    have hstep := cost_le_of_edit h last
    omega

theorem edits_nil_left (bs : List Char) : Edits bs.length [] bs := by
  induction bs with
  | nil => exact .refl []
  | cons b bs ih => exact .step (.insert [] [] b) (ih.cons b)

theorem edits_nil_right (as : List Char) : Edits as.length as [] := by
  induction as with
  | nil => exact .refl []
  | cons a as ih => exact .step (.delete [] as a) ih

theorem Edits.min {m : Nat} (hm : Edits m as bs) (hn : Edits n as bs) : Edits (min m n) as bs := by
  rcases Nat.le_total m n with h | h
  · rwa [Nat.min_eq_left h]
  · rwa [Nat.min_eq_right h]

/-- The recurrence tells which edits to make. -/
theorem edits_cost (as bs : List Char) : Edits (cost as bs) as bs := by
  induction as, bs using cost.induct with
  | case1 bs =>
    rw [cost_nil_left]
    exact edits_nil_left bs
  | case2 as _ =>
    rw [cost_nil_right]
    exact edits_nil_right as
  | case3 a as b bs hdelete hinsert hplace =>
    have hdeleted : Edits (cost as (b :: bs) + 1) (a :: as) (b :: bs) := .step (.delete [] as a) hdelete
    have hinserted : Edits (cost (a :: as) bs + 1) (a :: as) (b :: bs) :=
      .step (.insert [] (a :: as) b) (hinsert.cons b)
    have hplaced : Edits (if a = b then cost as bs else cost as bs + 1) (a :: as) (b :: bs) := by
      split
      · next heq => exact heq ▸ hplace.cons a
      · exact .step (.replace [] as a b) (hplace.cons b)
    rw [cost_cons_cons]
    exact (hdeleted.min hinserted).min hplaced

/-! ### The table -/

/-- The costs of a text to the longer and longer texts that `bs` makes of `done`, both texts read backwards. -/
def costsBeyond (text done : List Char) : List Char → List Nat
  | [] => []
  | b :: bs => cost text (b :: done) :: costsBeyond text (b :: done) bs

theorem nextEntries_costsBeyond (a : Char) (text done bs : List Char) :
    nextEntries a (cost (a :: text) done) (cost text done) bs (costsBeyond text done bs) =
      costsBeyond (a :: text) done bs := by
  induction bs generalizing done with
  | nil => rfl
  | cons b bs ih => rw [costsBeyond, nextEntries, ← cost_cons_cons, ih, costsBeyond]

theorem nextRow_costsBeyond (a : Char) (text bs : List Char) :
    nextRow a bs (cost text [] :: costsBeyond text [] bs) =
      cost (a :: text) [] :: costsBeyond (a :: text) [] bs := by
  have hfirst : cost (a :: text) [] = cost text [] + 1 := by simp [cost_nil_right]
  rw [nextRow, ← hfirst, nextEntries_costsBeyond]

theorem foldl_nextRow (as text bs : List Char) :
    as.foldl (fun row a => nextRow a bs row) (cost text [] :: costsBeyond text [] bs) =
      cost (as.reverse ++ text) [] :: costsBeyond (as.reverse ++ text) [] bs := by
  induction as generalizing text with
  | nil => rfl
  | cons a as ih =>
    rw [List.foldl_cons, nextRow_costsBeyond, ih, List.reverse_cons, List.append_assoc, List.singleton_append]

theorem costsBeyond_nil (done bs : List Char) : costsBeyond [] done bs = List.range' (done.length + 1) bs.length := by
  induction bs generalizing done with
  | nil => rfl
  | cons b bs ih => rw [costsBeyond, cost_nil_left, ih, List.length_cons, List.length_cons, List.range'_succ]

theorem getLastD_costsBeyond (text done bs : List Char) :
    (cost text done :: costsBeyond text done bs).getLastD 0 = cost text (bs.reverse ++ done) := by
  induction bs generalizing done with
  | nil => rfl
  | cons b bs ih => simpa [costsBeyond] using ih (b :: done)

theorem distance_eq_cost (as bs : List Char) : distance as bs = cost as.reverse bs.reverse := by
  have hrange : List.range (bs.length + 1) = cost [] [] :: costsBeyond [] [] bs := by
    rw [costsBeyond_nil, List.range_eq_range', List.range'_succ, cost_nil_left]
    rfl
  rw [distance, hrange, foldl_nextRow, getLastD_costsBeyond, List.append_nil, List.append_nil]

/-- The distance is the least number of edits. -/
theorem isLeast_distance (as bs : List Char) : IsLeast {n | Edits n as bs} (distance as bs) := by
  rw [distance_eq_cost]
  constructor
  · have hreversed := (edits_cost as.reverse bs.reverse).reverse
    rwa [List.reverse_reverse, List.reverse_reverse] at hreversed
  · exact fun n h => cost_le_of_edits h.reverse

end Phrasebook.Suggestion
