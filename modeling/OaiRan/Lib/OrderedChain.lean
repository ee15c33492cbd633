import Mathlib.Data.List.Perm.Basic
import Mathlib.Data.List.Chain
import Mathlib.Data.List.TakeWhile

/-!
# Insertion into an ordered chain

A singly linked list kept in order by a walk that stops at the first cell the new one must
precede. The walk is described by its stopping test alone (`insertBefore`), and all that is ever
used of it is `insertBefore_eq`: the result is the old chain split at the stopping point, with
the new cell in between. Ties go after the cells they tie with, because the test is strict.
-/

namespace OrderedChain

open List

variable {α : Type*}

/-- Put `x` before the first cell `stop` accepts, or at the end. -/
def insertBefore (stop : α → Bool) (x : α) : List α → List α
  | [] => [x]
  | y :: l => if stop y then x :: y :: l else y :: insertBefore stop x l

theorem insertBefore_eq (stop : α → Bool) (x : α) (l : List α) :
    insertBefore stop x l =
      l.takeWhile (fun y ↦ !stop y) ++ x :: l.dropWhile (fun y ↦ !stop y) := by
  induction l with
  | nil => rfl
  | cons y l ih =>
    rw [insertBefore]
    rcases h : stop y with - | -
    · simp [h, ih]
    · simp [h]

theorem perm_insertBefore (stop : α → Bool) (x : α) (l : List α) :
    (insertBefore stop x l).Perm (x :: l) := by
  rw [insertBefore_eq]
  refine perm_middle.trans (List.Perm.cons x ?_)
  rw [takeWhile_append_dropWhile]

variable {stop f : α → Bool} {x : α} {l : List α}

@[simp] theorem mem_insertBefore {y : α} : y ∈ insertBefore stop x l ↔ y = x ∨ y ∈ l := by
  rw [(perm_insertBefore stop x l).mem_iff, mem_cons]

theorem insertBefore_of_forall (h : ∀ y ∈ l, stop y = false) :
    insertBefore stop x l = l ++ [x] := by
  rw [insertBefore_eq, takeWhile_eq_self_iff.2 (by simpa using h),
    dropWhile_eq_nil_iff.2 (by simpa using h)]

/-- A refused last cell ends every walk. -/
theorem takeWhile_append_singleton (hx : f x = false) (l : List α) :
    (l ++ [x]).takeWhile f = l.takeWhile f := by
  induction l with
  | nil => simp [hx]
  | cons y l ih => rw [cons_append, takeWhile_cons, takeWhile_cons, ih]

theorem dropWhile_append_singleton (hx : f x = false) (l : List α) :
    (l ++ [x]).dropWhile f = l.dropWhile f ++ [x] := by
  induction l with
  | nil => simp [hx]
  | cons y l ih =>
    rw [cons_append, dropWhile_cons, dropWhile_cons, ih]
    split <;> rfl

/-- Dropping the front of a chain whose tests only go from accepted to refused leaves no accepted
cell. -/
theorem dropWhile_eq_false_of_pairwise (h : l.Pairwise fun x y ↦ f x = false → f y = false) :
    ∀ x ∈ l.dropWhile f, f x = false := by
  induction l with
  | nil => simp
  | cons y l ih =>
    obtain ⟨hy, hl⟩ := pairwise_cons.1 h
    rcases hfy : f y with - | -
    · rw [dropWhile_cons_of_neg (by simp [hfy])]
      intro x hx
      rcases mem_cons.1 hx with rfl | hx
      · exact hfy
      · exact hy x hx hfy
    · rw [dropWhile_cons_of_pos hfy]
      exact ih hl

/-- Then what is dropped is all that is accepted. -/
theorem dropWhile_eq_filter_of_pairwise (h : l.Pairwise fun x y ↦ f x = false → f y = false) :
    l.dropWhile f = l.filter fun x ↦ !f x := by
  conv_rhs => rw [← takeWhile_append_dropWhile (p := f) (l := l)]
  have hfront : (l.takeWhile f).filter (fun x ↦ !f x) = [] :=
    filter_eq_nil_iff.2 fun x hx ↦ by simp [mem_takeWhile_imp hx]
  have hback : (l.dropWhile f).filter (fun x ↦ !f x) = l.dropWhile f :=
    filter_eq_self.2 fun x hx ↦ by simp [dropWhile_eq_false_of_pairwise h x hx]
  rw [filter_append, hfront, hback, nil_append]

/-- Insertion keeps the chain ordered by any transitive relation the stopping test decides. -/
theorem pairwise_insertBefore {r : α → α → Prop} [IsTrans α r] (hl : l.Pairwise r)
    (hstop : ∀ y ∈ l, stop y = true → r x y) (hpass : ∀ y ∈ l, stop y = false → r y x) :
    (insertBefore stop x l).Pairwise r := by
  induction l with
  | nil => exact pairwise_singleton r x
  | cons y l ih =>
    obtain ⟨hy, hl'⟩ := pairwise_cons.1 hl
    rw [insertBefore]
    rcases h : stop y with - | -
    · refine pairwise_cons.2 ⟨fun z hz ↦ ?_, ih hl' ?_ ?_⟩
      · rcases mem_insertBefore.1 hz with rfl | hz
        · exact hpass y (by simp) h
        · exact hy z hz
      · exact fun z hz ↦ hstop z (by simp [hz])
      · exact fun z hz ↦ hpass z (by simp [hz])
    · have hxy : r x y := hstop y (by simp) h
      refine pairwise_cons.2 ⟨fun z hz ↦ ?_, hl⟩
      rcases mem_cons.1 hz with rfl | hz
      · exact hxy
      · exact IsTrans.trans _ _ _ hxy (hy z hz)

/-- The same for neighbours only, where the relation need not be transitive. -/
theorem isChain_insertBefore {r : α → α → Prop} (hl : l.IsChain r)
    (hstop : ∀ y ∈ l, stop y = true → r x y) (hpass : ∀ y ∈ l, stop y = false → r y x) :
    (insertBefore stop x l).IsChain r := by
  induction l with
  | nil => exact .singleton x
  | cons y l ih =>
    rw [insertBefore]
    rcases h : stop y with - | -
    · refine .cons (ih hl.tail (fun z hz ↦ hstop z (by simp [hz])) fun z hz ↦ hpass z (by simp [hz]))
        fun z hz ↦ ?_
      -- the next cell is the new one or the one that was next before
      rcases l with - | ⟨w, l⟩
      · obtain rfl : x = z := by simpa [insertBefore] using hz
        exact hpass y (by simp) h
      · rw [insertBefore] at hz
        split at hz
        · obtain rfl : x = z := by simpa using hz
          exact hpass y (by simp) h
        · obtain rfl : w = z := by simpa using hz
          exact hl.rel_head? (by simp)
    · exact hl.cons_cons (hstop y (by simp) h)

end OrderedChain
