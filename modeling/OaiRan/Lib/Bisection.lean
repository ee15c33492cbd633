import Mathlib.Algebra.Order.Group.Nat

/-!
# Bisection with a choice of probes

A search for the least admissible point of an interval at which a function reaches a value. It keeps
the function below the value at `lo` and above it at `hi`, and probes a point that a parameter
chooses; it stops when it hits the value exactly, when the ends are adjacent, or when the probe is
`hi` itself.

## What the search needs

The intervals that a bisection can come to do not depend on the function (`Interval`), and those with
a point inside follow one another. **The search finds the least point** (`search_eq_iff`) exactly if
none of those around it is given up, and the function is above the value at all of their probes that
lie behind it (`NotMissed`). The function need not be monotone: before the least point it is below the
value by definition, and nowhere else is it looked at.
-/

namespace Bisection

variable {α : Type*} [LinearOrder α] (probe : ℕ → ℕ → ℕ)

/-- The value of `hi` that the search ends with. -/
def search (f : ℕ → α) (y : α) : ℕ → ℕ → ℕ → ℕ
  | 0, _, hi => hi
  | fuel + 1, lo, hi =>
    if lo + 1 < hi then
      if probe lo hi = hi then hi
      else if y = f (probe lo hi) then probe lo hi
      else if y < f (probe lo hi) then search f y fuel lo (probe lo hi)
      else search f y fuel (probe lo hi) hi
    else hi

/-- The intervals that a bisection of the first can come to. -/
inductive Interval : ℕ → ℕ → ℕ → ℕ → Prop
  | here (lo hi : ℕ) : Interval lo hi lo hi
  | left {lo hi lo' hi' : ℕ} (hlt : lo + 1 < hi) (hne : probe lo hi ≠ hi)
      (h : Interval lo (probe lo hi) lo' hi') : Interval lo hi lo' hi'
  | right {lo hi lo' hi' : ℕ} (hlt : lo + 1 < hi) (hne : probe lo hi ≠ hi)
      (h : Interval (probe lo hi) hi lo' hi') : Interval lo hi lo' hi'

/-- The same as a list. -/
def intervals : ℕ → ℕ → ℕ → List (ℕ × ℕ)
  | 0, lo, hi => [(lo, hi)]
  | fuel + 1, lo, hi =>
    (lo, hi) :: if lo + 1 < hi ∧ probe lo hi ≠ hi then
      intervals fuel lo (probe lo hi) ++ intervals fuel (probe lo hi) hi else []

/-- The probes lie inside the interval and are admissible where its upper end is. -/
structure Probes (Adm : ℕ → Prop) : Prop where
  lt : ∀ {lo hi}, lo + 1 < hi → Adm hi → lo < probe lo hi
  le : ∀ {lo hi}, lo + 1 < hi → Adm hi → probe lo hi ≤ hi
  adm : ∀ {lo hi}, lo + 1 < hi → Adm hi → Adm (probe lo hi)

variable {probe} {Adm : ℕ → Prop} {f : ℕ → α} {y : α} {fuel lo hi lo' hi' m : ℕ}

section

variable (hp : Probes probe Adm) (h : Interval probe lo hi lo' hi') (hadm : Adm hi)
include hp h hadm

theorem Interval.subset : lo ≤ lo' ∧ hi' ≤ hi := by
  induction h with
  | here lo hi => exact ⟨le_rfl, le_rfl⟩
  | left hlt hne h ih =>
    obtain ⟨hlo, hhi⟩ := ih (hp.adm hlt hadm)
    exact ⟨hlo, hhi.trans (hp.le hlt hadm)⟩
  | right hlt hne h ih =>
    obtain ⟨hlo, hhi⟩ := ih hadm
    exact ⟨(hp.lt hlt hadm).le.trans hlo, hhi⟩

theorem Interval.mem_intervals
    (hfuel : hi - lo ≤ fuel) : (lo', hi') ∈ intervals probe fuel lo hi := by
  induction h generalizing fuel with
  | here lo hi => cases fuel <;> exact List.mem_cons_self
  | left hlt hne h ih =>
    obtain ⟨fuel, rfl⟩ : ∃ n, fuel = n + 1 := ⟨fuel - 1, by omega⟩
    have hle := hp.le hlt hadm
    rw [intervals, if_pos ⟨hlt, hne⟩]
    exact List.mem_cons_of_mem _ (List.mem_append_left _ (ih (hp.adm hlt hadm) (by omega)))
  | right hlt hne h ih =>
    obtain ⟨fuel, rfl⟩ : ∃ n, fuel = n + 1 := ⟨fuel - 1, by omega⟩
    have hlo := hp.lt hlt hadm
    rw [intervals, if_pos ⟨hlt, hne⟩]
    exact List.mem_cons_of_mem _ (List.mem_append_right _ (ih hadm (by omega)))

end

/-- The search ends in the interval, at an admissible point where the function has reached the
value. -/
theorem search_spec (fuel : ℕ) (hp : Probes probe Adm) (hadm : Adm hi) (hlt : lo < hi)
    (hy : y ≤ f hi) :
    lo < search probe f y fuel lo hi ∧ search probe f y fuel lo hi ≤ hi ∧
      Adm (search probe f y fuel lo hi) ∧ y ≤ f (search probe f y fuel lo hi) := by
  induction fuel generalizing lo hi with
  | zero => exact ⟨hlt, le_rfl, hadm, hy⟩
  | succ fuel ih =>
    rw [search]
    split
    · rename_i hgap
      have hlo := hp.lt hgap hadm
      have hle := hp.le hgap hadm
      have hpadm := hp.adm hgap hadm
      split
      · exact ⟨hlt, le_rfl, hadm, hy⟩
      split
      · rename_i heq
        exact ⟨hlo, hle, hpadm, heq.le⟩
      split
      · rename_i hbelow
        obtain ⟨h₁, h₂, h₃⟩ := ih hpadm hlo hbelow.le
        exact ⟨h₁, h₂.trans hle, h₃⟩
      · rename_i hne _ _
        obtain ⟨h₁, h₂⟩ := ih hadm (lt_of_le_of_ne hle hne) hy
        exact ⟨hlo.trans h₁, h₂⟩
    · exact ⟨hlt, le_rfl, hadm, hy⟩

/-- `m` is the least admissible point after `lo` at which `f` has reached `y`. -/
structure IsLeastAfter (Adm : ℕ → Prop) (f : ℕ → α) (y : α) (lo m : ℕ) : Prop where
  lt : lo < m
  adm : Adm m
  le : y ≤ f m
  least : ∀ n, Adm n → lo < n → y ≤ f n → m ≤ n

/-- What the search needs around `m`: it is not given up there, and the function is above the value at
the probes behind `m`. -/
def NotMissed (probe : ℕ → ℕ → ℕ) (f : ℕ → α) (y : α) (lo hi m : ℕ) : Prop :=
  ∀ lo' hi', Interval probe lo hi lo' hi' → lo' < m → m < hi' →
    probe lo' hi' ≠ hi' ∧ (m < probe lo' hi' → y < f (probe lo' hi'))

/-- **When the search finds the least point.** -/
theorem search_eq_iff (hp : Probes probe Adm) (hadm : Adm hi) (hy : y ≤ f hi)
    (hm : IsLeastAfter Adm f y lo m) (hle : m ≤ hi) (hfuel : hi - lo ≤ fuel) :
    search probe f y fuel lo hi = m ↔ NotMissed probe f y lo hi m := by
  induction fuel generalizing lo hi with
  | zero => exact absurd hm.lt (by omega)
  | succ fuel ih =>
    -- at the upper end nothing is asked for
    have hend : hi = m → NotMissed probe f y lo hi m := by
      rintro rfl lo' hi' h - hhi
      exact absurd (h.subset hp hadm).2 (by omega)
    rw [search]
    split
    · rename_i hgap
      have hlo := hp.lt hgap hadm
      have hphi := hp.le hgap hadm
      have hpadm := hp.adm hgap hadm
      -- the halves that do not have `m` inside ask for nothing
      have hsplit : (probe lo hi ≠ hi) → NotMissed probe f y lo hi m →
          NotMissed probe f y lo (probe lo hi) m ∧ NotMissed probe f y (probe lo hi) hi m :=
        fun hne h ↦ ⟨fun lo' hi' h' ↦ h lo' hi' (.left hgap hne h'),
          fun lo' hi' h' ↦ h lo' hi' (.right hgap hne h')⟩
      split
      · -- the search is given up
        rename_i heq
        refine ⟨hend, fun h ↦ ?_⟩
        rcases hle.eq_or_lt with hm' | hm'
        · exact hm'.symm
        · exact absurd heq (h lo hi (.here lo hi) hm.lt hm').1
      rename_i hne
      split
      · -- the value is hit
        rename_i heq
        have hmp := hm.least _ hpadm hlo heq.le
        constructor
        · intro hpm lo' hi' h hlo' hhi'
          cases h with
          | here => exact ⟨hne, fun hlt ↦ absurd hlt (by omega)⟩
          | left _ _ h => exact absurd (h.subset hp hpadm).2 (by omega)
          | right _ _ h => exact absurd (h.subset hp hadm).1 (by omega)
        · intro h
          refine (hmp.eq_or_lt.resolve_right fun hlt ↦ ?_).symm
          exact absurd heq ((h lo hi (.here lo hi) hm.lt (by omega)).2 hlt).ne
      rename_i hmiss
      split
      · -- `m` is in the lower half
        rename_i hbelow
        have hmp := hm.least _ hpadm hlo hbelow.le
        rw [ih hpadm hbelow.le hm hmp (by omega)]
        refine ⟨fun h lo' hi' h' hlo' hhi' ↦ ?_, fun h ↦ (hsplit hne h).1⟩
        cases h' with
        | here => exact ⟨hne, fun _ ↦ hbelow⟩
        | left _ _ h' => exact h lo' hi' h' hlo' hhi'
        | right _ _ h' => exact absurd (h'.subset hp hadm).1 (by omega)
      rename_i hnot
      have hphi' := lt_of_le_of_ne hphi hne
      rcases lt_or_ge (probe lo hi) m with hpm | hmp
      · -- `m` is in the upper half
        have hm' : IsLeastAfter Adm f y (probe lo hi) m :=
          ⟨hpm, hm.adm, hm.le, fun n hn hlt ↦ hm.least n hn (hlo.trans hlt)⟩
        rw [ih hadm hy hm' hle (by omega)]
        refine ⟨fun h lo' hi' h' hlo' hhi' ↦ ?_, fun h ↦ (hsplit hne h).2⟩
        cases h' with
        | here => exact ⟨hne, fun hlt ↦ absurd hlt hpm.not_gt⟩
        | left _ _ h' => exact absurd (h'.subset hp hpadm).2 (by omega)
        | right _ _ h' => exact h lo' hi' h' hlo' hhi'
      · -- `m` is left behind
        have hlt : m < probe lo hi := by
          refine lt_of_le_of_ne hmp fun heq ↦ ?_
          have hm' := hm.le
          rw [heq] at hm'
          exact hnot (lt_of_le_of_ne hm' hmiss)
        refine iff_of_false (fun h ↦ ?_) fun h ↦ ?_
        · exact absurd (search_spec fuel hp hadm hphi' hy).1 (by omega)
        · exact hnot ((h lo hi (.here lo hi) hm.lt (by omega)).2 hlt)
    · have hhi : hi = m := by have := hm.lt; omega
      exact iff_of_true hhi (hend hhi)

end Bisection
