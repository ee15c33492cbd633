import Mathlib.Data.List.Basic
import Mathlib.Data.Nat.Basic
import Mathlib.Algebra.GroupWithZero.Nat

/-!
# Lossless transcoding

An encoder and a decoder that may both fail lose nothing of a value if decoding what was encoded gives
the value back. For a sequence it is enough, and necessary, that nothing is lost of any element
(`lossless_mapM_iff`). A decoder that fills an array in place, element by element, on top of what the
array holds, decodes a sequence into an array that holds the same everywhere (`fillSlots_const`).
-/

section Lossless

variable {α β : Type*}

variable {x : α} {f : α → Option β} {l : List α} {ys : List β}

/-- Decoding what was encoded gives the original. -/
def Lossless (enc : α → Option β) (dec : β → Option α) (x : α) : Prop := (enc x).bind dec = some x

variable {enc : α → Option β} {dec : β → Option α}

theorem lossless_iff : Lossless enc dec x ↔ ∃ y, enc x = some y ∧ dec y = some x :=
  Option.bind_eq_some_iff

theorem mapM_cons_eq_some_iff :
    (x :: l).mapM f = some ys ↔ ∃ y, f x = some y ∧ ∃ zs, l.mapM f = some zs ∧ y :: zs = ys := by
  simp only [List.mapM_cons, Option.bind_eq_bind, Option.bind_eq_some_iff, Option.pure_def,
    Option.some.injEq]

theorem length_of_mapM_eq_some (h : l.mapM f = some ys) : ys.length = l.length := by
  induction l generalizing ys with
  | nil =>
    rw [List.mapM_nil, Option.pure_def, Option.some.injEq] at h
    subst h
    rfl
  | cons x l ih =>
    obtain ⟨y, -, zs, hzs, rfl⟩ := mapM_cons_eq_some_iff.1 h
    rw [List.length_cons, List.length_cons, ih hzs]

/-- **A sequence, element by element.** -/
theorem lossless_mapM_iff :
    Lossless (List.mapM enc) (List.mapM dec) l ↔ ∀ x ∈ l, Lossless enc dec x := by
  induction l with
  | nil => simp [Lossless]
  | cons x l ih =>
    rw [List.forall_mem_cons, ← ih, lossless_iff, lossless_iff, lossless_iff]
    constructor
    · rintro ⟨ys, henc, hdec⟩
      obtain ⟨y, hy, ys, hys, rfl⟩ := mapM_cons_eq_some_iff.1 henc
      obtain ⟨x', hx, l', hl, heq⟩ := mapM_cons_eq_some_iff.1 hdec
      obtain ⟨rfl, rfl⟩ := List.cons.inj heq
      exact ⟨⟨y, hy, hx⟩, ys, hys, hl⟩
    · rintro ⟨⟨y, hy, hx⟩, ys, hys, hl⟩
      exact ⟨y :: ys, mapM_cons_eq_some_iff.2 ⟨y, hy, ys, hys, rfl⟩,
        mapM_cons_eq_some_iff.2 ⟨x, hx, l, hl, rfl⟩⟩

end Lossless

/-! ### Arrays that are filled in place -/

section Slots

variable {α β : Type*} (dec : α → β → Option α)

/-- The items are decoded into the array from index `i` on. -/
def fillSlots : ℕ → List β → (ℕ → α) → Option (ℕ → α)
  | _, [], slots => some slots
  | i, b :: bs, slots => do
    let a ← dec (slots i) b
    fillSlots (i + 1) bs (Function.update slots i a)

variable {dec} {i : ℕ} {bs : List β} {slots slots' : ℕ → α} {d : α}

theorem fillSlots_of_lt (h : fillSlots dec i bs slots = some slots') {j : ℕ} (hj : j < i) :
    slots' j = slots j := by
  induction bs generalizing i slots with
  | nil => rw [Option.some.inj h]
  | cons b bs ih =>
    obtain ⟨a, -, h⟩ := Option.bind_eq_some_iff.1 h
    rw [ih h (Nat.lt_succ_of_lt hj), Function.update_of_ne (Nat.ne_of_lt hj)]

/-- **In an array that holds the same everywhere**, every item is decoded on top of that. -/
theorem fillSlots_fresh (h : ∀ j, i ≤ j → slots j = d) :
    ((fillSlots dec i bs slots).map fun s ↦ (List.range bs.length).map fun k ↦ s (i + k)) =
      bs.mapM (dec d) := by
  induction bs generalizing i slots with
  | nil => rfl
  | cons b bs ih =>
    rw [fillSlots, h i le_rfl, List.mapM_cons]
    cases dec d b with
    | none => rfl
    | some a =>
      have hfresh : ∀ j, i + 1 ≤ j → Function.update slots i a j = d := fun j hj ↦ by
        rw [Function.update_of_ne (Nat.ne_of_gt hj), h j (Nat.le_of_succ_le hj)]
      rw [Option.bind_eq_bind, Option.bind_some, Option.bind_eq_bind, Option.bind_some, ← ih hfresh,
        Option.map_eq_bind, Option.bind_eq_bind, Option.map_eq_bind, Option.bind_assoc]
      refine Option.bind_congr fun s hs ↦ ?_
      have hi : s i = a := by
        rw [fillSlots_of_lt hs (Nat.lt_succ_self i), Function.update_self]
      show some ((List.range (bs.length + 1)).map fun k ↦ s (i + k)) =
        some (a :: (List.range bs.length).map fun k ↦ s (i + 1 + k))
      rw [List.range_succ_eq_map, List.map_cons, List.map_map, Nat.add_zero, hi]
      refine congrArg some (congrArg (a :: ·) (List.map_congr_left fun k _ ↦ ?_))
      exact congrArg s (Nat.add_right_comm i k 1)

/-- The whole array. -/
theorem fillSlots_const (dec : α → β → Option α) (bs : List β) (d : α) :
    ((fillSlots dec 0 bs fun _ ↦ d).map fun s ↦ (List.range bs.length).map s) =
      bs.mapM (dec d) := by
  rw [← fillSlots_fresh (i := 0) (d := d) fun _ _ ↦ rfl]
  simp only [Nat.zero_add]

end Slots
