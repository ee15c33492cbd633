import Mathlib.Tactic.Basic

/-!
# What a computation that may fail ends with

`Except.Post E P r`: if `r` succeeds its value satisfies `P`, and if it fails its error satisfies
`E`. Taking the errors that are allowed for `E` turns "no other assertion fires" into one
postcondition, and `Post.bind` takes it through a computation step by step.
-/

universe u v

variable {ε : Type u} {α β : Type v} {E : ε → Prop} {P : α → Prop} {Q : β → Prop}

/-- The value satisfies `P`, or the error satisfies `E`. -/
def Except.Post (E : ε → Prop) (P : α → Prop) : Except ε α → Prop
  | .ok a => P a
  | .error e => E e

namespace Except

/-- **Sequencing.** -/
theorem Post.bind {x : Except ε α} {f : α → Except ε β} (hx : Post E P x)
    (hf : ∀ a, P a → Post E Q (f a)) : Post E Q (x >>= f) := by
  cases x with
  | ok a => exact hf a hx
  | error e => exact hx

variable {r : Except ε α}

/-- A computation known to succeed. -/
theorem Post.of_eq_ok {a : α} (h : r = .ok a) (ha : P a) : Post E P r :=
  h ▸ ha

theorem Post.ok {a : α} (h : Post E P r) (hr : r = .ok a) : P a := by
  rwa [hr] at h

theorem Post.error {e : ε} (h : Post E P r) (hr : r = .error e) : E e := by
  rwa [hr] at h

/-- A computation that has a value returns it. -/
theorem eq_ok_get (h : r.toOption.isSome) : r = .ok (r.toOption.get h) := by
  cases r with
  | ok a => rfl
  | error e => cases h

end Except
