import Mathlib.Data.Nat.Notation

/-!
# Loops of partial bodies

A loop over a list is `List.foldlM`. `AdmittedAlong` says that every input was admitted when its turn
came; an invariant of the admitted turns then holds at the end (`AdmittedAlong.invariant`), and there
are ways back from a good end to admitted turns.

`loopM body n` runs a body that says whether to go on, for at most `n` turns; it has no result where
a turn has none, or where the turns run out. An invariant of the turns holds of the result
(`loopM_post`), and with a measure that every turn lowers there is one (`loopM_total`).
-/

variable {σ ι : Type*}

/-! ### Loops over a list -/

/-- Every input of a loop is admitted in the state it is taken in. -/
def AdmittedAlong (step : σ → ι → Option σ) (A : σ → ι → Prop) : σ → List ι → Prop
  | _, [] => True
  | s, i :: is => A s i ∧ ∀ t, step s i = some t → AdmittedAlong step A t is

variable {step : σ → ι → Option σ} {A : σ → ι → Prop}

theorem foldlM_cons_eq_some {i : ι} {is : List ι} {s t : σ} :
    (i :: is).foldlM step s = some t ↔ ∃ u, step s i = some u ∧ is.foldlM step u = some t := by
  rw [List.foldlM_cons, Option.bind_eq_bind, Option.bind_eq_some_iff]

theorem AdmittedAlong.cons {i : ι} {is : List ι} {s u : σ} (hok : A s i) (hu : step s i = some u)
    (h : AdmittedAlong step A u is) : AdmittedAlong step A s (i :: is) := by
  refine ⟨hok, fun v hv ↦ ?_⟩
  rw [hu, Option.some.injEq] at hv
  exact hv ▸ h

/-- A loop with a result has only taken inputs that its turns accept. -/
theorem AdmittedAlong.of_foldlM {P : List ι → σ → Prop}
    (hok : ∀ {s t i is}, P (i :: is) s → step s i = some t → A s i)
    (hkeep : ∀ {s t i is}, P (i :: is) s → step s i = some t → P is t) {s t : σ} {is : List ι}
    (hs : P is s) (ht : is.foldlM step s = some t) : AdmittedAlong step A s is ∧ P [] t := by
  induction is generalizing s with
  | nil =>
    rw [List.foldlM_nil, Option.pure_def, Option.some.injEq] at ht
    exact ⟨trivial, ht ▸ hs⟩
  | cons i is ih =>
    obtain ⟨u, hu, ht⟩ := foldlM_cons_eq_some.1 ht
    obtain ⟨hadm, hPt⟩ := ih (hkeep hs hu) ht
    exact ⟨.cons (hok hs hu) hu hadm, hPt⟩

/-- **Induction along a loop.** -/
theorem AdmittedAlong.invariant {P : σ → Prop}
    (hstep : ∀ {s t : σ} {i : ι}, P s → A s i → step s i = some t → P t) {s t : σ}
    {is : List ι} (h : AdmittedAlong step A s is) (hs : P s) (ht : is.foldlM step s = some t) :
    P t := by
  refine (of_foldlM (P := fun is s ↦ P s ∧ AdmittedAlong step A s is) (fun h _ ↦ h.2.1)
    (fun h ht ↦ ?_) ⟨hs, h⟩ ht).2.1
  exact ⟨hstep h.1 h.2.1 ht, h.2.2 _ ht⟩

/-- Induction along a loop that admits every input. -/
theorem foldlM_invariant {P : σ → Prop}
    (hstep : ∀ {s t : σ} {i : ι}, P s → step s i = some t → P t) {s t : σ} {is : List ι} (hs : P s)
    (ht : is.foldlM step s = some t) : P t :=
  (AdmittedAlong.of_foldlM (A := fun _ _ ↦ True) (P := fun _ ↦ P) (fun _ _ ↦ trivial)
    (fun hs ht ↦ hstep hs ht) hs ht).2

/-- **Backwards along a loop**: when a good state after a step was good before it, and the input was
admitted, then a loop that ends well admits all its inputs. `I` is an invariant of the loop. -/
theorem AdmittedAlong.of_backward {P I : σ → Prop} {is : List ι}
    (hI : ∀ {s t : σ} {i : ι}, I s → step s i = some t → I t)
    (hback : ∀ {s t : σ} {i : ι}, i ∈ is → I s → step s i = some t → P t → P s ∧ A s i) {s t : σ}
    (hs : I s) (ht : is.foldlM step s = some t) (hP : P t) : AdmittedAlong step A s is ∧ P s := by
  induction is generalizing s with
  | nil =>
    rw [List.foldlM_nil, Option.pure_def, Option.some.injEq] at ht
    exact ⟨trivial, ht ▸ hP⟩
  | cons i is ih =>
    obtain ⟨u, hu, ht⟩ := foldlM_cons_eq_some.1 ht
    obtain ⟨hadm, hPu⟩ := ih (fun hi ↦ hback (List.mem_cons_of_mem _ hi)) (hI hs hu) ht
    obtain ⟨hPs, hok⟩ := hback (List.mem_cons_self ..) hs hu hPu
    exact ⟨.cons hok hu hadm, hPs⟩

/-- When an input that is not admitted spoils the state, and a spoilt state stays so, a loop that
ends in a state that is not spoilt admits all its inputs. -/
theorem AdmittedAlong.of_not_spoilt {B : σ → Prop} {is : List ι}
    (hspoil : ∀ {s t : σ} {i : ι}, i ∈ is → ¬A s i → step s i = some t → B t)
    (hkeep : ∀ {s t : σ} {i : ι}, i ∈ is → B s → step s i = some t → B t) {s t : σ}
    (ht : is.foldlM step s = some t) (hB : ¬B t) : AdmittedAlong step A s is ∧ ¬B s := by
  refine of_backward (P := fun s ↦ ¬B s) (I := fun _ ↦ True) (fun _ _ ↦ trivial)
    (fun hi _ hu hBu ↦ ⟨fun hBs ↦ hBu (hkeep hi hBs hu), ?_⟩) trivial ht hB
  exact Classical.byContradiction fun hok ↦ hBu (hspoil hi hok hu)

/-! ### Loops with a condition -/

variable {body : σ → Option (Bool × σ)} {P : σ → Prop}

/-- `do … while`, with at most `n` turns. -/
def loopM (body : σ → Option (Bool × σ)) : ℕ → σ → Option σ
  | 0, _ => none
  | n + 1, s =>
    match body s with
    | none => none
    | some (true, t) => loopM body n t
    | some (false, t) => some t

/-- What holds after a turn that ends the loop holds of the result. -/
theorem loopM_post {Q : σ → Prop} (hkeep : ∀ {s t}, P s → body s = some (true, t) → P t)
    (hlast : ∀ {s t}, P s → body s = some (false, t) → Q t) {n : ℕ} {s t : σ} (hs : P s)
    (h : loopM body n s = some t) : Q t := by
  induction n generalizing s with
  | zero => simp [loopM] at h
  | succ n ih =>
    rw [loopM] at h
    split at h
    · simp at h
    · rename_i u hu
      exact ih (hkeep hs hu) h
    · rename_i u hu
      rw [Option.some.injEq] at h
      exact h ▸ hlast hs hu

/-- What every turn keeps holds of the result. -/
theorem loopM_invariant (hbody : ∀ {s t go}, P s → body s = some (go, t) → P t) {n : ℕ} {s t : σ}
    (hs : P s) (h : loopM body n s = some t) : P t :=
  loopM_post (fun hs h ↦ hbody hs h) (fun hs h ↦ hbody hs h) hs h

/-- **Termination**: a loop ends if each of its turns has a result, and lowers a measure if the loop
goes on. -/
theorem loopM_total {Q : σ → Prop} (μ : σ → ℕ)
    (hbody : ∀ {s}, P s → ∃ go t, body s = some (go, t) ∧ Q t ∧ (go = true → P t ∧ μ t < μ s))
    {n : ℕ} {s : σ} (hs : P s) (hn : μ s < n) : ∃ t, loopM body n s = some t ∧ Q t := by
  induction n generalizing s with
  | zero => omega
  | succ n ih =>
    obtain ⟨go, t, ht, hQ, hgo⟩ := hbody hs
    rw [loopM, ht]
    cases go with
    | false => exact ⟨t, rfl, hQ⟩
    | true =>
      obtain ⟨hP, hμ⟩ := hgo rfl
      exact ih hP (by omega)
