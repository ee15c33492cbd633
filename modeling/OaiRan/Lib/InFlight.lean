import Mathlib.Data.List.Perm.Subperm
import Mathlib.Data.List.Nodup
import Mathlib.Data.List.Range

/-!
# Messages in flight

Messages travel in parts. A queue holds one `Flight` for each message of which some parts have arrived
and some have not; messages are told apart by a key only. As long as every part arrives at most once
and a key is not used for two messages at a time (`Admissible`), a message leaves the queue **with the
arrival of its last missing part**, and then all its parts are there (`perm_range_of_arrive`).
-/

namespace InFlight

open List

variable {α β μ κ τ : Type*}

variable {p : α → Bool} {f : α → α}

/-! ### The first entry with a property -/

/-- Change the first entry with `p`. -/
def updateFirst (p : α → Bool) (f : α → α) : List α → List α
  | [] => []
  | a :: l => if p a then f a :: l else a :: updateFirst p f l

theorem map_updateFirst (p : β → Bool) (f : β → β) (g : α → β) (f' : α → α) (l : List α)
    (h : ∀ a, l.find? (fun x ↦ p (g x)) = some a → g (f' a) = f (g a)) :
    (updateFirst (fun a ↦ p (g a)) f' l).map g = updateFirst p f (l.map g) := by
  induction l with
  | nil => rfl
  | cons a l ih =>
    rw [updateFirst, map_cons, updateFirst]
    cases hp : p (g a) with
    | true =>
      exact congrArg (· :: l.map g) (h a (find?_cons_of_pos hp))
    | false =>
      rw [if_neg Bool.false_ne_true, if_neg Bool.false_ne_true, map_cons, ih]
      intro b hb
      exact h b (by rw [find?_cons_of_neg (by simp [hp]), hb])

theorem mem_updateFirst {l : List α} {b : α}
    (h : b ∈ updateFirst p f l) : b ∈ l ∨ ∃ a, l.find? p = some a ∧ b = f a := by
  induction l with
  | nil => cases h
  | cons a l ih =>
    rw [updateFirst] at h
    cases hp : p a with
    | true =>
      rw [if_pos hp] at h
      rcases mem_cons.1 h with rfl | h
      · exact .inr ⟨a, find?_cons_of_pos hp, rfl⟩
      · exact .inl (mem_cons_of_mem a h)
    | false =>
      rw [if_neg (by simp [hp])] at h
      rcases mem_cons.1 h with rfl | h
      · exact .inl mem_cons_self
      · rw [find?_cons_of_neg (by simp [hp])]
        exact (ih h).imp_left (mem_cons_of_mem a)

/-- A change that keeps a key keeps the list of keys. -/
theorem map_updateFirst_of_eq {g : α → β} (h : ∀ a, g (f a) = g a)
    (l : List α) : (updateFirst p f l).map g = l.map g := by
  induction l with
  | nil => rfl
  | cons a l ih =>
    rw [updateFirst]
    split
    · rw [map_cons, map_cons, h]
    · rw [map_cons, map_cons, ih]

/-! ### Flights -/

/-- A message, the numbers of its parts that have arrived, and when the first one did. -/
structure Flight (μ τ : Type*) where
  msg : μ
  arrived : List ℕ
  since : τ

section Queue

variable [DecidableEq κ] (key : μ → κ) (parts : μ → ℕ)

variable {k k' : κ}

/-- The flight with a key. -/
def lookup (k : κ) (fs : List (Flight μ τ)) : Option (Flight μ τ) :=
  fs.find? fun f ↦ key f.msg = k

/-- The flight of a message after one more of its parts has arrived, now. -/
def extended (m : μ) (part : ℕ) (now : τ) (fs : List (Flight μ τ)) : Flight μ τ :=
  match lookup key (key m) fs with
  | some f => { f with arrived := part :: f.arrived }
  | none => { msg := m, arrived := [part], since := now }

/-- The queue with that flight in it. A new one is put in front. -/
def record (m : μ) (part : ℕ) (now : τ) (fs : List (Flight μ τ)) : List (Flight μ τ) :=
  match lookup key (key m) fs with
  | some _ =>
    updateFirst (fun f ↦ key f.msg = key m) (fun f ↦ { f with arrived := part :: f.arrived }) fs
  | none => { msg := m, arrived := [part], since := now } :: fs

/-- A part arrives; if it is the last one missing, the flight leaves the queue. -/
def arrive (m : μ) (part : ℕ) (now : τ) (fs : List (Flight μ τ)) :
    List (Flight μ τ) × Option (Flight μ τ) :=
  let f := extended key m part now fs
  if f.arrived.length = parts m then
    ((record key m part now fs).eraseP fun f ↦ key f.msg = key m, some f)
  else (record key m part now fs, none)

/-- Some parts of the message have arrived, each once, and some have not. -/
structure Flight.Valid (f : Flight μ τ) : Prop where
  nodup : f.arrived.Nodup
  lt : ∀ part ∈ f.arrived, part < parts f.msg
  incomplete : f.arrived.length < parts f.msg

/-- One flight for a key. -/
structure Valid (fs : List (Flight μ τ)) : Prop where
  keys : (fs.map fun f ↦ key f.msg).Nodup
  flight : ∀ f ∈ fs, f.Valid parts

/-- The part has not arrived yet, and its key is not that of another message in flight. -/
structure Admissible (m : μ) (part : ℕ) (fs : List (Flight μ τ)) : Prop where
  lt : part < parts m
  several : 1 < parts m
  same : ∀ f, lookup key (key m) fs = some f → f.msg = m ∧ part ∉ f.arrived

variable {key parts} {m : μ} {part : ℕ} {now : τ} {fs : List (Flight μ τ)}

theorem mem_of_lookup {f : Flight μ τ} (h : lookup key k fs = some f) : f ∈ fs ∧ key f.msg = k := by
  exact ⟨mem_of_find?_eq_some h, by simpa using find?_some h⟩

theorem lookup_eq_none : lookup key k fs = none ↔ ∀ f ∈ fs, key f.msg ≠ k := by
  simp [lookup]

theorem Admissible.msg_extended (h : Admissible key parts m part fs) :
    (extended key m part now fs).msg = m := by
  rw [extended]
  split
  · rename_i f hf
    exact (h.same f hf).1
  · rfl

/-- The flight as it is recorded: every part at most once. -/
theorem Admissible.nodup_extended (h : Admissible key parts m part fs)
    (hfs : Valid key parts fs) (now : τ) : (extended key m part now fs).arrived.Nodup ∧
      (∀ p ∈ (extended key m part now fs).arrived, p < parts m) ∧
      (extended key m part now fs).arrived.length ≤ parts m := by
  rw [extended]
  split
  · rename_i f hf
    obtain ⟨hmsg, hnew⟩ := h.same f hf
    have hv := hfs.flight f (mem_of_lookup hf).1
    refine ⟨nodup_cons.2 ⟨hnew, hv.nodup⟩, fun p hp ↦ ?_, ?_⟩
    · rcases mem_cons.1 hp with rfl | hp
      · exact h.lt
      · exact hmsg ▸ hv.lt p hp
    · exact hmsg ▸ hv.incomplete
  · refine ⟨nodup_singleton part, fun p hp ↦ ?_, h.several.le⟩
    exact mem_singleton.1 hp ▸ h.lt

/-- What is in the queue after an arrival was there before, or is the flight itself. -/
theorem mem_record {f : Flight μ τ} (h : f ∈ record key m part now fs) :
    f ∈ fs ∨ f = extended key m part now fs := by
  rw [record] at h
  rw [extended]
  split at h
  · rename_i g hg
    rcases mem_updateFirst h with h | ⟨g', hg', rfl⟩
    · exact .inl h
    · obtain rfl := Option.some.inj (hg.symm.trans hg')
      exact .inr rfl
  · rcases mem_cons.1 h with rfl | h
    · exact .inr rfl
    · exact .inl h

theorem keys_record (hkeys : (fs.map fun f ↦ key f.msg).Nodup) :
    ((record key m part now fs).map fun f ↦ key f.msg).Nodup := by
  rw [record]
  split
  · rw [map_updateFirst_of_eq]
    · exact hkeys
    · exact fun _ ↦ rfl
  · rename_i hnone
    rw [map_cons, nodup_cons]
    refine ⟨fun hmem ↦ ?_, hkeys⟩
    obtain ⟨f, hf, heq⟩ := mem_map.1 hmem
    exact lookup_eq_none.1 hnone f hf heq

theorem lookup_record_self :
    lookup key (key m) (record key m part now fs) = some (extended key m part now fs) := by
  rw [record, extended]
  split
  · rename_i f hf
    rw [lookup] at hf ⊢
    induction fs with
    | nil => cases hf
    | cons g fs ih =>
      rw [updateFirst]
      by_cases hg : key g.msg = key m
      · rw [find?_cons_of_pos (by simpa using hg)] at hf
        cases hf
        rw [if_pos (by simpa using hg), find?_cons_of_pos (by simpa using hg)]
      · rw [find?_cons_of_neg (by simpa using hg)] at hf
        rw [if_neg (by simpa using hg), find?_cons_of_neg (by simpa using hg)]
        exact ih hf
  · exact find?_cons_of_pos (by simp)

theorem lookup_record_of_ne (hk : k ≠ key m) :
    lookup key k (record key m part now fs) = lookup key k fs := by
  rw [record]
  split
  · rename_i f hf
    clear hf f
    rw [lookup, lookup]
    induction fs with
    | nil => rfl
    | cons g fs ih =>
      rw [updateFirst]
      by_cases hg : key g.msg = key m
      · have hne : key g.msg ≠ k := fun h ↦ hk (h.symm.trans hg)
        rw [if_pos (by simpa using hg), find?_cons_of_neg (by simpa using hne),
          find?_cons_of_neg (by simpa using hne)]
      · rw [if_neg (by simpa using hg), find?_cons, find?_cons, ih]
  · exact find?_cons_of_neg (by simpa using hk.symm)

theorem lookup_eraseP_of_ne (hk : k ≠ k') :
    lookup key k (fs.eraseP fun f ↦ key f.msg = k') = lookup key k fs := by
  induction fs with
  | nil => rfl
  | cons f fs ih =>
    by_cases hf : key f.msg = k'
    · rw [eraseP_cons_of_pos (by simpa using hf), lookup, lookup,
        find?_cons_of_neg (by simpa using fun h ↦ hk (h.symm.trans hf))]
    · rw [eraseP_cons_of_neg (by simpa using hf), lookup, lookup, find?_cons, find?_cons]
      rw [lookup, lookup] at ih
      rw [ih]

theorem lookup_eraseP_self (hkeys : (fs.map fun f ↦ key f.msg).Nodup) (k : κ) :
    lookup key k (fs.eraseP fun f ↦ key f.msg = k) = none := by
  induction fs with
  | nil => rfl
  | cons f fs ih =>
    rw [map_cons, nodup_cons] at hkeys
    by_cases hf : key f.msg = k
    · rw [eraseP_cons_of_pos (by simpa using hf), lookup_eq_none]
      rintro g hg rfl
      exact hkeys.1 (mem_map.2 ⟨g, hg, hf.symm⟩)
    · rw [eraseP_cons_of_neg (by simpa using hf), lookup, find?_cons_of_neg (by simpa using hf)]
      exact ih hkeys.2

/-- **An arrival keeps the queue valid.** -/
theorem Valid.arrive (hfs : Valid key parts fs) (h : Admissible key parts m part fs) :
    Valid key parts (arrive key parts m part now fs).1 := by
  obtain ⟨hnodup, hlt, hle⟩ := h.nodup_extended hfs now
  rw [InFlight.arrive]
  split
  · have hsub := eraseP_sublist (p := fun f ↦ key f.msg = key m)
      (l := record key m part now fs)
    refine ⟨(hsub.map _).nodup (keys_record hfs.keys), fun f hf ↦ ?_⟩
    -- the flight itself is the one that is removed
    have hne : key f.msg ≠ key m :=
      lookup_eq_none.1 (lookup_eraseP_self (keys_record hfs.keys) _) f hf
    rcases mem_record (hsub.mem hf) with hf | rfl
    · exact hfs.flight f hf
    · exact absurd (congrArg key h.msg_extended) hne
  · rename_i hneq
    refine ⟨keys_record hfs.keys, fun f hf ↦ ?_⟩
    rcases mem_record hf with hf | rfl
    · exact hfs.flight f hf
    · refine ⟨hnodup, ?_, ?_⟩ <;> rw [h.msg_extended]
      · exact hlt
      · exact lt_of_le_of_ne hle hneq

omit [DecidableEq κ] in
/-- Flights that are given up. -/
theorem Valid.filter (hfs : Valid key parts fs) (p : Flight μ τ → Bool) :
    Valid key parts (fs.filter p) :=
  ⟨((filter_sublist (l := fs)).map _).nodup hfs.keys,
    fun f hf ↦ hfs.flight f (mem_of_mem_filter hf)⟩

theorem lookup_filter {p : Flight μ τ → Bool} (hp : ∀ f, lookup key k fs = some f → p f = true)
    (hkeys : (fs.map fun f ↦ key f.msg).Nodup) : lookup key k (fs.filter p) = lookup key k fs := by
  induction fs with
  | nil => rfl
  | cons f fs ih =>
    rw [map_cons, nodup_cons] at hkeys
    by_cases hf : key f.msg = k
    · have hself : lookup key k (f :: fs) = some f := find?_cons_of_pos (by simpa using hf)
      rw [filter_cons_of_pos (hp f hself), hself]
      exact find?_cons_of_pos (by simpa using hf)
    · have htail : lookup key k (f :: fs) = lookup key k fs :=
        find?_cons_of_neg (by simpa using hf)
      rw [htail] at hp ⊢
      rw [← ih hp hkeys.2, filter_cons]
      split
      · exact find?_cons_of_neg (by simpa using hf)
      · rfl

theorem lookup_arrive_of_ne (hk : k ≠ key m) :
    lookup key k (arrive key parts m part now fs).1 = lookup key k fs := by
  rw [arrive]
  split
  · rw [lookup_eraseP_of_ne hk, lookup_record_of_ne hk]
  · exact lookup_record_of_ne hk

end Queue

/-- **Numbers below `n`, each at most once, `n` of them: these are all.** -/
theorem perm_range_of_nodup {l : List ℕ} {n : ℕ} (hnodup : l.Nodup) (hlt : ∀ k ∈ l, k < n)
    (hlen : l.length = n) : l.Perm (range n) := by
  refine (hnodup.subperm fun k hk ↦ mem_range.2 (hlt k hk)).perm_of_length_le ?_
  rw [length_range, hlen]

end InFlight
