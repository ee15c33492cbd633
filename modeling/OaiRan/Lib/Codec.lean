import Mathlib.Algebra.GroupWithZero.Nat
import Mathlib.Order.Lattice.Nat
import Mathlib.Data.Vector.Basic

/-!
# Codecs over a bounded buffer

A writer appends bytes to a buffer of a given size and fails where they do not fit; a reader takes
bytes off the front of a list. `Carries p g a` says that what `p` writes, `g` reads as `a`, **whatever
stands before and behind it**: this is what makes it compositional. Writers that are put one after
another are read by readers put one after another (`Carries.bind`), and so are lists, arrays with a
count and optional parts. A writer may also compute what it leaves behind, such as a length that it
fills in afterwards; `Faithful p g` says that `g` reads back that value.

An array and the number of its entries in use are one value (`CArray`), as are a part of a message
and the flag that says whether it is there (`Optional`): values that disagree with their count or
their flag do not exist.
-/

namespace Codec

open Option List

/-! ### Writers and readers -/

/-- A buffer that is being filled. -/
structure Buffer where
  bytes : List UInt8
  size : ℕ

/-- A writer that returns a value. -/
abbrev Put (α : Type) := StateT Buffer Option α

/-- A reader. -/
abbrev Get (α : Type) := StateT (List UInt8) Option α

variable {α β γ δ : Type} {p q : Put Unit} {g : Get α} {a : α} {n : ℕ}

/-- Bytes are written if there is room for all of them. -/
def push (bs : List UInt8) : Put Unit := fun b ↦
  if b.bytes.length + bs.length ≤ b.size then some ((), { b with bytes := b.bytes ++ bs }) else none

/-- The number of bytes so far. -/
def position : Put ℕ := fun b ↦ some (b.bytes.length, b)

/-- Bytes that have been written already are written over. -/
def patch (pos : ℕ) (bs : List UInt8) : Put Unit := fun b ↦
  if pos + bs.length ≤ b.size then
    some ((), { b with bytes := b.bytes.take pos ++ bs ++ b.bytes.drop (pos + bs.length) })
  else none

/-- A number of bytes. -/
def pull (n : ℕ) : Get (List.Vector UInt8 n) := fun l ↦
  if h : n ≤ l.length then some (⟨l.take n, by simp [h]⟩, l.drop n) else none

/-- A writer or reader that fails. -/
def fail {σ α : Type} : StateT σ Option α := fun _ ↦ none

theorem bind_eq_some {σ : Type} {m : StateT σ Option α} {f : α → StateT σ Option β} {s t : σ} {b : β}
    (h : (m >>= f) s = some (b, t)) : ∃ a u, m s = some (a, u) ∧ f a u = some (b, t) := by
  obtain ⟨⟨a, u⟩, hm, hf⟩ := bind_eq_some_iff.1 h
  exact ⟨a, u, hm, hf⟩

theorem bind_of_eq_some {σ : Type} {m : StateT σ Option α} (f : α → StateT σ Option β) {s u : σ}
    (h : m s = some (a, u)) : (m >>= f) s = f a u := by
  change (m s).bind (fun x ↦ f x.1 x.2) = _
  rw [h]
  rfl

variable {bs : List UInt8} {b b' : Buffer} {c : β} {k : α → Get β} {h : γ → α} {f : α → Put Unit}
  {size : α → ℕ} {cap : ℕ}

theorem push_eq_some (h : push bs b = some ((), b')) : b'.bytes = b.bytes ++ bs := by
  rw [push] at h
  split at h
  · simp only [some.injEq, Prod.mk.injEq, true_and] at h
    rw [← h]
  · simp at h

theorem patch_eq_some {pos : ℕ} (h : patch pos bs b = some ((), b')) :
    b'.bytes = b.bytes.take pos ++ bs ++ b.bytes.drop (pos + bs.length) := by
  rw [patch] at h
  split at h
  · simp only [some.injEq, Prod.mk.injEq, true_and] at h
    rw [← h]
  · simp at h

/-! ### Round trips -/

/-- These bytes are read as `a`, whatever follows. -/
def Reads (g : Get α) (bs : List UInt8) (a : α) : Prop := ∀ rest, g (bs ++ rest) = some (a, rest)

/-- What `p` writes is read as `a`. -/
def Carries (p : Put Unit) (g : Get α) (a : α) : Prop :=
  ∀ ⦃b b'⦄, p b = some ((), b') → ∃ bs, b'.bytes = b.bytes ++ bs ∧ Reads g bs a

/-- What `p` writes is read as `h` of the value that it returns. -/
def Faithful (p : Put β) (g : Get α) (h : β → α) : Prop :=
  ∀ ⦃b c b'⦄, p b = some (c, b') → ∃ bs, b'.bytes = b.bytes ++ bs ∧ Reads g bs (h c)

theorem Reads.bind {h : α → Get β} {cs : List UInt8} (hg : Reads g bs a) (hh : Reads (h a) cs c) :
    Reads (g >>= h) (bs ++ cs) c := fun rest ↦ by
  rw [append_assoc, bind_of_eq_some h (hg _)]
  exact hh rest

theorem Reads.pure (a : α) : Reads (pure a) [] a := fun _ ↦ rfl

theorem Reads.pull (xs : List.Vector UInt8 n) : Reads (pull n) xs.toList xs := fun rest ↦ by
  have hle : n ≤ (xs.toList ++ rest).length := by simp
  have htake : (xs.toList ++ rest).take n = xs.toList := take_left' xs.toList_length
  have hdrop : (xs.toList ++ rest).drop n = rest := drop_left' xs.toList_length
  rw [Codec.pull, dif_pos hle]
  simp only [htake, hdrop]
  rfl

theorem Reads.map (f : α → β) (hg : Reads g bs a) :
    Reads (g >>= fun x ↦ Pure.pure (f x)) bs (f a) := by
  have := hg.bind (h := fun x ↦ Pure.pure (f x)) (Reads.pure (f a))
  rwa [append_nil] at this

/-- **One thing after another.** -/
theorem Faithful.bind {p : Put γ} {q : γ → Put δ} {h' : δ → β} (hp : Faithful p g h)
    (hq : ∀ c, Faithful (q c) (k (h c)) h') : Faithful (p >>= q) (g >>= k) h' := by
  intro b d b' hpq
  obtain ⟨c, u, hu, hq'⟩ := bind_eq_some hpq
  obtain ⟨bs, hbs, hreads⟩ := hp hu
  obtain ⟨cs, hcs, hreads'⟩ := hq c hq'
  exact ⟨bs ++ cs, by rw [hcs, hbs, append_assoc], hreads.bind hreads'⟩

theorem Faithful.pure {h : β → α} (hc : a = h c) : Faithful (Pure.pure c) (Pure.pure a) h := by
  intro b d b' hd
  obtain ⟨rfl, rfl⟩ : c = d ∧ b = b' := by simpa using some.inj hd
  exact ⟨[], (append_nil _).symm, hc ▸ Reads.pure a⟩

theorem Faithful.map {p : Put γ} {h' : δ → β} {f : γ → δ} {k : α → β} (hp : Faithful p g h)
    (hk : ∀ c, k (h c) = h' (f c)) :
    Faithful (p >>= fun c ↦ Pure.pure (f c)) (g >>= fun a ↦ Pure.pure (k a)) h' :=
  hp.bind fun c ↦ .pure (hk c)

theorem Carries.faithful (hp : Carries p g a) : Faithful p g fun _ ↦ a := fun _ _ _ h ↦ hp h

/-- A part that returns a value, after one that does not. -/
theorem Carries.bind_faithful {q : Put γ} {h : γ → β} (hp : Carries p g a)
    (hq : Faithful q (k a) h) : Faithful (p >>= fun _ ↦ q) (g >>= k) h :=
  hp.faithful.bind fun _ ↦ hq

theorem Carries.bind (hp : Carries p g a) (hq : Carries q (k a) c) :
    Carries (p >>= fun _ ↦ q) (g >>= k) c := fun _ _ h ↦ hp.bind_faithful hq.faithful h

/-- The last part, after which the value is returned. -/
theorem Carries.returns {f : α → β} {h : γ → β} {c : γ} (hp : Carries p g a) (hc : f a = h c) :
    Faithful (p >>= fun _ ↦ Pure.pure c) (g >>= fun x ↦ Pure.pure (f x)) h :=
  hp.faithful.map fun _ ↦ hc

theorem Carries.nothing (hg : Reads g [] a) : Carries (Pure.pure ()) g a := by
  intro b b' h
  obtain rfl : b = b' := congrArg Prod.snd (some.inj h)
  exact ⟨[], (append_nil _).symm, hg⟩

theorem Carries.pure (a : α) : Carries (Pure.pure ()) (Pure.pure a) a := .nothing (Reads.pure a)

/-- The last thing, from which the value is put together. -/
theorem Carries.map (f : α → β) (hp : Carries p g a) :
    Carries p (g >>= fun x ↦ Pure.pure (f x)) (f a) := fun _ _ h ↦ by
  obtain ⟨bs, hbs, hreads⟩ := hp h
  exact ⟨bs, hbs, hreads.map f⟩

/-- Bytes that are read as `a` are read so when they have been written. -/
theorem Carries.of_reads (h : Reads g bs a) : Carries (push bs) g a := by
  intro b b' hp
  exact ⟨bs, push_eq_some hp, h⟩

theorem Carries.fail : Carries fail g a := fun _ _ h ↦ by simp [Codec.fail] at h

/-- The last part that returns a value, from which the value read is put together. -/
theorem Faithful.last {p : Put γ} {h' : γ → β} {k : α → β} (hp : Faithful p g h)
    (hk : ∀ c, k (h c) = h' c) : Faithful p (g >>= fun a ↦ Pure.pure (k a)) h' := by
  intro b c b' hc
  obtain ⟨bs, hbs, hreads⟩ := hp hc
  exact ⟨bs, hbs, hk c ▸ hreads.map k⟩

/-- What `p` writes, `g` reads, and goes on as `k` of the value that `p` returns. -/
def Leads (p : Put β) (g : Get α) (k : β → Get α) : Prop :=
  ∀ ⦃b c b'⦄, p b = some (c, b') → ∃ bs, b'.bytes = b.bytes ++ bs ∧ ∀ rest, g (bs ++ rest) = k c rest

theorem Carries.bind_leads {q : Put γ} {m : γ → Get β} (hp : Carries p g a) (hq : Leads q (k a) m) :
    Leads (p >>= fun _ ↦ q) (g >>= k) m := by
  intro b c b' hpq
  obtain ⟨_, u, hu, hq'⟩ := bind_eq_some hpq
  obtain ⟨bs, hbs, hreads⟩ := hp hu
  obtain ⟨cs, hcs, hrest⟩ := hq hq'
  refine ⟨bs ++ cs, by rw [hcs, hbs, append_assoc], fun rest ↦ ?_⟩
  rw [append_assoc, bind_of_eq_some k (hreads _), hrest]

theorem Faithful.leads {p : Put γ} (hp : Faithful p g h) (k : α → Get β) :
    Leads p (g >>= k) fun c ↦ k (h c) := by
  intro b c b' hc
  obtain ⟨bs, hbs, hreads⟩ := hp hc
  exact ⟨bs, hbs, fun rest ↦ bind_of_eq_some k (hreads rest)⟩

/-- The bytes of a successful writer are read back in full. -/
theorem Faithful.eq_some {p : Put β} {h : β → α} (hp : Faithful p g h) (hc : p b = some (c, b')) :
    g (b'.bytes.drop b.bytes.length) = some (h c, []) := by
  obtain ⟨bs, hbs, hreads⟩ := hp hc
  rw [hbs, drop_left]
  simpa using hreads []

/-! ### Lists -/

/-- So many things. -/
def pullVec (g : Get α) : (n : ℕ) → Get (List.Vector α n)
  | 0 => pure .nil
  | n + 1 => do
    let a ← g
    let v ← pullVec g n
    pure (a ::ᵥ v)

/-- Each of them is written. -/
def pushVec (f : α → Put Unit) : {n : ℕ} → List.Vector α n → Put Unit
  | 0, _ => pure ()
  | _ + 1, v => do
    f v.head
    pushVec f v.tail

/-- Each of them is written and replaced by what its writer returns. -/
def mapVec (f : α → Put β) : {n : ℕ} → List.Vector α n → Put (List.Vector β n)
  | 0, _ => pure .nil
  | _ + 1, v => do
    let a ← f v.head
    let w ← mapVec f v.tail
    pure (a ::ᵥ w)

/-- Each of them is written, with a value that is passed on from one to the next. -/
def foldVec (f : γ → α → Put γ) : {n : ℕ} → γ → List.Vector α n → Put γ
  | 0, c, _ => pure c
  | _ + 1, c, v => do
    let c ← f c v.head
    foldVec f c v.tail

theorem toList_eq_cons (v : List.Vector α (n + 1)) : v.toList = v.head :: v.tail.toList := by
  rw [← List.Vector.toList_cons, List.Vector.cons_head_tail]

theorem Carries.vec {h : α → α} :
    ∀ {n : ℕ} (v : List.Vector α n), (∀ a ∈ v.toList, Carries (f a) g (h a)) →
      Carries (pushVec f v) (pullVec g n) (v.map h)
  | 0, v, _ => by
    rw [v.eq_nil]
    exact .pure _
  | n + 1, v, hf => by
    have hcons : v.map h = h v.head ::ᵥ v.tail.map h := by
      rw [← List.Vector.map_cons, List.Vector.cons_head_tail]
    rw [hcons]
    refine (hf v.head ?_).bind ((Carries.vec v.tail fun a ha ↦ hf a ?_).map _)
    · rw [toList_eq_cons]
      exact mem_cons_self
    · rw [toList_eq_cons]
      exact mem_cons_of_mem _ ha

theorem Carries.vec_self (v : List.Vector α n) (hf : ∀ a ∈ v.toList, Carries (f a) g a) :
    Carries (pushVec f v) (pullVec g n) v := by
  have := Carries.vec v hf
  rwa [show v.map (fun a ↦ a) = v from v.map_id] at this

theorem Faithful.vec {f : β → Put γ} (hf : ∀ b, Faithful (f b) g h) :
    ∀ {n : ℕ} (v : List.Vector β n),
      Faithful (mapVec f v) (pullVec g n) fun w ↦ (w.map h : List.Vector α n)
  | 0, _ => .pure (c := List.Vector.nil) rfl
  | _ + 1, v => (hf v.head).bind fun c ↦ (Faithful.vec hf v.tail).map fun w ↦ by
    rw [List.Vector.map_cons]

theorem Faithful.foldVec {f : γ → α → Put γ} {h : α → α} :
    ∀ {n : ℕ} (c : γ) (v : List.Vector α n),
      (∀ c, ∀ a ∈ v.toList, Faithful (f c a) g fun _ ↦ h a) →
        Faithful (foldVec f c v) (pullVec g n) fun _ ↦ v.map h
  | 0, c, v, _ => by
    rw [v.eq_nil]
    exact .pure rfl
  | n + 1, c, v, hf => by
    have hcons : v.map h = h v.head ::ᵥ v.tail.map h := by
      rw [← List.Vector.map_cons, List.Vector.cons_head_tail]
    rw [toList_eq_cons] at hf
    rw [hcons]
    exact (hf c v.head mem_cons_self).bind fun d ↦ (Faithful.foldVec d v.tail
      fun c a ha ↦ hf c a (mem_cons_of_mem _ ha)).last fun _ ↦ rfl

/-- What the writers keep of their entries, they keep of the list. -/
theorem mapVec_keeps {f : α → Put β} {k : α → γ} {k' : β → γ}
    (hf : ∀ a b c b', f a b = some (c, b') → k' c = k a) :
    ∀ {n : ℕ} {v : List.Vector α n} {w : List.Vector β n} {b b' : Buffer},
      mapVec f v b = some (w, b') → w.toList.map k' = v.toList.map k
  | 0, v, w, _, _, _ => by
    rw [v.eq_nil, w.eq_nil]
    rfl
  | n + 1, v, w, b, b', h => by
    obtain ⟨c, b₁, hc, h⟩ := bind_eq_some h
    obtain ⟨u, b₂, hu, h⟩ := bind_eq_some h
    cases h
    rw [toList_eq_cons v, List.Vector.toList_cons, map_cons, map_cons, hf _ _ _ _ hc,
      mapVec_keeps hf hu]

/-! ### Sizes -/

/-- So many bytes are written. -/
def Writes (p : Put Unit) (k : ℕ) : Prop :=
  ∀ ⦃b b'⦄, p b = some ((), b') → ∃ bs, b'.bytes = b.bytes ++ bs ∧ bs.length = k

/-- What is read has the size of what it is read as. -/
def Takes (g : Get α) (size : α → ℕ) : Prop :=
  ∀ ⦃l a r⦄, g l = some (a, r) → l.length = size a + r.length

theorem Writes.push (bs : List UInt8) : Writes (push bs) bs.length := fun _ _ h ↦
  ⟨bs, push_eq_some h, rfl⟩

theorem Writes.bind {k m : ℕ} (hp : Writes p k) (hq : Writes q m) :
    Writes (p >>= fun _ ↦ q) (k + m) := by
  intro b b' h
  obtain ⟨_, u, hu, h⟩ := bind_eq_some h
  obtain ⟨bs, hbs, hk⟩ := hp hu
  obtain ⟨cs, hcs, hm⟩ := hq h
  exact ⟨bs ++ cs, by rw [hcs, hbs, append_assoc], by rw [length_append, hk, hm]⟩

theorem Writes.vec (hf : ∀ a, Writes (f a) (size a)) :
    ∀ {n : ℕ} (v : List.Vector α n), Writes (pushVec f v) (v.toList.map size).sum
  | 0, v => by
    intro b b' h
    obtain rfl : b = b' := congrArg Prod.snd (some.inj h)
    exact ⟨[], (append_nil _).symm, by rw [v.eq_nil]; rfl⟩
  | n + 1, v => by
    rw [toList_eq_cons, map_cons, sum_cons]
    exact (hf v.head).bind (Writes.vec hf v.tail)

theorem Takes.vec (hg : Takes g size) :
    ∀ n : ℕ, Takes (pullVec g n) fun v ↦ (v.toList.map size).sum
  | 0 => by
    intro l v r h
    cases h
    simp
  | n + 1 => by
    intro l v r h
    obtain ⟨a, l₁, ha, h⟩ := bind_eq_some h
    obtain ⟨w, l₂, hw, h⟩ := bind_eq_some h
    cases h
    have hhead := hg ha
    have htail := Takes.vec hg n hw
    dsimp only at htail ⊢
    rw [List.Vector.toList_cons, map_cons, sum_cons]
    omega

/-! ### Arrays with a count -/

/-- The `n` entries in use of an array with room for `cap`. -/
structure CArray (cap n : ℕ) (α : Type) where
  entries : List.Vector α n
  le_cap : n ≤ cap

/-- So many entries, which have to fit. -/
def pullArray (cap : ℕ) (g : Get α) (n : ℕ) : Get (CArray cap n α) :=
  if h : n ≤ cap then do
    let v ← pullVec g n
    pure ⟨v, h⟩
  else fail

theorem Carries.array (v : CArray cap n α) (hf : ∀ a ∈ v.entries.toList, Carries (f a) g a) :
    Carries (pushVec f v.entries) (pullArray cap g n) v := by
  rw [pullArray, dif_pos v.le_cap]
  exact (Carries.vec_self v.entries hf).map _

def CArray.map {cap : ℕ} (f : α → β) (v : CArray cap n α) : CArray cap n β :=
  ⟨v.entries.map f, v.le_cap⟩

theorem CArray.map_map (f : α → β) (k : β → γ) (v : CArray cap n α) :
    (v.map f).map k = v.map fun a ↦ k (f a) := by
  have hlist : (v.entries.map f).map k = v.entries.map fun a ↦ k (f a) :=
    List.Vector.eq _ _ (by simp only [List.Vector.toList_map, List.map_map]; rfl)
  rw [map, map, map, hlist]

theorem CArray.map_eq_self_iff {f : α → α} {v : CArray cap n α} :
    v.map f = v ↔ ∀ a ∈ v.entries.toList, f a = a := by
  have hlist : v.map f = v ↔ v.entries.toList.map f = v.entries.toList.map id := by
    rw [← List.Vector.toList_map, List.map_id]
    exact ⟨fun h ↦ congrArg (fun w ↦ w.entries.toList) h, fun h ↦ by
      rw [CArray.map, List.Vector.eq _ _ h]⟩
  rw [hlist, map_inj_left]
  rfl

/-- Each entry is written and replaced by what its writer returns. -/
def mapArray {cap : ℕ} (f : α → Put β) (v : CArray cap n α) : Put (CArray cap n β) := do
  let w ← mapVec f v.entries
  pure ⟨w, v.le_cap⟩

theorem Faithful.array {f : β → Put γ} (hf : ∀ b, Faithful (f b) g h) (v : CArray cap n β) :
    Faithful (mapArray f v) (pullArray cap g n) (CArray.map h) := by
  rw [pullArray, dif_pos v.le_cap]
  exact (Faithful.vec hf v.entries).map fun _ ↦ rfl

theorem Faithful.foldArray {f : γ → α → Put γ} {h : α → α} (c : γ) (v : CArray cap n α)
    (hf : ∀ c, ∀ a ∈ v.entries.toList, Faithful (f c a) g fun _ ↦ h a) :
    Faithful (Codec.foldVec f c v.entries) (pullArray cap g n) fun _ ↦ v.map h := by
  rw [pullArray, dif_pos v.le_cap]
  exact (Faithful.foldVec c v.entries hf).last fun _ ↦ rfl

theorem mapArray_keeps {f : α → Put β} {k : α → γ} {k' : β → γ} {v : CArray cap n α}
    {w : CArray cap n β} (hf : ∀ a b c b', f a b = some (c, b') → k' c = k a)
    (h : mapArray f v b = some (w, b')) : w.map k' = v.map k := by
  obtain ⟨u, c, hu, h⟩ := bind_eq_some h
  cases h
  have hlist := mapVec_keeps hf hu
  simp only [← List.Vector.toList_map] at hlist
  rw [CArray.map, CArray.map, List.Vector.eq _ _ hlist]

theorem Takes.array (hg : Takes g size) (n : ℕ) :
    Takes (pullArray cap g n) fun v ↦ (v.entries.toList.map size).sum := by
  intro l v r h
  rw [pullArray] at h
  split at h
  · obtain ⟨w, l₁, hw, h⟩ := bind_eq_some h
    cases h
    exact Takes.vec hg n hw
  · simp [fail] at h

theorem Faithful.array_self {f : β → Put α} (hf : ∀ b, Faithful (f b) g id) (v : CArray cap n β) :
    Faithful (mapArray f v) (pullArray cap g n) id := by
  have hid : (CArray.map id : CArray cap n α → CArray cap n α) = id := by
    funext w
    rw [CArray.map, List.Vector.map_id]
    rfl
  exact hid ▸ Faithful.array hf v

/-! ### Parts that may be absent -/

/-- A part that is there exactly if the flag is set. -/
inductive Optional (α : Type) : Bool → Type
  | absent : Optional α false
  | present (a : α) : Optional α true

/-- The part is written if it is there. -/
def pushOptional (f : α → Put Unit) : {b : Bool} → Optional α b → Put Unit
  | _, .absent => pure ()
  | _, .present a => f a

/-- The part is read if it is there. -/
def pullOptional (g : Get α) : (b : Bool) → Get (Optional α b)
  | false => pure .absent
  | true => do
    let a ← g
    pure (.present a)

theorem Carries.optional (hf : ∀ a, Carries (f a) g a) {b : Bool} (o : Optional α b) :
    Carries (pushOptional f o) (pullOptional g b) o := by
  cases o with
  | absent => exact .pure _
  | present a => exact (hf a).map _

end Codec
