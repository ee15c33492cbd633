import Mathlib.Data.List.Infix
import Mathlib.Data.List.Nodup
import Mathlib.Data.List.Perm.Subperm

/-!
# Lists of ids linked through an array

`NR_list_t` keeps a list of small ids as a head, a tail and an array of successors, -1 standing for
"none". The removal walks it with two pointers into the array, so the model has those pointers
(`Loc`) and the reads and writes through them. `NrList.Represents l xs` says that `l` is the list
`xs`; each operation is then one operation of `xs`.
-/

namespace OaiRan.Mac

open List

/-- The assertions of the list operations and of the HARQ code that uses them. -/
inductive Abort
  /-- `remove_nr_list`: the id is not in the list. -/
  | idNotFound
  /-- `remove_nr_list` walks in a circle: the C code would not return. -/
  | listLoops
  /-- `remove_front_nr_list` of an empty list. -/
  | nothingToRemove
  /-- `resize_nr_list`: an entry does not fit in the shortened list. -/
  | shortenedOutOfIndex
  /-- `create_dl_harq_list`: the three lists have different lengths. -/
  | lengthsDiffer
  /-- `create_dl_harq_list`, `create_ul_harq_list`: fewer processes than before. -/
  | cannotResizeSmaller
  /-- No HARQ process is available for a new transmission. -/
  | noFreeHarq
  /-- `DevAssert(!harq->is_waiting)` when a process is scheduled. -/
  | stillWaiting
  /-- `DevAssert(harq->is_waiting)` when feedback arrives. -/
  | notWaiting
  /-- `AssertFatal(harq->round < harq_round_max)` when a process is scheduled. -/
  | roundOutOfRange
  deriving DecidableEq, Repr

structure NrList where
  head : ℤ
  /-- The successor of each id below `len`. -/
  next : ℕ → ℤ
  tail : ℤ
  len : ℕ

/-- An `int *` into a list: `&list->head` or `&list->next[i]`. -/
inductive Loc
  | head
  | next (i : ℕ)
  deriving DecidableEq

namespace NrList

/-- What a pointer points to. -/
def get (l : NrList) : Loc → ℤ
  | .head => l.head
  | .next i => l.next i

/-- A write through a pointer. -/
def put (l : NrList) (p : Loc) (v : ℤ) : NrList :=
  match p with
  | .head => { l with head := v }
  | .next i => { l with next := Function.update l.next i v }

@[simp] theorem get_put (l : NrList) (p q : Loc) (v : ℤ) :
    (l.put p v).get q = if q = p then v else l.get q := by
  rcases p with - | i <;> rcases q with - | j <;> simp [get, put, Function.update_apply]

@[simp] theorem tail_put (l : NrList) (p : Loc) (v : ℤ) : (l.put p v).tail = l.tail := by
  cases p <;> rfl

@[simp] theorem len_put (l : NrList) (p : Loc) (v : ℤ) : (l.put p v).len = l.len := by
  cases p <;> rfl

/-- An assignment to `tail`. -/
def setTail (l : NrList) (t : ℤ) : NrList := { l with tail := t }

@[simp] theorem get_setTail (l : NrList) (t : ℤ) (p : Loc) : (l.setTail t).get p = l.get p := by
  cases p <;> rfl

@[simp] theorem tail_setTail (l : NrList) (t : ℤ) : (l.setTail t).tail = t := rfl

@[simp] theorem len_setTail (l : NrList) (t : ℤ) : (l.setTail t).len = l.len := rfl

end NrList

/-! ### The operations -/

def createNrList (len : ℕ) : NrList :=
  { head := -1, next := fun _ ↦ -1, tail := -1, len }

def resizeNrList (l : NrList) (newLen : ℕ) : Except Abort NrList :=
  if newLen = l.len then .ok l
  else if newLen > l.len then
    .ok { l with next := fun i ↦ if l.len ≤ i ∧ i < newLen then -1 else l.next i, len := newLen }
  else if l.head < newLen ∧ l.tail < newLen ∧ ∀ i < l.len, l.next i < newLen then
    .ok { l with len := newLen }
  else .error .shortenedOutOfIndex

/-- The loop of `remove_nr_list`: the pointers `prev` and `cur` it stops with. Each turn follows one
link, so a list of `len` ids ends it within `len + 1` turns. -/
def searchNrList (l : NrList) (id : ℕ) : ℕ → Loc → Loc → Option (Loc × Loc)
  | 0, _, _ => none
  | fuel + 1, prev, cur =>
    if l.get cur ≠ -1 ∧ l.get cur ≠ id then
      searchNrList l id fuel cur (.next (l.get cur).toNat)
    else some (prev, cur)

/-- The writes of `remove_nr_list` once the id is found. -/
def unlinkNrList (l : NrList) (prev cur : Loc) : NrList :=
  let next := Loc.next (l.get cur).toNat
  let l' := (l.put cur (l.get next)).put next (-1)
  l'.setTail (if l'.get prev ≥ 0 ∧ l'.get (.next (l'.get prev).toNat) ≥ 0 then l'.tail
    else l'.get prev)

def removeNrList (l : NrList) (id : ℕ) : Except Abort NrList :=
  match searchNrList l id (l.len + 1) .head .head with
  | none => .error .listLoops
  | some (prev, cur) =>
    if l.get cur = -1 then .error .idNotFound else .ok (unlinkNrList l prev cur)

def addTailNrList (l : NrList) (id : ℕ) : NrList :=
  let last := if l.tail < 0 then Loc.head else .next l.tail.toNat
  ((l.put last id).put (.next id) (-1)).setTail id

@[simp] theorem len_addTailNrList (l : NrList) (id : ℕ) : (addTailNrList l id).len = l.len := by
  simp [addTailNrList]

def removeFrontNrList (l : NrList) : Except Abort NrList :=
  if l.head < 0 then .error .nothingToRemove
  else
    let ohead := l.head.toNat
    let l' := (l.put .head (l.next ohead)).put (.next ohead) (-1)
    .ok (l'.setTail (if l'.head < 0 then -1 else l'.tail))

/-! ### The list an `NR_list_t` stands for -/

/-- The first id of a list, as `head` has it. -/
def firstId : List ℕ → ℤ
  | [] => -1
  | x :: _ => x

/-- The last id of a list, as `tail` has it. -/
def lastId : List ℕ → ℤ
  | [] => -1
  | x :: xs => if xs = [] then x else lastId xs

/-- The pointer reached from `p` by following the ids `xs`. -/
def Loc.after : Loc → List ℕ → Loc
  | p, [] => p
  | _, x :: xs => (Loc.next x).after xs

namespace NrList

/-- From `p`, the links lead through the ids `xs`. -/
def Path (l : NrList) : Loc → List ℕ → Prop
  | _, [] => True
  | p, x :: xs => l.get p = x ∧ l.Path (.next x) xs

/-- **`l` is the list `xs`**: the links lead from the head through `xs` and end there, and `tail` is
its last id. -/
structure Represents (l : NrList) (xs : List ℕ) : Prop where
  path : l.Path .head xs
  stop : l.get (Loc.head.after xs) = -1
  tail : l.tail = lastId xs
  nodup : xs.Nodup
  lt_len : ∀ x ∈ xs, x < l.len

instance decidablePath (l : NrList) : ∀ p xs, Decidable (l.Path p xs)
  | _, [] => inferInstanceAs (Decidable True)
  | p, x :: xs =>
    have := l.decidablePath (.next x) xs
    inferInstanceAs (Decidable (l.get p = x ∧ l.Path (.next x) xs))

instance (l : NrList) (xs : List ℕ) : Decidable (l.Represents xs) :=
  decidable_of_iff (l.Path .head xs ∧ l.get (Loc.head.after xs) = -1 ∧ l.tail = lastId xs ∧
      xs.Nodup ∧ ∀ x ∈ xs, x < l.len)
    ⟨fun ⟨h₁, h₂, h₃, h₄, h₅⟩ ↦ ⟨h₁, h₂, h₃, h₄, h₅⟩,
      fun ⟨h₁, h₂, h₃, h₄, h₅⟩ ↦ ⟨h₁, h₂, h₃, h₄, h₅⟩⟩

end NrList

theorem firstId_nonneg_iff : 0 ≤ firstId xs ↔ xs ≠ [] := by
  cases xs <;> simp [firstId]

theorem lastId_append_singleton (xs : List ℕ) (x : ℕ) : lastId (xs ++ [x]) = x := by
  induction xs with
  | nil => simp [lastId]
  | cons y ys ih => simp [lastId, ih]

theorem lastId_append (h : ys ≠ []) : lastId (xs ++ ys) = lastId ys := by
  induction xs with
  | nil => rfl
  | cons x xs ih => simp [lastId, h, ih]

theorem Loc.after_append (p : Loc) (xs ys : List ℕ) :
    p.after (xs ++ ys) = (p.after xs).after ys := by
  induction xs generalizing p with
  | nil => rfl
  | cons x xs ih => exact ih _

theorem Loc.after_append_singleton (p : Loc) (xs : List ℕ) (x : ℕ) :
    p.after (xs ++ [x]) = .next x := by
  rw [Loc.after_append]; rfl

/-- Where a walk ends is where it began or the link of an id it went through. -/
theorem Loc.after_mem (p : Loc)
    (xs : List ℕ) : p.after xs = p ∨ ∃ x ∈ xs, p.after xs = .next x := by
  rcases eq_nil_or_concat xs with rfl | ⟨ys, y, rfl⟩
  · exact .inl rfl
  · exact .inr ⟨y, by simp, by rw [concat_eq_append, Loc.after_append_singleton]⟩

/-- `&list->next[list->tail]`, or `&list->head` for the empty list, is the end of the walk. -/
theorem Loc.after_head (xs : List ℕ) :
    Loc.head.after xs = if lastId xs < 0 then Loc.head else .next (lastId xs).toNat := by
  rcases eq_nil_or_concat xs with rfl | ⟨ys, y, rfl⟩
  · rfl
  · rw [concat_eq_append, Loc.after_append_singleton, lastId_append_singleton,
      if_neg (by omega), Int.toNat_natCast]

namespace NrList

variable {l : NrList} {p q : Loc} {xs ys : List ℕ} {x id : ℕ} {v : ℤ}

variable {post pre zs : List ℕ}

theorem path_append : l.Path p (xs ++ ys) ↔ l.Path p xs ∧ l.Path (p.after xs) ys := by
  induction xs generalizing p with
  | nil => simp [Path, Loc.after]
  | cons x xs ih => simp [Path, Loc.after, ih, and_assoc]

/-- A walk reads its first pointer and the links of all its ids but the last. -/
theorem Path.congr {l' : NrList} (h : l.Path p xs) (hp : xs ≠ [] → l'.get q = l.get p)
    (hnext : ∀ x ∈ xs.dropLast, l'.get (.next x) = l.get (.next x)) : l'.Path q xs := by
  induction xs generalizing p q with
  | nil => trivial
  | cons x xs ih =>
    refine ⟨(hp (by simp)).trans h.1, ih h.2 (fun hne ↦ hnext x ?_) fun y hy ↦ hnext y ?_⟩
    · simp [dropLast_cons_of_ne_nil hne]
    · rw [dropLast_cons_of_ne_nil (by rintro rfl; simp at hy)]
      exact mem_cons_of_mem _ hy

/-- The pointer a walk ends at is not read by it. -/
theorem Path.put_after (h : l.Path .head xs) (hxs : xs.Nodup) :
    (l.put (Loc.head.after xs) v).Path .head xs := by
  rcases eq_nil_or_concat xs with rfl | ⟨ys, y, rfl⟩
  · trivial
  rw [concat_eq_append] at h hxs ⊢
  rw [Loc.after_append_singleton]
  refine h.congr (fun _ ↦ by simp) fun x hx ↦ ?_
  rw [dropLast_concat] at hx
  have hne : x ≠ y := (nodup_append.1 hxs).2.2 x hx y (by simp)
  simp [hne]

theorem Path.put_next (h : l.Path p xs) (hp : p ≠ .next id) (hid : id ∉ xs) :
    (l.put (.next id) v).Path p xs := by
  refine h.congr (fun _ ↦ by simp [hp]) fun x hx ↦ ?_
  have hne : x ≠ id := fun heq ↦ hid (heq ▸ mem_of_mem_dropLast hx)
  simp [hne]

theorem Path.setTail (h : l.Path p xs) (t : ℤ) : (l.setTail t).Path p xs :=
  h.congr (fun _ ↦ by simp) fun _ _ ↦ by simp

theorem Loc.head_after_ne (hid : id ∉ xs) : Loc.head.after xs ≠ .next id := by
  rcases Loc.head.after_mem xs with heq | ⟨x, hx, heq⟩ <;> rw [heq]
  · exact nofun
  · rintro ⟨⟩
    exact hid hx

/-- What the first pointer of a whole walk points to. -/
theorem Path.get_eq (h : l.Path p xs) (hstop : l.get (p.after xs) = -1) : l.get p = firstId xs := by
  cases xs with
  | nil => exact hstop
  | cons x xs => exact h.1

theorem Represents.head_eq (h : l.Represents xs) : l.head = firstId xs :=
  h.path.get_eq h.stop

/-- The links from a pointer determine the list. -/
theorem Path.eq_of_stop (h : l.Path p xs) (hstop : l.get (p.after xs) = -1) (h' : l.Path p ys)
    (hstop' : l.get (p.after ys) = -1) : xs = ys := by
  induction xs generalizing p ys with
  | nil =>
    rcases ys with - | ⟨y, ys⟩
    · rfl
    · have hy : l.get p = y := h'.1
      have hp : l.get p = -1 := hstop
      omega
  | cons x xs ih =>
    rcases ys with - | ⟨y, ys⟩
    · have hx : l.get p = x := h.1
      have hp : l.get p = -1 := hstop'
      omega
    · obtain rfl : x = y := Int.natCast_inj.1 (h.1.symm.trans h'.1)
      rw [ih h.2 hstop h'.2 hstop']

theorem Represents.unique (h : l.Represents xs) (h' : l.Represents ys) : xs = ys :=
  h.path.eq_of_stop h.stop h'.path h'.stop

/-- The ids are fewer than the array has entries. -/
theorem Represents.length_le (h : l.Represents xs) : xs.length ≤ l.len := by
  have := (subperm_of_subset h.nodup fun x hx ↦ mem_range.2 (h.lt_len x hx)).length_le
  rwa [length_range] at this

theorem createNrList_represents (n : ℕ) : (createNrList n).Represents [] :=
  ⟨trivial, rfl, rfl, nodup_nil, by simp⟩

/-- A longer array keeps the list. -/
theorem Represents.resizeNrList {newLen : ℕ} (h : l.Represents xs) (hle : l.len ≤ newLen) :
    ∃ l', resizeNrList l newLen = .ok l' ∧ l'.Represents xs ∧ l'.len = newLen := by
  rw [Mac.resizeNrList]
  by_cases heq : newLen = l.len
  · exact ⟨l, if_pos heq, h, heq.symm⟩
  rw [if_neg heq, if_pos (by omega)]
  have hget : ∀ x < l.len, (if l.len ≤ x ∧ x < newLen then -1 else l.next x) = l.next x :=
    fun x hx ↦ if_neg (by omega)
  refine ⟨_, rfl, ⟨h.path.congr (fun _ ↦ rfl) fun x hx ↦ ?_, ?_, h.tail, h.nodup, fun x hx ↦ ?_⟩,
    rfl⟩
  · exact hget x (h.lt_len x (mem_of_mem_dropLast hx))
  · have hstop := h.stop
    rcases Loc.head.after_mem xs with heq | ⟨x, hx, heq⟩ <;> rw [heq] at hstop ⊢
    · exact hstop
    · exact (hget x (h.lt_len x hx)).trans hstop
  · exact lt_of_lt_of_le (h.lt_len x hx) hle

theorem Represents.addTailNrList (h : l.Represents xs) (hid : id ∉ xs) (hlt : id < l.len) :
    (addTailNrList l id).Represents (xs ++ [id]) := by
  have hlast : (if l.tail < 0 then Loc.head else .next l.tail.toNat) = Loc.head.after xs := by
    rw [h.tail, Loc.after_head]
  have hne := Loc.head_after_ne hid
  rw [Mac.addTailNrList, hlast]
  refine ⟨path_append.2 ⟨?_, ?_, trivial⟩, ?_, ?_, ?_, ?_⟩
  · exact ((h.path.put_after h.nodup).put_next nofun hid).setTail _
  · simp [hne]
  · simp [Loc.after_append_singleton]
  · exact (lastId_append_singleton xs id).symm
  · exact nodup_append.2 ⟨h.nodup, by simp, by rintro x hx y hy rfl; simp_all⟩
  · simp only [mem_append, mem_singleton]
    rintro x (hx | rfl)
    · simpa using h.lt_len x hx
    · simpa using hlt

/-! ### Removal -/

/-- The pointers after a removal: the one that led to `id` leads on. -/
theorem Represents.unlink (h : l.Represents (pre ++ id :: post)) (t : ℤ)
    (ht : t = lastId (pre ++ post)) :
    (((l.put (Loc.head.after pre) (l.get (.next id))).put (.next id) (-1)).setTail t).Represents
      (pre ++ post) := by
  obtain ⟨hpre, hid, hpost⟩ := path_append.1 h.path
  have hnodup := h.nodup
  have hdis : ∀ x ∈ pre, ∀ y ∈ id :: post, x ≠ y := (nodup_append.1 hnodup).2.2
  have hnpre : pre.Nodup := (nodup_append.1 hnodup).1
  have hidpre : id ∉ pre := fun hx ↦ hdis id hx id (by simp) rfl
  have hidpost : id ∉ post := (nodup_cons.1 (nodup_append.1 hnodup).2.1).1
  have hne := Loc.head_after_ne hidpre
  have hstop : l.get ((Loc.next id).after post) = -1 := by
    have := h.stop
    rwa [Loc.after_append] at this
  -- no link of an id behind `id` is the pointer that led to `id`
  have hafter : ∀ y ∈ post, Loc.next y ≠ Loc.head.after pre := fun y hy heq ↦
    Loc.head_after_ne (fun hmem ↦ hdis y hmem y (mem_cons_of_mem _ hy) rfl) heq.symm
  refine ⟨path_append.2 ⟨?_, ?_⟩, ?_, ht, ?_, ?_⟩
  · exact ((hpre.put_after hnpre).put_next nofun hidpre).setTail _
  · refine hpost.congr (fun _ ↦ by simp [hne]) fun x hx ↦ ?_
    have hx := mem_of_mem_dropLast hx
    have hxid : x ≠ id := fun heq ↦ hidpost (heq ▸ hx)
    simp [hxid, hafter x hx]
  · rw [Loc.after_append]
    rcases eq_nil_or_concat post with rfl | ⟨ys, y, rfl⟩
    · simp [Loc.after, hne]
      exact hstop
    · rw [concat_eq_append, Loc.after_append_singleton] at hstop ⊢
      have hy := hafter y (by simp)
      have hyid : y ≠ id := by rintro rfl; simp at hidpost
      simp [hy, hyid, hstop]
  · exact hnodup.sublist ((List.Sublist.refl pre).append (sublist_cons_self id post))
  · intro x hx
    simpa using h.lt_len x (by simp at hx ⊢; tauto)

theorem searchNrList_eq {prev cur : Loc}
    (h : l.Path cur (pre ++ id :: post)) (hid : id ∉ pre) (hfuel : pre.length < fuel) :
    searchNrList l id fuel prev cur =
      some (if pre = [] then prev else cur.after pre.dropLast, cur.after pre) := by
  induction pre generalizing fuel prev cur with
  | nil =>
    obtain ⟨fuel, rfl⟩ : ∃ n, fuel = n + 1 := ⟨fuel - 1, by simp at hfuel; omega⟩
    rw [searchNrList, if_neg (by simp [h.1])]
    rfl
  | cons x pre ih =>
    obtain ⟨fuel, rfl⟩ : ∃ n, fuel = n + 1 := ⟨fuel - 1, by simp at hfuel; omega⟩
    have hx : l.get cur = x := h.1
    have hne : (x : ℤ) ≠ id := by simp at hid; omega
    rw [searchNrList, hx, if_pos ⟨by omega, hne⟩, Int.toNat_natCast,
      ih h.2 (by simp at hid; tauto) (by simpa using hfuel)]
    by_cases hpre : pre = []
    · simp [hpre, Loc.after]
    · simp [hpre, Loc.after, dropLast_cons_of_ne_nil hpre]

/-- The new `tail` that `remove_nr_list` finds through the pointer it keeps one step behind: with
nothing or one id behind that pointer, what it points to. -/
theorem Represents.tail_through (h : l.Represents (xs ++ zs))
    (hzs : zs = [] → xs = []) (ht : zs.tail ≠ [] → t = lastId zs) :
    (if l.get (Loc.head.after xs) ≥ 0 ∧ l.get (.next (l.get (Loc.head.after xs)).toNat) ≥ 0 then t
      else l.get (Loc.head.after xs)) = lastId (xs ++ zs) := by
  have hpath := (path_append.1 h.path).2
  have hstop := h.stop
  rw [Loc.after_append] at hstop
  rw [hpath.get_eq hstop]
  rcases zs with - | ⟨z, zs⟩
  · simp [hzs rfl, firstId, lastId]
  have hnext : l.get (.next z) = firstId zs := hpath.2.get_eq hstop
  rw [firstId, Int.toNat_natCast, hnext, lastId_append (by simp)]
  by_cases hnil : zs = []
  · simp [hnil, firstId, lastId]
  · rw [if_pos ⟨by omega, firstId_nonneg_iff.2 hnil⟩, ht hnil]

/-- **`remove_nr_list` removes the id**, wherever it stands in the list. -/
theorem Represents.removeNrList (h : l.Represents (pre ++ id :: post)) :
    ∃ l', removeNrList l id = .ok l' ∧ l'.Represents (pre ++ post) ∧ l'.len = l.len := by
  have hidpre : id ∉ pre := fun hx ↦ (nodup_append.1 h.nodup).2.2 id hx id (by simp) rfl
  have hlen : pre.length < l.len + 1 := by
    have := h.length_le
    simp only [length_append, length_cons] at this
    omega
  have hid : l.get (Loc.head.after pre) = id := (path_append.1 h.path).2.1
  rw [Mac.removeNrList, searchNrList_eq h.path hidpre hlen]
  simp only [hid]
  rw [if_neg (by omega)]
  refine ⟨_, rfl, ?_, by simp [unlinkNrList]⟩
  rw [unlinkNrList, hid, Int.toNat_natCast]
  refine h.unlink _ ?_
  have hrep := h.unlink _ rfl
  have htail : post ≠ [] → l.tail = lastId post := fun hpost ↦ by
    rw [h.tail, lastId_append (by simp), lastId, if_neg hpost]
  simp only [tail_put]
  generalize (l.put (Loc.head.after pre) (l.get (.next id))).put (.next id) (-1) = l' at hrep ⊢
  -- the pointer one step behind leads to the last id before the removed one
  rcases eq_nil_or_concat pre with rfl | ⟨ps, w, rfl⟩
  · have := hrep.tail_through (fun _ ↦ rfl) (t := l.tail) fun hne ↦
      htail fun hnil ↦ hne (by rw [hnil]; rfl)
    simpa only [get_setTail, Loc.after, if_true] using this
  · rw [concat_eq_append, append_assoc] at hrep ⊢
    have := hrep.tail_through nofun (t := l.tail) fun (hne : post ≠ []) ↦ by
      rw [htail hne, singleton_append, lastId, if_neg hne]
    simpa only [get_setTail, append_eq_nil_iff, reduceCtorEq, and_false, if_false,
      dropLast_concat] using this

theorem Represents.removeNrList_head (h : l.Represents (id :: xs)) :
    ∃ l', Mac.removeNrList l id = .ok l' ∧ l'.Represents xs ∧ l'.len = l.len := by
  have h : l.Represents ([] ++ id :: xs) := h
  exact h.removeNrList

theorem Represents.removeFrontNrList (h : l.Represents (x :: xs)) :
    ∃ l', removeFrontNrList l = .ok l' ∧ l'.Represents xs ∧ l'.len = l.len := by
  have hhead : l.head = x := h.head_eq
  have h : l.Represents ([] ++ x :: xs) := h
  have hrep := h.unlink _ rfl
  rw [Mac.removeFrontNrList, hhead, if_neg (by omega), Int.toNat_natCast]
  refine ⟨_, rfl, h.unlink _ ?_, by simp⟩
  have hfirst : ((l.put .head (l.next x)).put (.next x) (-1)).head = firstId xs := hrep.head_eq
  rw [hfirst, tail_put, tail_put, h.tail, nil_append, nil_append]
  cases xs with
  | nil => rfl
  | cons y ys => rw [firstId, if_neg (by omega), lastId, if_neg (by simp)]

end NrList

end OaiRan.Mac
