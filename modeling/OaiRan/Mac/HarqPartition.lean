import OaiRan.Lib.ExceptPost
import OaiRan.Mac.Harq

/-!
# No HARQ process is lost or listed twice

In each direction the three lists share out the configured processes, and the flags and rounds of a
process agree with the list it is in (`HarqLists.Sorted`). Between two lists a process is *held*: it
is in none, and its fields may be set freely; `Sorted` has the held ones as an argument, so that
taking a process, setting its fields and listing it again are three lemmas that every call site
uses.
-/

namespace OaiRan.Mac

open List

/-- The lists of one direction hold `av`, `fb` and `re`; with the processes in `held`, these are all
processes. -/
structure HarqLists.Sorted (h : HarqLists) (roundMax : ℕ) (held av fb re : List ℕ) : Prop where
  available : h.available.Represents av
  feedback : h.feedback.Represents fb
  retrans : h.retrans.Represents re
  feedback_len : h.feedback.len = h.available.len
  retrans_len : h.retrans.len = h.available.len
  len_le : h.available.len ≤ nrMaxHarqProcesses
  perm : (held ++ (av ++ (fb ++ re))).Perm (range h.available.len)
  waiting : ∀ pid ∉ held, ((h.processes pid).isWaiting = true ↔ pid ∈ fb)
  available_round : ∀ pid ∈ av, (h.processes pid).round = 0
  feedback_round : ∀ pid ∈ fb, (h.processes pid).round < max 1 roundMax
  retrans_round : ∀ pid ∈ re, 1 ≤ (h.processes pid).round ∧ (h.processes pid).round < roundMax
  fresh_round : ∀ pid, h.available.len ≤ pid → (h.processes pid).round = 0

/-- The assertions that a run may fail: too few processes are free, the configuration allows no
round at all, or it takes processes away. -/
def Abort.IsConfiguration (a : Abort) : Prop :=
  a = .noFreeHarq ∨ a = .roundOutOfRange ∨ a = .cannotResizeSmaller

namespace HarqLists.Sorted

variable {h : HarqLists} {roundMax pid : ℕ} {held av fb re : List ℕ} {p : HarqProcess}

theorem nodup (hs : h.Sorted roundMax held av fb re) : (held ++ (av ++ (fb ++ re))).Nodup :=
  hs.perm.nodup_iff.2 nodup_range

/-- A held process is in no list. -/
theorem not_mem_of_held (hs : h.Sorted roundMax [pid] av fb re) :
    pid ∉ av ∧ pid ∉ fb ∧ pid ∉ re := by
  have := (nodup_cons.1 hs.nodup).1
  simpa using this

theorem held_lt (hs : h.Sorted roundMax [pid] av fb re) : pid < h.available.len :=
  mem_range.1 (hs.perm.subset (by simp))

theorem not_waiting (hs : h.Sorted roundMax [] av fb re) (hpid : pid ∉ fb) :
    (h.processes pid).isWaiting = false := by
  rw [← Bool.not_eq_true]
  exact (hs.waiting pid not_mem_nil).not.2 hpid

/-! ### Out of a list -/

variable {l : NrList} {av re : List ℕ} {fuel n roundMax : ℕ}

theorem take_available (hs : h.Sorted roundMax [] (pid :: av) fb re) (hl : l.Represents av)
    (hlen : l.len = h.available.len) :
    ({ h with available := l } : HarqLists).Sorted roundMax [pid] av fb re :=
  { hs with
    available := hl
    feedback_len := hs.feedback_len.trans hlen.symm
    retrans_len := hs.retrans_len.trans hlen.symm
    len_le := hlen.le.trans hs.len_le
    perm := hlen ▸ hs.perm
    waiting := fun q _ ↦ hs.waiting q (by simp)
    available_round := fun q hq ↦ hs.available_round q (by simp [hq])
    fresh_round := fun q hq ↦ hs.fresh_round q (hlen ▸ hq) }

theorem take_feedback (hs : h.Sorted roundMax [] av (pid :: fb) re) (hl : l.Represents fb)
    (hlen : l.len = h.feedback.len) :
    ({ h with feedback := l } : HarqLists).Sorted roundMax [pid] av fb re :=
  { hs with
    feedback := hl
    feedback_len := hlen.trans hs.feedback_len
    perm := .trans (by simpa using perm_middle.symm) hs.perm
    waiting := fun q hq ↦ by
      rw [hs.waiting q (by simp)]
      simp only [mem_singleton] at hq
      simp [hq]
    feedback_round := fun q hq ↦ hs.feedback_round q (by simp [hq]) }

theorem take_retrans (hs : h.Sorted roundMax [] av fb (pid :: re)) (hl : l.Represents re)
    (hlen : l.len = h.retrans.len) :
    ({ h with retrans := l } : HarqLists).Sorted roundMax [pid] av fb re :=
  { hs with
    retrans := hl
    retrans_len := hlen.trans hs.retrans_len
    perm := .trans (by simpa using (perm_middle : (av ++ fb ++ pid :: re).Perm _).symm) hs.perm
    waiting := fun q _ ↦ hs.waiting q (by simp)
    retrans_round := fun q hq ↦ hs.retrans_round q (by simp [hq]) }

/-! ### Between the lists -/

section

variable (hs : h.Sorted roundMax [pid] av fb re)
include hs

theorem setProcess (p : HarqProcess) : (h.setProcess pid p).Sorted roundMax [pid] av fb re := by
  obtain ⟨hav, hfb, hre⟩ := hs.not_mem_of_held
  have hlt := hs.held_lt
  have hset : ∀ q ≠ pid, h.processes q = (h.setProcess pid p).processes q :=
    fun q hq ↦ (Function.update_of_ne hq _ _).symm
  exact { hs with
    waiting := fun q hq ↦ hset q (by simpa using hq) ▸ hs.waiting q hq
    available_round := fun q hq ↦
      hset q (ne_of_mem_of_not_mem hq hav) ▸ hs.available_round q hq
    feedback_round := fun q hq ↦ hset q (ne_of_mem_of_not_mem hq hfb) ▸ hs.feedback_round q hq
    retrans_round := fun q hq ↦ hset q (ne_of_mem_of_not_mem hq hre) ▸ hs.retrans_round q hq
    fresh_round := fun q hq ↦ hset q (hlt.trans_le hq).ne' ▸ hs.fresh_round q hq }

/-! ### Into a list -/

/-- The flag of a process that is listed again says whether it waits. -/
theorem waiting_of_held {fb' : List ℕ}
    (hpid : (h.processes pid).isWaiting = true ↔ pid ∈ fb') (hfb : ∀ q ≠ pid, q ∈ fb ↔ q ∈ fb')
    (q : ℕ) : (h.processes q).isWaiting = true ↔ q ∈ fb' := by
  by_cases hq : q = pid
  · rwa [hq]
  · rw [hs.waiting q (by simpa using hq), hfb q hq]

theorem perm_of_held {xs : List ℕ} (hxs : ∀ a, xs.count a = ([pid] ++ (av ++ (fb ++ re))).count a) :
    xs.Perm (range h.available.len) :=
  (perm_iff_count.2 hxs).trans hs.perm

theorem put_available
    (hwait : (h.processes pid).isWaiting = false) (hround : (h.processes pid).round = 0) :
    ({ h with available := addTailNrList h.available pid } : HarqLists).Sorted roundMax []
      (av ++ [pid]) fb re :=
  { hs with
    available := hs.available.addTailNrList hs.not_mem_of_held.1 hs.held_lt
    feedback_len := hs.feedback_len.trans (len_addTailNrList ..).symm
    retrans_len := hs.retrans_len.trans (len_addTailNrList ..).symm
    len_le := (len_addTailNrList ..).trans_le hs.len_le
    perm := by
      rw [len_addTailNrList]
      refine hs.perm_of_held fun a ↦ ?_
      simp only [count_append, count_nil]
      omega
    waiting := fun q _ ↦
      hs.waiting_of_held (by simp [hwait, hs.not_mem_of_held]) (fun _ _ ↦ .rfl) q
    available_round :=
      forall_mem_append.2 ⟨hs.available_round, forall_mem_singleton.2 hround⟩
    fresh_round := fun q hq ↦ hs.fresh_round q (by simpa using hq) }

theorem put_feedback (hwait : (h.processes pid).isWaiting = true)
    (hround : (h.processes pid).round < max 1 roundMax) :
    ({ h with feedback := addTailNrList h.feedback pid } : HarqLists).Sorted roundMax []
      av (fb ++ [pid]) re :=
  { hs with
    feedback := hs.feedback.addTailNrList hs.not_mem_of_held.2.1 (hs.feedback_len ▸ hs.held_lt)
    feedback_len := (len_addTailNrList ..).trans hs.feedback_len
    perm := by
      refine hs.perm_of_held fun a ↦ ?_
      simp only [count_append, count_nil]
      omega
    waiting := fun q _ ↦ hs.waiting_of_held (by simp [hwait]) (fun q hq ↦ by simp [hq]) q
    feedback_round :=
      forall_mem_append.2 ⟨hs.feedback_round, forall_mem_singleton.2 hround⟩ }

theorem put_retrans (hwait : (h.processes pid).isWaiting = false)
    (hround : 1 ≤ (h.processes pid).round ∧ (h.processes pid).round < roundMax) :
    ({ h with retrans := addTailNrList h.retrans pid } : HarqLists).Sorted roundMax []
      av fb (re ++ [pid]) :=
  { hs with
    retrans := hs.retrans.addTailNrList hs.not_mem_of_held.2.2 (hs.retrans_len ▸ hs.held_lt)
    retrans_len := (len_addTailNrList ..).trans hs.retrans_len
    perm := by
      refine hs.perm_of_held fun a ↦ ?_
      simp only [count_append, count_nil]
      omega
    waiting := fun q _ ↦
      hs.waiting_of_held (by simp [hwait, hs.not_mem_of_held]) (fun _ _ ↦ .rfl) q
    retrans_round :=
      forall_mem_append.2 ⟨hs.retrans_round, forall_mem_singleton.2 hround⟩ }

end

end HarqLists.Sorted

/-! ### The operations on one direction -/

/-- The processes are shared out, and those in `fb` wait for feedback, in this order. -/
def HarqLists.Awaits (h : HarqLists) (roundMax : ℕ) (fb : List ℕ) : Prop :=
  ∃ av re, h.Sorted roundMax [] av fb re

/-- Process `pid` is in no list, the others are shared out. -/
def HarqLists.Holding (h : HarqLists) (roundMax pid : ℕ) (fb : List ℕ) : Prop :=
  ∃ av re, h.Sorted roundMax [pid] av fb re

/-- The lists share out the processes. -/
def HarqLists.Partitioned (h : HarqLists) (roundMax : ℕ) : Prop :=
  ∃ fb, h.Awaits roundMax fb

namespace HarqLists

variable {h : HarqLists} {roundMax pid : ℕ} {fb : List ℕ} {p : HarqProcess}

@[simp] theorem setProcess_self : (h.setProcess pid p).processes pid = p :=
  Function.update_self _ _ _

section

variable (hs : h.Holding roundMax pid fb)
include hs

theorem Holding.setProcess (p : HarqProcess) : (h.setProcess pid p).Holding roundMax pid fb := by
  obtain ⟨av, re, hs⟩ := hs
  exact ⟨av, re, hs.setProcess p⟩

theorem Holding.finish
    (hwait : (h.processes pid).isWaiting = false) : (h.finish pid).Awaits roundMax fb := by
  obtain ⟨av, re, hs⟩ := hs
  exact ⟨_, _, (hs.setProcess _).put_available (by simpa using hwait) (by simp)⟩

theorem Holding.retransmit (hmax : roundMax < 2 ^ 8) (hwait : (h.processes pid).isWaiting = false)
    (hround : (h.processes pid).round + 1 < roundMax) : (h.retransmit pid).Awaits roundMax fb := by
  obtain ⟨av, re, hs⟩ := hs
  refine ⟨_, _, (hs.setProcess _).put_retrans (by simpa using hwait) ?_⟩
  rw [setProcess_self]
  dsimp only
  omega

theorem Holding.awaitFeedback (hround : p.round < max 1 roundMax) :
    (h.awaitFeedback pid p).Awaits roundMax (fb ++ [pid]) := by
  obtain ⟨av, re, hs⟩ := hs
  exact ⟨_, _, (hs.setProcess _).put_feedback (by simp) (by simpa using hround)⟩

end

theorem Awaits.head_eq (hs : h.Awaits roundMax fb) : h.feedback.head = firstId fb := by
  obtain ⟨av, re, hs⟩ := hs
  exact hs.feedback.head_eq

theorem Awaits.length_le (hs : h.Awaits roundMax fb) : fb.length ≤ h.feedback.len := by
  obtain ⟨av, re, hs⟩ := hs
  exact hs.feedback.length_le

theorem Awaits.isWaiting (hs : h.Awaits roundMax fb) (hpid : pid ∈ fb) :
    (h.processes pid).isWaiting = true := by
  obtain ⟨av, re, hs⟩ := hs
  exact (hs.waiting pid (by simp)).2 hpid

/-- Feedback is for the process at the head of the feedback list. -/
theorem Awaits.popFeedback (hs : h.Awaits roundMax (pid :: fb)) :
    ∃ h', h.popFeedback = .ok h' ∧ h'.Holding roundMax pid fb ∧ h'.processes = h.processes := by
  obtain ⟨av, re, hs⟩ := hs
  obtain ⟨l, hl, hrep, hlen⟩ := hs.feedback.removeFrontNrList
  rw [HarqLists.popFeedback, hl]
  exact ⟨_, rfl, ⟨_, _, hs.take_feedback hrep hlen⟩, rfl⟩

/-- A process out of the available list or the retransmission list, on its way to be scheduled. -/
structure Taken (r : HarqLists × ℕ) (roundMax : ℕ) : Prop where
  holding : ∃ fb, r.1.Holding roundMax r.2 fb
  not_waiting : (r.1.processes r.2).isWaiting = false
  round_lt : (r.1.processes r.2).round < max 1 roundMax

theorem Sorted.taken_available (hs : h.Sorted roundMax [] (pid :: av) fb re)
    (hl : l.Represents av) (hlen : l.len = h.available.len) :
    Taken ({ h with available := l }, pid) roundMax where
  holding := ⟨fb, _, _, hs.take_available hl hlen⟩
  not_waiting := hs.not_waiting (hs.take_available hl hlen).not_mem_of_held.2.1
  round_lt := by
    have : (h.processes pid).round = 0 := hs.available_round pid (by simp)
    simp [this]

theorem Sorted.taken_retrans (hs : h.Sorted roundMax [] av fb (pid :: re))
    (hl : l.Represents re) (hlen : l.len = h.retrans.len) :
    Taken ({ h with retrans := l }, pid) roundMax where
  holding := ⟨fb, _, _, hs.take_retrans hl hlen⟩
  not_waiting := hs.not_waiting (hs.take_retrans hl hlen).not_mem_of_held.2.1
  round_lt := lt_max_of_lt_right (hs.retrans_round pid (by simp)).2

/-- Without a choice of the preprocessor, the first available process. -/
theorem Sorted.takeProcess_neg (hs : h.Sorted roundMax [] av fb re) :
    (h.takeProcess (-1)).Post Abort.IsConfiguration fun r ↦ Taken r roundMax := by
  rw [HarqLists.takeProcess, if_pos (by decide), hs.available.head_eq]
  rcases av with - | ⟨pid, av⟩
  · exact .inl rfl
  · obtain ⟨l, hl, hrep, hlen⟩ := hs.available.removeFrontNrList
    rw [firstId, if_pos (by omega), hl, Int.toNat_natCast]
    exact hs.taken_available hrep hlen

/-- **The scheduler finds the process it was given** in the list that its round says, and the
process does not wait for feedback. -/
theorem Partitioned.takeProcess (hs : h.Partitioned roundMax) (pick : HarqPick) :
    (h.takeProcess (h.pick pick)).Post Abort.IsConfiguration fun r ↦ Taken r roundMax := by
  obtain ⟨fb, av, re, hs⟩ := hs
  cases pick with
  | newData =>
    rw [HarqLists.pick, hs.available.head_eq]
    rcases av with - | ⟨pid, av⟩
    · exact hs.takeProcess_neg
    · obtain ⟨l, hl, hrep, hlen⟩ := hs.available.removeNrList_head
      have hround : (h.processes pid).round = 0 := hs.available_round pid (by simp)
      rw [firstId, HarqLists.takeProcess, if_neg (by omega), Int.toNat_natCast, if_pos hround, hl]
      exact hs.taken_available hrep hlen
  | retransmission =>
    rw [HarqLists.pick, hs.retrans.head_eq]
    rcases re with - | ⟨pid, re⟩
    · exact hs.takeProcess_neg
    · obtain ⟨l, hl, hrep, hlen⟩ := hs.retrans.removeNrList_head
      have hround : (h.processes pid).round ≠ 0 := by
        have := (hs.retrans_round pid (by simp)).1
        omega
      rw [firstId, HarqLists.takeProcess, if_neg (by omega), Int.toNat_natCast, if_neg hround, hl]
      exact hs.taken_retrans hrep hlen

/-! ### Resets and configuration -/

theorem foldl_addTailNrList {xs ys : List ℕ} (hl : l.Represents xs) (hnodup : (xs ++ ys).Nodup)
    (hlt : ∀ y ∈ ys, y < l.len) :
    (ys.foldl addTailNrList l).Represents (xs ++ ys) ∧ (ys.foldl addTailNrList l).len = l.len := by
  induction ys generalizing l xs with
  | nil => simpa using hl
  | cons y ys ih =>
    have hy : y ∉ xs := fun hmem ↦ (nodup_append.1 hnodup).2.2 y hmem y (by simp) rfl
    have := ih (hl.addTailNrList hy (hlt y (by simp))) (by simpa using hnodup)
      fun z hz ↦ by simpa using hlt z (by simp [hz])
    simpa using this

theorem drainTo_eq (ha : a.Represents xs) (hl : l.Represents ys)
    (hnodup : (xs ++ ys).Nodup) (hlen : l.len = a.len) (hfuel : ys.length < fuel) :
    ∃ a' l', drainTo a fuel l = .ok (a', l') ∧ a'.Represents (xs ++ ys) ∧ l'.Represents [] ∧
      a'.len = a.len ∧ l'.len = l.len := by
  induction ys generalizing a l xs fuel with
  | nil =>
    obtain ⟨fuel, rfl⟩ : ∃ n, fuel = n + 1 := ⟨fuel - 1, by omega⟩
    have hhead : l.head = -1 := hl.head_eq
    rw [drainTo, hhead, if_neg (by decide)]
    exact ⟨a, l, rfl, by simpa using ha, hl, rfl, rfl⟩
  | cons y ys ih =>
    obtain ⟨fuel, rfl⟩ : ∃ n, fuel = n + 1 := ⟨fuel - 1, by simp at hfuel; omega⟩
    have hy : y ∉ xs := fun hmem ↦ (nodup_append.1 hnodup).2.2 y hmem y (by simp) rfl
    have hylt : y < a.len := hlen ▸ hl.lt_len y (by simp)
    obtain ⟨l', hl', hrep, hlen'⟩ := hl.removeFrontNrList
    have hhead : l.head = y := hl.head_eq
    rw [drainTo, hhead, if_pos (by omega), hl', Int.toNat_natCast]
    obtain ⟨a'', l'', heq, h₁, h₂, h₃, h₄⟩ := ih (ha.addTailNrList hy hylt) hrep
      (by simpa using hnodup) (by simp [hlen', hlen]) (by simpa using hfuel)
    exact ⟨a'', l'', heq, by simpa using h₁, h₂, by simpa using h₃, h₄.trans hlen'⟩

/-- A process that does not exist has never been used. -/
theorem Sorted.unused (hs : h.Sorted roundMax [] av fb re) (hle : h.available.len ≤ q) :
    (h.processes q).isWaiting = false ∧ (h.processes q).round = 0 := by
  have hfb : q ∉ fb := fun hmem ↦ by
    have := hs.feedback.lt_len q hmem
    rw [hs.feedback_len] at this
    omega
  exact ⟨hs.not_waiting hfb, hs.fresh_round q hle⟩

/-- The fields that a reset leaves in a process. -/
theorem Sorted.reset_processes (hs : h.Sorted roundMax [] av fb re) (q : ℕ)
    (hp : p = if q < nrMaxHarqProcesses then
      { h.processes q with feedbackSlot := 0xffff, round := 0, isWaiting := false }
      else h.processes q) : p.isWaiting = false ∧ p.round = 0 := by
  split at hp
  · subst hp
    exact ⟨rfl, rfl⟩
  · rename_i hlt
    exact hp ▸ hs.unused (hs.len_le.trans (Nat.le_of_not_lt hlt))

/-- **A reset makes every process available.** -/
theorem Partitioned.reset (hs : h.Partitioned roundMax) :
    ∃ h', h.reset = .ok h' ∧ h'.Partitioned roundMax := by
  obtain ⟨fb, av, re, hs⟩ := hs
  have hnodup : (av ++ fb ++ re).Nodup := by simpa using hs.nodup
  obtain ⟨a₁, l₁, heq₁, ha₁, hl₁, hlen₁, hlen₁'⟩ := drainTo_eq hs.available hs.feedback
    (nodup_append.1 hnodup).1 hs.feedback_len (Nat.lt_succ_of_le hs.feedback.length_le)
  obtain ⟨a₂, l₂, heq₂, ha₂, hl₂, hlen₂, hlen₂'⟩ := drainTo_eq ha₁ hs.retrans hnodup
    (hs.retrans_len.trans hlen₁.symm) (Nat.lt_succ_of_le hs.retrans.length_le)
  have hlen : a₂.len = h.available.len := hlen₂.trans hlen₁
  rw [HarqLists.reset, heq₁]
  simp only [bind, Except.bind, heq₂]
  refine ⟨_, rfl, [], av ++ fb ++ re, [], ha₂, hl₁, hl₂, ?_, ?_, ?_, ?_, ?_, ?_, by simp, by simp, ?_⟩
  · exact (hlen₁'.trans hs.feedback_len).trans hlen.symm
  · exact (hlen₂'.trans hs.retrans_len).trans hlen.symm
  · exact hlen.trans_le hs.len_le
  · simpa [hlen] using hs.perm
  · exact fun q _ ↦ by simp [(hs.reset_processes q rfl).1]
  · exact fun q _ ↦ (hs.reset_processes q rfl).2
  · exact fun q _ ↦ (hs.reset_processes q rfl).2

/-- New processes are appended to the available list. -/
theorem Sorted.addAvailable {fb : List ℕ} (hs : h.Sorted roundMax [] av fb re)
    (hle : h.available.len ≤ n) (hn : n ≤ nrMaxHarqProcesses) (ha : a.Represents av)
    (hf : f.Represents fb) (hr : r.Represents re) (halen : a.len = n) (hflen : f.len = n)
    (hrlen : r.len = n) :
    (HarqLists.addAvailable { h with available := a, feedback := f, retrans := r } h.available.len
      n).Partitioned roundMax := by
  have hlt : ∀ q ∈ av ++ (fb ++ re), q < h.available.len := fun q hq ↦
    mem_range.1 (hs.perm.subset (by simpa using hq))
  have hnodup : (av ++ range' h.available.len (n - h.available.len)).Nodup := by
    refine nodup_append.2 ⟨hs.available.nodup, nodup_range', fun x hx y hy ↦ ?_⟩
    have := hlt x (by simp [hx])
    have := (mem_range'_1.1 hy).1
    omega
  obtain ⟨hrep, hlen⟩ := foldl_addTailNrList ha hnodup fun y hy ↦ by
    have := (mem_range'_1.1 hy).2
    omega
  have hlen := hlen.trans halen
  refine ⟨_, _, _, hrep, hf, hr, hflen.trans hlen.symm, hrlen.trans hlen.symm, hlen.trans_le hn, ?_,
    hs.waiting, fun q hq ↦ ?_, hs.feedback_round, hs.retrans_round, fun q hq ↦ ?_⟩
  · have hrange : range n =
        range h.available.len ++ range' h.available.len (n - h.available.len) := by
      simpa only [range_eq_range', Nat.zero_add, Nat.add_sub_of_le hle] using
        (range'_append_1 (s := 0) (m := h.available.len)
          (n := n - h.available.len)).symm
    have hperm := hs.perm.append_right (range' h.available.len (n - h.available.len))
    rw [← hrange] at hperm
    rw [HarqLists.addAvailable]
    rw [hlen]
    refine .trans (perm_iff_count.2 fun a ↦ ?_) hperm
    simp only [count_append]
    omega
  · rcases mem_append.1 hq with hq | hq
    · exact hs.available_round q hq
    · exact hs.fresh_round q (mem_range'_1.1 hq).1
  · refine hs.fresh_round q (hle.trans ?_)
    have hq : ((range' h.available.len (n - h.available.len)).foldl addTailNrList a).len ≤ q := hq
    rwa [hlen] at hq

/-- The lists of a new UE. -/
theorem created_partitioned (hn : n ≤ nrMaxHarqProcesses)
    (hnew : ∀ q, (h.processes q).isWaiting = false ∧ (h.processes q).round = 0) :
    (h.created n).Partitioned roundMax := by
  have hs : ({ h with
      available := createNrList 0
      feedback := createNrList 0
      retrans := createNrList 0 } : HarqLists).Sorted roundMax [] [] [] [] := by
    refine ⟨NrList.createNrList_represents 0, NrList.createNrList_represents 0,
      NrList.createNrList_represents 0, rfl, rfl, Nat.zero_le _, .refl _, fun q _ ↦ ?_, by simp,
      by simp, by simp, fun q _ ↦ (hnew q).2⟩
    simp [(hnew q).1]
  exact hs.addAvailable (Nat.zero_le n) hn (NrList.createNrList_represents n)
    (NrList.createNrList_represents n) (NrList.createNrList_represents n) rfl rfl rfl

/-- **Reconfiguration** keeps every process where it is and makes the new ones available. -/
theorem Partitioned.create (hs : h.Partitioned roundMax) (hn : n ≤ nrMaxHarqProcesses) :
    (h.create n).Post Abort.IsConfiguration (Partitioned · roundMax) := by
  rw [HarqLists.create]
  obtain ⟨fb, av, re, hs⟩ := hs
  split
  · exact created_partitioned hn fun q ↦ hs.unused (by omega)
  split
  · exact ⟨fb, av, re, hs⟩
  split
  · rename_i hgt
    obtain ⟨a, ha, harep, halen⟩ := hs.available.resizeNrList (Nat.le_of_lt hgt)
    obtain ⟨f, hf, hfrep, hflen⟩ := hs.feedback.resizeNrList (hs.feedback_len ▸ Nat.le_of_lt hgt)
    obtain ⟨r, hr, hrrep, hrlen⟩ := hs.retrans.resizeNrList (hs.retrans_len ▸ Nat.le_of_lt hgt)
    rw [HarqLists.resized, ha, hf, hr]
    exact hs.addAvailable (Nat.le_of_lt hgt) hn harep hfrep hrrep halen hflen hrlen
  · exact .inr (.inr rfl)

end HarqLists

/-! ### The system -/

/-- Both directions are partitioned. -/
structure NrUeSchedCtrl.Partitioned (s : NrUeSchedCtrl) (g : HarqConfig) : Prop where
  dl : s.dl.Partitioned g.dlHarqRoundMax
  ul : s.ul.Partitioned g.ulHarqRoundMax

variable {g : HarqConfig} {s : NrUeSchedCtrl} {pid : ℕ} {fb : List ℕ}

/-! ### Downlink -/

theorem Holding.handleDlHarq (hmax : roundMax < 2 ^ 8) (hs : s.dl.Holding roundMax pid fb) :
    (handleDlHarq s pid success roundMax).dl.Awaits roundMax fb := by
  rw [Mac.handleDlHarq]
  have hset := hs.setProcess { s.dl.processes pid with feedbackSlot := 0xffff, isWaiting := false }
  split
  · exact hset.finish (by simp)
  split
  · exact hset.finish (by simp)
  · rename_i hround
    dsimp only at hround
    exact hset.retransmit hmax (by simp) (by simpa using by omega)

theorem handleDlHarq_ul : (handleDlHarq s pid success roundMax).ul = s.ul := by
  rw [handleDlHarq]
  split
  · rfl
  split <;> rfl

section

variable (hs : s.Partitioned g)
include hs

/-- `find_harq` returns, and a process that it finds is the first one that waits for feedback. -/
theorem findHarqLoop_post (hfb : s.dl.Awaits g.dlHarqRoundMax fb)
    (hfuel : fb.length < fuel) (frame slot : UInt32) :
    ∃ r fb', findHarqLoop frame slot g.dlHarqRoundMax fuel s = .ok r ∧ r.1.Partitioned g ∧
      r.1.dl.Awaits g.dlHarqRoundMax fb' ∧ ∀ pid, r.2 = some pid → fb'.head? = some pid := by
  induction fb generalizing s fuel with
  | nil =>
    obtain ⟨fuel, rfl⟩ : ∃ n, fuel = n + 1 := ⟨fuel - 1, by omega⟩
    rw [findHarqLoop, hfb.head_eq, if_pos (by decide)]
    exact ⟨_, [], rfl, hs, hfb, nofun⟩
  | cons pid fb ih =>
    obtain ⟨fuel, rfl⟩ : ∃ n, fuel = n + 1 := ⟨fuel - 1, by simp at hfuel; omega⟩
    rw [findHarqLoop, hfb.head_eq, firstId, if_neg (by omega)]
    simp only [Int.toNat_natCast]
    split
    · -- its feedback was missed: go on behind it
      obtain ⟨dl, hpop, hhold, -⟩ := hfb.popFeedback
      have hnext : (handleDlHarq { s with dl } pid false g.dlHarqRoundMax).dl.Awaits
          g.dlHarqRoundMax fb := Holding.handleDlHarq g.dlHarqRoundMax_lt hhold
      rw [hpop]
      refine ih ⟨⟨fb, hnext⟩, ?_⟩ hnext (by simpa using hfuel)
      rw [handleDlHarq_ul]
      exact hs.ul
    split
    · exact ⟨_, pid :: fb, rfl, hs, hfb, nofun⟩
    · exact ⟨_, pid :: fb, rfl, hs, hfb, by simp⟩

theorem handleHarqBit_ok (frame slot : UInt32) (success : Bool) :
    ∃ r, handleHarqBit frame slot g.dlHarqRoundMax s success = .ok r ∧ r.1.Partitioned g := by
  obtain ⟨fb, hfb⟩ := hs.dl
  obtain ⟨⟨s', found⟩, fb', hr, hs', hfb', hfound⟩ := findHarqLoop_post hs hfb
    (Nat.lt_succ_of_le hfb.length_le) frame slot
  rw [handleHarqBit, findHarq, hr]
  rcases found with - | pid
  · exact ⟨_, rfl, hs'⟩
  obtain ⟨rest, rfl⟩ := head?_eq_some_iff.1 (hfound pid rfl)
  obtain ⟨dl, hpop, hhold, -⟩ := hfb'.popFeedback
  have hhead : s'.dl.feedback.head.toNat = pid := by
    rw [hfb'.head_eq, firstId, Int.toNat_natCast]
  have hwait : (s'.dl.processes pid).isWaiting = true := hfb'.isWaiting (mem_cons_self ..)
  simp only [bind, Except.bind, hwait, if_true, hpop, hhead]
  refine ⟨_, rfl, ⟨_, Holding.handleDlHarq g.dlHarqRoundMax_lt hhold⟩, ?_⟩
  rw [handleDlHarq_ul]
  exact hs'.ul

theorem handleNrUciPucch01_ok (frame slot : UInt32) (conf : UInt8) (bits : List UInt8) :
    ∃ s', handleNrUciPucch01 g frame slot conf s bits = .ok s' ∧ s'.Partitioned g := by
  induction bits generalizing s with
  | nil => exact ⟨s, rfl, hs⟩
  | cons value bits ih =>
    obtain ⟨⟨s', found⟩, hr, hs'⟩ := handleHarqBit_ok hs frame slot (value == 0 && conf == 0)
    rw [handleNrUciPucch01, hr]
    rcases found with - | u
    · exact ⟨s', rfl, hs'⟩
    · exact ih ⟨hs'.dl, hs'.ul⟩

theorem handleNrUciPucch234_ok (frame slot : UInt32) (crc : UInt8)
    (payload : List UInt8) (n bit : ℕ) :
    ∃ s', handleNrUciPucch234 g frame slot crc payload n bit s = .ok s' ∧ s'.Partitioned g := by
  induction n generalizing s bit with
  | zero => exact ⟨s, rfl, hs⟩
  | succ n ih =>
    obtain ⟨⟨s', found⟩, hr, hs'⟩ := handleHarqBit_ok hs frame slot
      (crc != 1 && ((payload.getD (bit >>> 3) 0).toNat >>> bit) &&& 1 != 0)
    rw [handleNrUciPucch234, hr]
    rcases found with - | u
    · exact ⟨s', rfl, hs'⟩
    · exact ih hs' (bit + 1)

theorem nrScheduleUeSpec_post (pick : HarqPick) (pucch : Option (UInt16 × UInt16)) :
    (nrScheduleUeSpec g s (s.dl.pick pick) pucch).Post Abort.IsConfiguration
      (NrUeSchedCtrl.Partitioned · g) := by
  refine (hs.dl.takeProcess pick).bind fun ⟨dl, pid⟩ ⟨⟨fb, hhold⟩, hwait, hround⟩ ↦ ?_
  dsimp only at hhold hwait hround ⊢
  rw [hwait]
  have hnext : ∀ dl' : HarqLists, dl'.Partitioned g.dlHarqRoundMax →
      (if (dl'.processes pid).round < g.dlHarqRoundMax then .ok { s with dl := dl' }
        else .error Abort.roundOutOfRange : Except Abort NrUeSchedCtrl).Post Abort.IsConfiguration
          (NrUeSchedCtrl.Partitioned · g) := fun dl' hdl' ↦ by
    split
    · exact ⟨hdl', hs.ul⟩
    · exact .inr (.inl rfl)
  rcases pucch with - | ⟨frame, slot⟩
  · exact hnext _ ⟨_, hhold.finish hwait⟩
  · exact hnext _ ⟨_, hhold.awaitFeedback hround⟩

end

/-! ### Uplink -/

theorem Holding.nackUlHarq (hmax : roundMax < 2 ^ 8) (hs : s.ul.Holding roundMax pid fb)
    (hwait : (s.ul.processes pid).isWaiting = false) :
    (nackUlHarq s pid roundMax).ul.Awaits roundMax fb := by
  rw [Mac.nackUlHarq]
  split
  · exact hs.finish hwait
  · exact hs.retransmit hmax hwait (by omega)

theorem nackUlHarq_dl : (nackUlHarq s pid roundMax).dl = s.dl := by
  rw [nackUlHarq]
  split <;> rfl

/-- The loop of `handle_nr_ul_harq` returns, and the process that it stops at is the first one that
waits for feedback. -/
theorem skipUlHarq_post (hs : s.Partitioned g) (hfb : s.ul.Awaits g.ulHarqRoundMax fb)
    (hfuel : fb.length < fuel) (harqId : UInt8) :
    ∃ r fb', skipUlHarq g.ulHarqRoundMax harqId fuel s = .ok r ∧ r.1.Partitioned g ∧
      r.1.ul.Awaits g.ulHarqRoundMax fb' ∧ ∀ pid, r.2 = some pid → fb'.head? = some pid := by
  induction fb generalizing s fuel with
  | nil =>
    obtain ⟨fuel, rfl⟩ : ∃ n, fuel = n + 1 := ⟨fuel - 1, by omega⟩
    rw [skipUlHarq, hfb.head_eq]
    exact ⟨_, [], rfl, hs, hfb, nofun⟩
  | cons pid fb ih =>
    obtain ⟨fuel, rfl⟩ : ∃ n, fuel = n + 1 := ⟨fuel - 1, by simp at hfuel; omega⟩
    rw [skipUlHarq, hfb.head_eq, firstId]
    rw [if_neg (by omega)]
    split
    · -- not the process that the CRC is for: go on behind it
      obtain ⟨ul, hpop, hhold, -⟩ := hfb.popFeedback
      have hnext := Holding.nackUlHarq (s := { s with
        ul := ul.setProcess pid { ul.processes pid with isWaiting := false } })
        g.ulHarqRoundMax_lt (hhold.setProcess _) (by simp)
      rw [hpop]
      refine ih ⟨?_, ⟨fb, hnext⟩⟩ hnext (by simpa using hfuel)
      rw [nackUlHarq_dl]
      exact hs.dl
    · exact ⟨_, pid :: fb, rfl, hs, hfb, by simp⟩

theorem handleNrUlHarq_ok (hs : s.Partitioned g) (harqId : UInt8) (status : Bool) :
    ∃ s', handleNrUlHarq g s harqId status = .ok s' ∧ s'.Partitioned g := by
  rw [handleNrUlHarq]
  split
  · exact ⟨s, rfl, hs⟩
  obtain ⟨fb, hfb⟩ := hs.ul
  obtain ⟨⟨s', found⟩, fb', hr, hs', hfb', hfound⟩ := skipUlHarq_post hs hfb
    (Nat.lt_succ_of_le hfb.length_le) harqId
  rw [hr]
  rcases found with - | pid
  · exact ⟨_, rfl, hs'⟩
  obtain ⟨rest, rfl⟩ := head?_eq_some_iff.1 (hfound pid rfl)
  obtain ⟨ul, hpop, hhold, hproc⟩ := hfb'.popFeedback
  have hwait : (ul.processes pid).isWaiting = true := by
    rw [hproc]
    exact hfb'.isWaiting (mem_cons_self ..)
  have hset := hhold.setProcess
    { ul.processes pid with feedbackSlot := 0xffff, isWaiting := false }
  simp only [bind, Except.bind, hpop, hwait, if_true]
  split
  · refine ⟨_, rfl, ?_, _, Holding.nackUlHarq g.ulHarqRoundMax_lt hset (by simp)⟩
    rw [nackUlHarq_dl]
    exact hs'.dl
  · exact ⟨_, rfl, hs'.dl, _, hset.finish (by simp)⟩

/-- The size of the transport block has no part in the partition. -/
theorem HarqLists.Partitioned.setTbSize {h : HarqLists} (hs : h.Partitioned roundMax)
    (pid tbSize : ℕ) : (h.setProcess pid { h.processes pid with tbSize }).Partitioned roundMax := by
  obtain ⟨fb, av, re, hs⟩ := hs
  have hset : ∀ q, ((h.setProcess pid { h.processes pid with tbSize }).processes q).isWaiting =
      (h.processes q).isWaiting ∧
      ((h.setProcess pid { h.processes pid with tbSize }).processes q).round =
        (h.processes q).round := by
    intro q
    by_cases hq : q = pid
    · subst hq
      simp
    · simp [HarqLists.setProcess, hq]
  exact ⟨fb, av, re, hs.available, hs.feedback, hs.retrans, hs.feedback_len, hs.retrans_len,
    hs.len_le, hs.perm, fun q hq ↦ (hset q).1 ▸ hs.waiting q hq,
    fun q hq ↦ (hset q).2 ▸ hs.available_round q hq, fun q hq ↦ (hset q).2 ▸ hs.feedback_round q hq,
    fun q hq ↦ (hset q).2 ▸ hs.retrans_round q hq, fun q hq ↦ (hset q).2 ▸ hs.fresh_round q hq⟩

theorem saveSchedPusch_post (hs : s.Partitioned g) (pid tbSize : ℕ) :
    (saveSchedPusch g s pid tbSize).Post Abort.IsConfiguration (NrUeSchedCtrl.Partitioned · g) := by
  rw [saveSchedPusch]
  split
  · split
    · exact ⟨hs.dl, hs.ul.setTbSize pid tbSize⟩
    · exact hs
  · exact .inr (.inl rfl)

theorem nrScheduleUlsch_post (hs : s.Partitioned g) (pick : HarqPick) (slot : UInt16) (tbSize : ℕ) :
    (nrScheduleUlsch g s (s.ul.pick pick) slot tbSize).Post Abort.IsConfiguration
      (NrUeSchedCtrl.Partitioned · g) := by
  refine (hs.ul.takeProcess pick).bind fun ⟨ul, pid⟩ ⟨⟨fb, hhold⟩, hwait, hround⟩ ↦ ?_
  dsimp only at hhold hwait hround ⊢
  rw [hwait, if_neg (by decide)]
  refine saveSchedPusch_post ?_ pid tbSize
  split
  · exact ⟨hs.dl, _, hhold.finish hwait⟩
  · exact ⟨hs.dl, _, hhold.awaitFeedback hround⟩

/-! ### Runs -/

theorem getNrofHarqProcessesForPdsch_le (scInfo : Option ServingCellInfo) :
    getNrofHarqProcessesForPdsch scInfo ≤ nrMaxHarqProcesses := by
  rcases scInfo with - | info
  · decide
  rw [getNrofHarqProcessesForPdsch]
  split
  · decide
  · rcases info.nrofHarqProcessesForPdsch with - | i
    · decide
    · revert i
      decide

theorem getNrofHarqProcessesForPusch_le (scInfo : Option ServingCellInfo) :
    getNrofHarqProcessesForPusch scInfo ≤ nrMaxHarqProcesses := by
  rcases scInfo with - | info
  · decide
  · rw [getNrofHarqProcessesForPusch]
    split <;> decide

theorem createDlHarqList_post (hs : s.Partitioned g) (scInfo : Option ServingCellInfo) :
    (createDlHarqList s scInfo).Post Abort.IsConfiguration (NrUeSchedCtrl.Partitioned · g) := by
  have hlen : s.dl.available.len = s.dl.feedback.len ∧ s.dl.available.len = s.dl.retrans.len := by
    obtain ⟨fb, av, re, hdl⟩ := hs.dl
    exact ⟨hdl.feedback_len.symm, hdl.retrans_len.symm⟩
  rw [createDlHarqList, if_pos hlen]
  exact (hs.dl.create (getNrofHarqProcessesForPdsch_le scInfo)).bind fun dl hdl ↦ ⟨hdl, hs.ul⟩

theorem createUlHarqList_post (hs : s.Partitioned g) (scInfo : Option ServingCellInfo) :
    (createUlHarqList s scInfo).Post Abort.IsConfiguration (NrUeSchedCtrl.Partitioned · g) :=
  (hs.ul.create (getNrofHarqProcessesForPusch_le scInfo)).bind fun _ hul ↦ ⟨hs.dl, hul⟩

/-- **One input** keeps the processes partitioned, and fails no assertion but those of the
configuration. -/
theorem NrUeSchedCtrl.Partitioned.harqStep (hs : s.Partitioned g) (i : HarqInput) :
    (harqStep g s i).Post Abort.IsConfiguration (NrUeSchedCtrl.Partitioned · g) := by
  cases i with
  | configure scInfo =>
    exact (createDlHarqList_post hs scInfo).bind fun s hs ↦ createUlHarqList_post hs scInfo
  | scheduleDl pick pucch => exact nrScheduleUeSpec_post hs pick pucch
  | uciPucch01 frame slot conf bits =>
    obtain ⟨s', h, hs'⟩ := handleNrUciPucch01_ok hs frame slot conf bits
    exact .of_eq_ok h hs'
  | uciPucch234 frame slot crc payload n =>
    obtain ⟨s', h, hs'⟩ := handleNrUciPucch234_ok hs frame slot crc payload n 0
    exact .of_eq_ok h hs'
  | resetDl =>
    obtain ⟨dl, h, hdl⟩ := hs.dl.reset
    exact (Except.Post.of_eq_ok h hdl).bind fun dl hdl ↦ ⟨hdl, hs.ul⟩
  | scheduleUl pick slot tbSize => exact nrScheduleUlsch_post hs pick slot tbSize
  | crc harqId status =>
    obtain ⟨s', h, hs'⟩ := handleNrUlHarq_ok hs harqId status
    exact .of_eq_ok h hs'
  | resetUl =>
    obtain ⟨ul, h, hul⟩ := hs.ul.reset
    exact (Except.Post.of_eq_ok h hul).bind fun ul hul ↦ ⟨hs.dl, hul⟩

theorem NrUeSchedCtrl.new_partitioned (scInfo : Option ServingCellInfo) :
    (NrUeSchedCtrl.new scInfo).Partitioned g where
  dl := HarqLists.created_partitioned (getNrofHarqProcessesForPdsch_le scInfo) fun _ ↦ ⟨rfl, rfl⟩
  ul := HarqLists.created_partitioned (getNrofHarqProcessesForPusch_le scInfo) fun _ ↦ ⟨rfl, rfl⟩

theorem NrUeSchedCtrl.Partitioned.of_reach
    (h : (harqSystem g scInfo).Reach (fun _ _ ↦ True) s) : s.Partitioned g := by
  refine StepSystem.Reach.invariant (P := (NrUeSchedCtrl.Partitioned · g))
    (NrUeSchedCtrl.new_partitioned scInfo) (fun {s t i} hs _ hstep ↦ ?_) h
  have hpost := hs.harqStep i
  cases hr : Mac.harqStep g s i with
  | ok s' =>
    have : s' = t := by simpa [harqSystem, hr, Except.toOption] using hstep
    exact this ▸ hpost.ok hr
  | error a => simp [harqSystem, hr, Except.toOption] at hstep

/-- **No HARQ process is lost or listed twice.** After any sequence of scheduling steps, feedback,
resets and reconfigurations the three lists of each direction share out the processes, in agreement
with their flags and rounds, so that the next step finds the process it looks for: no assertion of
the list operations and none on `is_waiting` fails. -/
theorem harq_lists_share_out_processes (g : HarqConfig) (scInfo : Option ServingCellInfo)
    {s : NrUeSchedCtrl} (h : (harqSystem g scInfo).Reach (fun _ _ ↦ True) s) :
    s.Partitioned g ∧ ∀ i a, harqStep g s i = .error a → a.IsConfiguration := by
  have hs := NrUeSchedCtrl.Partitioned.of_reach h
  exact ⟨hs, fun i a ha ↦ (hs.harqStep i).error ha⟩

/-- Four rounds per transport block in both directions. -/
def fourRounds : HarqConfig := ⟨4, 4, false, by decide, by decide⟩

/-- Two processes are scheduled, the feedback of the first is missed, the second one is not
acknowledged, and both are sent again; an uplink transport block is not received. -/
def missedFeedbackRun : Option NrUeSchedCtrl :=
  (harqSystem fourRounds none).exec (fun _ _ ↦ True) (harqSystem fourRounds none).init
    [.scheduleDl .newData (some (10, 4)), .scheduleDl .newData (some (10, 5)),
      .uciPucch01 10 5 0 [1], .scheduleDl .retransmission (some (10, 14)),
      .scheduleDl .retransmission (some (10, 14)), .scheduleUl .newData 3 100, .crc 0 true]

theorem missedFeedbackRun_isSome : missedFeedbackRun.isSome := by decide +kernel

theorem missedFeedbackRun_shares_out :
    let s := missedFeedbackRun.get missedFeedbackRun_isSome
    (s.dl.feedback.head = 0 ∧ s.dl.feedback.next 0 = 1 ∧ (s.dl.processes 1).round = 1 ∧
      s.ul.retrans.head = 0) ∧ s.Partitioned fourRounds :=
  ⟨by decide +kernel, (harq_lists_share_out_processes fourRounds none
    (StepSystem.reach_get_exec _ _ _ missedFeedbackRun_isSome)).1⟩

end OaiRan.Mac
