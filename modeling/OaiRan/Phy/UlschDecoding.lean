import Mathlib.Data.Nat.Notation
import Mathlib.Logic.Function.Basic
import OaiRan.Lib.StepSystem

/-!
# Acknowledging an uplink transport block

`nr_ulsch_decoding` clears the abort flag and queues a task for each segment. The tasks run
`nr_processULSegment`, in any order: one that fails raises the flag, one that sees it gives up. After
they have been joined, `nr_postDecode` goes over the segments.

**One report is made, with the last segment, and it is an ACK only if all segments have been decoded
in this round** (`ack_only_decoded`). The transport block's CRC is a parameter.
-/

namespace OaiRan.Phy.Ulsch

/-- How far a task has come; a task that has `failed` is about to raise the flag. -/
inductive SegmentTask
  | queued
  | decoding
  | failed (decodeIterations : ℕ)
  | completed (decodeIterations : ℕ)

/-- The part of `NR_UL_gNB_HARQ_t` that the tasks share, and the tasks. -/
structure UlschTasks where
  abortDecode : Bool
  c : ℕ → List UInt8
  task : ℕ → SegmentTask

/-- A step of the task of segment `r`. -/
inductive SegmentStep
  | rateMatching (r : ℕ) (matched : Bool)
  | checkAbort (r : ℕ)
  | decoderEnds (r numIter : ℕ) (llrProcBuf : List UInt8)
  | setAbort (r : ℕ)

variable (numMaxIter : ℕ)

def UlschTasks.setTask (s : UlschTasks) (r : ℕ) (task : SegmentTask) : UlschTasks :=
  { s with task := Function.update s.task r task }

/-- `nr_processULSegment` with `LDPCdecoder`, which looks at the flag before each iteration. -/
def nrProcessUlSegment (s : UlschTasks) : SegmentStep → Option UlschTasks
  | .rateMatching r matched =>
    match s.task r with
    | .queued => some <|
      if matched then { s.setTask r .decoding with c := Function.update s.c r [] }
      else s.setTask r (.failed (numMaxIter + 1))
    | _ => none
  | .checkAbort r =>
    match s.task r with
    | .decoding => some (if s.abortDecode then s.setTask r (.failed (numMaxIter + 2)) else s)
    | _ => none
  | .decoderEnds r numIter llrProcBuf =>
    match s.task r with
    | .decoding => some <|
      if numIter ≤ numMaxIter then
        { s.setTask r (.completed numIter) with c := Function.update s.c r llrProcBuf }
      else s.setTask r (.failed numIter)
    | _ => none
  | .setAbort r =>
    match s.task r with
    | .failed numIter => some { s.setTask r (.completed numIter) with abortDecode := true }
    | _ => none

/-- The tasks of a round; `c` still has the segments of the last one. -/
def ulschRound (c : ℕ → List UInt8) : StepSystem UlschTasks SegmentStep where
  init := ⟨false, c, fun _ ↦ .queued⟩
  step := nrProcessUlSegment numMaxIter

/-- The main thread after the join: the block's bytes by segment, and what has been reported. -/
structure PostDecode where
  processedSegments : ℕ
  b : ℕ → List UInt8
  acks : List Bool

variable (checkCrc : (ℕ → List UInt8) → Bool) (nbSegments : ℕ) (dtx : Bool) (s : UlschTasks)

def UlschTasks.decodeIterations (r : ℕ) : ℕ :=
  match s.task r with
  | .completed numIter => numIter
  | _ => 0

def nrPostDecode (p : PostDecode) (r : ℕ) : PostDecode :=
  let decodeSuccess := s.decodeIterations r ≤ numMaxIter
  let processedSegments := p.processedSegments + 1
  let b := if decodeSuccess then Function.update p.b r (s.c r) else p.b
  if processedSegments = nbSegments then
    let crcValid := if nbSegments > 1 then checkCrc b else true
    ⟨processedSegments, b, p.acks ++ [crcValid && !s.abortDecode && !dtx]⟩
  else ⟨processedSegments, b, p.acks⟩

/-- The first `n` calls; `b` still has the bytes of earlier rounds. -/
def postDecodes (b : ℕ → List UInt8) (n : ℕ) : PostDecode :=
  (List.range n).foldl (nrPostDecode numMaxIter checkCrc nbSegments dtx s) ⟨0, b, []⟩

variable {numMaxIter s}

/-- **A segment that was not decoded has raised the flag**, and it stays raised. -/
theorem abortDecode_of_failed (h : (ulschRound numMaxIter c).Reach (fun _ _ ↦ True) s)
    (htask : s.task r = .completed numIter)
    (hlt : numMaxIter < numIter) : s.abortDecode = true := by
  have hset {s : UlschTasks} (ih : s.task r = .completed numIter → s.abortDecode = true) (q : ℕ)
      {task : SegmentTask} (hne : task ≠ .completed numIter)
      (h : (s.setTask q task).task r = .completed numIter) : s.abortDecode = true := by
    rw [UlschTasks.setTask] at h
    rcases eq_or_ne r q with rfl | hq
    · exact absurd (Function.update_self r task s.task ▸ h) hne
    · exact ih (Function.update_of_ne hq task s.task ▸ h)
  refine h.invariant (P := fun s ↦ s.task r = .completed numIter → s.abortDecode = true)
    (fun h ↦ SegmentTask.noConfusion h) (fun {s t a} ih _ hstep ↦ ?_) htask
  rcases a with ⟨q, _⟩ | q | ⟨q, n, _⟩ | q <;> simp only [ulschRound, nrProcessUlSegment] at hstep <;>
    split at hstep <;> cases hstep
  · split <;> exact hset ih q SegmentTask.noConfusion
  · split
    · exact hset ih q SegmentTask.noConfusion
    · exact ih
  · split
    · rename_i hle
      exact hset ih q fun heq ↦ Nat.not_le_of_lt hlt (SegmentTask.completed.inj heq ▸ hle)
    · exact hset ih q SegmentTask.noConfusion
  · exact fun _ ↦ rfl

variable {checkCrc nbSegments dtx}

/-- **A report is made only after all segments have been processed.** -/
theorem postDecodes_eq (b : ℕ → List UInt8) (n : ℕ) (hn : n < nbSegments) :
    (postDecodes numMaxIter checkCrc nbSegments dtx s b n).processedSegments = n ∧
      (postDecodes numMaxIter checkCrc nbSegments dtx s b n).acks = [] := by
  induction n with
  | zero => exact ⟨rfl, rfl⟩
  | succ n ih =>
    obtain ⟨hcount, hacks⟩ := ih (Nat.lt_of_succ_lt hn)
    rw [postDecodes, List.range_succ, List.foldl_append, ← postDecodes, List.foldl_cons,
      List.foldl_nil, nrPostDecode, hcount, if_neg (Nat.ne_of_lt hn)]
    exact ⟨rfl, hacks⟩

/-- **One report is made, with the last segment, and an ACK says that each segment has been decoded**
in at most the allowed iterations. -/
theorem ack_only_decoded {c : ℕ → List UInt8} (hC : 0 < nbSegments)
    (h : (ulschRound numMaxIter c).Reach (fun _ _ ↦ True) s)
    (hjoin : ∀ r < nbSegments, ∃ numIter, s.task r = .completed numIter) (b : ℕ → List UInt8) :
    (∀ n < nbSegments, (postDecodes numMaxIter checkCrc nbSegments dtx s b n).acks = []) ∧
      ∃ ack, (postDecodes numMaxIter checkCrc nbSegments dtx s b nbSegments).acks = [ack] ∧
        (ack = true → ∀ r < nbSegments, ∃ numIter ≤ numMaxIter, s.task r = .completed numIter) := by
  refine ⟨fun n hn ↦ (postDecodes_eq b n hn).2, ?_⟩
  obtain ⟨n, rfl⟩ := Nat.exists_eq_add_one.2 hC
  obtain ⟨hcount, hacks⟩ := @postDecodes_eq numMaxIter checkCrc _ dtx s b n n.lt_succ_self
  rw [postDecodes, List.range_succ, List.foldl_append, ← postDecodes, List.foldl_cons,
    List.foldl_nil, nrPostDecode, hcount, hacks]
  simp only [if_true, List.nil_append]
  refine ⟨_, rfl, fun hack r hr ↦ ?_⟩
  obtain ⟨numIter, htask⟩ := hjoin r hr
  refine ⟨numIter, Nat.le_of_not_lt fun hlt ↦ ?_, htask⟩
  simp [abortDecode_of_failed h htask hlt] at hack

/-- Segment 1 fails, and segment 0 gives up when it sees the flag: a NACK. -/
theorem abandoned_not_acked :
    ∃ s, (ulschRound 5 fun _ ↦ []).Reach (fun _ _ ↦ True) s ∧ s.task 0 = .completed 7 ∧
      ∃ ack, (postDecodes 5 (fun _ ↦ true) 2 false s (fun _ ↦ []) 2).acks = [ack] ∧
        (ack = true → ∀ r < 2, ∃ numIter ≤ 5, s.task r = .completed numIter) := by
  refine ⟨_, StepSystem.reach_get_exec _ _ [.rateMatching 0 true, .rateMatching 1 true,
    .decoderEnds 1 6 [], .setAbort 1, .checkAbort 0, .setAbort 0] rfl, rfl,
    (ack_only_decoded (by decide) (StepSystem.reach_get_exec _ _ _ _) ?_ _).2⟩
  rintro (_ | _ | r) hr
  · exact ⟨7, rfl⟩
  · exact ⟨6, rfl⟩
  · omega

end OaiRan.Phy.Ulsch
