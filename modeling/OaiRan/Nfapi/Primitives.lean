import OaiRan.Lib.Codec

/-!
# The nFAPI primitives

`push8`, `push16`, `push32` and their `pull` counterparts of `nfapi.c`, and the arrays built from
them. This is the default build: `FAPI_BYTE_ORDERING_BIG_ENDIAN` is not defined, and the most
significant byte comes first. Every pair of them is a round trip.
-/

namespace OaiRan.Nfapi

open Codec

/-! ### Words -/

/-- The two bytes of `push16`. -/
def bytes16 (x : UInt16) : List UInt8 := [.ofNat (x.toNat / 2 ^ 8), .ofNat x.toNat]

/-- The four bytes of `push32`. -/
def bytes32 (x : UInt32) : List UInt8 :=
  [.ofNat (x.toNat / 2 ^ 24), .ofNat (x.toNat / 2 ^ 16), .ofNat (x.toNat / 2 ^ 8), .ofNat x.toNat]

def push8 (x : UInt8) : Put Unit := push [x]
def push16 (x : UInt16) : Put Unit := push (bytes16 x)
def push32 (x : UInt32) : Put Unit := push (bytes32 x)
def pushs16 (x : Int16) : Put Unit := push (bytes16 x.toUInt16)

def pull8 : Get UInt8
  | x :: l => some (x, l)
  | _ => none

def pull16 : Get UInt16
  | x :: y :: l => some (.ofNat (x.toNat * 2 ^ 8 + y.toNat), l)
  | _ => none

def pull32 : Get UInt32
  | x :: y :: z :: w :: l =>
    some (.ofNat (x.toNat * 2 ^ 24 + y.toNat * 2 ^ 16 + z.toNat * 2 ^ 8 + w.toNat), l)
  | _ => none

def pulls16 : Get Int16 := do
  let x ← pull16
  pure x.toInt16

theorem reads_pull16 (x : UInt16) : Reads pull16 (bytes16 x) x := fun rest ↦ by
  have hx := x.toNat_lt
  have hword : x.toNat / 2 ^ 8 % 2 ^ 8 * 2 ^ 8 + x.toNat % 2 ^ 8 = x.toNat := by omega
  simp only [bytes16, List.cons_append, List.nil_append, pull16, UInt8.toNat_ofNat', hword,
    UInt16.ofNat_toNat]

theorem reads_pull32 (x : UInt32) : Reads pull32 (bytes32 x) x := fun rest ↦ by
  have hx := x.toNat_lt
  have hword : x.toNat / 2 ^ 24 % 2 ^ 8 * 2 ^ 24 + x.toNat / 2 ^ 16 % 2 ^ 8 * 2 ^ 16 +
      x.toNat / 2 ^ 8 % 2 ^ 8 * 2 ^ 8 + x.toNat % 2 ^ 8 = x.toNat := by omega
  simp only [bytes32, List.cons_append, List.nil_append, pull32, UInt8.toNat_ofNat', hword,
    UInt32.ofNat_toNat]

theorem carries_push8 (x : UInt8) : Carries (push8 x) pull8 x := .of_reads fun _ ↦ rfl

theorem carries_push16 (x : UInt16) : Carries (push16 x) pull16 x := .of_reads (reads_pull16 x)

theorem carries_push32 (x : UInt32) : Carries (push32 x) pull32 x := .of_reads (reads_pull32 x)

theorem carries_pushs16 (x : Int16) : Carries (pushs16 x) pulls16 x :=
  (carries_push16 x.toUInt16).map UInt16.toInt16

/-! ### Arrays -/

def pusharray8 {n : ℕ} (xs : List.Vector UInt8 n) (maxLen : ℕ) : Put Unit :=
  if n = 0 then pure () else if n > maxLen then fail else push xs.toList

def pullarray8 (maxLen n : ℕ) : Get (List.Vector UInt8 n) :=
  if n > maxLen then fail else pull n

/-- `pusharray32`: the first `n` words. An array with fewer is read past its end. -/
def pusharray32 (xs : List UInt32) (n : ℕ) : Put Unit :=
  if h : n ≤ xs.length then pushVec push32 (⟨xs.take n, by simp [h]⟩ : List.Vector UInt32 n) else fail

def pullarray32 (maxLen n : ℕ) : Get (List.Vector UInt32 n) :=
  if n > maxLen then fail else pullVec pull32 n

theorem carries_pusharray8 (xs : List.Vector UInt8 n) (maxLen : ℕ) :
    Carries (pusharray8 xs maxLen) (pullarray8 maxLen n) xs := by
  rw [pusharray8, pullarray8]
  split
  · rename_i hn
    subst hn
    have hreads := Reads.pull xs
    rw [xs.eq_nil] at hreads ⊢
    exact .nothing hreads
  · split
    · exact .fail
    · exact .of_reads (.pull xs)

theorem carries_pusharray32 (xs : List UInt32) (hmax : n ≤ maxLen) (hlen : n ≤ xs.length) :
    Carries (pusharray32 xs n) (pullarray32 maxLen n) ⟨xs.take n, by simp [hlen]⟩ := by
  rw [pusharray32, dif_pos hlen, pullarray32, if_neg (Nat.not_lt.2 hmax)]
  exact .vec_self _ fun x _ ↦ carries_push32 x

/-! ### PDUs that carry their size -/

/-- The frame of `pack_dl_tti_request_body_value`, `pack_ul_tti_pdu_list_value` and
`pack_ul_dci_pdu_list_value`: the size is written over when the body is there, and returned. -/
def packSizedPdu (pduType pduSize : UInt16) (body : Put Unit) : Put UInt16 := do
  let msgHead ← position
  push16 pduType
  let packedLengthField ← position
  push16 pduSize
  body
  let msgEnd ← position
  let packedMsgLen := UInt16.ofNat (msgEnd - msgHead)
  patch packedLengthField (bytes16 packedMsgLen)
  pure packedMsgLen

/-- What stands in the buffer in the end. -/
theorem packSizedPdu_eq_some
    (hbody : Carries body g a) (h : packSizedPdu pduType pduSize body b = some (n, b')) :
    ∃ bs, b'.bytes = b.bytes ++ (bytes16 pduType ++ (bytes16 n ++ bs)) ∧ Reads g bs a := by
  obtain ⟨_, _, hpos, h⟩ := bind_eq_some h
  cases hpos
  obtain ⟨_, b₁, h₁, h⟩ := bind_eq_some h
  obtain ⟨_, _, hpos, h⟩ := bind_eq_some h
  cases hpos
  obtain ⟨_, b₂, h₂, h⟩ := bind_eq_some h
  obtain ⟨_, b₃, h₃, h⟩ := bind_eq_some h
  obtain ⟨_, _, hpos, h⟩ := bind_eq_some h
  cases hpos
  obtain ⟨_, b₄, h₄, h⟩ := bind_eq_some h
  cases h
  obtain ⟨bs, hbs, hreads⟩ := hbody h₃
  refine ⟨bs, ?_, hreads⟩
  have hfront : b₃.bytes = b₁.bytes ++ (bytes16 pduSize ++ bs) := by
    rw [hbs, push_eq_some h₂, List.append_assoc]
  have hdrop : (bytes16 pduSize ++ bs).drop 2 = bs := rfl
  rw [patch_eq_some h₄]
  generalize UInt16.ofNat _ = m
  rw [hfront, List.take_left, show (bytes16 m).length = 2 from rfl, List.drop_length_add_append,
    hdrop, push_eq_some h₁]
  simp only [List.append_assoc]

/-- **A PDU with its size is a round trip** if its body is one. -/
theorem faithful_packSizedPdu {α β γ : Type} {g : UInt16 → Get α} {a : α} {body : Put Unit}
    {pduType : UInt16} {f : UInt16 → γ} {k : UInt16 → UInt16 → α → β} {h : γ → β}
    (pduSize : UInt16) (hbody : Carries body (g pduType) a) (hk : ∀ n, k pduType n a = h (f n)) :
    Faithful (packSizedPdu pduType pduSize body >>= fun n ↦ pure (f n))
      (pull16 >>= fun t ↦ pull16 >>= fun n ↦ g t >>= fun x ↦ pure (k t n x)) h := by
  intro b c b' hp
  obtain ⟨n, u, hu, hc⟩ := bind_eq_some hp
  cases hc
  obtain ⟨bs, hbs, hreads⟩ := packSizedPdu_eq_some hbody hu
  refine ⟨_, hbs, ?_⟩
  exact (reads_pull16 pduType).bind ((reads_pull16 n).bind (hk n ▸ hreads.map (k pduType n)))

end OaiRan.Nfapi

/-! ### One word after another -/

namespace Codec.Carries

open OaiRan.Nfapi

variable {α : Type} {q : Put Unit} {a : α}

theorem push8 (hq : Carries q (h x) a) :
    Carries (push8 x >>= fun _ ↦ q) (pull8 >>= h) a := (carries_push8 x).bind hq

theorem push16 (hq : Carries q (h x) a) :
    Carries (push16 x >>= fun _ ↦ q) (pull16 >>= h) a := (carries_push16 x).bind hq

theorem push32 (hq : Carries q (h x) a) :
    Carries (push32 x >>= fun _ ↦ q) (pull32 >>= h) a := (carries_push32 x).bind hq

end Codec.Carries
