import OaiRan.Lib.Keystream
import OaiRan.Pdcp.RxWindow

/-!
# A sending and a receiving PDCP entity

PDUs are read back as the SDU they were made of, under the COUNT they were made with, if that COUNT
is in the window of the receiver (`readPdu_pduOf`). What is delivered and what is stored makes
one stream in order of COUNT (`NrPdcpEntity.stream`), which the calls only extend, so that whatever
the channel loses, repeats or reorders, SDUs come out in order and as they went in
(`delivers_in_order_of_count`).
-/

namespace OaiRan.Pdcp

open List Nat

variable {a : PdcpAlgorithms} {c c' : PdcpConfig} {s : PdcpSecurity} {e : NrPdcpEntity}

variable {buffer hdr : List UInt8} {count rxDeliv sn y : ℕ} {sdu : NrPdcpSdu}

/-! ### PDUs -/

theorem cipher_append (x : List UInt8) (k n : ℕ) (d : Bool) :
    cipher a c s (hdr ++ x) (hdr.length + k) n d = hdr ++ cipher a c s x k n d := by
  rw [cipher, cipher, take_length_add_append, drop_length_add_append, append_assoc]

/-- Ciphering twice gives the data back. -/
theorem cipher_cipher (x : List UInt8) (k n : ℕ) (d : Bool) :
    cipher a c s (cipher a c s x k n d) k n d = x := by
  rcases le_total k x.length with hk | hk
  · have hlen : (x.take k).length = k := by simp [hk]
    have hxor : ∀ l : List UInt8, ∀ f : ℕ → UInt8,
        (l.mapIdx fun i b ↦ b ^^^ f i).mapIdx (fun i b ↦ b ^^^ f i) = l := fun l f ↦
      Keystream.xorStream_xorStream f l
    rw [cipher, cipher, take_left' hlen, drop_left' hlen, hxor, take_append_drop]
  · simp [cipher, take_of_length_le hk, drop_of_length_le hk]

@[simp] theorem length_pduHeader (c : PdcpConfig)
    (sn : ℕ) : (pduHeader c sn).length = c.headerSize := by
  rw [pduHeader, PdcpConfig.headerSize]
  split <;> rfl

/-- The first byte of a header: the D/C bit and some bits of the SN. -/
theorem dcBit_or (c : PdcpConfig) (hy : y < 2 ^ 7) : dcBit c ||| y = dcBit c + y := by
  rw [dcBit]
  split
  · exact (two_pow_add_eq_or_of_lt hy 1).symm
  · simp

/-- **The SN of a header is read back.** -/
theorem rcvdSn_pduHeader (hsn : sn < 2 ^ c.snSize) (x : List UInt8) :
    rcvdSn c (pduHeader c sn ++ x) = sn := by
  have hand : ∀ n k : ℕ, n &&& (2 ^ k - 1) = n % 2 ^ k := Nat.and_two_pow_sub_one_eq_mod
  have h8 : ∀ n : ℕ, n &&& 0xff = n % 256 := fun n ↦ hand n 8
  have h4 : ∀ n : ℕ, n &&& 0xf = n % 16 := fun n ↦ hand n 4
  have h2 : ∀ n : ℕ, n &&& 0x3 = n % 4 := fun n ↦ hand n 2
  have hdc : dcBit c = 128 ∨ dcBit c = 0 := by
    rw [dcBit]
    split
    · exact .inl rfl
    · exact .inr rfl
  have hor : ∀ q r : ℕ, r < 256 → (q <<< 8) ||| r = 256 * q + r := fun q r hr ↦ by
    rw [← Nat.shiftLeft_add_eq_or_of_lt (i := 8) hr, Nat.shiftLeft_eq]
    ring
  rcases c.snSize_eq with h | h
  · rw [h] at hsn
    rw [rcvdSn, pduHeader, if_pos h, if_pos h]
    simp only [cons_append, getD_cons_zero, getD_cons_succ, UInt8.toNat_ofNat', h4, h8,
      Nat.shiftRight_eq_div_pow]
    rw [dcBit_or c (by omega), hor _ _ (by omega)]
    omega
  · rw [h] at hsn
    have hne : ¬ c.snSize = 12 := by omega
    have hor' : ∀ q r : ℕ, r < 65536 → (q <<< 16) ||| r = 65536 * q + r := fun q r hr ↦ by
      rw [← Nat.shiftLeft_add_eq_or_of_lt (i := 16) hr, Nat.shiftLeft_eq]
      ring
    rw [rcvdSn, pduHeader, if_neg hne, if_neg hne]
    simp only [cons_append, getD_cons_zero, getD_cons_succ, UInt8.toNat_ofNat', h2, h8,
      Nat.shiftRight_eq_div_pow, Nat.or_assoc]
    rw [dcBit_or c (by omega), hor _ _ (by omega), hor' _ _ (by omega)]
    omega

/-- The D/C bit of a header is right. -/
theorem forceDcBit_pduHeader (c : PdcpConfig) (sn : ℕ) (x : List UInt8) :
    forceDcBit c (pduHeader c sn ++ x) = pduHeader c sn ++ x := by
  have hset : ∀ y : Fin 128, UInt8.ofNat (0x80 ||| y.1) ||| 0x80 = UInt8.ofNat (0x80 ||| y.1) := by
    decide
  rw [forceDcBit]
  split
  · rfl
  · rename_i htype
    have hdc : dcBit c = 0x80 := by
      rw [dcBit, if_pos]
      rcases hc : c.type with - | - | -
      · exact .inl rfl
      · exact .inr rfl
      · exact absurd hc htype
    rw [pduHeader, hdc]
    split
    · rw [cons_append, modify_zero_cons,
        hset ⟨(sn >>> 8) &&& 0xf, and_lt_two_pow _ (by decide : 0xf < 2 ^ 7)⟩]
    · rw [cons_append, modify_zero_cons,
        hset ⟨(sn >>> 16) &&& 0x3, and_lt_two_pow _ (by decide : 0x3 < 2 ^ 7)⟩]

/-- **Matching configurations**: the bearer is the same, seen from its two ends. -/
structure Matches (c c' : PdcpConfig) : Prop where
  type_eq : c'.type = c.type
  isGnb_eq : c'.isGnb = !c.isGnb
  rbId_eq : c'.rbId = c.rbId
  sdap_eq : c'.hasSdapRx = c.hasSdapTx
  snSize_eq : c'.snSize = c.snSize

/-- The PDU of an SDU. -/
def pduOf (a : PdcpAlgorithms) (c : PdcpConfig) (s : PdcpSecurity) (count : ℕ) (sdu : List UInt8) :
    List UInt8 :=
  let pdu := appendMacI a c s (pduHeader c (count % 2 ^ c.snSize) ++ sdu) count
  if s.hasCiphering then cipher a c s pdu (c.headerSize + c.hasSdapTx.toNat) count c.isGnb else pdu

theorem processSdu_eq (e : NrPdcpEntity) (hs : e.entitySuspended = false) (buffer : List UInt8) :
    e.processSdu a c buffer =
      ({ e with txNext := (e.txNext + 1) % 2 ^ 32 }, some (pduOf a c e.security e.txNext buffer)) := by
  rw [NrPdcpEntity.processSdu, hs, PdcpConfig.snMax_eq, and_two_pow_sub_one_eq_mod]
  rfl

/-- MAC-I behind the data, of the size that the receiver takes off. -/
theorem exists_macI (a : PdcpAlgorithms) (c : PdcpConfig) (s : PdcpSecurity) (message : List UInt8)
    (count : ℕ) : ∃ mac, appendMacI a c s message count = message ++ mac ∧
      mac.length = integritySize c s ∧
      (s.hasIntegrity = true → mac = integrity a c s message count c.isGnb) := by
  rw [appendMacI]
  by_cases hi : s.hasIntegrity = true
  · refine ⟨_, if_pos hi, ?_, fun _ ↦ rfl⟩
    rw [integrity, a.length_macI, integritySize, hi]
    rfl
  · rw [if_neg hi]
    by_cases h4 : integritySize c s = 4
    · exact ⟨[0, 0, 0, 0], if_pos h4, h4.symm, fun h ↦ absurd h hi⟩
    · refine ⟨[], by rw [if_neg h4, append_nil], ?_, fun h ↦ absurd h hi⟩
      rw [integritySize] at h4 ⊢
      split
      · rename_i h
        exact absurd (if_pos h) h4
      · rfl

section

variable (hm : Matches c c')
include hm

/-- Both ends cut PDUs in the same way. -/
theorem Matches.headerSize_eq : c'.headerSize = c.headerSize := by
  rw [PdcpConfig.headerSize, PdcpConfig.headerSize, hm.snSize_eq]

theorem Matches.windowSize_eq : c'.windowSize = c.windowSize := by
  rw [PdcpConfig.windowSize, PdcpConfig.windowSize, hm.snSize_eq]

theorem Matches.integritySize_eq (s : PdcpSecurity) : integritySize c' s = integritySize c s := by
  rw [integritySize, integritySize, hm.type_eq]

theorem Matches.forceDcBit_eq (buffer : List UInt8) :
    forceDcBit c' buffer = forceDcBit c buffer := by
  rw [forceDcBit, forceDcBit, hm.type_eq]

theorem Matches.rcvdSn_eq (buffer : List UInt8) : rcvdSn c' buffer = rcvdSn c buffer := by
  rw [rcvdSn, rcvdSn, hm.snSize_eq]

theorem Matches.decipher_eq (buffer : List UInt8) (count : ℕ) :
    decipher a c' s buffer count =
      if s.hasCiphering then cipher a c s buffer (c.headerSize + c.hasSdapTx.toNat) count c.isGnb
      else buffer := by
  rw [decipher, cipher, cipher, hm.headerSize_eq, hm.sdap_eq, hm.rbId_eq, hm.isGnb_eq, Bool.not_not]

theorem Matches.checkMacI_eq (buffer : List UInt8) (count : ℕ) :
    checkMacI a c' s buffer count =
      (!s.hasIntegrity || integrity a c s (buffer.take (buffer.length - integritySize c s)) count
        c.isGnb == buffer.drop (buffer.length - integritySize c s)) := by
  rw [checkMacI, hm.integritySize_eq, integrity, integrity, hm.rbId_eq, hm.isGnb_eq, Bool.not_not]

end

/-- The header of a PDU is not ciphered. -/
theorem exists_pduOf_eq (a : PdcpAlgorithms) (c : PdcpConfig) (s : PdcpSecurity) (count : ℕ)
    (sdu : List UInt8) : ∃ x, pduOf a c s count sdu = pduHeader c (count % 2 ^ c.snSize) ++ x := by
  obtain ⟨mac, hmac, -, -⟩ := exists_macI a c s (pduHeader c (count % 2 ^ c.snSize) ++ sdu) count
  rw [pduOf, hmac, append_assoc]
  split
  · rw [← length_pduHeader c (count % 2 ^ c.snSize), cipher_append]
    exact ⟨_, rfl⟩
  · exact ⟨_, rfl⟩

/-- **A PDU is read as the SDU it was made of**, if its COUNT is in the window. -/
theorem readPdu_pduOf (hm : Matches c c') (sdu : List UInt8)
    (hdeliv : rxDeliv < 2 ^ 32) (hcount : count < 2 ^ 32) (hge : rxDeliv ≤ count + c.windowSize)
    (hlt : count < rxDeliv + c.windowSize) :
    ∃ d, readPdu a c' s rxDeliv (forceDcBit c' (pduOf a c s count sdu)) = some ⟨count, sdu, d⟩ := by
  obtain ⟨x, hx⟩ := exists_pduOf_eq a c s count sdu
  have hforce : forceDcBit c' (pduOf a c s count sdu) = pduOf a c s count sdu := by
    rw [hm.forceDcBit_eq, hx, forceDcBit_pduHeader]
  have hsn : rcvdSn c' (pduOf a c s count sdu) = count % 2 ^ c.snSize := by
    rw [hm.rcvdSn_eq, hx, rcvdSn_pduHeader (Nat.mod_lt _ (Nat.two_pow_pos _))]
  have hfound : rcvdCount c' rxDeliv (count % 2 ^ c.snSize) = count := by
    rw [← hm.snSize_eq]
    rw [← hm.windowSize_eq] at hge hlt
    exact rcvdCount_of_window hdeliv hcount hge hlt
  obtain ⟨mac, hmac, hlen, hint⟩ :=
    exists_macI a c s (pduHeader c (count % 2 ^ c.snSize) ++ sdu) count
  have hplain : decipher a c' s (pduOf a c s count sdu) count =
      (pduHeader c (count % 2 ^ c.snSize) ++ sdu) ++ mac := by
    rw [hm.decipher_eq, pduOf, hmac]
    split
    · rw [cipher_cipher]
    · rfl
  have hsize : ((pduHeader c (count % 2 ^ c.snSize) ++ sdu) ++ mac).length - integritySize c s =
      (pduHeader c (count % 2 ^ c.snSize) ++ sdu).length := by
    rw [length_append, hlen, Nat.add_sub_cancel]
  have hcheck : checkMacI a c' s ((pduHeader c (count % 2 ^ c.snSize) ++ sdu) ++ mac) count = true := by
    rw [hm.checkMacI_eq, hsize, take_left, drop_left]
    rcases hi : s.hasIntegrity with - | -
    · rfl
    · simp [hint hi]
  refine ⟨storeIntegrityData c' s (pduOf a c s count sdu) count, ?_⟩
  rw [readPdu, hforce, hsn, hfound, hplain]
  simp only [hcheck, if_true]
  rw [hm.integritySize_eq, hsize, take_left, hm.headerSize_eq, drop_left' (length_pduHeader c _)]

/-! ### The stream of SDUs -/

/-- What has been delivered, and what is stored. -/
def NrPdcpEntity.stream (e : NrPdcpEntity) : List NrPdcpSdu := e.delivered ++ e.rxList

theorem deliverRun_append (count : ℕ) (l : List NrPdcpSdu) :
    (deliverRun count l).1 ++ (deliverRun count l).2.2 = l := by
  induction l generalizing count with
  | nil => rfl
  | cons x l ih =>
    rw [deliverRun_cons]
    split
    · exact congrArg (x :: ·) (ih _)
    · rfl

@[simp] theorem stream_deliverFrom (e : NrPdcpEntity) (count : ℕ) :
    (deliverFrom e count).stream = e.stream := by
  show e.delivered ++ (deliverRun count e.rxList).1 ++ (deliverRun count e.rxList).2.2 = _
  rw [append_assoc, deliverRun_append]
  rfl

@[simp] theorem stream_deliverBelow (e : NrPdcpEntity) : e.deliverBelow.stream = e.stream := by
  show e.delivered ++ e.rxList.takeWhile _ ++ e.rxList.dropWhile _ = _
  rw [append_assoc, takeWhile_append_dropWhile]
  rfl

/-- **The stream is in order**, cut at `rx_deliv`. -/
structure StreamCore (e : NrPdcpEntity) : Prop where
  deliv_le_next : e.rxDeliv ≤ e.rxNext
  next_lt : e.rxNext < 2 ^ 32
  increasing : Increasing e.stream
  delivered_lt : ∀ x ∈ e.delivered, x.count < e.rxDeliv
  mem_bounds : ∀ x ∈ e.rxList, e.rxDeliv < x.count ∧ x.count < e.rxNext
  reord_le : e.tReorderingStart ≠ 0 → e.rxReord ≤ e.rxNext

/-- The stream, and a timer that waits for nothing that is delivered already. -/
structure StreamOrdered (e : NrPdcpEntity) : Prop extends StreamCore e where
  deliv_le_reord : e.tReorderingStart ≠ 0 → e.rxDeliv ≤ e.rxReord

/-- Delivering from a COUNT on that nothing delivered has reached. -/
theorem deliverFrom_streamCore (hnext : e.rxNext < 2 ^ 32) (hle : count ≤ e.rxNext)
    (hinc : Increasing e.stream) (hdeliv : ∀ x ∈ e.delivered, x.count < count)
    (hmem : ∀ x ∈ e.rxList, count ≤ x.count ∧ x.count < e.rxNext)
    (hreord : e.tReorderingStart ≠ 0 → e.rxReord ≤ e.rxNext) : StreamCore (deliverFrom e count) := by
  obtain ⟨happ, hmono, hbound, hrun, hrest⟩ := deliverRun_spec _ (pairwise_append.1 hinc).2.1
    (fun x hx ↦ (hmem x hx).1) (fun x hx ↦ (hmem x hx).2) hnext hle
  refine ⟨hbound, hnext, by rwa [stream_deliverFrom], fun x hx ↦ ?_, fun x hx ↦ ⟨hrest x hx, ?_⟩,
    hreord⟩
  · rcases mem_append.1 hx with hx | hx
    · exact (hdeliv x hx).trans_le hmono
    · exact hrun x hx
  · exact (hmem x (happ ▸ mem_append_right _ hx)).2

theorem StreamCore.startTReordering (h : StreamCore e) (hs : e.tReorderingStart = 0) :
    StreamOrdered (startTReordering e) := by
  rw [Pdcp.startTReordering]
  split
  · rename_i hgap
    exact ⟨⟨h.deliv_le_next, h.next_lt, h.increasing, h.delivered_lt, h.mem_bounds, fun _ ↦ le_rfl⟩,
      fun _ ↦ hgap.le⟩
  · exact ⟨h, fun hne ↦ absurd hs hne⟩

theorem StreamCore.updateTReordering (h : StreamCore e) : StreamOrdered (updateTReordering e) := by
  refine updateTReordering_cases h.startTReordering ?_ fun _ hlt ↦ ⟨h, fun _ ↦ hlt.le⟩
  have h' : StreamCore { e with tReorderingStart := 0 } :=
    ⟨h.deliv_le_next, h.next_lt, h.increasing, h.delivered_lt, h.mem_bounds,
      fun hne ↦ absurd rfl hne⟩
  exact h'.startTReordering rfl

theorem stream_updateTReordering (e : NrPdcpEntity) : (updateTReordering e).stream = e.stream := by
  have hstart : ∀ e, (startTReordering e).stream = e.stream := fun e ↦ by
    rw [startTReordering]
    split <;> rfl
  have hstop : ∀ e, (stopTReordering e).stream = e.stream := fun e ↦ by
    rw [stopTReordering]
    split <;> rfl
  rw [updateTReordering]
  split
  · rw [hstart, hstop]
  · exact hstop e

section

variable (h : StreamOrdered e) (hge : e.rxDeliv ≤ sdu.count)
  (hnew : ∀ x ∈ e.rxList, x.count ≠ sdu.count)
include h hge hnew

/-- The order with an SDU that is not behind `rx_deliv` and not there yet. -/
theorem StreamOrdered.storeSdu : Increasing (storeSdu e sdu).stream := by
  obtain ⟨hd, hl, hcross⟩ := pairwise_append.1 h.increasing
  refine pairwise_append.2 ⟨hd, Increasing.add hl hnew, fun x hx y hy ↦ ?_⟩
  rcases mem_nrPdcpSduListAdd.1 hy with rfl | hy
  · exact (h.delivered_lt x hx).trans_le hge
  · exact hcross x hx y hy

theorem StreamOrdered.receiveSdu
    (hlast : sdu.count + 1 < 2 ^ 32) : StreamCore (receiveSdu e sdu) := by
  have hnext := storeSdu_rxNext e hlast
  have hlt := h.next_lt
  have hbounds := storeSdu_bounds hge hlast h.mem_bounds
  have hreord : (Pdcp.storeSdu e sdu).tReorderingStart ≠ 0 →
      (Pdcp.storeSdu e sdu).rxReord ≤ (Pdcp.storeSdu e sdu).rxNext := fun hs ↦ by
    rw [hnext]
    exact (h.reord_le hs).trans (le_max_left _ _)
  rw [Pdcp.receiveSdu]
  split
  · rename_i heq
    exact deliverFrom_streamCore (by omega) (by omega) (h.storeSdu hge hnew) h.delivered_lt
      (fun x hx ↦ (hbounds x hx).1) hreord
  · rename_i hne
    refine ⟨?_, by omega, h.storeSdu hge hnew, h.delivered_lt, fun x hx ↦ (hbounds x hx).2 hne,
      hreord⟩
    rw [hnext]
    exact h.deliv_le_next.trans (le_max_left _ _)

end

/-- **A received PDU** adds at most its SDU to the stream. -/
theorem StreamOrdered.recvPdu (h : StreamOrdered e)
    (hread : readPdu a c e.security e.rxDeliv (forceDcBit c buffer) = some sdu)
    (hlast : sdu.count + 1 < 2 ^ 32) : StreamOrdered (e.recvPdu a c buffer) ∧
      ∀ x ∈ (e.recvPdu a c buffer).stream, x = sdu ∨ x ∈ e.stream := by
  rcases recvPdu_cases a c e buffer with ⟨-, heq⟩ | ⟨sdu', -, hread', heq⟩
  · rw [heq]
    exact ⟨h, fun x hx ↦ .inr hx⟩
  · obtain rfl := Option.some.inj (hread'.symm.trans hread)
    rw [heq]
    split
    · exact ⟨h, fun x hx ↦ .inr hx⟩
    · rename_i hnew
      simp only [Bool.or_eq_true, decide_eq_true_eq, not_or, not_lt, Bool.not_eq_true] at hnew
      refine ⟨(h.receiveSdu hnew.1 (not_inList_iff.1 hnew.2) hlast).updateTReordering,
        fun x hx ↦ ?_⟩
      rw [stream_updateTReordering] at hx
      have hx : x ∈ (Pdcp.storeSdu e sdu').stream := by
        rw [Pdcp.receiveSdu] at hx
        split at hx
        · rwa [stream_deliverFrom] at hx
        · exact hx
      rcases mem_append.1 hx with hx | hx
      · exact .inr (mem_append_left _ hx)
      · exact (mem_nrPdcpSduListAdd.1 hx).imp_right (mem_append_right _)

/-- **Time** only moves the cut of the stream. -/
theorem StreamOrdered.setTime (h : StreamOrdered e) (now : UInt64) :
    StreamOrdered (e.setTime c now) ∧ (e.setTime c now).stream = e.stream := by
  rw [NrPdcpEntity.setTime, NrPdcpEntity.checkTReordering]
  split
  · exact ⟨⟨⟨h.deliv_le_next, h.next_lt, h.increasing, h.delivered_lt, h.mem_bounds, h.reord_le⟩,
      h.deliv_le_reord⟩, rfl⟩
  · rename_i hexp
    have hs := tReorderingStart_ne_zero_of_expired hexp
    have hreord := h.reord_le hs
    have hle := h.deliv_le_reord hs
    have hl : Increasing e.rxList := (pairwise_append.1 h.increasing).2.1
    have hcore := deliverFrom_streamCore (e := NrPdcpEntity.deliverBelow
      { e with tCurrent := now, tReorderingStart := 0 }) h.next_lt hreord
      (by rw [stream_deliverBelow]; exact h.increasing)
      (fun x hx ↦ by
        rcases mem_append.1 hx with hx | hx
        · exact (h.delivered_lt x hx).trans_le hle
        · simpa using mem_takeWhile_imp hx)
      (fun x hx ↦ ⟨hl.le_of_mem_dropWhile hx, (h.mem_bounds x (dropWhile_subset _ hx)).2⟩)
      (fun hne ↦ absurd rfl hne)
    refine ⟨hcore.startTReordering rfl, ?_⟩
    rw [startTReordering]
    have hstream := stream_deliverFrom (NrPdcpEntity.deliverBelow
      { e with tCurrent := now, tReorderingStart := 0 }) e.rxReord
    rw [stream_deliverBelow] at hstream
    split <;> exact hstream

/-! ### The link -/

/-- A submitted SDU, with the COUNT and the PDU it was sent under. -/
structure SentPdu where
  count : ℕ
  (sdu pdu : List UInt8)
  deriving DecidableEq, Repr

/-- Two entities, and every PDU ever sent: the channel may present any of them at any time. -/
structure PdcpLink where
  (tx rx : NrPdcpEntity)
  sent : List SentPdu := []
  deriving DecidableEq, Repr

inductive PdcpLinkOp
  | processSdu (buffer : List UInt8)
  | recvPdu (i : ℕ)
  | setTimeTx (now : UInt64)
  | setTimeRx (now : UInt64)
  deriving DecidableEq, Repr

/-- The entities, which have the same security, under any interleaving of calls. -/
def pdcpLink (a : PdcpAlgorithms) (c c' : PdcpConfig) (security : PdcpSecurity) :
    StepSystem PdcpLink PdcpLinkOp where
  init := { tx := { security := security }, rx := { security := security } }
  step t
    | .processSdu buffer =>
      match t.tx.processSdu a c buffer with
      | (tx, none) => some { t with tx := tx }
      | (tx, some pdu) => some { t with tx := tx, sent := t.sent ++ [⟨t.tx.txNext, buffer, pdu⟩] }
    | .recvPdu i => t.sent[i]?.map fun p ↦ { t with rx := t.rx.recvPdu a c' p.pdu }
    | .setTimeTx now => some { t with tx := t.tx.setTime c now }
    | .setTimeRx now => some { t with rx := t.rx.setTime c' now }

/-- A PDU is presented while its COUNT is in the window of the receiver, and is not the last. -/
def PresentsInWindow (c' : PdcpConfig) (t : PdcpLink) : PdcpLinkOp → Prop
  | .recvPdu i => ∀ p ∈ t.sent[i]?, t.rx.rxDeliv ≤ p.count + c'.windowSize ∧
      p.count < t.rx.rxDeliv + c'.windowSize ∧ p.count + 1 < 2 ^ 32
  | _ => True

instance (t : PdcpLink) (op : PdcpLinkOp) : Decidable (PresentsInWindow c' t op) := by
  unfold PresentsInWindow
  split <;> infer_instance

/-- The state of a link along a run. -/
structure LinkInv (a : PdcpAlgorithms) (c : PdcpConfig) (security : PdcpSecurity) (t : PdcpLink) :
    Prop where
  tx_security : t.tx.security = security
  tx_awake : t.tx.entitySuspended = false
  rx_security : t.rx.security = security
  sent_eq : ∀ p ∈ t.sent, p.pdu = pduOf a c security p.count p.sdu
  ordered : StreamOrdered t.rx
  submitted : ∀ x ∈ t.rx.stream, ∃ p ∈ t.sent, p.count = x.count ∧ p.sdu = x.buffer

theorem setTime_frame (e : NrPdcpEntity) (now : UInt64) :
    (e.setTime c now).security = e.security ∧
      (e.setTime c now).entitySuspended = e.entitySuspended := by
  rw [NrPdcpEntity.setTime, NrPdcpEntity.checkTReordering, startTReordering]
  split
  · exact ⟨rfl, rfl⟩
  · split <;> exact ⟨rfl, rfl⟩

theorem recvPdu_security (e : NrPdcpEntity) (buffer : List UInt8) :
    (e.recvPdu a c buffer).security = e.security := by
  have hupdate : ∀ e : NrPdcpEntity, (updateTReordering e).security = e.security := fun e ↦ by
    rw [updateTReordering, stopTReordering, startTReordering]
    split <;> split <;> (try split) <;> rfl
  rcases recvPdu_cases a c e buffer with ⟨-, heq⟩ | ⟨sdu, -, -, heq⟩
  · rw [heq]
  · rw [heq]
    split
    · rfl
    · rw [hupdate, receiveSdu]
      split <;> rfl

theorem LinkInv.step (hm : Matches c c') (h : LinkInv a c security t)
    (hok : PresentsInWindow c' t op)
    (hstep : (pdcpLink a c c' security).step t op = some t') : LinkInv a c security t' := by
  rcases op with buffer | i | now | now
  · have hproc := processSdu_eq (a := a) (c := c) t.tx h.tx_awake buffer
    simp only [pdcpLink, hproc, Option.some.injEq] at hstep
    subst hstep
    refine ⟨h.tx_security, h.tx_awake, h.rx_security, fun p hp ↦ ?_, h.ordered, fun x hx ↦ ?_⟩
    · rcases mem_append.1 hp with hp | hp
      · exact h.sent_eq p hp
      · obtain rfl := mem_singleton.1 hp
        rw [← h.tx_security]
    · obtain ⟨p, hp, heq⟩ := h.submitted x hx
      exact ⟨p, mem_append_left _ hp, heq⟩
  · obtain ⟨p, hp, rfl⟩ := Option.map_eq_some_iff.1 hstep
    obtain ⟨hge, hlt, hlast⟩ := hok p hp
    have hmem := mem_of_getElem? hp
    rw [hm.windowSize_eq] at hge hlt
    have hdeliv : t.rx.rxDeliv < 2 ^ 32 := lt_of_le_of_lt h.ordered.deliv_le_next h.ordered.next_lt
    obtain ⟨d, hread⟩ := readPdu_pduOf (a := a) (s := security) hm p.sdu hdeliv
      (by omega : p.count < 2 ^ 32) hge hlt
    rw [← h.sent_eq p hmem, ← h.rx_security] at hread
    obtain ⟨hord, hstream⟩ := h.ordered.recvPdu hread hlast
    refine ⟨h.tx_security, h.tx_awake, ?_, h.sent_eq, hord, fun x hx ↦ ?_⟩
    · exact (recvPdu_security _ _).trans h.rx_security
    · rcases hstream x hx with rfl | hx
      · exact ⟨p, hmem, rfl, rfl⟩
      · exact h.submitted x hx
  · cases hstep
    obtain ⟨hsec, hsus⟩ := setTime_frame (c := c) t.tx now
    exact ⟨hsec.trans h.tx_security, hsus.trans h.tx_awake, h.rx_security, h.sent_eq, h.ordered,
      h.submitted⟩
  · cases hstep
    obtain ⟨hord, hstream⟩ := h.ordered.setTime (c := c') now
    refine ⟨h.tx_security, h.tx_awake, (setTime_frame _ now).1.trans h.rx_security, h.sent_eq, hord,
      fun x hx ↦ h.submitted x ?_⟩
    rwa [hstream] at hx

/-- **End to end**: whatever the channel loses, repeats or reorders, SDUs are delivered in order of
COUNT, each as it was submitted under its COUNT. -/
theorem delivers_in_order_of_count (a : PdcpAlgorithms) {c c' : PdcpConfig} (hm : Matches c c')
    (security : PdcpSecurity) {t : PdcpLink}
    (h : (pdcpLink a c c' security).Reach (PresentsInWindow c') t) :
    (t.rx.delivered.map NrPdcpSdu.count).Pairwise (· < ·) ∧
      ∀ x ∈ t.rx.delivered, ∃ p ∈ t.sent, p.count = x.count ∧ p.sdu = x.buffer := by
  have hinv : LinkInv a c security t := by
    refine h.invariant ⟨rfl, rfl, rfl, by simp [pdcpLink], ?_, ?_⟩ fun h hok hstep ↦ h.step hm hok hstep
    · exact ⟨⟨le_rfl, Nat.two_pow_pos 32, List.Pairwise.nil, by simp [pdcpLink], by simp [pdcpLink],
        fun hne ↦ absurd rfl hne⟩, fun hne ↦ absurd rfl hne⟩
    · simp [pdcpLink, NrPdcpEntity.stream]
  refine ⟨pairwise_map.2 (pairwise_append.1 hinv.ordered.increasing).1, fun x hx ↦ ?_⟩
  exact hinv.submitted x (mem_append_left _ hx)

/-- The other end of `shortSnDrb`. -/
def shortSnDrbUe : PdcpConfig := ⟨.drbUm, false, 1, false, false, 12, 100, shortSn_allowed⟩

/-- Two SDUs that change places on the way, the second one twice. -/
theorem delivers_in_order_after_reordering :
    ∃ t, (pdcpLink nullAlgorithms shortSnDrb shortSnDrbUe {}).Reach
        (PresentsInWindow shortSnDrbUe) t ∧
      t.rx.delivered.map NrPdcpSdu.buffer = [[0xaa], [0xbb]] ∧
      (t.rx.delivered.map NrPdcpSdu.count).Pairwise (· < ·) :=
  ⟨_, (pdcpLink nullAlgorithms shortSnDrb shortSnDrbUe {}).reach_get_exec
    (PresentsInWindow shortSnDrbUe)
    [.processSdu [0xaa], .processSdu [0xbb], .setTimeRx 1, .recvPdu 1, .recvPdu 0, .recvPdu 1]
    (by decide), by decide,
    (delivers_in_order_of_count nullAlgorithms
      (⟨rfl, rfl, rfl, rfl, rfl⟩ : Matches shortSnDrb shortSnDrbUe) {}
      ((pdcpLink nullAlgorithms shortSnDrb shortSnDrbUe {}).reach_get_exec
        (PresentsInWindow shortSnDrbUe)
        [.processSdu [0xaa], .processSdu [0xbb], .setTimeRx 1, .recvPdu 1, .recvPdu 0, .recvPdu 1]
        (by decide))).1⟩

/-! ### Any bytes -/

/-- No PDU is read under the last COUNT, and the COUNTs are not reset. -/
def NeverLast (a : PdcpAlgorithms) (c : PdcpConfig) (e : NrPdcpEntity) : PdcpOp → Prop
  | .recvPdu buffer =>
    ∀ sdu ∈ readPdu a c e.security e.rxDeliv (forceDcBit c buffer), sdu.count + 1 < 2 ^ 32
  | .suspend | .reestablish _ => False
  | _ => True

instance : (op : PdcpOp) → Decidable (NeverLast a c e op)
  | .recvPdu _ => inferInstanceAs (Decidable (∀ sdu ∈ readPdu _ _ _ _ _, _ < _))
  | .processSdu _ | .setTime _ => isTrue trivial
  | .suspend | .reestablish _ => isFalse id

theorem StreamOrdered.step (h : StreamOrdered e) (hok : NeverLast a c e op)
    (hstep : (pdcpSystem a c security).step e op = some e') : StreamOrdered e' := by
  rcases op with buffer | buffer | now | - | parameters
  · cases hstep
    rcases recvPdu_cases a c e buffer with ⟨-, heq⟩ | ⟨sdu, -, hread, -⟩
    · rw [heq]
      exact h
    · exact (h.recvPdu hread (hok sdu hread)).1
  · cases hstep
    rw [NrPdcpEntity.processSdu]
    split
    · exact h
    · exact ⟨⟨h.deliv_le_next, h.next_lt, h.increasing, h.delivered_lt, h.mem_bounds, h.reord_le⟩,
        h.deliv_le_reord⟩
  · cases hstep
    exact (h.setTime now).1
  · exact hok.elim
  · exact hok.elim

/-- **Whatever bytes arrive, no COUNT is delivered twice or out of order.** -/
theorem delivered_increasing (a : PdcpAlgorithms) (c : PdcpConfig) (security : PdcpSecurity)
    {e : NrPdcpEntity} (h : (pdcpSystem a c security).Reach (NeverLast a c) e) :
    Increasing e.delivered := by
  have hinit : StreamOrdered { security := security } :=
    ⟨⟨le_rfl, Nat.two_pow_pos 32, .nil, nofun, nofun, fun hne ↦ absurd rfl hne⟩,
      fun hne ↦ absurd rfl hne⟩
  have hinv := h.invariant hinit StreamOrdered.step
  exact (pairwise_append.1 hinv.increasing).1

/-- The PDU of COUNT 1 comes before the one of COUNT 0, and once more. -/
theorem delivered_increasing_after_replay :
    ∃ e, (pdcpSystem nullAlgorithms shortSnDrb {}).Reach (NeverLast nullAlgorithms shortSnDrb) e ∧
      e.delivered.length = 2 ∧ Increasing e.delivered :=
  have h := (pdcpSystem nullAlgorithms shortSnDrb {}).reach_get_exec
    (NeverLast nullAlgorithms shortSnDrb)
    [.recvPdu [0x80, 1, 0xaa], .recvPdu [0x80, 0, 0xbb], .recvPdu [0x80, 1, 0xaa]] (by decide)
  ⟨_, h, by decide, delivered_increasing _ _ _ h⟩

end OaiRan.Pdcp
