import KTools.Lanplus.Receive
import KTools.Lib.Keeps

/-!
# The bytes of earlier datagrams

The response structure is static: behind the received bytes lie those of earlier datagrams, and its
header and union hold what was read last. A run of `ipmi_lan_poll_single` whose accesses stay in range
(`Safe`) does not depend on them: from two states with the same pending requests and the same last
completion code it takes the same datagram apart in the same way (`pollSingle_same`).

The relation between the two runs is `Same`, and `Det` says that a part keeps it. Parts compose because
no part takes an access back (`Grows`), so that every part of a safe run is safe.
-/

namespace KTools.Lanplus
open KTools.Lib KTools.Lib.Bytes

/-! ### Accesses in range -/

/-- The access stays inside a packet of `n` bytes, the data array, or the decrypted bytes, and the
length is not negative. -/
def Access.InRange (n : Nat) : Access → Prop
  | .read off len => len = 0 ∨ off + len ≤ n
  | .write off len => len = 0 ∨ off + len ≤ ipmiBufSize
  | .sub a b => b ≤ a
  | .scratch off len size => len = 0 ∨ off + len ≤ size

def Safe (n : Nat) (s : RxState) : Prop := ∀ a ∈ s.log, a.InRange n

/-- The program only adds accesses. -/
def Grows {α : Type} (m : Rx α) : Prop := ∀ log, Keeps (fun s => log <+: s.log) m

namespace Grows
variable {α β : Type}

theorem pure (a : α) : Grows (Pure.pure a : Rx α) := fun _ => Keeps.pure a

theorem throw (e : Abort) : Grows (MonadExcept.throw e : Rx α) := fun _ => Keeps.throw e

theorem get : Grows (MonadState.get : Rx RxState) := fun _ => Keeps.get

theorem touch (l : List Access) : Grows (Lanplus.touch l) := fun _ =>
  Keeps.modify fun _ h => List.IsPrefix.trans h (List.prefix_append _ _)

theorem modifyRsp (f : IpmiRs → IpmiRs) : Grows (Lanplus.modifyRsp f) := fun _ =>
  Keeps.modify fun _ h => h

theorem modifyEntries (f : List RqEntry → List RqEntry) : Grows (Lanplus.modifyEntries f) := fun _ =>
  Keeps.modify fun _ h => h

theorem bind {m : Rx α} {f : α → Rx β} (hm : Grows m) (hf : ∀ a, Grows (f a)) : Grows (m >>= f) :=
  fun log => Keeps.bind (hm log) fun a => hf a log

theorem ite {p : Prop} [Decidable p] {m m' : Rx α} (hm : Grows m) (hm' : Grows m') :
    Grows (if p then m else m') := fun log => Keeps.ite (hm log) (hm' log)

end Grows

theorem Safe.of_prefix {n : Nat} {s s' : RxState} (h : Safe n s') (hlog : s.log <+: s'.log) :
    Safe n s := fun a ha => h a (hlog.subset ha)

/-- The first part of a safe run is safe. -/
theorem Safe.of_bind {α β : Type} {n : Nat} {m : Rx α} {f : α → Rx β} {s s' : RxState} {a : α}
    (hrun : m s = .ok a s') (hf : Grows (f a)) (h : Ends (Safe n) (m >>= f) s) : Safe n s' := by
  rw [ends_bind_ok hrun] at h
  exact h.of_prefix (hf s'.log s' (List.prefix_refl _))

@[simp] theorem safe_append {n : Nat} {rsp : IpmiRs} {entries : List RqEntry} {log l : List Access} :
    Safe n ⟨rsp, entries, log ++ l⟩ ↔ (∀ a ∈ log, a.InRange n) ∧ ∀ a ∈ l, a.InRange n :=
  List.forall_mem_append

theorem Grows.shiftData (off payloadSize header trailer : Nat) :
    Grows (shiftData off payloadSize header trailer) :=
  .bind (.touch _) fun _ => .ite (.bind (.touch _) fun _ => .modifyRsp _) (.modifyRsp _)

theorem Grows.readIpmiResponse (off : Nat) : Grows (readIpmiResponse off) :=
  .bind (.touch _) fun _ => .modifyRsp _

theorem Grows.matchedResponse (off payloadSize dataLen : Nat) (r : IpmiResponse) (ccode : UInt8)
    (entry : RqEntry) : Grows (matchedResponse off payloadSize dataLen r ccode entry) := by
  refine .ite (.bind (.modifyEntries _) fun _ => .ite ?_ (.pure _)) ?_
  · exact .bind (.touch _) fun _ => .bind (.modifyEntries _) fun _ =>
      .bind (.shiftData _ _ _ _) fun _ => .pure _
  · exact .bind (.modifyEntries _) fun _ => .bind (.shiftData _ _ _ _) fun _ => .pure _

theorem Grows.matchResponse (off payloadSize : Nat) : Grows (matchResponse off payloadSize) := by
  refine .bind .get fun s => ?_
  cases pendingEntry s.rsp.data off s.entries with
  | none => exact .pure _
  | some entry => exact .matchedResponse _ _ _ _ _ _

theorem Grows.handleIpmiResponse (off payloadSize : Nat) : Grows (handleIpmiResponse off payloadSize) :=
  .bind (.readIpmiResponse off) fun _ => .matchResponse off payloadSize

theorem Grows.ipmiResponses (payloadSize : Nat) : ∀ off, Grows (ipmiResponses off payloadSize) := by
  induction payloadSize using Nat.strongRecOn with
  | _ payloadSize ih =>
    intro off
    unfold Lanplus.ipmiResponses
    refine .bind (.handleIpmiResponse off payloadSize) fun turn => ?_
    cases turn with
    | again => exact .pure _
    | last => exact .pure _
    | embedded =>
      dsimp only
      split
      · exact ih _ (by omega) 0
      · exact .pure _

theorem Grows.readOpenSessionResponse (off : Nat) : Grows (readOpenSessionResponse off) :=
  .bind .get fun _ => .bind (.touch _) fun _ => .modifyRsp _

/-- A message with a fixed head and a code behind it, if there is one for the algorithm. -/
theorem grows_touch_code (head : List Access) (off : Nat) (code : Option Nat) (g : Nat → IpmiRs → IpmiRs) :
    Grows (do
      touch head
      let some len := code | throw .assertion
      touch [.read off len]
      modifyRsp (g len) : Rx PUnit) := by
  refine .bind (.touch _) fun _ => ?_
  cases code with
  | none => exact .throw _
  | some len => exact .bind (.touch _) fun _ => .modifyRsp _

theorem Grows.readRakp2Message (off : Nat) (authAlg : UInt8) : Grows (readRakp2Message off authAlg) :=
  grows_touch_code _ _ _ _

theorem Grows.readRakp4Message (off : Nat) (authAlg : UInt8) : Grows (readRakp4Message off authAlg) :=
  grows_touch_code _ _ _ _

theorem Grows.readSolPacket (off : Nat) : Grows (readSolPacket off) :=
  .bind (.touch _) fun _ => .modifyRsp _

theorem Grows.handlePayload (e : RxEnv) (payloadtype : UInt8) (off payloadSize : Nat) :
    Grows (handlePayload e payloadtype off payloadSize) := by
  have hopen := (Grows.readOpenSessionResponse off).bind fun _ => .pure Poll.rsp
  have hrakp2 := (Grows.readRakp2Message off e.v2.authAlg).bind fun _ => .pure Poll.rsp
  have hrakp4 := (Grows.readRakp4Message off e.v2.authAlg).bind fun _ => .pure Poll.rsp
  have hshift := (Grows.shiftData off payloadSize solHeaderLength 0).bind fun _ => .pure Poll.rsp
  have hsol := (Grows.readSolPacket off).bind fun _ => hshift
  apply Grows.ite (.ipmiResponses payloadSize off)
  -- each of the others is read only in its state of the session
  apply Grows.ite (.ite (.pure _) hopen)
  apply Grows.ite (.ite (.pure _) hrakp2)
  apply Grows.ite (.ite (.pure _) hrakp4)
  exact .ite (.ite (.pure _) hsol) (.pure _)

theorem Grows.checkPad (e : RxEnv) (decrypted : List UInt8) (payloadSize n : Nat) :
    ∀ i, Grows (checkPad e decrypted payloadSize n i) := by
  induction n with
  | zero => exact fun _ => .pure _
  | succ n ih => exact fun i => .bind (.touch _) fun _ => .ite (.throw _) (ih (i + 1))

theorem Grows.unpadDecrypted (e : RxEnv) (off : Nat) (decrypted : List UInt8) :
    Grows (unpadDecrypted e off decrypted) :=
  .bind (.touch _) fun _ => .bind (.modifyRsp _) fun _ => .bind (.touch _) fun _ =>
    .bind (.checkPad _ _ _ _ _) fun _ => .pure _

theorem Grows.decryptInput (e : RxEnv) (off length : Nat) :
    Grows (do
      Lanplus.touch [.read (off + cryptAesCbc128BlockSize) length]
      let s ← MonadState.get
      Lanplus.unpadDecrypted e off (e.crypto.aesDecrypt (slice s.rsp.data off cryptAesCbc128BlockSize) e.v2.k2
        (slice s.rsp.data (off + cryptAesCbc128BlockSize) length))) :=
  .bind (.touch _) fun _ => .bind .get fun _ => .unpadDecrypted _ _ _

theorem Grows.lanplusDecryptPayload (e : RxEnv) (off inputLength : Nat) :
    Grows (lanplusDecryptPayload e off inputLength) := by
  refine .ite (.bind (.touch _) fun _ => .pure _) (.ite (.throw _) (.bind (.touch _) fun _ => ?_))
  exact .ite (.throw _) (.bind (.touch _) fun _ => .ite (.throw _) (.decryptInput _ _ _))

theorem Grows.compareAuthcode (e : RxEnv) (dataLen len : Nat) : Grows (compareAuthcode e dataLen len) := by
  refine .bind (.touch _) fun _ => .ite (.throw _) (.bind (.touch _) fun _ => .bind .get fun s => ?_)
  dsimp only
  cases lanplusHMAC e.crypto e.v2.integrityAlg e.v2.k1
    (slice s.rsp.data offsetAuthtype (dataLen - offsetAuthtype - len)) with
  | none => exact .throw _
  | some mac => exact .pure _

theorem Grows.lanplusHasValidAuthCode (e : RxEnv) : Grows (lanplusHasValidAuthCode e) := by
  refine .bind .get fun s => .ite (.pure _) ?_
  cases authcodeLength e.v2.integrityAlg with
  | none => exact .throw _
  | some len => exact .compareAuthcode _ _ _

/-! ### The same packet over other memory -/

/-- Two states that hold the same packet of `n` bytes, the same pending requests and the same last
completion code; `hdr` relates the session headers and `pl` the unions. -/
structure Same (n : Nat) (hdr : SessionHdr → SessionHdr → Prop) (pl : RsPayload → RsPayload → Prop)
    (s t : RxState) : Prop where
  entries : t.entries = s.entries
  log : t.log = s.log
  ccode : t.rsp.ccode = s.rsp.ccode
  dataLen : t.rsp.dataLen = s.rsp.dataLen
  dataLen_le : s.rsp.dataLen ≤ n
  data : ∀ i < n, t.rsp.data i = s.rsp.data i
  session : hdr s.rsp.session t.rsp.session
  payload : pl s.rsp.payload t.rsp.payload

/-- A v1.5 header leaves the session id and the sequence number of an earlier packet. -/
structure SameHdr (g h : SessionHdr) : Prop where
  authtype : h.authtype = g.authtype
  bEncrypted : h.bEncrypted = g.bEncrypted
  bAuthenticated : h.bAuthenticated = g.bAuthenticated
  payloadtype : h.payloadtype = g.payloadtype
  msglen : h.msglen = g.msglen
  id : g.authtype = authtypeRmcpPlus → h.id = g.id

/-- Two runs with the same result, in related states. -/
inductive SameResult {α : Type} (R : α → RxState → RxState → Prop) :
    EStateM.Result Abort RxState α → EStateM.Result Abort RxState α → Prop
  | ok {a : α} {s t : RxState} (h : R a s t) : SameResult R (.ok a s) (.ok a t)
  | error {e : Abort} {s t : RxState} (h : t.log = s.log) : SameResult R (.error e s) (.error e t)

/-- A run that stays in range has the same result from related states. -/
def Det {α : Type} (n : Nat) (R : RxState → RxState → Prop) (m : Rx α)
    (R' : α → RxState → RxState → Prop) : Prop :=
  ∀ s t, R s t → Ends (Safe n) m s → SameResult R' (m s) (m t)

namespace Det
variable {α β : Type} {n : Nat} {R : RxState → RxState → Prop}

theorem bind {m : Rx α} {f : α → Rx β} {Q : α → RxState → RxState → Prop}
    {S : β → RxState → RxState → Prop} (hm : Det n R m Q) (hf : ∀ a, Det n (Q a) (f a) S)
    (hgrows : ∀ a, Grows (f a)) : Det n R (m >>= f) S := by
  intro s t hR hsafe
  have hfirst : Ends (Safe n) m s := by
    cases hrun : m s with
    | ok a s' => exact (ends_ok hrun).2 (Safe.of_bind hrun (hgrows a) hsafe)
    | error e s' =>
      rw [ends_bind_error hrun] at hsafe
      exact (ends_error hrun).2 hsafe
  have hsame := hm s t hR hfirst
  cases hms : m s with
  | ok a s' =>
    rw [hms] at hsame
    cases hmt : m t with
    | error e t' => rw [hmt] at hsame; cases hsame
    | ok b t' =>
      rw [hmt] at hsame
      cases hsame with
      | ok hQ =>
        rw [ends_bind_ok hms] at hsafe
        have := hf a s' t' hQ hsafe
        simpa only [Bind.bind, EStateM.bind, hms, hmt] using this
  | error e s' =>
    rw [hms] at hsame
    cases hmt : m t with
    | ok b t' => rw [hmt] at hsame; cases hsame
    | error e' t' =>
      rw [hmt] at hsame
      cases hsame with
      | error hlog =>
        simpa only [Bind.bind, EStateM.bind, hms, hmt] using SameResult.error hlog

theorem pure {R' : α → RxState → RxState → Prop} {a : α} (h : ∀ s t, R s t → R' a s t) :
    Det n R (Pure.pure a : Rx α) R' := fun s t hR _ => .ok (h s t hR)

theorem ite {R' : α → RxState → RxState → Prop} {p : Prop} [Decidable p] {m m' : Rx α}
    (hm : Det n R m R') (hm' : Det n R m' R') : Det n R (if p then m else m') R' := by
  split
  · exact hm
  · exact hm'

/-- After reading the state, both runs are followed from a pair of related states. -/
theorem get_bind {f : RxState → Rx α} {R' : α → RxState → RxState → Prop}
    (h : ∀ s t, R s t → Ends (Safe n) (f s) s → SameResult R' (f s s) (f t t)) :
    Det n R (get >>= f) R' := h

end Det

section stages
variable {n : Nat} {hdr : SessionHdr → SessionHdr → Prop} {pl : RsPayload → RsPayload → Prop}
  {α : Type} {R' : α → RxState → RxState → Prop}

theorem Same.slice {s t : RxState} (h : Same n hdr pl s t) (off len : Nat)
    (hrange : len = 0 ∨ off + len ≤ n) : slice t.rsp.data off len = slice s.rsp.data off len :=
  slice_congr fun i _ hi => h.data i (by omega)

theorem Same.store {s t : RxState} (h : Same n hdr pl s t) (off : Nat) (bytes : List UInt8) {i : Nat}
    (hi : i < n) : Bytes.store t.rsp.data off bytes i = Bytes.store s.rsp.data off bytes i :=
  store_congr _ _ _ fun _ => h.data i hi

theorem touch_inRange {l : List Access} {f : PUnit → Rx α} {s : RxState}
    (h : Ends (Safe n) (touch l >>= f) s) (hgrows : Grows (f ⟨⟩)) : ∀ a ∈ l, a.InRange n :=
  (safe_append.1 (Safe.of_bind (a := PUnit.unit) (m := touch l) rfl hgrows h)).2

/-- What was touched is in range for the rest of the program. -/
theorem det_touch_bind {l : List Access} {f : PUnit → Rx α} (hgrows : Grows (f ⟨⟩))
    (hf : (∀ a ∈ l, a.InRange n) → Det n (Same n hdr pl) (f ⟨⟩) R') :
    Det n (Same n hdr pl) (touch l >>= f) R' := by
  intro s t h hsafe
  exact hf (touch_inRange hsafe hgrows) { s with log := s.log ++ l } { t with log := t.log ++ l } ⟨h.entries,
    by simp only [h.log], h.ccode, h.dataLen, h.dataLen_le, h.data, h.session, h.payload⟩ hsafe

theorem det_modifyRsp {H : SessionHdr → SessionHdr → Prop} {P : RsPayload → RsPayload → Prop}
    {g : IpmiRs → IpmiRs}
    (h : ∀ s t : RxState, Same n hdr pl s t →
      Same n H P { s with rsp := g s.rsp } { t with rsp := g t.rsp }) :
    Det n (Same n hdr pl) (modifyRsp g) fun _ => Same n H P :=
  fun s t hsame _ => .ok (h s t hsame)

theorem det_modifyEntries (f : List RqEntry → List RqEntry) :
    Det n (Same n hdr pl) (modifyEntries f) fun _ => Same n hdr pl :=
  fun _ _ h _ => .ok ⟨congrArg f h.entries, h.log, h.ccode, h.dataLen, h.dataLen_le, h.data, h.session,
    h.payload⟩

theorem det_shiftData (off payloadSize header trailer : Nat) :
    Det n (Same n hdr pl) (shiftData off payloadSize header trailer) fun _ => Same n hdr pl := by
  refine det_touch_bind (.ite (.bind (.touch _) fun _ => .modifyRsp _) (.modifyRsp _)) fun _ => ?_
  refine .ite (det_touch_bind (.modifyRsp _) fun hrange => det_modifyRsp fun s t h => ?_)
    (det_modifyRsp fun s t h => ?_)
  · simp only [List.forall_mem_cons, Access.InRange] at hrange
    have hle : payloadSize - (header + trailer) ≤ n := by omega
    refine ⟨h.entries, h.log, h.ccode, rfl, hle, fun i hi => ?_, h.session, h.payload⟩
    simp only
    rw [h.slice _ _ hrange.1]
    exact h.store 0 _ hi
  · exact ⟨h.entries, h.log, h.ccode, rfl, Nat.zero_le _, h.data, h.session, h.payload⟩

/-- Both runs read the same response. -/
theorem det_readIpmiResponse (off : Nat) :
    Det n (Same n hdr pl) (readIpmiResponse off) fun _ s t =>
      Same n hdr Eq s t ∧ ipmiResponseAt t.rsp.data off = ipmiResponseAt s.rsp.data off := by
  refine det_touch_bind (.modifyRsp _) fun hrange s t h _ => .ok ?_
  simp only [List.forall_mem_cons, Access.InRange] at hrange
  have hdata : ∀ k, k < 7 → k ≠ 2 → t.rsp.data (off + k) = s.rsp.data (off + k) := fun k hk _ =>
    h.data _ (by omega)
  have hr : ipmiResponseAt t.rsp.data off = ipmiResponseAt s.rsp.data off := by
    simp only [ipmiResponseAt, hdata 1 (by omega) (by omega), hdata 3 (by omega) (by omega),
      hdata 4 (by omega) (by omega), hdata 5 (by omega) (by omega), h.data off (by omega)]
  exact ⟨⟨h.entries, h.log, hdata 6 (by omega) (by omega), h.dataLen, h.dataLen_le, h.data, h.session,
    congrArg RsPayload.ipmiResponse hr.symm⟩, hr⟩

theorem det_matchedResponse (off payloadSize dataLen : Nat) (r : IpmiResponse) (ccode : UInt8)
    (entry : RqEntry) :
    Det n (Same n hdr pl) (matchedResponse off payloadSize dataLen r ccode entry) fun _ =>
      Same n hdr pl := by
  have hshift : ∀ turn : Turn, Grows (do shiftData off payloadSize ipmiResponseLength 1; return turn) :=
    fun turn => .bind (.shiftData _ _ _ _) fun _ => .pure _
  have hfinish : ∀ turn : Turn, Grows (do
      modifyEntries (ipmiReqRemoveEntry r.rqSeq r.cmd)
      shiftData off payloadSize ipmiResponseLength 1
      return turn) := fun turn => .bind (.modifyEntries _) fun _ => hshift turn
  have hdet : ∀ turn : Turn, Det n (Same n hdr pl) (do
      modifyEntries (ipmiReqRemoveEntry r.rqSeq r.cmd)
      shiftData off payloadSize ipmiResponseLength 1
      return turn) fun _ => Same n hdr pl := fun turn =>
    .bind (det_modifyEntries _)
      (fun _ => .bind (det_shiftData _ _ _ _) (fun _ => .pure fun _ _ h => h) fun _ => .pure _)
      fun _ => hshift turn
  refine .ite (.bind (det_modifyEntries _) (fun _ => .ite ?_ (.pure fun _ _ h => h)) fun _ => ?_) (hdet _)
  · exact det_touch_bind (hfinish _) fun _ => hdet _
  · exact .ite (.bind (.touch _) fun _ => hfinish _) (.pure _)

theorem det_handleIpmiResponse (off payloadSize : Nat) :
    Det n (Same n hdr pl) (handleIpmiResponse off payloadSize) fun _ => Same n hdr Eq := by
  refine .bind (det_readIpmiResponse off) (fun _ => .get_bind fun s t h hsafe => ?_) fun _ =>
    .matchResponse off payloadSize
  obtain ⟨hsame, hr⟩ := h
  have hpending : pendingEntry t.rsp.data off t.entries = pendingEntry s.rsp.data off s.entries := by
    simp only [pendingEntry, hr, hsame.entries]
  rw [hr, hpending, hsame.ccode, hsame.dataLen]
  cases hlookup : pendingEntry s.rsp.data off s.entries with
  | none => exact .ok hsame
  | some entry =>
    rw [hlookup] at hsafe
    exact det_matchedResponse off payloadSize s.rsp.dataLen _ s.rsp.ccode entry s t hsame hsafe

theorem det_ipmiResponses (payloadSize : Nat) :
    ∀ (pl : RsPayload → RsPayload → Prop) off,
      Det n (Same n hdr pl) (ipmiResponses off payloadSize) fun _ => Same n hdr Eq := by
  induction payloadSize using Nat.strongRecOn with
  | _ payloadSize ih =>
    intro pl off
    unfold ipmiResponses
    refine .bind (det_handleIpmiResponse off payloadSize) (fun turn => ?_) fun turn => ?_
    · cases turn with
      | again => exact .pure fun _ _ h => h
      | last => exact .pure fun _ _ h => h
      | embedded =>
        dsimp only
        split
        · exact ih _ (by omega) Eq 0
        · exact .pure fun _ _ h => h
    · cases turn with
      | again => exact .pure _
      | last => exact .pure _
      | embedded =>
        dsimp only
        split
        · exact .ipmiResponses _ 0
        · exact .pure _

theorem Same.ipmi32toh {s t : RxState} (h : Same n hdr pl s t) (off : Nat) (hrange : off + 4 ≤ n) :
    ipmi32toh t.rsp.data off = ipmi32toh s.rsp.data off := by
  unfold Lanplus.ipmi32toh
  rw [h.data off (by omega), h.data (off + 1) (by omega), h.data (off + 2) (by omega),
    h.data (off + 3) (by omega)]

theorem Same.touch_payload {s t : RxState} (h : Same n hdr pl s t) (l : List Access) {m m' : RsPayload}
    (hm : m' = m) :
    Same n hdr Eq { s with rsp := { s.rsp with payload := m }, log := s.log ++ l }
      { t with rsp := { t.rsp with payload := m' }, log := t.log ++ l } :=
  ⟨h.entries, by simp only [h.log], h.ccode, h.dataLen, h.dataLen_le, h.data, h.session, hm.symm⟩

/-- In a message that is read in range, both runs see the same bytes. -/
theorem det_readOpenSessionResponse (off : Nat) :
    Det n (Same n hdr pl) (readOpenSessionResponse off) fun _ => Same n hdr Eq := by
  refine .get_bind fun s t h hsafe => ?_
  have hread := touch_inRange hsafe (.modifyRsp _)
  simp only [openSessionAccesses, List.forall_mem_append, List.forall_mem_cons, Access.InRange] at hread
  obtain ⟨⟨hhead, hid, -⟩, hrest⟩ := hread
  have hcode : t.rsp.data (off + 1) = s.rsp.data (off + 1) := h.data _ (by omega)
  have haccess : openSessionAccesses t.rsp.data off = openSessionAccesses s.rsp.data off := by
    simp only [openSessionAccesses, hcode]
  have hmsg : openSessionResponseAt t.rsp.data off = openSessionResponseAt s.rsp.data off := by
    simp only [openSessionResponseAt, hcode, h.data off (by omega), h.data (off + 2) (by omega),
      h.ipmi32toh (off + 4) (by omega)]
    by_cases hok : s.rsp.data (off + 1) = 0
    · simp only [if_pos hok, List.forall_mem_cons] at hrest
      simp only [h.ipmi32toh (off + 8) (by omega), h.data (off + 16) (by omega),
        h.data (off + 24) (by omega), h.data (off + 32) (by omega)]
    · simp only [if_neg hok]
  rw [haccess]
  exact .ok (h.touch_payload _ (congrArg RsPayload.openSessionResponse hmsg))

/-- The same for a message with a fixed head and a code behind it. -/
theorem det_touch_code {head : List Access} {off : Nat} {code : Option Nat} {g : Nat → IpmiRs → IpmiRs}
    (hg : ∀ len, (∀ a ∈ head, a.InRange n) → (∀ a ∈ [Access.read off len], a.InRange n) →
      ∀ s t : RxState, Same n hdr pl s t → Same n hdr Eq { s with rsp := g len s.rsp } { t with rsp := g len t.rsp }) :
    Det n (Same n hdr pl) (do
      touch head
      let some len := code | throw .assertion
      touch [.read off len]
      modifyRsp (g len) : Rx PUnit) fun _ => Same n hdr Eq := by
  cases code with
  | none => exact det_touch_bind (.throw _) fun _ _ _ h _ => .error h.log
  | some len =>
    refine det_touch_bind (.bind (.touch _) fun _ => .modifyRsp _) fun hhead => ?_
    exact det_touch_bind (.modifyRsp _) fun hcode => det_modifyRsp (hg len hhead hcode)

theorem det_readRakp2Message (off : Nat) (authAlg : UInt8) :
    Det n (Same n hdr pl) (readRakp2Message off authAlg) fun _ => Same n hdr Eq := by
  refine det_touch_code fun len hhead hcode s t h => ?_
  simp only [List.forall_mem_cons, Access.InRange] at hhead hcode
  have hmsg : rakp2MessageAt t.rsp.data off len = rakp2MessageAt s.rsp.data off len := by
    simp only [rakp2MessageAt, h.data off (by omega), h.data (off + 1) (by omega),
      h.ipmi32toh (off + 4) (by omega), h.slice (off + 8) 16 (by omega),
      h.slice (off + 24) 16 (by omega), h.slice _ _ hcode.1]
  exact ⟨h.entries, h.log, h.ccode, h.dataLen, h.dataLen_le, h.data, h.session,
    congrArg RsPayload.rakp2Message hmsg.symm⟩

theorem det_readRakp4Message (off : Nat) (authAlg : UInt8) :
    Det n (Same n hdr pl) (readRakp4Message off authAlg) fun _ => Same n hdr Eq := by
  refine det_touch_code fun len hhead hcode s t h => ?_
  simp only [List.forall_mem_cons, Access.InRange] at hhead hcode
  have hmsg : rakp4MessageAt t.rsp.data off len = rakp4MessageAt s.rsp.data off len := by
    simp only [rakp4MessageAt, h.data off (by omega), h.data (off + 1) (by omega),
      h.ipmi32toh (off + 4) (by omega), h.slice _ _ hcode.1]
  exact ⟨h.entries, h.log, h.ccode, h.dataLen, h.dataLen_le, h.data, h.session,
    congrArg RsPayload.rakp4Message hmsg.symm⟩

theorem det_readSolPacket (off : Nat) :
    Det n (Same n hdr pl) (readSolPacket off) fun _ => Same n hdr Eq := by
  refine det_touch_bind (.modifyRsp _) fun hrange s t h _ => .ok ?_
  simp only [List.forall_mem_cons, Access.InRange, solHeaderLength] at hrange
  have hmsg : solPacketAt t.rsp.data off = solPacketAt s.rsp.data off := by
    simp only [solPacketAt, h.data off (by omega), h.data (off + 1) (by omega),
      h.data (off + 2) (by omega), h.data (off + 3) (by omega)]
  exact ⟨h.entries, h.log, h.ccode, h.dataLen, h.dataLen_le, h.data, h.session,
    congrArg RsPayload.solPacket hmsg.symm⟩

end stages

/-- The union is the same once the payload has been read. -/
def SameAnswer (n : Nat) (a : Poll) (s t : RxState) : Prop :=
  Same n SameHdr (fun _ _ => True) s t ∧ (a = .rsp → t.rsp.payload = s.rsp.payload)

section answer
variable {n : Nat} {pl : RsPayload → RsPayload → Prop}

theorem Same.weaken {hdr : SessionHdr → SessionHdr → Prop} {s t : RxState} (h : Same n hdr pl s t) :
    Same n hdr (fun _ _ => True) s t :=
  ⟨h.entries, h.log, h.ccode, h.dataLen, h.dataLen_le, h.data, h.session, trivial⟩

theorem det_answer {m : Rx PUnit} (h : Det n (Same n SameHdr pl) m fun _ => Same n SameHdr Eq) :
    Det n (Same n SameHdr pl) (do m; return Poll.rsp) (SameAnswer n) :=
  .bind h (fun _ => .pure fun _ _ h => ⟨h.weaken, fun _ => h.payload.symm⟩) fun _ => .pure _

theorem det_again : Det n (Same n SameHdr pl) (return Poll.again) (SameAnswer n) :=
  .pure fun _ _ h => ⟨h.weaken, fun h => by cases h⟩

theorem det_handlePayload (e : RxEnv) (payloadtype : UInt8) (off payloadSize : Nat) :
    Det n (Same n SameHdr pl) (handlePayload e payloadtype off payloadSize) (SameAnswer n) := by
  apply Det.ite
  · intro s t h hsafe
    have := det_ipmiResponses payloadSize pl off s t h hsafe
    generalize ipmiResponses off payloadSize s = r, ipmiResponses off payloadSize t = r' at this
    cases this with
    | ok h => exact .ok ⟨h.weaken, fun _ => h.payload.symm⟩
    | error h => exact .error h
  apply Det.ite
  · exact .ite det_again (det_answer (det_readOpenSessionResponse off))
  apply Det.ite
  · exact .ite det_again (det_answer (det_readRakp2Message off _))
  apply Det.ite
  · exact .ite det_again (det_answer (det_readRakp4Message off _))
  apply Det.ite
  · refine .ite det_again ?_
    refine .bind (det_readSolPacket off) (fun _ => det_answer (det_shiftData _ _ _ _)) fun _ => ?_
    exact .bind (.shiftData _ _ _ _) fun _ => .pure _
  · exact det_again

theorem det_checkPad (e : RxEnv) (decrypted : List UInt8) (payloadSize m : Nat) :
    ∀ i, Det n (Same n SameHdr pl) (checkPad e decrypted payloadSize m i) fun _ => Same n SameHdr pl := by
  induction m with
  | zero => exact fun _ => .pure fun _ _ h => h
  | succ m ih =>
    intro i
    refine det_touch_bind (.ite (.throw _) (.checkPad _ _ _ _ _)) fun _ => .ite ?_ (ih (i + 1))
    exact fun _ _ h _ => .error h.log

theorem det_unpadDecrypted (e : RxEnv) (off : Nat) (decrypted : List UInt8) :
    Det n (Same n SameHdr pl) (unpadDecrypted e off decrypted) fun _ => Same n SameHdr pl := by
  refine det_touch_bind (.bind (.modifyRsp _) fun _ => .bind (.touch _) fun _ =>
    .bind (.checkPad _ _ _ _ _) fun _ => .pure _) fun _ => ?_
  refine .bind (det_modifyRsp (H := SameHdr) (P := pl) fun s t h => ?_)
    (fun _ => det_touch_bind (.bind (.checkPad _ _ _ _ _) fun _ => .pure _) fun _ => ?_) fun _ =>
    .bind (.touch _) fun _ => .bind (.checkPad _ _ _ _ _) fun _ => .pure _
  · exact ⟨h.entries, h.log, h.ccode, h.dataLen, h.dataLen_le, fun i hi => h.store off decrypted hi,
      h.session, h.payload⟩
  · exact .bind (det_checkPad e decrypted _ _ 0) (fun _ => .pure fun _ _ h => h) fun _ => .pure _

/-- Both runs decrypt the same bytes to the same bytes. -/
theorem det_lanplusDecryptPayload (e : RxEnv) (off inputLength : Nat) :
    Det n (Same n SameHdr pl) (lanplusDecryptPayload e off inputLength) fun _ => Same n SameHdr pl := by
  have hthrow : ∀ a, Det n (Same n SameHdr pl) (throw a : Rx Nat) fun _ => Same n SameHdr pl :=
    fun a _ _ h _ => .error h.log
  refine .ite (det_touch_bind (.pure _) fun _ => .pure fun _ _ h => h) (.ite (hthrow _) ?_)
  refine det_touch_bind (.ite (.throw _) (.bind (.touch _) fun _ => .ite (.throw _)
    (.decryptInput _ _ _))) fun _ => .ite (hthrow _) ?_
  refine det_touch_bind (.ite (.throw _) (.decryptInput _ _ _)) fun hiv => .ite (hthrow _) ?_
  refine det_touch_bind (.bind .get fun _ => .unpadDecrypted _ _ _) fun hinput => ?_
  refine .get_bind fun s t h hsafe => ?_
  simp only [List.forall_mem_cons, Access.InRange] at hiv hinput
  rw [h.slice _ _ hiv.1, h.slice _ _ hinput.1]
  exact det_unpadDecrypted e off _ s t h hsafe

/-- Both runs check the same authcode. -/
theorem det_compareAuthcode (e : RxEnv) (dataLen len : Nat) :
    Det n (Same n SameHdr pl) (compareAuthcode e dataLen len) fun _ => Same n SameHdr pl := by
  refine det_touch_bind (.ite (.throw _) (.bind (.touch _) fun _ => .bind .get fun s => ?_))
    fun _ => .ite (fun _ _ h _ => .error h.log) (det_touch_bind (.bind .get fun s => ?_) fun hrange =>
      .get_bind fun s t h _ => ?_)
  · dsimp only
    split
    · exact .throw _
    · exact .pure _
  · dsimp only
    split
    · exact .throw _
    · exact .pure _
  simp only [List.forall_mem_cons, Access.InRange] at hrange
  rw [h.slice _ _ hrange.1, h.slice _ _ hrange.2.1]
  cases lanplusHMAC e.crypto e.v2.integrityAlg e.v2.k1
    (slice s.rsp.data offsetAuthtype (dataLen - offsetAuthtype - len)) with
  | none => exact .error h.log
  | some mac => exact .ok h

theorem det_lanplusHasValidAuthCode (e : RxEnv) :
    Det n (Same n SameHdr pl) (lanplusHasValidAuthCode e) fun _ => Same n SameHdr pl := by
  refine .get_bind fun s t h hsafe => ?_
  have hchecks : checksAuthcode e.v2 t.rsp.session = checksAuthcode e.v2 s.rsp.session := by
    simp only [checksAuthcode, h.session.authtype, h.session.bAuthenticated]
  rw [hchecks, h.dataLen]
  cases hc : checksAuthcode e.v2 s.rsp.session with
  | false => exact .ok h
  | true =>
    rw [hc] at hsafe
    cases hlen : authcodeLength e.v2.integrityAlg with
    | none => exact .error h.log
    | some len =>
      rw [hlen] at hsafe
      exact det_compareAuthcode e s.rsp.dataLen len s t h hsafe

theorem det_readSessionDataV2x (off : Nat) {hdr : SessionHdr → SessionHdr → Prop} :
    Det n (Same n hdr pl) (readSessionDataV2x off) fun _ => Same n SameHdr pl := by
  refine det_touch_bind (.bind (.modifyRsp _) fun _ => .pure _) fun hrange => ?_
  refine .bind (Q := fun _ => Same n SameHdr pl) (fun s t h _ => .ok ?_)
    (fun _ => .pure fun _ _ h => h) fun _ => .pure _
  simp only [List.forall_mem_cons, Access.InRange] at hrange
  have hmsglen : ipmi16toh t.rsp.data (off + 10) = ipmi16toh s.rsp.data (off + 10) := by
    unfold ipmi16toh
    rw [h.data (off + 10) (by omega), h.data (off + 10 + 1) (by omega)]
  have hsession : sessionV2x t.rsp.data off = sessionV2x s.rsp.data off := by
    simp only [sessionV2x, hmsglen, h.data off (by omega), h.data (off + 1) (by omega),
      h.ipmi32toh (off + 2) (by omega), h.ipmi32toh (off + 6) (by omega)]
  refine ⟨h.entries, h.log, h.ccode, h.dataLen, h.dataLen_le, h.data, ?_, h.payload⟩
  simp only [hsession]
  exact ⟨rfl, rfl, rfl, rfl, rfl, fun _ => rfl⟩

theorem det_readSessionDataV15 (off : Nat) {hdr : SessionHdr → SessionHdr → Prop} :
    Det n (fun s t => Same n hdr pl s t ∧ s.rsp.data off ≠ authtypeRmcpPlus) (readSessionDataV15 off)
      fun _ => Same n SameHdr pl := by
  intro s t h hsafe
  have hrange := touch_inRange hsafe (.bind (.modifyRsp _) fun _ => .pure _)
  obtain ⟨h, hne⟩ := h
  simp only [List.forall_mem_cons, Access.InRange] at hrange
  refine .ok ⟨h.entries, by simp only [h.log], h.ccode, h.dataLen, h.dataLen_le, h.data, ?_, h.payload⟩
  have hauth : t.rsp.data off = s.rsp.data off := h.data off (by omega)
  have hlen : t.rsp.data (off + 9) = s.rsp.data (off + 9) := h.data (off + 9) (by omega)
  exact ⟨hauth, rfl, rfl, rfl, congrArg UInt8.toNat hlen, fun h => absurd h hne⟩

theorem Grows.readSessionDataV2x (off : Nat) : Grows (readSessionDataV2x off) :=
  .bind (.touch _) fun _ => .bind (.modifyRsp _) fun _ => .pure _

theorem Grows.readSessionDataV15 (off : Nat) : Grows (readSessionDataV15 off) :=
  .bind (.touch _) fun _ => .bind (.modifyRsp _) fun _ => .pure _

/-- Both runs read the same header, whatever the header before it was. -/
theorem det_readSessionData (off : Nat) :
    Det n (Same n (fun _ _ => True) pl) (readSessionData off) fun _ => Same n SameHdr pl := by
  have hrest : ∀ s : RxState, Grows (if s.rsp.session.authtype = authtypeRmcpPlus then
      Lanplus.readSessionDataV2x off else Lanplus.readSessionDataV15 off) := fun s =>
    .ite (.readSessionDataV2x off) (.readSessionDataV15 off)
  refine det_touch_bind (.bind (.modifyRsp _) fun _ => .bind .get hrest) fun hrange => ?_
  simp only [List.forall_mem_cons, Access.InRange] at hrange
  refine .bind (Q := fun _ s t => Same n (fun _ _ => True) pl s t ∧
    s.rsp.session.authtype = s.rsp.data off ∧ t.rsp.session.authtype = s.rsp.data off)
    (fun s t h _ => .ok ⟨⟨h.entries, h.log, h.ccode, h.dataLen, h.dataLen_le, h.data, trivial, h.payload⟩,
      rfl, h.data off (by omega)⟩) (fun _ => .get_bind fun s t h hsafe => ?_) fun _ => .bind .get hrest
  obtain ⟨h, hs, ht⟩ := h
  rw [hs] at hsafe ⊢
  rw [ht]
  by_cases hauth : s.rsp.data off = authtypeRmcpPlus
  · rw [if_pos hauth] at hsafe ⊢
    exact det_readSessionDataV2x off s t h hsafe
  · rw [if_neg hauth] at hsafe ⊢
    exact det_readSessionDataV15 off s t ⟨h, hauth⟩ hsafe

theorem Grows.readSessionData (off : Nat) : Grows (readSessionData off) :=
  .bind (.touch _) fun _ => .bind (.modifyRsp _) fun _ => .bind .get fun _ =>
    .ite (.readSessionDataV2x off) (.readSessionDataV15 off)

theorem Grows.payloadSizeOf (e : RxEnv) (off : Nat) (h : SessionHdr) : Grows (payloadSizeOf e off h) :=
  .ite (.lanplusDecryptPayload _ _ _) (.pure _)

/-- Headers that differ in the id and sequence number of an earlier packet are handled alike. -/
theorem SameHdr.otherSession {v2 : V2Data} {g h : SessionHdr} (hsame : SameHdr g h) :
    otherSession v2 h = otherSession v2 g := by
  unfold Lanplus.otherSession
  rw [hsame.authtype]
  by_cases hauth : g.authtype = authtypeRmcpPlus
  · rw [hsame.id hauth]
  · rw [beq_eq_false_iff_ne.2 hauth, Bool.and_false, Bool.false_and, Bool.false_and]

theorem SameHdr.decrypts {v2 : V2Data} {g h : SessionHdr} (hsame : SameHdr g h) :
    decrypts v2 h = decrypts v2 g := by
  simp only [Lanplus.decrypts, hsame.authtype, hsame.bEncrypted]

theorem SameHdr.payloadSizeOf {g h : SessionHdr} (hsame : SameHdr g h) (e : RxEnv) (off : Nat) :
    payloadSizeOf e off h = payloadSizeOf e off g := by
  unfold Lanplus.payloadSizeOf
  rw [hsame.decrypts, hsame.msglen]

theorem det_payloadSizeOf (e : RxEnv) (off : Nat) (h : SessionHdr) :
    Det n (Same n SameHdr pl) (payloadSizeOf e off h) fun _ => Same n SameHdr pl :=
  .ite (det_lanplusDecryptPayload e off h.msglen) (.pure fun _ _ h => h)

/-- Both runs take a packet of class IPMI apart in the same way. -/
theorem det_handleIpmiClass (e : RxEnv) :
    Det n (Same n (fun _ _ => True) pl) (handleIpmiClass e) (SameAnswer n) := by
  have hpayload : ∀ off (h : SessionHdr), Grows (do
      let payloadSize ← Lanplus.payloadSizeOf e off h
      Lanplus.handlePayload e h.payloadtype off payloadSize) := fun off h =>
    .bind (.payloadSizeOf _ _ _) fun _ => .handlePayload _ _ _ _
  have hvalid : ∀ off (h : SessionHdr), Grows (do
      let valid ← Lanplus.lanplusHasValidAuthCode e
      if !valid then return .null
      else
        let payloadSize ← Lanplus.payloadSizeOf e off h
        Lanplus.handlePayload e h.payloadtype off payloadSize) := fun off h =>
    .bind (.lanplusHasValidAuthCode e) fun _ => .ite (.pure _) (hpayload off h)
  have hdet : ∀ off (h : SessionHdr), Det n (Same n SameHdr pl) (do
      let valid ← Lanplus.lanplusHasValidAuthCode e
      if !valid then return .null
      else
        let payloadSize ← Lanplus.payloadSizeOf e off h
        Lanplus.handlePayload e h.payloadtype off payloadSize) (SameAnswer n) := fun off h =>
    .bind (det_lanplusHasValidAuthCode e) (fun _ => .ite (.pure fun _ _ h => ⟨h.weaken, fun h => by cases h⟩)
      (.bind (det_payloadSizeOf e off h) (fun _ => det_handlePayload e _ _ _) fun _ =>
        .handlePayload _ _ _ _)) fun _ => .ite (.pure _) (hpayload off h)
  refine .bind (det_readSessionData offsetAuthtype) (fun off => .get_bind fun s t h hsafe => ?_) fun off =>
    .bind .get fun s => .ite (.pure _) (hvalid off s.rsp.session)
  rw [h.session.otherSession, h.session.payloadSizeOf, h.session.payloadtype]
  by_cases hother : otherSession e.v2 s.rsp.session = true
  · rw [if_pos hother]
    exact .ok ⟨h.weaken, fun h => by cases h⟩
  · rw [if_neg hother] at hsafe ⊢
    exact hdet off s.rsp.session s t h hsafe

end answer

/-! ### One datagram -/

/-- The pending requests and the last completion code are what counts of the state between two
datagrams. -/
structure SamePending (s t : RxState) : Prop where
  entries : t.entries = s.entries
  ccode : t.rsp.ccode = s.rsp.ccode

/-- What a caller sees of a response. -/
structure SameView (r r' : IpmiRs) : Prop where
  session : SameHdr r.session r'.session
  payload : r'.payload = r.payload
  dataLen : r'.dataLen = r.dataLen
  data : ∀ i < r.dataLen, r'.data i = r.data i

theorem Same.pending {n : Nat} {hdr : SessionHdr → SessionHdr → Prop}
    {pl : RsPayload → RsPayload → Prop} {s t : RxState} (h : Same n hdr pl s t) : SamePending s t :=
  ⟨h.entries, h.ccode⟩

theorem SameAnswer.view {n : Nat} {s t : RxState} (h : SameAnswer n .rsp s t) : SameView s.rsp t.rsp :=
  ⟨h.1.session, h.2 rfl, h.1.dataLen, fun i hi => h.1.data i (Nat.lt_of_lt_of_le hi h.1.dataLen_le)⟩

/-- The state after a datagram of `got` has been received. -/
def received (got : List UInt8) (s : RxState) : RxState :=
  { s with
    rsp := { s.rsp with data := store (store s.rsp.data 0 got) got.length [0], dataLen := got.length }
    log := [.write 0 got.length, .write got.length 1] }

theorem recvPacket_some {d : List UInt8} (hne : d ≠ []) (hlen : d.length ≤ ipmiBufSize) (s : RxState) :
    ipmiLanRecvPacket (some d) s = .ok true (received d s) := by
  have htake : d.take ipmiBufSize = d := List.take_of_length_le hlen
  unfold ipmiLanRecvPacket
  simp only [htake, if_neg hne]
  rfl

theorem received_data {d : List UInt8} {s : RxState} {i : Nat} (hi : i < d.length) :
    (received d s).rsp.data i = d[i] := by
  unfold received
  simp only
  rw [store_of_lt _ _ _ hi]
  simpa using store_add s.rsp.data 0 d hi

theorem SamePending.received {s t : RxState} (h : SamePending s t) (d : List UInt8) :
    Same d.length (fun _ _ => True) (fun _ _ => True) (received d s) (received d t) := by
  refine ⟨h.entries, rfl, h.ccode, rfl, Nat.le_refl _, fun i hi => ?_,
    trivial, trivial⟩
  rw [received_data hi, received_data hi]

/-- A datagram is received and handled. -/
theorem pollSingle_eq (e : RxEnv) {d : List UInt8} (hne : d ≠ []) (hlen : d.length ≤ ipmiBufSize)
    (s : RxState) : ipmiLanPollSingle e (some d) s = handleDatagram e (received d s) := by
  show (ipmiLanRecvPacket (some d) >>= _) s = _
  rw [bind_ok (recvPacket_some hne hlen s)]
  rfl

theorem det_ipmiHandlePong {n : Nat} :
    Det n (Same n (fun _ _ => True) fun _ _ => True) ipmiHandlePong fun _ s t =>
      SamePending s t ∧ t.log = s.log := by
  refine det_touch_bind (.bind .get fun _ => .pure _) fun hrange => .get_bind fun s t h _ => ?_
  simp only [List.forall_mem_cons, Access.InRange] at hrange
  rw [h.data offsetSupEntities (by omega)]
  exact .ok ⟨h.pending, h.log⟩

theorem Grows.ipmiHandlePong : Grows ipmiHandlePong := .bind (.touch _) fun _ => .bind .get fun _ => .pure _

theorem Grows.handleIpmiClass (e : RxEnv) : Grows (handleIpmiClass e) :=
  .bind (.readSessionData _) fun _ => .bind .get fun _ => .ite (.pure _)
    (.bind (.lanplusHasValidAuthCode e) fun _ => .ite (.pure _)
      (.bind (.payloadSizeOf _ _ _) fun _ => .handlePayload _ _ _ _))

theorem Grows.classOf (e : RxEnv) (s : RxState) :
    Grows (if s.rsp.data offsetRmcpClass = rmcpClassAsf then Lanplus.ipmiHandlePong
      else if s.rsp.data offsetRmcpClass ≠ rmcpClassIpmi then return .again
      else Lanplus.handleIpmiClass e) :=
  .ite .ipmiHandlePong (.ite (.pure _) (.handleIpmiClass e))

/-- What two runs on the same datagram have in common when they return. -/
structure SameOutcome (asf : Prop) (poll : Poll) (s t : RxState) : Prop where
  pending : SamePending s t
  log : t.log = s.log
  view : poll = .rsp → ¬ asf → SameView s.rsp t.rsp

theorem det_handleClass (e : RxEnv) (n : Nat) (rmcpClass : UInt8) :
    Det n (Same n (fun _ _ => True) fun _ _ => True)
      (if rmcpClass = rmcpClassAsf then ipmiHandlePong
        else if rmcpClass ≠ rmcpClassIpmi then return .again
        else handleIpmiClass e) (SameOutcome (rmcpClass = rmcpClassAsf)) := by
  intro s t h hsafe
  by_cases hasf : rmcpClass = rmcpClassAsf
  · rw [if_pos hasf] at hsafe ⊢
    have := det_ipmiHandlePong s t h hsafe
    generalize ipmiHandlePong s = r, ipmiHandlePong t = r' at this
    cases this with
    | ok h => exact .ok ⟨h.1, h.2, fun _ hne => absurd hasf hne⟩
    | error h => exact .error h
  · rw [if_neg hasf] at hsafe ⊢
    by_cases hipmi : rmcpClass ≠ rmcpClassIpmi
    · rw [if_pos hipmi]
      exact .ok ⟨h.pending, h.log, fun h => by cases h⟩
    · rw [if_neg hipmi] at hsafe ⊢
      have := det_handleIpmiClass e s t h hsafe
      generalize handleIpmiClass e s = r, handleIpmiClass e t = r' at this
      cases this with
      | ok h => exact .ok ⟨h.1.pending, h.1.log, fun hrsp _ => by subst hrsp; exact h.view⟩
      | error h => exact .error h

theorem det_handleDatagram (e : RxEnv) {d : List UInt8} {s t : RxState} (h : SamePending s t)
    (hsafe : Ends (Safe d.length) (handleDatagram e) (received d s)) :
    SameResult (SameOutcome (d.getD offsetRmcpClass 0 = rmcpClassAsf))
      (handleDatagram e (received d s)) (handleDatagram e (received d t)) := by
  have hrange := touch_inRange hsafe (.bind .get fun s => .classOf e s)
  simp only [List.forall_mem_cons, Access.InRange] at hrange
  have hclass : ∀ u : RxState, (received d u).rsp.data offsetRmcpClass = d.getD offsetRmcpClass 0 := by
    intro u
    rw [received_data (by omega), List.getD_eq_getElem _ _ (by omega)]
  have hrun : ∀ u : RxState, handleDatagram e (received d u) =
      (do
        touch [.read offsetRmcpClass 1]
        if d.getD offsetRmcpClass 0 = rmcpClassAsf then ipmiHandlePong
          else if d.getD offsetRmcpClass 0 ≠ rmcpClassIpmi then return .again
          else handleIpmiClass e) (received d u) := by
    intro u
    rw [← hclass u]
    rfl
  unfold Ends finalState at hsafe
  rw [hrun] at hsafe
  rw [hrun, hrun]
  refine det_touch_bind ?_ (fun _ => det_handleClass e d.length _) _ _ (h.received d) hsafe
  exact .ite .ipmiHandlePong (.ite (.pure _) (.handleIpmiClass e))

/-- **A safe run does not depend on earlier datagrams**: it takes a datagram apart in the same way from
every state with the same pending requests and the same last completion code. A pong is answered with
the structure as it is. -/
theorem pollSingle_same (e : RxEnv) {d : List UInt8} (hne : d ≠ []) (hlen : d.length ≤ ipmiBufSize)
    {s t : RxState} (h : SamePending s t) (hsafe : Ends (Safe d.length) (ipmiLanPollSingle e (some d)) s) :
    SameResult (SameOutcome (d.getD offsetRmcpClass 0 = rmcpClassAsf))
      (ipmiLanPollSingle e (some d) s) (ipmiLanPollSingle e (some d) t) := by
  rw [ends_of_eq (pollSingle_eq e hne hlen s)] at hsafe
  rw [pollSingle_eq e hne hlen, pollSingle_eq e hne hlen]
  exact det_handleDatagram e h hsafe

end KTools.Lanplus
