import KTools.Lanplus.Bounds

/-!
# The answers of the receive path

Which packets are left alone, and what an accepted payload is handed on with. For a well sized datagram a
run of `ipmi_lan_poll_single` is followed through from the state without earlier datagrams; by
`pollSingle_same` the answer is the same from every other state. What any datagram at all comes to, from any
state, is `pollSingle_ok`.
-/

namespace KTools.Lanplus
open KTools.Lib KTools.Lib.Bytes

/-- The session header of a datagram, and where its payload starts. -/
def headerOf (d : List UInt8) : SessionHdr := sessionAt (packetBytes d) offsetAuthtype

def payloadOffset (d : List UInt8) : Nat := payloadStart (packetBytes d) offsetAuthtype

/-- The payload in the clear, if no assertion fails. -/
def payloadOf (e : RxEnv) (d : List UInt8) : Option ((Nat → UInt8) × Nat) :=
  plainPayload e (packetBytes d) (payloadOffset d) (headerOf d)

/-- The authcode is one to check, and does not verify; or it verifies; or an assertion fails. -/
def authcodeOf (e : RxEnv) (d : List UInt8) : Option Bool :=
  authcodeCheck e.crypto e.v2 (packetBytes d) d.length (headerOf d)

/-- The packet passes the checks before its payload. -/
structure Accepted (e : RxEnv) (d : List UInt8) (p : (Nat → UInt8) × Nat) : Prop where
  rmcpClass : packetBytes d offsetRmcpClass = rmcpClassIpmi
  session : otherSession e.v2 (headerOf d) = false
  authcode : authcodeOf e d = some true
  payload : payloadOf e d = some p

/-- What an accepted packet of `n` bytes leaves for its payload. -/
structure Handed (n : Nat) (d : List UInt8) (data : Nat → UInt8) (s s' : RxState) : Prop where
  entries : s'.entries = s.entries
  ccode : s'.rsp.ccode = s.rsp.ccode
  data : s'.rsp.data = data
  dataLen : s'.rsp.dataLen = n
  session : SameHdr (headerOf d) s'.rsp.session

section clear
variable {e : RxEnv} {d : List UInt8}

theorem handleDatagram_class (s : RxState) :
    handleDatagram e (received d s.clear) =
      (if packetBytes d offsetRmcpClass = rmcpClassAsf then ipmiHandlePong
        else if packetBytes d offsetRmcpClass ≠ rmcpClassIpmi then return .again
        else handleIpmiClass e) ((received d s.clear).touched [.read offsetRmcpClass 1]) := by
  rw [← received_clear d s]
  rfl

/-- A packet of another class is left alone. -/
theorem pollSingle_otherClass (hne : d ≠ []) (hlen : d.length ≤ ipmiBufSize)
    (hasf : packetBytes d offsetRmcpClass ≠ rmcpClassAsf)
    (hipmi : packetBytes d offsetRmcpClass ≠ rmcpClassIpmi) (s : RxState) :
    ∃ s', ipmiLanPollSingle e (some d) s.clear = .ok .again s' ∧ SamePending s s' := by
  rw [pollSingle_eq e hne hlen, handleDatagram_class, if_neg hasf, if_pos hipmi]
  exact ⟨_, rfl, rfl, rfl⟩

/-- The session header of a packet of class IPMI is read. -/
theorem pollSingle_header (hne : d ≠ []) (hlen : d.length ≤ ipmiBufSize)
    (hipmi : packetBytes d offsetRmcpClass = rmcpClassIpmi) (s : RxState) :
    ∃ s₁, Handed d.length d (packetBytes d) s s₁ ∧
      ipmiLanPollSingle e (some d) s.clear =
        (if otherSession e.v2 (headerOf d) then return .again else do
          let valid ← lanplusHasValidAuthCode e
          if !valid then return .null
          else
            let payloadSize ← payloadSizeOf e (payloadOffset d) s₁.rsp.session
            handlePayload e s₁.rsp.session.payloadtype (payloadOffset d) payloadSize : Rx Poll) s₁ := by
  have hne' : packetBytes d offsetRmcpClass ≠ rmcpClassAsf := by rw [hipmi]; decide
  obtain ⟨s₁, hrun, hread⟩ := readSessionData_run d.length offsetAuthtype
    ((received d s.clear).touched [.read offsetRmcpClass 1])
  have hdata : ((received d s.clear).touched [.read offsetRmcpClass 1]).rsp.data = packetBytes d :=
    received_clear d s
  rw [hdata] at hrun
  have hsession : SameHdr (headerOf d) s₁.rsp.session := by
    have := hread.session
    rw [hdata] at this
    exact this
  refine ⟨s₁, ⟨hread.entries, hread.ccode, hread.data.trans hdata, hread.dataLen, hsession⟩, ?_⟩
  rw [pollSingle_eq e hne hlen, handleDatagram_class, if_neg hne', if_neg (not_not_intro hipmi)]
  unfold handleIpmiClass
  rw [bind_ok hrun, ← hsession.otherSession]
  rfl

/-- A packet for another session is left alone. -/
theorem pollSingle_otherSession (hne : d ≠ []) (hlen : d.length ≤ ipmiBufSize)
    (hipmi : packetBytes d offsetRmcpClass = rmcpClassIpmi)
    (hother : otherSession e.v2 (headerOf d) = true) (s : RxState) :
    ∃ s', ipmiLanPollSingle e (some d) s.clear = .ok .again s' ∧ SamePending s s' := by
  obtain ⟨s₁, hhanded, hrun⟩ := pollSingle_header (e := e) hne hlen hipmi s
  rw [hrun, if_pos hother]
  exact ⟨s₁, rfl, hhanded.entries, hhanded.ccode⟩

/-- The payload of an accepted packet is handled by its type. -/
theorem pollSingle_accepted (hne : d ≠ []) (hlen : d.length ≤ ipmiBufSize) {entries : List RqEntry}
    (hsized : WellSized e entries d) {p : (Nat → UInt8) × Nat} (h : Accepted e d p)
    (s : RxState) :
    ∃ s', Handed d.length d p.1 s s' ∧
      ipmiLanPollSingle e (some d) s.clear =
        handlePayload e (headerOf d).payloadtype (payloadOffset d) p.2 s' := by
  obtain ⟨s₁, hhanded, hrun⟩ := pollSingle_header (e := e) hne hlen h.rmcpClass s
  obtain ⟨hauth, -⟩ := (hsized.2.2.2 h.rmcpClass).2 h.session
  obtain ⟨l, hvalid⟩ := lanplusHasValidAuthCode_run (s := s₁) hhanded.dataLen
    (hhanded.session.authcodeSized.2 hauth)
  have hcheck : authcodeCheck e.crypto e.v2 s₁.rsp.data d.length s₁.rsp.session = some true := by
    rw [hhanded.data, hhanded.session.authcodeCheck]
    exact h.authcode
  rw [hcheck] at hvalid
  have hsize := payloadSizeOf_run e (payloadOffset d) s₁.rsp.session (s₁.touched l)
  have hplain : plainPayload e (s₁.touched l).rsp.data (payloadOffset d) s₁.rsp.session =
      some p := by
    show plainPayload e s₁.rsp.data (payloadOffset d) s₁.rsp.session = some p
    rw [hhanded.data, hhanded.session.plainPayload]
    exact h.payload
  rw [hplain] at hsize
  obtain ⟨l', hsize⟩ := hsize
  refine ⟨(s₁.touched l).withData p.1 l', ⟨hhanded.entries, hhanded.ccode, rfl, hhanded.dataLen,
    hhanded.session⟩, ?_⟩
  rw [hrun, if_neg (by rw [h.session]; exact Bool.false_ne_true), bind_ok hvalid]
  show (payloadSizeOf e (payloadOffset d) s₁.rsp.session >>= _) _ = _
  rw [bind_ok hsize, hhanded.session.payloadtype]

end clear

/-! ### What is returned -/

/-- The payload of a packet of class IPMI that passes the checks before it, as the array holds it. -/
def acceptedPayload (e : RxEnv) (data : Nat → UInt8) (n : Nat) : Option ((Nat → UInt8) × Nat) :=
  let h := sessionAt data offsetAuthtype
  if otherSession e.v2 h then none
  else if authcodeCheck e.crypto e.v2 data n h = some true then
    plainPayload e data (payloadStart data offsetAuthtype) h
  else none

/-- Payloads that are no IPMI responses are wanted in one state of the session each. -/
def Awaited (v2 : V2Data) (payloadtype : UInt8) : Prop :=
  payloadtype = payloadTypeOpenResponse ∧ v2.sessionState = .openSessionSent ∨
    payloadtype = payloadTypeRakp2 ∧ v2.sessionState = .rakp1Sent ∨
    payloadtype = payloadTypeRakp4 ∧ v2.sessionState = .rakp3Sent ∨
    payloadtype = payloadTypeSol ∧ v2.sessionState = .active

/-- The request that the returned response answers: the pending request it matches, after the successes of
bridges before it. -/
def answeredEntry (data : Nat → UInt8) (entries : List RqEntry) (off payloadSize : Nat) : Option RqEntry :=
  match pendingEntry data off entries with
  | none => none
  | some entry =>
    if entry.bridgingLevel ≠ 0 ∧ data (off + 6) = 0 then
      match payloadSize with
      | rest + 9 =>
        answeredEntry (dataBehind data off (rest + 1)) (entriesBehind data off entries) 0 (rest + 1)
      | _ => none
    else some entry

section returned
variable {e : RxEnv} {s s' : RxState}

/-- The header and the union are not written any more. -/
def HeaderIs (h : SessionHdr) (p : RsPayload) (s : RxState) : Prop :=
  s.rsp.session = h ∧ s.rsp.payload = p

theorem keeps_header_shiftData (h : SessionHdr) (p : RsPayload) (off payloadSize header trailer : Nat) :
    Keeps (HeaderIs h p) (shiftData off payloadSize header trailer) :=
  .bind (.modify fun _ h => h) fun _ =>
    .ite (.bind (.modify fun _ h => h) fun _ => .modify fun _ h => h) (.modify fun _ h => h)

theorem keeps_header_matchResponse (h : SessionHdr) (p : RsPayload) (off payloadSize : Nat) :
    Keeps (HeaderIs h p) (matchResponse off payloadSize) := by
  have hfinish : ∀ (f : List RqEntry → List RqEntry) (turn : Turn), Keeps (HeaderIs h p) (do
      modifyEntries f
      shiftData off payloadSize ipmiResponseLength 1
      return turn) := fun f turn =>
    .bind (.modify fun _ h => h) fun _ => .bind (keeps_header_shiftData h p _ _ _ _) fun _ => .pure _
  refine .bind .get fun s => ?_
  cases pendingEntry s.rsp.data off s.entries with
  | none => exact .pure _
  | some entry =>
    refine .ite (.bind (.modify fun _ h => h) fun _ => .ite ?_ (.pure _)) (hfinish _ _)
    exact .bind (.modify fun _ h => h) fun _ => hfinish _ _

/-- A turn leaves the session header, and the response it has read in the union. -/
theorem handleIpmiResponse_header {off payloadSize : Nat} {turn : Turn}
    (hrun : handleIpmiResponse off payloadSize s = .ok turn s') :
    HeaderIs s.rsp.session (.ipmiResponse (ipmiResponseAt s.rsp.data off)) s' := by
  have hmatch : matchResponse off payloadSize (s.withResponse off) = .ok turn s' := hrun
  exact (ends_ok hmatch).1 (keeps_header_matchResponse _ _ off payloadSize (s.withResponse off) ⟨rfl, rfl⟩)

/-- The last turn matches a request, and is not a bridge's success. -/
theorem handleIpmiResponse_last {off payloadSize : Nat}
    (hrun : handleIpmiResponse off payloadSize s = .ok .last s') :
    ∃ entry, pendingEntry s.rsp.data off s.entries = some entry ∧
      ¬ (entry.bridgingLevel ≠ 0 ∧ s.rsp.data (off + 6) = 0) := by
  cases hfind : pendingEntry s.rsp.data off s.entries with
  | none => rw [handleIpmiResponse_none hfind] at hrun; cases hrun
  | some entry =>
    refine ⟨entry, rfl, fun hbridged => ?_⟩
    have hmatch := (handleIpmiResponse_some hfind payloadSize).symm.trans hrun
    simp only [matchedResponse, if_pos hbridged] at hmatch
    obtain ⟨_, s₁, hupdate, hmatch⟩ := bind_eq_ok hmatch
    by_cases hsize : 8 < payloadSize
    · rw [if_pos hsize] at hmatch
      obtain ⟨_, s₂, htouch, hmatch⟩ := bind_eq_ok hmatch
      obtain ⟨_, s₃, hremove, hmatch⟩ := bind_eq_ok hmatch
      obtain ⟨_, s₄, hshift, hmatch⟩ := bind_eq_ok hmatch
      cases hmatch
    · rw [if_neg hsize] at hmatch
      cases hmatch

/-- The response that is left in the union answers `entry`. -/
def AnswerOf (entry : RqEntry) (p : RsPayload) : Prop :=
  ∃ r, p = .ipmiResponse r ∧ entry.hasKey r.rqSeq r.cmd = true

/-- The loop over IPMI responses returns the response that answers a request. -/
theorem ipmiResponses_rsp (payloadSize : Nat) :
    ∀ {off : Nat} {s s' : RxState}, ipmiResponses off payloadSize s = .ok .rsp s' →
      s'.rsp.session = s.rsp.session ∧ ∃ entry, AnswerOf entry s'.rsp.payload ∧
        answeredEntry s.rsp.data s.entries off payloadSize = some entry := by
  induction payloadSize using Nat.strongRecOn with
  | _ payloadSize ih =>
    intro off s s' hrun
    unfold ipmiResponses at hrun
    obtain ⟨turn, s₁, hturn, hrest⟩ := bind_eq_ok hrun
    obtain ⟨hsession, hpayload⟩ := handleIpmiResponse_header hturn
    unfold answeredEntry
    cases turn with
    | again => cases hrest
    | last =>
      cases hrest
      obtain ⟨entry, hfind, hlast⟩ := handleIpmiResponse_last hturn
      rw [hfind]
      simp only [if_neg hlast]
      exact ⟨hsession, entry, ⟨_, hpayload, List.find?_some hfind⟩, rfl⟩
    | embedded =>
      obtain ⟨entry, hfind, hlevel, hccode, hsize, hentries, hdata, -⟩ := handleIpmiResponse_embedded hturn
      obtain ⟨rest, rfl⟩ := Nat.exists_eq_add_of_le' (show 9 ≤ payloadSize from hsize)
      obtain ⟨hsession', answered, hanswer, hentry⟩ := ih (rest + 1) (by omega) hrest
      rw [hfind]
      simp only [if_pos (And.intro hlevel hccode)]
      rw [hentries, hdata] at hentry
      exact ⟨hsession'.trans hsession, answered, hanswer, hentry⟩

/-- The session header, the completion code and the pending requests are those of `s`. -/
structure SameFrame (s u : RxState) : Prop where
  session : u.rsp.session = s.rsp.session
  ccode : u.rsp.ccode = s.rsp.ccode
  entries : u.entries = s.entries

theorem SameFrame.refl (s : RxState) : SameFrame s s := ⟨rfl, rfl, rfl⟩

theorem keeps_frame_touch (s : RxState) (l : List Access) : Keeps (SameFrame s) (touch l) :=
  .modify fun _ h => ⟨h.session, h.ccode, h.entries⟩

theorem keeps_frame_modifyRsp (s : RxState) {f : IpmiRs → IpmiRs}
    (hf : ∀ r, (f r).session = r.session ∧ (f r).ccode = r.ccode) : Keeps (SameFrame s) (modifyRsp f) :=
  .modify fun u h => ⟨(hf u.rsp).1.trans h.session, (hf u.rsp).2.trans h.ccode, h.entries⟩

theorem keeps_frame_shiftData (s : RxState) (off payloadSize header trailer : Nat) :
    Keeps (SameFrame s) (shiftData off payloadSize header trailer) :=
  .bind (keeps_frame_touch s _) fun _ =>
    .ite (.bind (keeps_frame_touch s _) fun _ => keeps_frame_modifyRsp s fun _ => ⟨rfl, rfl⟩)
      (keeps_frame_modifyRsp s fun _ => ⟨rfl, rfl⟩)

theorem keeps_frame_openSession (s : RxState) (off : Nat) :
    Keeps (SameFrame s) (readOpenSessionResponse off) :=
  .bind .get fun _ => .bind (keeps_frame_touch s _) fun _ => keeps_frame_modifyRsp s fun _ => ⟨rfl, rfl⟩

theorem keeps_frame_touch_code (s : RxState) (head : List Access) (off : Nat) (code : Option Nat)
    {g : Nat → IpmiRs → IpmiRs} (hg : ∀ len r, (g len r).session = r.session ∧ (g len r).ccode = r.ccode) :
    Keeps (SameFrame s) (do
      touch head
      let some len := code | throw .assertion
      touch [.read off len]
      modifyRsp (g len) : Rx PUnit) := by
  refine .bind (keeps_frame_touch s _) fun _ => ?_
  cases code with
  | none => exact .throw _
  | some len => exact .bind (keeps_frame_touch s _) fun _ => keeps_frame_modifyRsp s (hg len)

theorem keeps_frame_rakp2 (s : RxState) (off : Nat) (authAlg : UInt8) :
    Keeps (SameFrame s) (readRakp2Message off authAlg) := keeps_frame_touch_code s _ _ _ fun _ _ => ⟨rfl, rfl⟩

theorem keeps_frame_rakp4 (s : RxState) (off : Nat) (authAlg : UInt8) :
    Keeps (SameFrame s) (readRakp4Message off authAlg) := keeps_frame_touch_code s _ _ _ fun _ _ => ⟨rfl, rfl⟩

theorem keeps_frame_sol (s : RxState) (off payloadSize : Nat) :
    Keeps (SameFrame s) (do
      readSolPacket off
      shiftData off payloadSize solHeaderLength 0) :=
  .bind (.bind (keeps_frame_touch s _) fun _ => keeps_frame_modifyRsp s fun _ => ⟨rfl, rfl⟩) fun _ =>
    keeps_frame_shiftData s _ _ _ _

/-- How the handling of a payload of type `t` ends when no assertion fails: as the loop over IPMI responses
does, or with the frame as it was, and then only an awaited payload is returned. -/
theorem handlePayload_ok {t : UInt8} {off payloadSize : Nat} {p : Poll}
    (hrun : handlePayload e t off payloadSize s = .ok p s') :
    (t = payloadTypeIpmi ∧ ipmiResponses off payloadSize s = .ok p s') ∨
      SameFrame s s' ∧ (p = .rsp → Awaited e.v2 t) := by
  have hread : ∀ {m : Rx PUnit} {state : LanplusState}, Keeps (SameFrame s) m →
      (if e.v2.sessionState ≠ state then return .again else do m; return .rsp : Rx Poll) s = .ok p s' →
      SameFrame s s' ∧ (p = .rsp → e.v2.sessionState = state) := by
    intro m state hm hrun
    by_cases hstate : e.v2.sessionState = state
    · rw [if_neg (not_not_intro hstate)] at hrun
      obtain ⟨_, s₁, hm₁, hpure⟩ := bind_eq_ok hrun
      cases hpure
      exact ⟨(ends_ok hm₁).1 (hm s (.refl s)), fun _ => hstate⟩
    · rw [if_pos hstate] at hrun
      cases hrun
      exact ⟨.refl s, nofun⟩
  unfold handlePayload at hrun
  split at hrun
  · rename_i ht
    exact .inl ⟨ht, hrun⟩
  split at hrun
  · rename_i ht
    obtain ⟨hframe, hstate⟩ := hread (keeps_frame_openSession s off) hrun
    exact .inr ⟨hframe, fun hp => .inl ⟨ht, hstate hp⟩⟩
  split at hrun
  · rename_i ht
    obtain ⟨hframe, hstate⟩ := hread (keeps_frame_rakp2 s off _) hrun
    exact .inr ⟨hframe, fun hp => .inr (.inl ⟨ht, hstate hp⟩)⟩
  split at hrun
  · rename_i ht
    obtain ⟨hframe, hstate⟩ := hread (keeps_frame_rakp4 s off _) hrun
    exact .inr ⟨hframe, fun hp => .inr (.inr (.inl ⟨ht, hstate hp⟩))⟩
  split at hrun
  · rename_i ht
    have hsol : (if e.v2.sessionState ≠ .active then return .again else do
        (do readSolPacket off; shiftData off payloadSize solHeaderLength 0); return .rsp : Rx Poll) s =
        .ok p s' := by
      rw [bind_assoc]
      exact hrun
    obtain ⟨hframe, hstate⟩ := hread (keeps_frame_sol s off payloadSize) hsol
    exact .inr ⟨hframe, fun hp => .inr (.inr (.inr ⟨ht, hstate hp⟩))⟩
  · cases hrun
    exact .inr ⟨.refl s, nofun⟩

/-- An authcode that has been checked fits. -/
theorem lanplusHasValidAuthCode_ok {b : Bool} (hrun : lanplusHasValidAuthCode e s = .ok b s') :
    authcodeCheck e.crypto e.v2 s.rsp.data s.rsp.dataLen s.rsp.session = some b ∧
      ∃ l, s' = s.touched l := by
  have hsized : AuthcodeSized s.rsp.dataLen e.v2 s.rsp.session := by
    intro hchecks len hlen
    unfold lanplusHasValidAuthCode at hrun
    rw [get_bind_apply] at hrun
    have hcompare : compareAuthcode e s.rsp.dataLen len s = .ok b s' := by
      simpa only [hchecks, hlen, Bool.not_true, Bool.false_eq_true, if_false] using hrun
    by_contra hshort
    unfold compareAuthcode at hcompare
    rw [if_pos (Nat.not_le.1 hshort)] at hcompare
    cases hcompare
  obtain ⟨l, hvalid⟩ := lanplusHasValidAuthCode_run rfl hsized
  rw [hrun] at hvalid
  cases hcheck : authcodeCheck e.crypto e.v2 s.rsp.data s.rsp.dataLen s.rsp.session with
  | none => rw [hcheck] at hvalid; cases hvalid
  | some b' =>
    rw [hcheck] at hvalid
    obtain ⟨rfl, rfl⟩ := EStateM.Result.ok.inj hvalid
    exact ⟨rfl, l, rfl⟩

/-- **What a datagram comes to**, with the bytes it lies in the array with in `s`: it is dropped, or returned
as a pong or because the session awaits it, or its responses are matched with the pending requests. -/
inductive Outcome (e : RxEnv) (n : Nat) (s : RxState) : Poll → RxState → Prop where
  | dropped {p : Poll} {s' : RxState} (hp : p ≠ .rsp) (hentries : s'.entries = s.entries) : Outcome e n s p s'
  | pong {s' : RxState} (hclass : s.rsp.data offsetRmcpClass = rmcpClassAsf)
      (hentities : s.rsp.data offsetSupEntities &&& 0x80 ≠ 0) (hccode : s'.rsp.ccode = s.rsp.ccode)
      (hentries : s'.entries = s.entries) : Outcome e n s .rsp s'
  | awaited {q : (Nat → UInt8) × Nat} {s' : RxState}
      (hclass : s.rsp.data offsetRmcpClass = rmcpClassIpmi) (hq : acceptedPayload e s.rsp.data n = some q)
      (htype : s'.rsp.session.payloadtype = (sessionAt s.rsp.data offsetAuthtype).payloadtype)
      (hawaited : Awaited e.v2 s'.rsp.session.payloadtype) (hccode : s'.rsp.ccode = s.rsp.ccode)
      (hentries : s'.entries = s.entries) : Outcome e n s .rsp s'
  | responses {q : (Nat → UInt8) × Nat} {s₁ s' : RxState} {p : Poll}
      (hclass : s.rsp.data offsetRmcpClass = rmcpClassIpmi) (hq : acceptedPayload e s.rsp.data n = some q)
      (htype : s₁.rsp.session.payloadtype = (sessionAt s.rsp.data offsetAuthtype).payloadtype)
      (hipmi : s₁.rsp.session.payloadtype = payloadTypeIpmi) (hdata : s₁.rsp.data = q.1)
      (hentries : s₁.entries = s.entries)
      (hrun : ipmiResponses (payloadStart s.rsp.data offsetAuthtype) q.2 s₁ = .ok p s') : Outcome e n s p s'

/-- A packet of class IPMI: it is dropped, or its payload is handled by its type. -/
theorem handleIpmiClass_cases {p : Poll} (hrun : handleIpmiClass e s = .ok p s') :
    (acceptedPayload e s.rsp.data s.rsp.dataLen = none ∧ p ≠ .rsp ∧ s'.entries = s.entries) ∨
      ∃ q s₁, acceptedPayload e s.rsp.data s.rsp.dataLen = some q ∧ s₁.rsp.data = q.1 ∧
        s₁.entries = s.entries ∧ s₁.rsp.ccode = s.rsp.ccode ∧
        s₁.rsp.session.payloadtype = (sessionAt s.rsp.data offsetAuthtype).payloadtype ∧
        handlePayload e s₁.rsp.session.payloadtype (payloadStart s.rsp.data offsetAuthtype) q.2 s₁ =
          .ok p s' := by
  obtain ⟨s₁, hread, hs₁⟩ := readSessionData_run 0 offsetAuthtype s
  have hsession := hs₁.session
  unfold handleIpmiClass at hrun
  rw [bind_ok hread] at hrun
  have hrun' : (if otherSession e.v2 s₁.rsp.session then return .again else do
      let valid ← lanplusHasValidAuthCode e
      if !valid then return .null
      else
        let payloadSize ← payloadSizeOf e (payloadStart s.rsp.data offsetAuthtype) s₁.rsp.session
        handlePayload e s₁.rsp.session.payloadtype (payloadStart s.rsp.data offsetAuthtype) payloadSize
          : Rx Poll) s₁ = .ok p s' := hrun
  by_cases hother : otherSession e.v2 s₁.rsp.session = true
  · rw [if_pos hother] at hrun'
    cases hrun'
    rw [hsession.otherSession] at hother
    exact .inl ⟨by simp only [acceptedPayload, hother, if_true], nofun, hs₁.entries⟩
  rw [if_neg hother] at hrun'
  obtain ⟨valid, s₂, hvalid, hrest⟩ := bind_eq_ok hrun'
  obtain ⟨hcheck, l, rfl⟩ := lanplusHasValidAuthCode_ok hvalid
  rw [hs₁.data, hs₁.dataLen, hsession.authcodeCheck] at hcheck
  rw [hsession.otherSession] at hother
  cases valid with
  | false =>
    cases hrest
    refine .inl ⟨?_, nofun, hs₁.entries⟩
    simp only [acceptedPayload, hcheck, hother, Option.some.injEq, Bool.false_eq_true, if_false]
  | true =>
    obtain ⟨size, s₃, hsize, hpayload⟩ := bind_eq_ok hrest
    have hplain := payloadSizeOf_run e (payloadStart s.rsp.data offsetAuthtype) s₁.rsp.session (s₁.touched l)
    have hdata : (s₁.touched l).rsp.data = s.rsp.data := hs₁.data
    rw [hdata, hsession.plainPayload] at hplain
    cases hq : plainPayload e s.rsp.data (payloadStart s.rsp.data offsetAuthtype)
        (sessionAt s.rsp.data offsetAuthtype) with
    | none =>
      rw [hq] at hplain
      obtain ⟨t, ht⟩ := hplain
      rw [ht] at hsize
      cases hsize
    | some q =>
      rw [hq] at hplain
      obtain ⟨l', ht⟩ := hplain
      obtain ⟨rfl, rfl⟩ := EStateM.Result.ok.inj (ht.symm.trans hsize)
      have haccepted : acceptedPayload e s.rsp.data s.rsp.dataLen = some q := by
        simp only [acceptedPayload, hcheck, hother, hq, if_true]
        rfl
      exact .inr ⟨q, (s₁.touched l).withData q.1 l', haccepted, rfl, hs₁.entries, hs₁.ccode, hsession.payloadtype,
        hpayload⟩

theorem handleIpmiClass_ok {p : Poll} (hclass : s.rsp.data offsetRmcpClass = rmcpClassIpmi)
    (hrun : handleIpmiClass e s = .ok p s') : Outcome e s.rsp.dataLen s p s' := by
  rcases handleIpmiClass_cases hrun with ⟨-, hp, hentries⟩ | ⟨q, s₁, hq, hdata, hentries, hccode, htype, hpayload⟩
  · exact .dropped hp hentries
  rcases handlePayload_ok hpayload with ⟨ht, hloop⟩ | ⟨hframe, hawaited⟩
  · exact .responses hclass hq htype ht hdata hentries hloop
  · have hsame : s'.entries = s.entries := hframe.entries.trans hentries
    by_cases hp : p = .rsp
    · subst hp
      have htype' : s'.rsp.session.payloadtype = s₁.rsp.session.payloadtype :=
        congrArg SessionHdr.payloadtype hframe.session
      refine .awaited hclass hq (htype'.trans htype) ?_ (hframe.ccode.trans hccode) hsame
      rw [htype']
      exact hawaited rfl
    · exact .dropped hp hsame

/-- The IPMI responses of an accepted packet are matched with the pending requests. -/
theorem handleIpmiClass_responses {p : Poll} {q : (Nat → UInt8) × Nat}
    (hq : acceptedPayload e s.rsp.data s.rsp.dataLen = some q)
    (htype : (sessionAt s.rsp.data offsetAuthtype).payloadtype = payloadTypeIpmi)
    (hrun : handleIpmiClass e s = .ok p s') :
    ∃ s₁, s₁.rsp.data = q.1 ∧ s₁.entries = s.entries ∧
      ipmiResponses (payloadStart s.rsp.data offsetAuthtype) q.2 s₁ = .ok p s' := by
  rcases handleIpmiClass_cases hrun with ⟨hnone, -, -⟩ | ⟨q', s₁, hq', hdata, hentries, -, htype', hpayload⟩
  · rw [hq] at hnone
    cases hnone
  obtain rfl := Option.some.inj (hq.symm.trans hq')
  refine ⟨s₁, hdata, hentries, ?_⟩
  unfold handlePayload at hpayload
  rwa [if_pos (htype'.trans htype)] at hpayload

theorem pollSingle_take (e : RxEnv) (d : List UInt8) (hne : d.take ipmiBufSize ≠ []) (s : RxState) :
    ipmiLanPollSingle e (some d) s = handleDatagram e (received (d.take ipmiBufSize) s) := by
  have hlen : (d.take ipmiBufSize).length ≤ ipmiBufSize := List.length_take_le _ _
  rw [← pollSingle_eq e hne hlen]
  have htake : (d.take ipmiBufSize).take ipmiBufSize = d.take ipmiBufSize := by
    rw [List.take_take, Nat.min_self]
  simp only [ipmiLanPollSingle, ipmiLanRecvPacket, htake]

theorem handleDatagram_ok {p : Poll} (hrun : handleDatagram e s = .ok p s') :
    Outcome e s.rsp.dataLen s p s' := by
  have hclass : (if s.rsp.data offsetRmcpClass = rmcpClassAsf then ipmiHandlePong
      else if s.rsp.data offsetRmcpClass ≠ rmcpClassIpmi then return .again
      else handleIpmiClass e) (s.touched [.read offsetRmcpClass 1]) = .ok p s' := hrun
  split at hclass
  · rename_i hasf
    have hpong : (EStateM.Result.ok (if s.rsp.data offsetSupEntities &&& 0x80 ≠ 0 then Poll.rsp else Poll.null)
        ((s.touched [.read offsetRmcpClass 1]).touched [.read offsetSupEntities 1]) :
        EStateM.Result Abort RxState Poll) = .ok p s' := hclass
    split at hpong
    · rename_i hentities
      cases hpong
      exact .pong hasf hentities rfl rfl
    · cases hpong
      exact .dropped nofun rfl
  split at hclass
  · cases hclass
    exact .dropped nofun rfl
  · rename_i hipmi
    have houtcome := handleIpmiClass_ok (s := s.touched [.read offsetRmcpClass 1]) (not_not.1 hipmi) hclass
    cases houtcome with
    | dropped hp hentries => exact .dropped hp hentries
    | pong hasf hentities hccode hentries => exact .pong hasf hentities hccode hentries
    | awaited hclass₁ hq htype hawaited hccode hentries =>
      exact .awaited hclass₁ hq htype hawaited hccode hentries
    | responses hclass₁ hq htype ht hdata hentries hloop =>
      exact .responses hclass₁ hq htype ht hdata hentries hloop

theorem handleDatagram_responses {p : Poll} {q : (Nat → UInt8) × Nat}
    (hclass : s.rsp.data offsetRmcpClass = rmcpClassIpmi)
    (hq : acceptedPayload e s.rsp.data s.rsp.dataLen = some q)
    (htype : (sessionAt s.rsp.data offsetAuthtype).payloadtype = payloadTypeIpmi)
    (hrun : handleDatagram e s = .ok p s') :
    ∃ s₁, s₁.rsp.data = q.1 ∧ s₁.entries = s.entries ∧
      ipmiResponses (payloadStart s.rsp.data offsetAuthtype) q.2 s₁ = .ok p s' := by
  have hrun' : (if s.rsp.data offsetRmcpClass = rmcpClassAsf then ipmiHandlePong
      else if s.rsp.data offsetRmcpClass ≠ rmcpClassIpmi then return .again
      else handleIpmiClass e) (s.touched [.read offsetRmcpClass 1]) = .ok p s' := hrun
  have hasf : s.rsp.data offsetRmcpClass ≠ rmcpClassAsf := by rw [hclass]; decide
  rw [if_neg hasf, if_neg (not_not_intro hclass)] at hrun'
  exact handleIpmiClass_responses (s := s.touched [.read offsetRmcpClass 1]) hq htype hrun'

/-- A datagram that is polled comes to its outcome, or nothing has come. -/
theorem pollSingle_ok {a : Arrival} {p : Poll} (hrun : ipmiLanPollSingle e a s = .ok p s') :
    (p = .null ∧ s' = s) ∨ ∃ d, a = some d ∧ d.take ipmiBufSize ≠ [] ∧
      Outcome e (d.take ipmiBufSize).length (received (d.take ipmiBufSize) s) p s' := by
  cases a with
  | none =>
    cases hrun
    exact .inl ⟨rfl, rfl⟩
  | some d =>
    by_cases hne : d.take ipmiBufSize = []
    · have hnull : ipmiLanPollSingle e (some d) s = .ok .null s := by
        have hrecv : ipmiLanRecvPacket (some d) s = .ok false s := by
          simp only [ipmiLanRecvPacket, hne, if_true]
          rfl
        show (ipmiLanRecvPacket (some d) >>= _) s = _
        rw [bind_ok hrecv]
        rfl
      rw [hnull] at hrun
      cases hrun
      exact .inl ⟨rfl, rfl⟩
    · rw [pollSingle_take e d hne] at hrun
      exact .inr ⟨d, rfl, hne, handleDatagram_ok hrun⟩

end returned

end KTools.Lanplus
