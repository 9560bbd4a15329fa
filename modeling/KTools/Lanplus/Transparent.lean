import KTools.Lanplus.Answers

/-!
# Datagrams that do not belong to the session

`pollResults` lists what successive calls of `ipmi_lan_poll_recv` return on a sequence of arrivals, and
`Inserted` says that a second sequence has further datagrams in it. A foreign datagram that is read over
(`Quiet`) leaves the pending requests and the last completion code as they are, and these are all that
counts for a later, intact datagram (`pollSingle_same`): the results of both sequences are the same
(`pollResults_inserted`).

An ASF packet and a packet whose authcode does not verify are not read over: the first is answered with
the response structure or with NULL, the second with NULL. A response that matches no request is read
over, but leaves its completion code behind.
-/

namespace KTools.Lanplus
open KTools.Lib KTools.Lib.Bytes

/-! ### The results of successive polls -/

/-- What the callers of `ipmi_lan_poll_recv` read of a response. -/
structure RspView where
  ccode : UInt8
  payloadtype : UInt8
  payload : RsPayload
  data : List UInt8
  deriving DecidableEq

def IpmiRs.view (r : IpmiRs) : RspView where
  ccode := r.ccode
  payloadtype := r.session.payloadtype
  payload := r.payload
  data := slice r.data 0 r.dataLen

/-- What a call returns, or that the process has ended. -/
inductive RecvResult where
  | null
  | rsp (view : RspView)
  | aborted
  deriving DecidableEq

/-- The results of at most `k` calls. -/
def pollResults (e : RxEnv) : Nat → List Arrival → RxState → List RecvResult
  | 0, _, _ => []
  | k + 1, arrivals, s =>
    match ipmiLanPollRecv e arrivals s with
    | .error _ _ => [.aborted]
    | .ok (false, rest) s' => .null :: pollResults e k rest s'
    | .ok (true, rest) s' => .rsp s'.rsp.view :: pollResults e k rest s'

theorem pollResults_cons (e : RxEnv) (k : Nat) (a : Arrival) (arrivals : List Arrival) (s : RxState) :
    pollResults e (k + 1) (a :: arrivals) s =
      match ipmiLanPollSingle e a s with
      | .error _ _ => [.aborted]
      | .ok .again s' => pollResults e (k + 1) arrivals s'
      | .ok .null s' => .null :: pollResults e k arrivals s'
      | .ok .rsp s' => .rsp s'.rsp.view :: pollResults e k arrivals s' := by
  conv_lhs => unfold pollResults ipmiLanPollRecv
  simp only [Bind.bind, EStateM.bind]
  cases ipmiLanPollSingle e a s with
  | error b s' => rfl
  | ok p s' =>
    cases p with
    | null => rfl
    | rsp => rfl
    | again => rfl

/-- After the last arrival every call runs into its timeout. -/
theorem pollResults_nil (e : RxEnv) (k : Nat) (s : RxState) :
    pollResults e k [] s = List.replicate k .null := by
  induction k with
  | zero => rfl
  | succ k ih =>
    show .null :: pollResults e k [] s = _
    rw [ih]
    rfl

theorem SameView.view {r r' : IpmiRs} (h : SameView r r') (hccode : r'.ccode = r.ccode) :
    r'.view = r.view := by
  have hdata : slice r'.data 0 r'.dataLen = slice r.data 0 r.dataLen := by
    rw [h.dataLen]
    exact slice_congr fun i _ hi => h.data i (by omega)
  unfold IpmiRs.view
  rw [hccode, h.session.payloadtype, h.payload, hdata]

/-! ### Inserted datagrams -/

/-- The second sequence of arrivals is the first one with datagrams inserted. `kept` holds for the
arrivals of the first sequence and `inserted` for the others, each in the state in which the first run is
when they come. -/
inductive Inserted (e : RxEnv) (kept : RxState → Arrival → Prop)
    (inserted : RxState → List UInt8 → Prop) : RxState → List Arrival → List Arrival → Prop
  | nil (s : RxState) : Inserted e kept inserted s [] []
  | keep {s : RxState} {a : Arrival} {as bs : List Arrival} (h : kept s a)
      (hrest : ∀ p s', ipmiLanPollSingle e a s = .ok p s' → Inserted e kept inserted s' as bs) :
      Inserted e kept inserted s (a :: as) (a :: bs)
  | insert {s : RxState} {d : List UInt8} {as bs : List Arrival} (h : inserted s d)
      (hrest : Inserted e kept inserted s as bs) : Inserted e kept inserted s as (some d :: bs)

/-- The payload of `d` is an IPMI response, and it matches no pending request. -/
def Unmatched (e : RxEnv) (entries : List RqEntry) (d : List UInt8) : Prop :=
  (headerOf d).payloadtype = payloadTypeIpmi ∧
    ∃ p, payloadOf e d = some p ∧ pendingEntry p.1 (payloadOffset d) entries = none

/-- A datagram that does not belong to the session: of another class, with another session id, with an
authcode that does not verify, or a response to no pending request. -/
def Foreign (e : RxEnv) (s : RxState) (d : List UInt8) : Prop :=
  packetBytes d offsetRmcpClass ≠ rmcpClassIpmi ∨ otherSession e.v2 (headerOf d) = true ∨
    authcodeOf e d = some false ∨ Unmatched e s.entries d

/-- A datagram of the session whose lengths are those of the bytes received, or a timeout. -/
def Intact (e : RxEnv) (s : RxState) : Arrival → Prop
  | none => True
  | some d => d ≠ [] ∧ d.length ≤ ipmiBufSize ∧ WellSized e s.entries d ∧
      packetBytes d offsetRmcpClass ≠ rmcpClassAsf

/-- A datagram that is read over without a trace: neither class, a packet for another session, or a
response that matches no request and has the completion code of the last response. -/
structure Quiet (e : RxEnv) (s : RxState) (d : List UInt8) : Prop where
  nonempty : d ≠ []
  length_le : d.length ≤ ipmiBufSize
  sized : WellSized e s.entries d
  class_ne : packetBytes d offsetRmcpClass ≠ rmcpClassAsf
  passed_over : packetBytes d offsetRmcpClass = rmcpClassIpmi → otherSession e.v2 (headerOf d) = false →
    ∃ p, Accepted e d p ∧ (headerOf d).payloadtype = payloadTypeIpmi ∧
      pendingEntry p.1 (payloadOffset d) s.entries = none ∧ p.1 (payloadOffset d + 6) = s.rsp.ccode

section quiet
variable {e : RxEnv}

theorem Quiet.foreign {s : RxState} {d : List UInt8} (h : Quiet e s d) : Foreign e s d := by
  by_cases hipmi : packetBytes d offsetRmcpClass = rmcpClassIpmi
  · cases hother : otherSession e.v2 (headerOf d) with
    | true => exact .inr (.inl hother)
    | false =>
      obtain ⟨p, hp, htype, hnone, -⟩ := h.passed_over hipmi hother
      exact .inr (.inr (.inr ⟨htype, p, hp.payload, hnone⟩))
  · exact .inl hipmi

/-- A response that matches no request is read, and one more packet is asked for. -/
theorem handlePayload_unmatched {s : RxState} {off size : Nat}
    (hnone : pendingEntry s.rsp.data off s.entries = none) :
    handlePayload e payloadTypeIpmi off size s = .ok .again (s.withResponse off) := by
  unfold handlePayload ipmiResponses
  rw [if_pos rfl, bind_ok (handleIpmiResponse_none hnone size)]
  rfl

theorem pollSingle_quiet_clear {s : RxState} {d : List UInt8} (h : Quiet e s d) :
    ∃ s', ipmiLanPollSingle e (some d) s.clear = .ok .again s' ∧ SamePending s s' := by
  by_cases hipmi : packetBytes d offsetRmcpClass = rmcpClassIpmi
  · cases hother : otherSession e.v2 (headerOf d) with
    | true => exact pollSingle_otherSession h.nonempty h.length_le hipmi hother s
    | false =>
      obtain ⟨p, hp, htype, hnone, hccode⟩ := h.passed_over hipmi hother
      obtain ⟨s', hhanded, hrun⟩ := pollSingle_accepted h.nonempty h.length_le h.sized hp s
      have hnone' : pendingEntry s'.rsp.data (payloadOffset d) s'.entries = none := by
        rw [hhanded.data, hhanded.entries]
        exact hnone
      rw [htype, handlePayload_unmatched hnone'] at hrun
      refine ⟨_, hrun, hhanded.entries, ?_⟩
      show s'.rsp.data (payloadOffset d + 6) = s.rsp.ccode
      rw [hhanded.data, hccode]
  · exact pollSingle_otherClass h.nonempty h.length_le h.class_ne hipmi s

/-- A quiet datagram is read over, in every state with these pending requests and completion code. -/
theorem pollSingle_quiet {s t : RxState} (hst : SamePending s t) {d : List UInt8} (h : Quiet e s d) :
    ∃ t', ipmiLanPollSingle e (some d) t = .ok .again t' ∧ SamePending s t' := by
  obtain ⟨s', hrun, hs'⟩ := pollSingle_quiet_clear h
  have hclear : SamePending s.clear t := ⟨hst.entries, hst.ccode⟩
  have hsafe := (pollSingle_safe_iff e h.nonempty h.length_le s.clear).2 h.sized
  have hsame := pollSingle_same e h.nonempty h.length_le hclear hsafe
  rw [hrun] at hsame
  cases ht : ipmiLanPollSingle e (some d) t with
  | error b t' => rw [ht] at hsame; cases hsame
  | ok p t' =>
    rw [ht] at hsame
    cases hsame with
    | ok hout =>
      exact ⟨t', rfl, hout.pending.entries.trans hs'.entries, hout.pending.ccode.trans hs'.ccode⟩

/-- An intact arrival is answered in the same way. -/
theorem pollSingle_intact {s t : RxState} (hst : SamePending s t) {a : Arrival} (h : Intact e s a) :
    SameResult (fun p s' t' => SamePending s' t' ∧ (p = .rsp → t'.rsp.view = s'.rsp.view))
      (ipmiLanPollSingle e a s) (ipmiLanPollSingle e a t) := by
  cases a with
  | none => exact .ok ⟨hst, fun h => by cases h⟩
  | some d =>
    obtain ⟨hne, hlen, hsized, hasf⟩ := h
    have hsame := pollSingle_same e hne hlen hst ((pollSingle_safe_iff e hne hlen s).2 hsized)
    generalize ipmiLanPollSingle e (some d) s = r, ipmiLanPollSingle e (some d) t = r' at hsame
    cases hsame with
    | ok hout => exact .ok ⟨hout.pending, fun hp => (hout.view hp hasf).view hout.pending.ccode⟩
    | error hlog => exact .error hlog

/-- **Quiet datagrams are transparent**: the results of every number of polls are the same with them and
without them. The second run keeps the pending requests and the completion code of the first. -/
theorem pollResults_inserted {s : RxState} {as bs : List Arrival}
    (h : Inserted e (Intact e) (Quiet e) s as bs) :
    ∀ k t, SamePending s t → pollResults e k bs t = pollResults e k as s := by
  induction h with
  | nil s =>
    intro k t _
    rw [pollResults_nil, pollResults_nil]
  | keep hintact _ ih =>
    rename_i s a as bs _
    intro k t hst
    cases k with
    | zero => rfl
    | succ k =>
      have hsame := pollSingle_intact hst hintact
      rw [pollResults_cons, pollResults_cons]
      cases hs : ipmiLanPollSingle e a s with
      | error b s' =>
        rw [hs] at hsame
        generalize ipmiLanPollSingle e a t = r' at hsame
        cases hsame with
        | error _ => rfl
      | ok p s' =>
        rw [hs] at hsame
        have hrest := ih p s' hs
        generalize ipmiLanPollSingle e a t = r' at hsame
        cases hsame with
        | ok hout =>
          rename_i t'
          obtain ⟨hpending, hview⟩ := hout
          cases p with
          | again => exact hrest (k + 1) t' hpending
          | null => exact congrArg _ (hrest k t' hpending)
          | rsp =>
            show .rsp t'.rsp.view :: pollResults e k bs t' = .rsp s'.rsp.view :: pollResults e k as s'
            rw [hview rfl, hrest k t' hpending]
  | insert hquiet _ ih =>
    rename_i s d as bs _
    intro k t hst
    cases k with
    | zero => rfl
    | succ k =>
      obtain ⟨t', hrun, hst'⟩ := pollSingle_quiet hst hquiet
      rw [pollResults_cons, hrun]
      exact ih (k + 1) t' hst'

end quiet

/-! ### Insertions into a session -/

/-- Two sequences of arrivals in an ACTIVE session with a negotiated integrity algorithm, the second with
foreign datagrams inserted. -/
structure Insertion where
  env : RxEnv
  start : RxState
  arrivals : List Arrival
  arrivals' : List Arrival
  active : env.v2.sessionState = .active
  integrity : env.v2.integrityAlg ≠ integrityNone
  inserted : Inserted env (fun _ _ => True) (Foreign env) start arrivals arrivals'

/-- The successive results are the same. -/
def Insertion.Transparent (i : Insertion) : Prop :=
  ∀ k, pollResults i.env k i.arrivals' i.start = pollResults i.env k i.arrivals i.start

/-- Every inserted datagram is quiet, and the others are intact. -/
def Insertion.IsQuiet (i : Insertion) : Prop :=
  Inserted i.env (Intact i.env) (Quiet i.env) i.start i.arrivals i.arrivals'

theorem Insertion.transparent_of_quiet (i : Insertion) (h : i.IsQuiet) : i.Transparent :=
  fun k => pollResults_inserted h k i.start ⟨rfl, rfl⟩

/-- A session with HMAC-SHA1-96. -/
def Insertion.session : RxEnv where
  crypto := .plain
  v2 := { V2Data.initial with sessionState := .active, integrityAlg := integrityHmacSha1_96 }
  heap := fun _ => 0

/-- A SOL packet with one character, and the same packet with an authcode that does not verify. -/
def Insertion.solPacket : List UInt8 :=
  [6, 0, 0xff, 7, 6, 1, 0, 0, 0, 0, 1, 0, 0, 0, 5, 0, 1, 0, 0, 0, 97]

def Insertion.forgedPacket : List UInt8 :=
  [6, 0, 0xff, 7, 6, 0x41, 0, 0, 0, 0, 1, 0, 0, 0, 5, 0, 1, 0, 0, 0, 97] ++ List.replicate 12 0xff

/-- A packet of class OEM. -/
def Insertion.oemPacket : List UInt8 := [6, 0, 0xff, 8]

def Insertion.ofPacket (d : List UInt8) (h : Foreign session ⟨.clear 0, [], []⟩ d) : Insertion where
  env := session
  start := ⟨.clear 0, [], []⟩
  arrivals := [some solPacket]
  arrivals' := [some d, some solPacket]
  active := rfl
  integrity := by decide
  inserted := .insert h (.keep trivial fun _ s' _ => .nil s')

theorem Insertion.solPacket_intact (s : RxState) : Intact session s (some solPacket) := by
  refine ⟨by decide, by decide, ⟨by decide, by decide, by decide, fun _ => ⟨by decide, fun _ => ?_⟩⟩, by decide⟩
  refine ⟨fun h => absurd h (by decide), fun _ => ⟨fun h => absurd h (by decide), ?_⟩⟩
  intro p hp
  have hplain : plainPayload session (packetBytes solPacket)
      (payloadStart (packetBytes solPacket) offsetAuthtype)
      (sessionAt (packetBytes solPacket) offsetAuthtype) = some (packetBytes solPacket, 5) := rfl
  obtain rfl := Option.some.inj (hplain.symm.trans hp)
  exact fun _ => by decide

theorem Insertion.oemPacket_quiet (s : RxState) : Quiet session s oemPacket where
  nonempty := by decide
  length_le := by decide
  sized := ⟨by decide, by decide, by decide, fun h => absurd h (by decide)⟩
  class_ne := by decide
  passed_over := fun h => absurd h (by decide)

theorem Insertion.oemPacket_transparent :
    (ofPacket oemPacket (oemPacket_quiet _).foreign).Transparent :=
  transparent_of_quiet _
    (.insert (oemPacket_quiet _) (.keep (solPacket_intact _) fun _ s' _ => .nil s'))

/-- A packet with a forged authcode comes before the SOL packet: the next call returns NULL, which the
SOL loop takes for a closed session. -/
theorem Insertion.forgedPacket_not_transparent : ¬ ∀ i : Insertion, i.Transparent := by
  intro h
  have hforeign : Foreign session ⟨.clear 0, [], []⟩ forgedPacket :=
    .inr (.inr (.inl (by decide +kernel)))
  have hresults := h (ofPacket forgedPacket hforeign) 1
  revert hresults
  show ¬ (pollResults session 1 [some forgedPacket, some solPacket] ⟨.clear 0, [], []⟩ =
    pollResults session 1 [some solPacket] ⟨.clear 0, [], []⟩)
  decide +kernel

end KTools.Lanplus
