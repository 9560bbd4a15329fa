import KTools.Lib.Triple
import KTools.Lanplus.Answers
import KTools.Lanplus.Send

/-!
# Whose reply a response is

A call that returns a response takes it for the reply to its own message. That can go wrong in three ways
(`Disturbing`): a pong is returned, an IPMI request is given a payload that the session happens to await,
or a response matches a pending request that an earlier call has left behind. In a run in which no polled
datagram does this, every returned response is attributed to its call.

The entries that a call adds have the sequence numbers and commands of its transmissions (`OwnKeys`), and
matching keeps that; so a response that does not match an older entry has one of the call's keys.
-/

namespace KTools.Lanplus
open KTools.Lib

/-! ### Entries that stay as they were, but for bridging -/

section entries
variable {P : RqEntry → Prop}

theorem updateEntry_all {seq cmd : UInt8} {f : RqEntry → RqEntry} {entry : RqEntry} :
    ∀ {entries : List RqEntry}, ipmiReqLookupEntry seq cmd entries = some entry → P (f entry) →
      (∀ x ∈ entries, P x) → ∀ x ∈ updateEntry seq cmd f entries, P x := by
  intro entries
  induction entries with
  | nil => intro hfind; cases hfind
  | cons y rest ih =>
    intro hfind hf hall
    rw [List.forall_mem_cons] at hall
    unfold ipmiReqLookupEntry at hfind
    unfold updateEntry
    by_cases hkey : y.hasKey seq cmd = true
    · rw [List.find?_cons_of_pos hkey] at hfind
      rw [if_pos hkey, List.forall_mem_cons]
      exact ⟨Option.some.inj hfind ▸ hf, hall.2⟩
    · rw [List.find?_cons_of_neg hkey] at hfind
      rw [if_neg hkey, List.forall_mem_cons]
      exact ⟨hall.1, ih hfind hf hall.2⟩

theorem removeEntry_all {entries : List RqEntry} (hall : ∀ x ∈ entries, P x) (seq cmd : UInt8) :
    ∀ x ∈ ipmiReqRemoveEntry seq cmd entries, P x :=
  fun x hx => hall x (List.mem_of_mem_eraseP hx)

variable (hdecrement : ∀ x : RqEntry, x.bridgingLevel ≠ 0 → P x → P x.decrementBridging)
include hdecrement

theorem entriesBehind_all {data : Nat → UInt8} {off : Nat} {entry : RqEntry} {entries : List RqEntry}
    (hfind : pendingEntry data off entries = some entry) (hlevel : entry.bridgingLevel ≠ 0)
    (hall : ∀ x ∈ entries, P x) : ∀ x ∈ entriesBehind data off entries, P x :=
  removeEntry_all (updateEntry_all hfind
    (hdecrement entry hlevel (hall entry (List.mem_of_find?_eq_some hfind))) hall) _ _

/-- The request that is answered is one of the pending ones, but for its bridging. -/
theorem answeredEntry_all (payloadSize : Nat) :
    ∀ {data : Nat → UInt8} {off : Nat} {entries : List RqEntry} {entry : RqEntry},
      (∀ x ∈ entries, P x) → answeredEntry data entries off payloadSize = some entry → P entry := by
  induction payloadSize using Nat.strongRecOn with
  | _ payloadSize ih =>
    intro data off entries entry hall hanswered
    unfold answeredEntry at hanswered
    cases hfind : pendingEntry data off entries with
    | none => rw [hfind] at hanswered; cases hanswered
    | some found =>
      rw [hfind] at hanswered
      by_cases hbridged : found.bridgingLevel ≠ 0 ∧ data (off + 6) = 0
      · simp only [if_pos hbridged] at hanswered
        split at hanswered
        · exact ih _ (by omega) (entriesBehind_all hdecrement hfind hbridged.1 hall) hanswered
        · cases hanswered
      · simp only [if_neg hbridged] at hanswered
        exact Option.some.inj hanswered ▸ hall found (List.mem_of_find?_eq_some hfind)

theorem keeps_all_matchResponse (off payloadSize : Nat) :
    Keeps (fun s => ∀ x ∈ s.entries, P x) (matchResponse off payloadSize) := by
  have hshift : ∀ (n m : Nat), Keeps (fun s : RxState => ∀ x ∈ s.entries, P x)
      (shiftData off payloadSize n m) := fun n m =>
    .bind (.modify fun _ h => h) fun _ =>
      .ite (.bind (.modify fun _ h => h) fun _ => .modify fun _ h => h) (.modify fun _ h => h)
  have hremove : ∀ (seq cmd : UInt8) (turn : Turn), Keeps (fun s : RxState => ∀ x ∈ s.entries, P x) (do
      modifyEntries (ipmiReqRemoveEntry seq cmd)
      shiftData off payloadSize ipmiResponseLength 1
      return turn) := fun seq cmd turn =>
    .bind (.modify fun _ h => removeEntry_all h seq cmd) fun _ => .bind (hshift _ _) fun _ => .pure _
  intro s hall
  unfold matchResponse
  rw [ends_get_bind]
  cases hfind : pendingEntry s.rsp.data off s.entries with
  | none => exact hall
  | some entry =>
    simp only [matchedResponse]
    rw [ends_ite]
    split
    · rename_i hbridged
      have hupdated := updateEntry_all (f := RqEntry.decrementBridging) hfind
        (hdecrement entry hbridged.1 (hall entry (List.mem_of_find?_eq_some hfind))) hall
      rw [ends_modifyEntries_bind, ends_ite]
      split
      · exact Keeps.bind (.modify fun _ h => h) (fun _ => hremove _ _ _) _ hupdated
      · exact hupdated
    · exact hremove _ _ _ s hall

theorem keeps_all_ipmiResponses (payloadSize : Nat) :
    ∀ off, Keeps (fun s => ∀ x ∈ s.entries, P x) (ipmiResponses off payloadSize) := by
  induction payloadSize using Nat.strongRecOn with
  | _ payloadSize ih =>
    intro off
    unfold ipmiResponses
    refine .bind (.bind (.bind (.modify fun _ h => h) fun _ => .modify fun _ h => h) fun _ =>
      keeps_all_matchResponse hdecrement off payloadSize) fun turn => ?_
    cases turn with
    | again => exact .pure _
    | last => exact .pure _
    | embedded =>
      dsimp only
      split
      · exact ih _ (by omega) 0
      · exact .pure _

end entries

/-! ### What disturbs a call -/

/-- A datagram that the call for `request` takes for its reply, and that is none. `s` is the state with the
datagram in the array, `first` the number of the first entry of the call. -/
inductive Disturbing (e : RxEnv) (request : Request) (first n : Nat) (s : RxState) : Prop where
  | pong (hclass : s.rsp.data offsetRmcpClass = rmcpClassAsf)
      (hentities : s.rsp.data offsetSupEntities &&& 0x80 ≠ 0) (hccode : s.rsp.ccode ≠ duplicateRequest)
  | otherPayload {req : IpmiRq} {q : (Nat → UInt8) × Nat} (hrequest : request = .ipmi req)
      (hclass : s.rsp.data offsetRmcpClass = rmcpClassIpmi) (hq : acceptedPayload e s.rsp.data n = some q)
      (hawaited : Awaited e.v2 (sessionAt s.rsp.data offsetAuthtype).payloadtype)
      (hccode : s.rsp.ccode ≠ duplicateRequest)
  | olderRequest {q : (Nat → UInt8) × Nat} {entry : RqEntry}
      (hclass : s.rsp.data offsetRmcpClass = rmcpClassIpmi) (hq : acceptedPayload e s.rsp.data n = some q)
      (htype : (sessionAt s.rsp.data offsetAuthtype).payloadtype = payloadTypeIpmi)
      (hentry : answeredEntry q.1 s.entries (payloadStart s.rsp.data offsetAuthtype) q.2 = some entry)
      (holder : entry.alloc < first)

/-- The polled datagram disturbs the call it is polled in. -/
def Polled.Disturbs (w : World) (p : Polled) : Prop :=
  ∃ request d, p.request = some request ∧ p.arrival = some d ∧ d.take ipmiBufSize ≠ [] ∧
    Disturbing ⟨w.crypto, p.v2, w.heap⟩ request p.first (d.take ipmiBufSize).length
      (received (d.take ipmiBufSize) p.rx)

/-- The reply to a message of the handshake. -/
def Request.replyType : Request → UInt8
  | .ipmi _ => payloadTypeIpmi
  | .openSession _ => payloadTypeOpenResponse
  | .rakp1 _ => payloadTypeRakp2
  | .rakp3 _ => payloadTypeRakp4

/-- The response is the reply to its call: it has the type of a reply, and a response to an IPMI request has
the sequence number and the command of a transmission. -/
def Returned.Attributed (y : Returned) : Prop :=
  y.rsp.session.payloadtype = y.request.replyType ∧
    ∀ req, y.request = .ipmi req → ∃ r, y.rsp.payload = .ipmiResponse r ∧ (r.rqSeq, r.cmd) ∈ y.keys

/-! ### The invariant of a call -/

/-- The keys of an entry, before and after bridging. -/
def OwnKeys (keys : List RqKey) (x : RqEntry) : Prop :=
  (x.rqSeq, x.msg.cmd) ∈ keys ∧ (x.bridgingLevel ≠ 0 → (x.rqSeq, x.msg.targetCmd) ∈ keys)

theorem OwnKeys.decrement {keys : List RqKey} {x : RqEntry} (hlevel : x.bridgingLevel ≠ 0)
    (h : OwnKeys keys x) : OwnKeys keys x.decrementBridging := by
  obtain ⟨hcmd, htarget⟩ := h
  refine ⟨?_, fun _ => htarget hlevel⟩
  show (x.rqSeq, if x.bridgingLevel - 1 = 0 then x.msg.targetCmd else x.msg.cmd) ∈ keys
  split
  · exact htarget hlevel
  · exact hcmd

/-- Entries that have been allocated; those from `first` on have the call's keys. -/
def CallEntry (allocs first : Nat) (keys : List RqKey) (x : RqEntry) : Prop :=
  x.alloc < allocs ∧ (first ≤ x.alloc → OwnKeys keys x)

theorem CallEntry.decrement {allocs first : Nat} {keys : List RqKey} (x : RqEntry)
    (hlevel : x.bridgingLevel ≠ 0) (h : CallEntry allocs first keys x) :
    CallEntry allocs first keys x.decrementBridging :=
  ⟨h.1, fun hfirst => (h.2 hfirst).decrement hlevel⟩

/-- No datagram polled so far disturbs its call. -/
def Undisturbed (w : World) (l : Link) : Prop := ∀ p ∈ l.ledger.polled, ¬ p.Disturbs w

/-- Every response returned so far is attributed, unless a call has been disturbed. -/
def AllAttributed (w : World) (l : Link) : Prop := Undisturbed w l → ∀ y ∈ l.ledger.returned, y.Attributed

/-- What holds outside the calls. -/
structure Settled (w : World) (l : Link) : Prop where
  current : l.ledger.request = none
  entries : ∀ x ∈ l.rx.entries, x.alloc < l.allocs
  attributed : AllAttributed w l

/-- What holds during the call for `request`. -/
structure InCall (w : World) (request : Request) (l : Link) : Prop where
  current : l.ledger.request = some request
  entries : ∀ x ∈ l.rx.entries, CallEntry l.allocs l.ledger.first l.ledger.keys x
  first : l.ledger.first ≤ l.allocs
  handshake : (∀ req, request ≠ .ipmi req) → l.ledger.keys = []
  attributed : AllAttributed w l

/-- The state of the session while a reply is waited for. -/
def Request.SentIn : Request → LanplusState → Prop
  | .ipmi _ => fun _ => True
  | .openSession _ => (· = .openSessionSent)
  | .rakp1 _ => (· = .rakp1Sent)
  | .rakp3 _ => (· = .rakp3Sent)

/-- The response that lies in the link is attributed, unless a call has been disturbed. -/
def RspAttributed (w : World) (request : Request) (l : Link) : Prop :=
  Undisturbed w l → (Returned.mk request l.ledger.keys l.rx.rsp).Attributed

theorem awaited_replyType {request : Request} {v2 : V2Data} {t : UInt8} (hsent : request.SentIn v2.sessionState)
    (h : Awaited v2 t) : (∃ req, request = .ipmi req) ∨ t = request.replyType := by
  unfold Awaited at h
  cases request with
  | ipmi req => exact .inl ⟨req, rfl⟩
  | openSession _ => simp_all [Request.SentIn, Request.replyType]
  | rakp1 _ => simp_all [Request.SentIn, Request.replyType]
  | rakp3 _ => simp_all [Request.SentIn, Request.replyType]

/-- **One datagram.** When it does not disturb the call, and is returned and not dropped as a duplicate, it
is the reply to the call. -/
theorem outcome_attributed {request : Request} {e : RxEnv} {first n : Nat} {keys : List RqKey}
    {s s' : RxState} {allocs : Nat} (hsent : request.SentIn e.v2.sessionState)
    (hkeys : (∀ req, request ≠ .ipmi req) → keys = [])
    (hentries : ∀ x ∈ s.entries, CallEntry allocs first keys x) (h : Outcome e n s .rsp s')
    (hccode : s'.rsp.ccode ≠ duplicateRequest) (hquiet : ¬ Disturbing e request first n s) :
    (Returned.mk request keys s'.rsp).Attributed := by
  cases h with
  | dropped hp _ => exact absurd rfl hp
  | pong hclass hentities hsame _ => exact absurd (.pong hclass hentities (hsame ▸ hccode)) hquiet
  | awaited hclass hq htype hawaited hsame _ =>
    rcases awaited_replyType hsent hawaited with ⟨req, hrequest⟩ | hreply
    · exact absurd (.otherPayload hrequest hclass hq (htype ▸ hawaited) (hsame ▸ hccode)) hquiet
    · refine ⟨hreply, fun req hrequest => ?_⟩
      have hrequest' : request = .ipmi req := hrequest
      exact absurd (.otherPayload hrequest' hclass hq (htype ▸ hawaited) (hsame ▸ hccode)) hquiet
  | @responses q s₁ _ _ hclass hq htype hipmi hdata hsame hrun =>
    obtain ⟨hsession, entry, ⟨r, hr, hkey⟩, hanswered⟩ := ipmiResponses_rsp q.2 hrun
    rw [hdata, hsame] at hanswered
    have hentry : CallEntry allocs first keys entry :=
      answeredEntry_all (fun x => CallEntry.decrement x) q.2 hentries hanswered
    have hfirst : first ≤ entry.alloc := by
      by_contra holder
      exact hquiet (.olderRequest hclass hq (htype ▸ hipmi) hanswered (Nat.lt_of_not_le holder))
    obtain ⟨hown, -⟩ := hentry.2 hfirst
    simp only [RqEntry.hasKey, Bool.and_eq_true, beq_iff_eq] at hkey
    rw [hkey.1, hkey.2] at hown
    have htype' : s'.rsp.session.payloadtype = payloadTypeIpmi := by rw [hsession]; exact hipmi
    have hrequest : ∃ req, request = .ipmi req := by
      by_contra hnone
      rw [hkeys fun req hreq => hnone ⟨req, hreq⟩] at hown
      cases hown
    obtain ⟨req, rfl⟩ := hrequest
    exact ⟨htype', fun _ _ => ⟨r, hr, hown⟩⟩

theorem Outcome.entries_all {P : RqEntry → Prop}
    (hdecrement : ∀ x : RqEntry, x.bridgingLevel ≠ 0 → P x → P x.decrementBridging) {e : RxEnv} {n : Nat}
    {s s' : RxState} {p : Poll} (h : Outcome e n s p s') (hall : ∀ x ∈ s.entries, P x) :
    ∀ x ∈ s'.entries, P x := by
  cases h with
  | dropped _ hentries => rwa [hentries]
  | pong _ _ _ hentries => rwa [hentries]
  | awaited _ _ _ _ _ hentries => rwa [hentries]
  | responses _ _ _ _ _ hentries hrun =>
    have hall₁ := hentries ▸ hall
    exact (ends_ok hrun).1 (keeps_all_ipmiResponses hdecrement _ _ _ hall₁)

/-! ### The steps of a call -/

section call
variable {w : World} {request : Request}

/-- The invariant depends on the notes, the number of entries, and the pending requests. -/
theorem InCall.mono {l l' : Link} (h : InCall w request l) (hledger : l'.ledger = l.ledger)
    (hallocs : l'.allocs = l.allocs) (hentries : ∀ x ∈ l'.rx.entries, x ∈ l.rx.entries) :
    InCall w request l' where
  current := hledger ▸ h.current
  entries := fun x hx => by
    rw [hledger, hallocs]
    exact h.entries x (hentries x hx)
  first := by
    rw [hledger, hallocs]
    exact h.first
  handshake := hledger ▸ h.handshake
  attributed := by
    unfold AllAttributed Undisturbed
    rw [hledger]
    exact h.attributed

theorem undisturbed_afterPoll {l : Link} {a : Arrival} {rx : RxState} :
    Undisturbed w (l.afterPoll a rx) ↔ Undisturbed w l ∧
      ¬ (Polled.mk l.ledger.request l.ledger.first l.intf.v2 l.rx a).Disturbs w := by
  unfold Undisturbed Link.afterPoll
  rw [List.forall_mem_append, List.forall_mem_singleton]

theorem AllAttributed.afterPoll {l : Link} (h : AllAttributed w l) (a : Arrival) (rx : RxState) :
    AllAttributed w (l.afterPoll a rx) :=
  fun hquiet => h (undisturbed_afterPoll.1 hquiet).1

/-- The session is in the state in which the reply is awaited. -/
def Waiting (w : World) (request : Request) (l : Link) : Prop :=
  InCall w request l ∧ request.SentIn l.intf.v2.sessionState

theorem pollSingle_waiting (a : Arrival) :
    Triple (AllAttributed w) (Waiting w request) (pollSingle w a) fun p l =>
      Waiting w request l ∧ (p = .rsp → l.rx.rsp.ccode ≠ duplicateRequest → RspAttributed w request l) := by
  rintro l ⟨h, hsent⟩
  rw [pollSingle_link]
  cases hrun : ipmiLanPollSingle (l.env w) a l.rx with
  | error e rx => exact h.attributed.afterPoll a rx
  | ok p rx =>
    have hattributed := h.attributed.afterPoll a rx
    rcases pollSingle_ok hrun with ⟨rfl, rfl⟩ | ⟨d, rfl, hne, houtcome⟩
    · exact ⟨⟨⟨h.current, h.entries, h.first, h.handshake, hattributed⟩, hsent⟩, nofun⟩
    · have hentries := houtcome.entries_all (fun x => CallEntry.decrement x) h.entries
      refine ⟨⟨⟨h.current, hentries, h.first, h.handshake, hattributed⟩, hsent⟩, ?_⟩
      rintro rfl hccode hquiet
      obtain ⟨-, hpolled⟩ := undisturbed_afterPoll.1 hquiet
      have hquiet' : ¬ Disturbing (l.env w) request l.ledger.first (d.take ipmiBufSize).length
          (received (d.take ipmiBufSize) l.rx) := fun hdisturbing =>
        hpolled ⟨request, d, h.current, rfl, hne, hdisturbing⟩
      have hpending : ∀ x ∈ (received (d.take ipmiBufSize) l.rx).entries,
          CallEntry l.allocs l.ledger.first l.ledger.keys x := h.entries
      have hsent' : request.SentIn (l.env w).v2.sessionState := hsent
      exact outcome_attributed hsent' h.handshake hpending houtcome hccode hquiet'

/-- **A reply that is waited for**: what the loops over packets return is attributed. -/
theorem pollReplyFrom_waiting : ∀ arrivals : List Arrival,
    Triple (AllAttributed w) (Waiting w request) (pollReplyFrom w arrivals) fun b l =>
      InCall w request l ∧ (b = true → RspAttributed w request l) := by
  intro arrivals
  induction arrivals with
  | nil => exact .pure fun l h => ⟨h.1, nofun⟩
  | cons a rest ih =>
    refine .bind (.modify (Q := fun _ => Waiting w request) fun l h =>
      ⟨h.1.mono rfl rfl fun _ hx => hx, h.2⟩) fun _ => ?_
    refine .bind (pollSingle_waiting a) fun p => ?_
    cases p with
    | null => exact .pure fun l h => ⟨h.1.1, nofun⟩
    | again => exact ih.pre fun l h => h.1
    | rsp =>
      refine .get_bind fun l h => .ite (fun _ => ih.pre ?_) fun hccode => .pure ?_
      · rintro _ rfl
        exact h.1
      · rintro _ rfl
        exact ⟨h.1.1, fun _ => h.2 rfl hccode⟩

theorem pollReply_waiting :
    Triple (AllAttributed w) (Waiting w request) (pollReply w) fun b l =>
      InCall w request l ∧ (b = true → RspAttributed w request l) :=
  .get_bind' fun l => pollReplyFrom_waiting l.arrivals

/-- The builder of a message changes nothing but the interface. -/
theorem buildV2xMsg_intf {E I : Link → Prop} (hstops : ∀ l, I l → E l)
    (hintf : ∀ l intf, I l → I { l with intf := intf }) (payload : V2Payload) (iv : List UInt8) (currSeq : UInt8) :
    Triple E I (buildV2xMsg w payload iv currSeq) fun _ => I := by
  refine .get_bind' fun l => ?_
  cases ipmiLanplusBuildV2xMsg w.crypto l.intf payload iv currSeq with
  | none => exact .throw hstops
  | some built => exact .bind (.modify (Q := fun _ => I) fun l h => hintf l built.2 h) fun _ => .pure fun _ h => h

theorem buildV2xMsg_inCall (payload : V2Payload) (iv : List UInt8) (currSeq : UInt8) :
    Triple (AllAttributed w) (InCall w request) (buildV2xMsg w payload iv currSeq) fun _ =>
      InCall w request :=
  buildV2xMsg_intf (fun _ h => h.attributed) (fun _ _ h => h.mono rfl rfl fun _ hx => hx) payload iv currSeq

theorem sendPacket_inCall (msg : List UInt8) (a : Attempt) :
    Triple (AllAttributed w) (InCall w request) (ipmiLanSendPacket msg a) fun _ => InCall w request :=
  .bind (.modify (Q := fun _ => InCall w request) fun _ h => h.mono rfl rfl fun _ hx => hx) fun _ =>
    .pure fun _ h => h

end call

section ipmi
variable {w : World} {req : IpmiRq}

theorem noteKeys_inCall (keys : List RqKey) :
    Triple (AllAttributed w) (InCall w (.ipmi req)) (noteKeys keys) fun _ l =>
      InCall w (.ipmi req) l ∧ ∀ k ∈ keys, k ∈ l.ledger.keys := by
  refine .modify fun l h => ⟨⟨h.current, fun x hx => ⟨(h.entries x hx).1, fun hfirst => ?_⟩, h.first,
    fun hnone => absurd rfl (hnone req), h.attributed⟩, fun k hk => List.mem_append_right _ hk⟩
  obtain ⟨hcmd, htarget⟩ := (h.entries x hx).2 hfirst
  exact ⟨List.mem_append_left _ hcmd, fun hlevel => List.mem_append_left _ (htarget hlevel)⟩

theorem addEntry_inCall {keys : List RqKey} {entry : Nat → RqEntry} (halloc : ∀ n, (entry n).alloc = n)
    (hown : ∀ n, OwnKeys keys (entry n)) :
    Triple (AllAttributed w) (fun l => InCall w (.ipmi req) l ∧ ∀ k ∈ keys, k ∈ l.ledger.keys)
      (ipmiReqAddEntry entry) fun _ => InCall w (.ipmi req) := by
  refine .get_bind fun l h => .bind (Q := fun _ => InCall w (.ipmi req)) (.modify ?_) fun _ => .pure fun _ h => h
  rintro _ rfl
  obtain ⟨h, hkeys⟩ := h
  refine ⟨h.current, ?_, Nat.le_succ_of_le h.first, h.handshake, h.attributed⟩
  rw [List.forall_mem_append, List.forall_mem_singleton]
  refine ⟨fun x hx => ⟨Nat.lt_succ_of_lt (h.entries x hx).1, (h.entries x hx).2⟩, ?_, fun _ => ?_⟩
  · rw [halloc]
    exact Nat.lt_succ_self _
  · exact ⟨hkeys _ (hown _).1, fun hlevel => hkeys _ ((hown _).2 hlevel)⟩

theorem buildV15_inCall (a : Attempt) :
    Triple (AllAttributed w) (InCall w (.ipmi req)) (ipmiLanplusBuildV15IpmiCmd req a) fun _ =>
      InCall w (.ipmi req) := by
  refine .ite (fun _ => .pure fun _ h => h) fun _ => .bind (noteKeys_inCall _) fun _ => ?_
  refine .bind (addEntry_inCall (fun _ => rfl) fun _ => ⟨List.mem_singleton_self _, fun h => absurd rfl h⟩)
    fun _ => .ite (fun _ => .pure fun _ h => h) fun _ => .get_bind' fun _ => .pure fun _ h => h

/-- The entry of a transmission has the keys that are noted for it. -/
theorem ownKeys_new (intf : Intf) (seq : UInt8) (n : Nat) :
    OwnKeys (if intf.bridged then [(seq, req.cmd), (seq, sendMessageCmd)] else [(seq, req.cmd)])
      (if intf.bridged then bridgedEntry intf n req seq else newEntry n req seq) := by
  cases intf.bridged with
  | false => exact ⟨List.mem_singleton_self _, fun h => absurd rfl h⟩
  | true => exact ⟨List.mem_cons_of_mem _ (List.mem_singleton_self _), fun _ => List.mem_cons_self⟩

theorem buildV2x_inCall (isRetry : Bool) (a : Attempt) :
    Triple (AllAttributed w) (InCall w (.ipmi req)) (ipmiLanplusBuildV2xIpmiCmd w req isRetry a) fun _ =>
      InCall w (.ipmi req) := by
  refine .bind (.modify (Q := fun _ => InCall w (.ipmi req)) fun _ h => h.mono rfl rfl fun _ hx => hx) fun _ =>
    .get_bind' fun l => .ite (fun _ => .pure fun _ h => h) fun _ => ?_
  refine .bind (noteKeys_inCall _) fun _ => .bind (addEntry_inCall (fun n => ?_) (ownKeys_new l.intf _))
    fun _ => .bind (buildV2xMsg_inCall _ _ _) fun _ => .pure fun _ h => h
  split
  · rfl
  · rfl

theorem transmitIpmi_inCall (isRetry : Bool) (a : Attempt) :
    Triple (AllAttributed w) (InCall w (.ipmi req)) (transmitIpmi w req isRetry a) fun _ =>
      InCall w (.ipmi req) := by
  have hbuild : Triple (AllAttributed w) (InCall w (.ipmi req)) (buildIpmiCmd w req isRetry a) fun _ =>
      InCall w (.ipmi req) :=
    .get_bind' fun l => .ite (fun _ => buildV15_inCall a) fun _ => buildV2x_inCall isRetry a
  refine .bind hbuild fun built => ?_
  cases built with
  | none => exact .pure fun _ h => h
  | some built =>
    exact .bind (sendPacket_inCall _ _) fun _ => .ite (fun _ => .pure fun _ h => h) fun _ => .pure fun _ h => h

/-- **The loop for an IPMI request**, by induction on the turns that are left. -/
theorem ipmiTurns_inCall (attempts : List Attempt) :
    ∀ (isRetry : Bool) (sent : Option Nat),
      Triple (AllAttributed w) (InCall w (.ipmi req)) (ipmiTurns w req isRetry sent attempts) fun r l =>
        InCall w (.ipmi req) l ∧ (r = .leave true → RspAttributed w (.ipmi req) l) := by
  induction attempts with
  | nil => exact fun _ _ => .pure fun l h => ⟨h, nofun⟩
  | cons a rest ih =>
    intro isRetry sent
    have hentry : Triple (AllAttributed w) (InCall w (.ipmi req)) (turnEntry w req isRetry a sent) fun _ =>
        InCall w (.ipmi req) := by
      cases sent with
      | some entry => exact .pure fun _ h => h
      | none => exact transmitIpmi_inCall isRetry a
    refine .bind hentry fun entry => ?_
    cases entry with
    | none => exact .pure fun l h => ⟨h, nofun⟩
    | some entry =>
      refine .get_bind' fun l => .ite (fun _ => .pure fun l h => ⟨h, nofun⟩) fun _ => ?_
      refine .bind (pollReply_waiting.pre fun l h => ⟨h, trivial⟩) fun b => .ite (fun hb => ?_) fun _ => ?_
      · exact .pure fun l h => ⟨h.1, fun _ => h.2 hb⟩
      · refine .bind (.modify (Q := fun _ => InCall w (.ipmi req)) fun l h =>
          h.1.mono rfl rfl fun x hx => List.mem_of_mem_eraseP hx) fun _ => .get_bind' fun l => .ite (fun _ => ?_) fun _ => ?_
        · exact .bind (.modify (Q := fun _ => InCall w (.ipmi req)) fun l h => h.mono rfl rfl fun _ hx => hx)
            fun _ => ih true none
        · exact ih true (some entry)

end ipmi

section sendPayload
variable {w : World} {request : Request}

theorem handshakeTurn_inCall {payload : V2Payload} {may : LanplusState → Bool} {sentState : LanplusState}
    (hsent : request.SentIn sentState) (attempts : List Attempt) :
    Triple (AllAttributed w) (InCall w request) (handshakeTurn w payload may sentState attempts) fun r l =>
      InCall w request l ∧ (r = .leave true → RspAttributed w request l) := by
  cases attempts with
  | nil => exact .pure fun l h => ⟨h, nofun⟩
  | cons a rest =>
    refine .get_bind' fun l => .ite (fun _ => .throw fun _ h => h.attributed) fun _ => ?_
    refine .bind (buildV2xMsg_inCall _ _ _) fun msg => .bind (sendPacket_inCall _ _) fun b => ?_
    refine .ite (fun _ => .pure fun l h => ⟨h, nofun⟩) fun _ => .ite (fun _ => .pure fun l h => ⟨h, nofun⟩) fun _ => ?_
    refine .bind (.modify (Q := fun _ => Waiting w request) fun l h =>
      ⟨h.mono rfl rfl fun _ hx => hx, hsent⟩) fun _ => .bind pollReply_waiting fun b => .pure fun l h => ⟨h.1, ?_⟩
    rintro ⟨⟩
    exact h.2 rfl

theorem sendTurns_inCall (attempts : List Attempt) :
    Triple (AllAttributed w) (InCall w request) (sendTurns w attempts request) fun r l =>
      InCall w request l ∧ (r = .leave true → RspAttributed w request l) := by
  cases request with
  | ipmi req => exact ipmiTurns_inCall attempts false none
  | openSession bytes =>
    unfold sendTurns
    exact handshakeTurn_inCall (show (Request.openSession bytes).SentIn .openSessionSent from rfl) attempts
  | rakp1 bytes =>
    unfold sendTurns
    exact handshakeTurn_inCall (show (Request.rakp1 bytes).SentIn .rakp1Sent from rfl) attempts
  | rakp3 bytes =>
    unfold sendTurns
    exact handshakeTurn_inCall (show (Request.rakp3 bytes).SentIn .rakp3Sent from rfl) attempts

theorem InCall.settled {l : Link} (h : InCall w request l) :
    Settled w { l with ledger := { l.ledger with request := none } } :=
  ⟨rfl, fun x hx => (h.entries x hx).1, h.attributed⟩

theorem noteReturned_inCall :
    Triple (AllAttributed w) (fun l => InCall w request l ∧ RspAttributed w request l) (noteReturned request)
      fun _ => InCall w request := by
  refine .modify ?_
  rintro l ⟨h, hrsp⟩
  refine ⟨h.current, h.entries, h.first, h.handshake, fun hquiet => ?_⟩
  rw [List.forall_mem_append, List.forall_mem_singleton]
  exact ⟨h.attributed hquiet, hrsp hquiet⟩

/-- **A call** leaves the interface settled, whatever it meets. -/
theorem sendPayload_settled (attempts : List Attempt) :
    Triple (AllAttributed w) (Settled w) (ipmiLanplusSendPayload w request attempts) fun _ => Settled w := by
  refine .bind (Q := fun _ => InCall w request) (.modify fun l h => ?_) fun _ => ?_
  · exact ⟨rfl, fun x hx => ⟨h.entries x hx, fun hfirst => absurd (h.entries x hx) (Nat.not_lt.2 hfirst)⟩,
      Nat.le_refl _, fun _ => rfl, h.attributed⟩
  have hreturn : Triple (AllAttributed w) (InCall w request) noteReturn fun _ => Settled w :=
    .modify fun l h => h.settled
  refine .get_bind' fun l => .bind (sendTurns_inCall attempts) fun r => ?_
  cases r with
  | returnNull => exact .bind (hreturn.pre fun l h => h.1) fun _ => .pure fun _ h => h
  | leave rsp =>
    refine .bind (.modify (Q := fun _ l => InCall w request l ∧ (rsp = true → RspAttributed w request l))
      fun l h => ⟨h.1.mono rfl rfl fun _ hx => hx, fun hrsp => h.2 (hrsp ▸ rfl)⟩) fun _ => ?_
    cases rsp with
    | true =>
      exact .bind (noteReturned_inCall.pre fun l h => ⟨h.1, h.2 rfl⟩) fun _ =>
        .bind hreturn fun _ => .pure fun _ h => h
    | false => exact .bind (hreturn.pre fun l h => h.1) fun _ => .pure fun _ h => h

end sendPayload

/-! ### Runs -/

section run
variable {w : World}

theorem Settled.mono {l l' : Link} (h : Settled w l) (hledger : l'.ledger = l.ledger)
    (hallocs : l'.allocs = l.allocs) (hentries : ∀ x ∈ l'.rx.entries, x ∈ l.rx.entries) : Settled w l' where
  current := hledger ▸ h.current
  entries := fun x hx => by
    rw [hallocs]
    exact h.entries x (hentries x hx)
  attributed := by
    unfold AllAttributed Undisturbed
    rw [hledger]
    exact h.attributed

theorem pollSingle_settled (a : Arrival) :
    Triple (AllAttributed w) (Settled w) (pollSingle w a) fun _ => Settled w := by
  intro l h
  rw [pollSingle_link]
  cases hrun : ipmiLanPollSingle (l.env w) a l.rx with
  | error e rx => exact h.attributed.afterPoll a rx
  | ok p rx =>
    have hattributed := h.attributed.afterPoll a rx
    rcases pollSingle_ok hrun with ⟨-, rfl⟩ | ⟨d, rfl, hne, houtcome⟩
    · exact ⟨h.current, h.entries, hattributed⟩
    · have hdecrement : ∀ x : RqEntry, x.bridgingLevel ≠ 0 → x.alloc < l.allocs →
          x.decrementBridging.alloc < l.allocs := fun _ _ hx => hx
      exact ⟨h.current, houtcome.entries_all hdecrement h.entries, hattributed⟩

theorem pollRecvFrom_settled : ∀ arrivals : List Arrival,
    Triple (AllAttributed w) (Settled w) (pollRecvFrom w arrivals) fun _ => Settled w := by
  intro arrivals
  induction arrivals with
  | nil => exact .pure fun _ h => h
  | cons a rest ih =>
    refine .bind (.modify (Q := fun _ => Settled w) fun l h => h.mono rfl rfl fun _ hx => hx) fun _ => ?_
    refine .bind (pollSingle_settled a) fun p => ?_
    cases p with
    | null => exact .pure fun _ h => h
    | rsp => exact .pure fun _ h => h
    | again => exact ih

theorem step_settled (step : Step) :
    Triple (AllAttributed w) (Settled w) (step.run w) fun _ => Settled w := by
  cases step with
  | call request attempts => exact .bind (sendPayload_settled attempts) fun _ => .pure fun _ h => h
  | poll => exact .bind (.get_bind' fun l => pollRecvFrom_settled l.arrivals) fun _ => .pure fun _ h => h
  | setIntf intf noanswer => exact .modify fun l h => h.mono rfl rfl fun _ hx => hx
  | clearEntries => exact .modify fun l h => h.mono rfl rfl nofun

theorem runSteps_settled (steps : List Step) :
    Triple (AllAttributed w) (Settled w) (runSteps w steps) fun _ => Settled w := by
  induction steps with
  | nil => exact .pure fun _ h => h
  | cons step rest ih => exact .bind (step_settled step) fun _ => ih

end run

/-- An interface before anything has been sent; the static response is 0. -/
def Link.start (intf : Intf) (noanswer : Bool) (timeout : Nat) (arrivals : List Arrival) : Link where
  intf := intf
  noanswer := noanswer
  rx := ⟨.clear 0, [], []⟩
  currSeq := 0
  allocs := 0
  timeout := timeout
  arrivals := arrivals
  sent := []
  ledger := ⟨none, 0, [], [], []⟩

theorem settled_start (w : World) (intf : Intf) (noanswer : Bool) (timeout : Nat)
    (arrivals : List Arrival) : Settled w (.start intf noanswer timeout arrivals) :=
  ⟨rfl, List.forall_mem_nil _, fun _ => List.forall_mem_nil _⟩

/-- A run of an interface from the start. -/
structure Run where
  world : World
  intf : Intf
  noanswer : Bool
  timeout : Nat
  arrivals : List Arrival
  steps : List Step

/-- The state in which the run ends, at its last step or at a failed assertion. -/
def Run.final (r : Run) : Link :=
  finalState (runSteps r.world r.steps) (.start r.intf r.noanswer r.timeout r.arrivals)

def Run.Attributed (r : Run) : Prop := ∀ y ∈ r.final.ledger.returned, y.Attributed

/-- **Response attribution.** In a run in which no polled datagram disturbs its call, every response that a
call returns is the reply to that call. -/
theorem Run.attributed_of_undisturbed (r : Run) (h : Undisturbed r.world r.final) : r.Attributed := by
  have hends : Ends (AllAttributed r.world) (runSteps r.world r.steps)
      (.start r.intf r.noanswer r.timeout r.arrivals) :=
    (runSteps_settled r.steps).ends (fun _ h => h) (fun _ _ h => h.attributed) (settled_start _ _ _ _ _)
  exact hends h

/-! ### A reply, and a late reply -/

def Run.intfIn (state : LanplusState) : Intf where
  v2 := { V2Data.initial with sessionState := state }
  outSeq := 0
  myAddr := 0x20
  targetAddr := 0x20
  targetChannel := 0
  transitAddr := 0
  transitChannel := 0
  bridgePossible := true
  icts := false

def Run.attempt : Attempt where
  iv := []
  entryAllocated := true
  msgAllocated := true
  sendOk := true
  elapsed := 0
  freedKey := (0, 0)

/-- Get Device ID, as the keepalive sends it. -/
def Run.getDeviceId : IpmiRq := { netfn := netfnApp, lun := 0, cmd := 1, data := [] }

/-- A SOL packet with the character `a`. -/
def Run.solPacket : List UInt8 :=
  [6, 0, 0xff, 7, 6, 1, 0, 0, 0, 0, 0, 0, 0, 0, 5, 0, 1, 0, 0, 0, 0x61]

/-- The response to the Get Device ID request with the sequence number 1. -/
def Run.firstReply : List UInt8 :=
  [6, 0, 0xff, 7, 6, 0, 0, 0, 0, 0, 0, 0, 0, 0, 8, 0, 0x81, 0x1c, 0x63, 0x20, 4, 1, 0, 0xdb]

/-- Two keepalives. Console data takes the place of the first reply, which comes during the second. -/
def Run.lateReply : Run where
  world := ⟨.plain, fun _ => 0⟩
  intf := intfIn .active
  noanswer := false
  timeout := 1
  arrivals := [some solPacket, some firstReply]
  steps := [.call (.ipmi getDeviceId) [attempt], .call (.ipmi getDeviceId) [attempt]]

/-- The second keepalive, with sequence number 2, is given the reply to the first. -/
theorem Run.lateReply_not_attributed : ¬ ∀ r : Run, r.Attributed := by
  intro h
  have hreturned : lateReply.final.ledger.returned.map (fun y => (y.request, y.keys, y.rsp.payload)) =
      [(.ipmi getDeviceId, [(1, 1)], .solPacket ⟨1, 0, 0, false, false, false, false, false⟩),
        (.ipmi getDeviceId, [(2, 1)], .ipmiResponse ⟨0x81, 7, 0, 0x20, 1, 0, 1⟩)] := by decide +kernel
  have hlast : ((.ipmi getDeviceId, [(2, 1)], .ipmiResponse ⟨0x81, 7, 0, 0x20, 1, 0, 1⟩) :
      Request × List RqKey × RsPayload) ∈
        lateReply.final.ledger.returned.map fun y => (y.request, y.keys, y.rsp.payload) := by
    rw [hreturned]
    exact List.mem_cons_of_mem _ (List.mem_singleton_self _)
  obtain ⟨y, hy, heq⟩ := List.mem_map.1 hlast
  obtain ⟨hrequest, hkeys, hpayload⟩ : y.request = .ipmi getDeviceId ∧ y.keys = [(2, 1)] ∧
      y.rsp.payload = .ipmiResponse ⟨0x81, 7, 0, 0x20, 1, 0, 1⟩ := by
    simpa only [Prod.mk.injEq] using heq
  obtain ⟨r, hr, hmem⟩ := (h lateReply y hy).2 _ hrequest
  rw [hpayload] at hr
  obtain rfl := RsPayload.ipmiResponse.inj hr
  rw [hkeys] at hmem
  exact absurd hmem (by decide)

/-- One keepalive and its reply. -/
def Run.answered : Run :=
  { lateReply with arrivals := [some firstReply], steps := [.call (.ipmi getDeviceId) [attempt]] }

theorem Run.answered_undisturbed : Undisturbed answered.world answered.final := by
  have hpolled : answered.final.ledger.polled.all (fun p =>
      p.first == 0 && p.arrival == some firstReply) = true := by decide +kernel
  intro p hp
  have hnoted := List.all_eq_true.1 hpolled p hp
  simp only [Bool.and_eq_true, beq_iff_eq] at hnoted
  obtain ⟨hfirst, hfirstReply⟩ := hnoted
  rintro ⟨request, d, -, harrival, -, hdisturbing⟩
  obtain rfl : firstReply = d := Option.some.inj (hfirstReply.symm.trans harrival)
  rw [show firstReply.take ipmiBufSize = firstReply by decide] at hdisturbing
  have hclass : (received firstReply p.rx).rsp.data offsetRmcpClass = rmcpClassIpmi :=
    received_data (show offsetRmcpClass < firstReply.length by decide)
  have hauthtype : (received firstReply p.rx).rsp.data offsetAuthtype = authtypeRmcpPlus :=
    received_data (show offsetAuthtype < firstReply.length by decide)
  have htype : (received firstReply p.rx).rsp.data offsetPayloadType = payloadTypeIpmi :=
    received_data (show offsetPayloadType < firstReply.length by decide)
  cases hdisturbing with
  | pong hasf => exact absurd (hclass.symm.trans hasf) (by decide)
  | otherPayload _ _ _ hawaited =>
    have hpayload : (sessionAt (received firstReply p.rx).rsp.data offsetAuthtype).payloadtype =
        payloadTypeIpmi := by
      rw [sessionAt, if_pos hauthtype]
      show (received firstReply p.rx).rsp.data offsetPayloadType &&& 0x3F = payloadTypeIpmi
      rw [htype]
      decide
    rw [hpayload] at hawaited
    rcases hawaited with ⟨h, -⟩ | ⟨h, -⟩ | ⟨h, -⟩ | ⟨h, -⟩
    all_goals exact absurd h (by decide)
  | olderRequest _ _ _ _ holder => exact absurd (hfirst ▸ holder) (Nat.not_lt_zero _)

theorem Run.answered_attributed : answered.Attributed := attributed_of_undisturbed answered answered_undisturbed

end KTools.Lanplus
