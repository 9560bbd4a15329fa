import KTools.Lan.Attribution
import KTools.Lan.SessionNumbers

/-!
# Answers in a v1.5 session

The answer to a bridged request holds the answer of the next controller in its data, and so on. The loop takes the
layers off one after the other: it moves what is within a layer over its header, and looks at the packet again.
When the answer to a request comes, the call returns the completion code and the data of the innermost message
(`ipmiLanSendCmd_answered`).
-/

namespace KTools.Lan
open KTools.Lib KTools.Lib.Bytes KTools.Lanplus

/-- The header of a response; the LUNs are in the lower bits of the function and the sequence number. -/
structure ReplyHdr where
  rqAddr : UInt8
  netfnLun : UInt8
  rsAddr : UInt8
  seqLun : UInt8
  cmd : UInt8

def replyMessage (h : ReplyHdr) (ccode : UInt8) (data : List UInt8) : List UInt8 :=
  withCsum [h.rqAddr, h.netfnLun] ++ withCsum ([h.rsAddr, h.seqLun, h.cmd, ccode] ++ data)

theorem replyMessage_eq (h : ReplyHdr) (ccode : UInt8) (data : List UInt8) :
    ∃ cs cs', replyMessage h ccode data =
      [h.rqAddr, h.netfnLun, cs, h.rsAddr, h.seqLun, h.cmd, ccode] ++ data ++ [cs'] :=
  ⟨_, _, by simp [replyMessage, withCsum]; exact ⟨rfl, rfl⟩⟩

theorem length_replyMessage (h : ReplyHdr) (ccode : UInt8) (data : List UInt8) :
    (replyMessage h ccode data).length = data.length + 8 := by
  obtain ⟨cs, cs', heq⟩ := replyMessage_eq h ccode data
  rw [heq]
  simp only [List.length_append, List.length_cons, List.length_nil]
  omega

/-- A message in its layers, which are answers to Send Message. -/
def layeredReply (message : List UInt8) : List ReplyHdr → List UInt8
  | [] => message
  | h :: rest => replyMessage h 0 (layeredReply message rest)

/-! ### A packet in the array -/

/-- The array holds these bytes. -/
def Holds (rsp : IpmiRs) (bytes : List UInt8) : Prop :=
  rsp.dataLen = bytes.length ∧ slice rsp.data 0 bytes.length = bytes

theorem Holds.byte {rsp : IpmiRs} {bytes : List UInt8} (h : Holds rsp bytes) {i : Nat} (hi : i < bytes.length) :
    rsp.data i = bytes.getD i 0 := by
  have hget := getElem_slice rsp.data 0 bytes.length i (by rwa [length_slice])
  rw [Nat.zero_add] at hget
  rw [← hget, List.getD_eq_getElem _ _ hi]
  exact List.getElem_of_eq h.2 _

/-- The RMCP and session headers of a packet of the session, up to the message length. -/
structure PacketHdr (s : Session) (hdr : List UInt8) : Prop where
  length : hdr.length = s.msgOffset (hdr.getD 4 0)
  rmcpClass : hdr.getD offsetRmcpClass 0 = rmcpClassIpmi
  id : ipmi32toh (fun i => hdr.getD i 0) 9 ≠ s.solId

section packet
variable {l : Link} {hdr message : List UInt8} {n : UInt8}

theorem PacketHdr.le_length {s : Session} (h : PacketHdr s hdr) : 13 ≤ hdr.length := by
  rw [h.length]
  unfold Session.msgOffset
  split
  · decide
  · decide

/-- The header bytes are in the array. -/
theorem Holds.hdrByte {rsp : IpmiRs} (h : Holds rsp (hdr ++ n :: message)) {i : Nat} (hi : i < hdr.length) :
    rsp.data i = hdr.getD i 0 := by
  rw [h.byte (by rw [List.length_append]; omega), List.getD_append _ _ _ _ hi]

/-- The message bytes are behind them. -/
theorem Holds.msgByte {rsp : IpmiRs} (h : Holds rsp (hdr ++ n :: message)) {i : Nat} (hi : i < message.length) :
    rsp.data (hdr.length + 1 + i) = message.getD i 0 := by
  have hlt : hdr.length + 1 + i < (hdr ++ n :: message).length := by
    rw [List.length_append, List.length_cons]
    omega
  rw [h.byte hlt, List.getD_append_right _ _ _ _ (by omega)]
  have hindex : hdr.length + 1 + i - hdr.length = i + 1 := by omega
  rw [hindex]
  rfl

/-- The link when the headers have been read. -/
def Link.parsed (l : Link) (x : Nat) : Link :=
  { l with
    rsp := { l.rsp with
      session := { l.rsp.session with
        authtype := l.rsp.data 4, seq := ipmi32toh l.rsp.data 5, id := ipmi32toh l.rsp.data 9
        payloadtype := payloadTypeIpmi, msglen := (l.rsp.data x).toNat }
      payload := .ipmiResponse (ipmiResponseAt l.rsp.data (x + 1))
      ccode := l.rsp.data (x + 7) } }

theorem handlePacket_parsed (hhdr : PacketHdr l.session hdr) (hholds : Holds l.rsp (hdr ++ n :: message)) :
    handlePacket l = matchResponse (hdr.length + 8) (l.parsed hdr.length) := by
  have hlength := hhdr.le_length
  have hclass : l.rsp.data offsetRmcpClass = rmcpClassIpmi := by
    rw [hholds.hdrByte (Nat.lt_of_lt_of_le (by decide) hlength), hhdr.rmcpClass]
  have hoffset : l.session.msgOffset (l.rsp.data 4) = hdr.length := by
    rw [hholds.hdrByte (i := 4) (by omega), ← hhdr.length]
  have hid : ipmi32toh l.rsp.data 9 = ipmi32toh (fun i => hdr.getD i 0) 9 := by
    unfold ipmi32toh
    rw [hholds.hdrByte (i := 9) (by omega), hholds.hdrByte (i := 10) (by omega), hholds.hdrByte (i := 11) (by omega),
      hholds.hdrByte (i := 12) (by omega)]
  have hread : readSessionHeader l = .ok ⟨⟩
      { l with
        rsp := { l.rsp with
          session := { l.rsp.session with
            authtype := l.rsp.data 4, seq := ipmi32toh l.rsp.data 5, id := ipmi32toh l.rsp.data 9 } } } := rfl
  rw [handlePacket, get_bind_apply, if_neg (by rw [hclass]; decide), if_pos hclass, handleIpmiClass, bind_ok hread,
    get_bind_apply]
  dsimp only
  rw [if_neg (by rw [hid]; exact hhdr.id), hoffset]
  rfl

/-- What a response says, and where its completion code is. -/
def ReplyHdr.response (h : ReplyHdr) : IpmiResponse where
  rqAddr := h.rqAddr
  netfn := h.netfnLun >>> 2
  rqLun := h.netfnLun &&& 0x3
  rsAddr := h.rsAddr
  rqSeq := h.seqLun >>> 2
  rsLun := h.seqLun &&& 0x3
  cmd := h.cmd

theorem parsed_reply {h : ReplyHdr} {ccode : UInt8} {data : List UInt8}
    (hholds : Holds l.rsp (hdr ++ n :: replyMessage h ccode data)) :
    ipmiResponseAt l.rsp.data (hdr.length + 1) = h.response ∧ l.rsp.data (hdr.length + 7) = ccode := by
  obtain ⟨cs, cs', heq⟩ := replyMessage_eq h ccode data
  have hbyte : ∀ i, i < 7 → l.rsp.data (hdr.length + 1 + i) =
      ([h.rqAddr, h.netfnLun, cs, h.rsAddr, h.seqLun, h.cmd, ccode] : List UInt8).getD i 0 := by
    intro i hi
    rw [hholds.msgByte (by rw [length_replyMessage]; omega), heq, List.append_assoc]
    exact List.getD_append _ _ _ _ hi
  refine ⟨?_, hbyte 6 (by decide)⟩
  unfold ipmiResponseAt ReplyHdr.response
  have h0 := hbyte 0 (by decide)
  have h1 := hbyte 1 (by decide)
  have h3 := hbyte 3 (by decide)
  have h4 := hbyte 4 (by decide)
  have h5 := hbyte 5 (by decide)
  rw [Nat.add_zero] at h0
  rw [h0, h1, h3, h4, h5]
  rfl

/-! ### Taking off a layer -/

theorem Holds.replyLength {rsp : IpmiRs} {h : ReplyHdr} {ccode : UInt8} {inner : List UInt8}
    (hholds : Holds rsp (hdr ++ n :: replyMessage h ccode inner)) :
    rsp.dataLen = hdr.length + 1 + (inner.length + 8) := by
  rw [hholds.1, List.length_append, List.length_cons, length_replyMessage]
  omega

/-- The data of a message, without its checksum. -/
theorem Holds.replyData {rsp : IpmiRs} {h : ReplyHdr} {ccode : UInt8} {inner : List UInt8}
    (hholds : Holds rsp (hdr ++ n :: replyMessage h ccode inner)) :
    slice rsp.data (hdr.length + 8) inner.length = inner := by
  obtain ⟨cs, cs', heq⟩ := replyMessage_eq h ccode inner
  have hinside : ((slice rsp.data 0 (hdr ++ n :: replyMessage h ccode inner).length).drop (hdr.length + 8)).take
      inner.length = slice rsp.data (0 + (hdr.length + 8)) inner.length :=
    take_drop_slice _ _ (by rw [List.length_append, List.length_cons, length_replyMessage]; omega)
  rw [hholds.2, Nat.zero_add] at hinside
  rw [← hinside, heq]
  have hsplit : hdr ++ n :: ([h.rqAddr, h.netfnLun, cs, h.rsAddr, h.seqLun, h.cmd, ccode] ++ inner ++ [cs']) =
      (hdr ++ n :: [h.rqAddr, h.netfnLun, cs, h.rsAddr, h.seqLun, h.cmd, ccode]) ++ (inner ++ [cs']) := by
    simp
  rw [hsplit, List.drop_left' (by rw [List.length_append]; rfl), List.take_left]

theorem withoutLayer_holds {rsp : IpmiRs} {h : ReplyHdr} {ccode : UInt8} {inner : List UInt8}
    (hholds : Holds rsp (hdr ++ n :: replyMessage h ccode inner)) :
    Holds (withoutLayer rsp (hdr.length + 8)) (hdr ++ (n - 8) :: inner) := by
  have hlen := hholds.replyLength
  have hmoved := hholds.replyData
  have hhdr : slice rsp.data 0 hdr.length = hdr := by
    have htake : (slice rsp.data 0 (hdr ++ n :: replyMessage h ccode inner).length).take hdr.length =
        slice rsp.data 0 hdr.length := take_slice _ _ (by rw [List.length_append]; omega)
    rw [← htake, hholds.2, List.take_left]
  have hn : rsp.data hdr.length = n := by
    rw [hholds.byte (by rw [List.length_append, List.length_cons]; omega),
      List.getD_append_right _ _ _ _ (Nat.le_refl _), Nat.sub_self]
    rfl
  have hrest : rsp.dataLen - (hdr.length + 8) - 1 = inner.length := by omega
  unfold withoutLayer
  rw [hrest, hmoved, Nat.add_sub_cancel, show hdr.length + 8 - 7 = hdr.length + 1 by omega]
  have hkeep : store rsp.data (hdr.length + 1) inner hdr.length = n := by
    rw [store_of_lt _ _ _ (Nat.lt_succ_self _), hn]
  have hlength : (hdr ++ (n - 8) :: inner).length = hdr.length + 1 + inner.length := by
    rw [List.length_append, List.length_cons]
    omega
  refine ⟨by rw [hlength]; dsimp only; omega, ?_⟩
  rw [hlength, slice_add, slice_add]
  dsimp only
  rw [hkeep]
  have hfirst : slice (store (store rsp.data (hdr.length + 1) inner) hdr.length [n - 8]) 0 hdr.length = hdr := by
    rw [slice_store_of_disjoint _ (.inl (by omega)), slice_store_of_disjoint _ (.inl (by omega)), hhdr]
  have hsecond : slice (store (store rsp.data (hdr.length + 1) inner) hdr.length [n - 8]) (0 + hdr.length) 1 =
      [n - 8] := by
    rw [Nat.zero_add]
    exact slice_store _ hdr.length [n - 8]
  have hthird : slice (store (store rsp.data (hdr.length + 1) inner) hdr.length [n - 8]) (0 + (hdr.length + 1))
      inner.length = inner := by
    rw [Nat.zero_add]
    exact (slice_store_of_disjoint _ (.inr (Nat.le_refl _))).trans (slice_store ..)
  rw [hfirst, hsecond, hthird, List.append_assoc]
  rfl

/-! ### The turns -/

variable {h : ReplyHdr} {ccode : UInt8} {data : List UInt8} {e : RqEntry}

/-- The entry waits for the answer with this header. -/
def Awaits (e : RqEntry) (h : ReplyHdr) : Prop := e.rqSeq = h.seqLun >>> 2 ∧ e.msg.cmd = h.cmd

theorem lookup_awaits (hawaits : Awaits e h) :
    ipmiReqLookupEntry h.response.rqSeq h.response.cmd [e] = some e := by
  have hkey : e.hasKey h.response.rqSeq h.response.cmd = true := by
    unfold RqEntry.hasKey
    rw [hawaits.1, hawaits.2]
    simp [ReplyHdr.response]
  unfold ipmiReqLookupEntry
  rw [List.find?_cons_of_pos hkey]

/-- The turn on the innermost message. -/
theorem handlePacket_last (hhdr : PacketHdr l.session hdr) (hholds : Holds l.rsp (hdr ++ n :: replyMessage h ccode data))
    (hentries : l.entries = [e]) (hawaits : Awaits e h) (hlevel : endsLayer l.intf e h.response = false) :
    handlePacket l = .ok (.last (hdr.length + 8)) { l.parsed hdr.length with entries := [] } := by
  obtain ⟨hresponse, -⟩ := parsed_reply hholds
  have hlookup := lookup_awaits hawaits
  have hremove : ipmiReqRemoveEntry h.response.rqSeq h.response.cmd [e] = [] := by
    unfold ipmiReqLookupEntry at hlookup
    have hkey := List.find?_some hlookup
    unfold ipmiReqRemoveEntry
    rw [List.eraseP_cons_of_pos hkey]
  have hparsed : ipmiResponseAt (l.parsed hdr.length).rsp.data (hdr.length + 8 - 7) = h.response := hresponse
  rw [handlePacket_parsed hhdr hholds, matchResponse, get_bind_apply]
  dsimp only
  rw [hparsed, show (l.parsed hdr.length).entries = [e] from hentries, hlookup]
  dsimp only
  rw [matchedResponse, get_bind_apply, show (l.parsed hdr.length).intf = l.intf from rfl, hlevel, if_neg nofun]
  show EStateM.Result.ok (Turn.last (hdr.length + 8))
    { l.parsed hdr.length with entries := ipmiReqRemoveEntry h.response.rqSeq h.response.cmd l.entries } = _
  rw [hentries, hremove]
  rfl

/-- What the turn on a layer leaves: the packet without the layer, and the entry waiting for what was in it. -/
structure TakenOff (l l' : Link) (hdr : List UInt8) (n : UInt8) (data : List UInt8) (e : RqEntry) : Prop where
  session : l'.session = l.session
  interface : l'.intf = l.intf
  currSeq : l'.currSeq = l.currSeq
  holds : Holds l'.rsp (hdr ++ (n - 8) :: data)
  entries : l'.entries = [{ e.decrementBridging with rqSeq := data.getD 4 0 >>> 2 }]

theorem handlePacket_layer (hhdr : PacketHdr l.session hdr) (hholds : Holds l.rsp (hdr ++ n :: replyMessage h ccode data))
    (hentries : l.entries = [e]) (hawaits : Awaits e h) (hlevel : endsLayer l.intf e h.response = true)
    (hdata : 4 < data.length) : ∃ l', handlePacket l = .ok .again l' ∧ TakenOff l l' hdr n data e := by
  obtain ⟨hresponse, -⟩ := parsed_reply hholds
  have hlookup := lookup_awaits hawaits
  have hupdate : ∀ f, updateEntry h.response.rqSeq h.response.cmd f [e] = [f e] := by
    intro f
    unfold ipmiReqLookupEntry at hlookup
    rw [updateEntry, if_pos (List.find?_some hlookup)]
  have hlen := hholds.replyLength
  have hparsed : ipmiResponseAt (l.parsed hdr.length).rsp.data (hdr.length + 8 - 7) = h.response := hresponse
  have hwithout : Holds (withoutLayer (l.parsed hdr.length).rsp (hdr.length + 8)) (hdr ++ (n - 8) :: data) :=
    withoutLayer_holds hholds
  have hseq : (withoutLayer (l.parsed hdr.length).rsp (hdr.length + 8)).data (hdr.length + 8 - 3) = data.getD 4 0 :=
    hwithout.msgByte hdata
  refine ⟨{ l.parsed hdr.length with
    rsp := withoutLayer (l.parsed hdr.length).rsp (hdr.length + 8)
    entries := [{ e.decrementBridging with rqSeq := data.getD 4 0 >>> 2 }] }, ?_, rfl, rfl, rfl, hwithout, rfl⟩
  rw [handlePacket_parsed hhdr hholds, matchResponse, get_bind_apply]
  dsimp only
  rw [hparsed, show (l.parsed hdr.length).entries = [e] from hentries, hlookup]
  dsimp only
  rw [matchedResponse, get_bind_apply, show (l.parsed hdr.length).intf = l.intf from rfl, hlevel, if_pos rfl,
    show (l.parsed hdr.length).rsp.dataLen = l.rsp.dataLen from rfl, if_neg (by omega), if_neg (by omega)]
  show EStateM.Result.ok Turn.again
    { l.parsed hdr.length with
      rsp := withoutLayer (l.parsed hdr.length).rsp (hdr.length + 8)
      entries := updateEntry h.response.rqSeq h.response.cmd (fun e => { e.decrementBridging with
        rqSeq := (withoutLayer (l.parsed hdr.length).rsp (hdr.length + 8)).data (hdr.length + 8 - 3) >>> 2 })
          l.entries } = _
  rw [hentries, hupdate, hseq]
  rfl

/-! ### The whole packet -/

/-- The layers and the innermost message answer the entry. -/
def AwaitsAll (intf : Intf) (e : RqEntry) (last : ReplyHdr) (layers : List ReplyHdr) : Prop :=
  e.bridgingLevel = layers.length ∧ (layers ≠ [] → intf.unbridged = false) ∧
    (∀ h ∈ layers, h.netfnLun >>> 2 = 7 ∧ h.cmd = sendMessageCmd) ∧
      (layers ≠ [] → e.msg.targetCmd = last.cmd) ∧ Awaits e ((layers ++ [last]).head (by simp))

theorem length_layeredReply {last : ReplyHdr} (layers : List ReplyHdr) :
    8 ≤ (layeredReply (replyMessage last ccode data) layers).length := by
  cases layers with
  | nil =>
    rw [layeredReply, length_replyMessage]
    omega
  | cons h rest =>
    rw [layeredReply, length_replyMessage]
    omega

theorem replyMessage_seq (h : ReplyHdr) (ccode : UInt8) (data : List UInt8) :
    (replyMessage h ccode data).getD 4 0 = h.seqLun := by
  obtain ⟨cs, cs', heq⟩ := replyMessage_eq h ccode data
  rw [heq]
  rfl

/-- The sequence number of the outermost layer. -/
theorem layeredReply_seq {last : ReplyHdr} (layers : List ReplyHdr) :
    (layeredReply (replyMessage last ccode data) layers).getD 4 0 = ((layers ++ [last]).head (by simp)).seqLun := by
  cases layers with
  | nil => exact replyMessage_seq last ccode data
  | cons h rest => exact replyMessage_seq h 0 _

/-- The shift behind the innermost message. -/
theorem shiftData_answer (hholds : Holds l.rsp (hdr ++ n :: replyMessage h ccode data))
    (hpayload : l.rsp.session.payloadtype = payloadTypeIpmi) :
    ∃ rsp, shiftData (hdr.length + 8) l = .ok ⟨⟩ { l with rsp := rsp } ∧ rsp.ccode = l.rsp.ccode ∧ Holds rsp data := by
  have hlen := hholds.replyLength
  have hrest : l.rsp.dataLen - (hdr.length + 8) - 1 = data.length := by omega
  refine ⟨_, rfl, ?_, ?_⟩
  · dsimp only
    split
    · rfl
    · rfl
  · dsimp only
    rw [if_pos (by omega), hpayload, if_pos rfl, hrest, hholds.replyData]
    refine ⟨rfl, ?_⟩
    dsimp only
    rw [slice_store_of_disjoint _ (.inl (by omega)), slice_store]

/-- **The loop on an answer**: layer by layer, as many as the entry is bridged. -/
theorem pollTurns_answer {last : ReplyHdr} (layers : List ReplyHdr) : ∀ {l : Link} {n : UInt8} {e : RqEntry} {fuel : Nat},
    PacketHdr l.session hdr → Holds l.rsp (hdr ++ n :: layeredReply (replyMessage last ccode data) layers) →
      l.entries = [e] → AwaitsAll l.intf e last layers → layers.length < fuel →
        ∃ l', pollTurns fuel l = .ok (some .packet) l' ∧ l'.rsp.ccode = ccode ∧ Holds l'.rsp data ∧
          l'.currSeq = l.currSeq := by
  induction layers with
  | nil =>
    intro l n e fuel hhdr hholds hentries hawaits hfuel
    obtain ⟨fuel, rfl⟩ := Nat.exists_eq_succ_of_ne_zero (Nat.ne_of_gt hfuel)
    obtain ⟨hlevel, -, -, -, hawaits⟩ := hawaits
    have hends : endsLayer l.intf e last.response = false := by
      unfold endsLayer
      rw [hlevel]
      simp
    have hturn := handlePacket_last hhdr hholds hentries hawaits hends
    obtain ⟨rsp, hshift, hccode, hdata⟩ := shiftData_answer (l := { l.parsed hdr.length with entries := [] }) hholds rfl
    rw [pollTurns, bind_ok hturn]
    dsimp only
    rw [bind_ok hshift]
    exact ⟨_, rfl, hccode.trans (parsed_reply hholds).2, hdata, rfl⟩
  | cons h rest ih =>
    intro l n e fuel hhdr hholds hentries hawaits hfuel
    obtain ⟨fuel, rfl⟩ := Nat.exists_eq_succ_of_ne_zero (Nat.ne_of_gt (Nat.zero_lt_of_lt hfuel))
    obtain ⟨hlevel, hbridged, hlayers, htarget, hawaits⟩ := hawaits
    have hunbridged := hbridged (List.cons_ne_nil _ _)
    obtain ⟨hnetfn, hcmd⟩ := hlayers h List.mem_cons_self
    have hends : endsLayer l.intf e h.response = true := by
      unfold endsLayer ReplyHdr.response
      rw [hunbridged, hlevel, hnetfn, hcmd]
      simp
    have hlong : 4 < (layeredReply (replyMessage last ccode data) rest).length :=
      Nat.lt_of_lt_of_le (by decide) (length_layeredReply rest)
    obtain ⟨l', hturn, hoff⟩ := handlePacket_layer hhdr hholds hentries hawaits hends hlong
    rw [pollTurns, bind_ok hturn]
    dsimp only
    have hnext : AwaitsAll l'.intf { e.decrementBridging with
        rqSeq := (layeredReply (replyMessage last ccode data) rest).getD 4 0 >>> 2 } last rest := by
      have hlevel' : e.bridgingLevel - 1 = rest.length := by rw [hlevel, List.length_cons, Nat.add_sub_cancel]
      refine ⟨hlevel', fun _ => hoff.interface ▸ hunbridged, fun h' hh' => hlayers h' (.tail _ hh'),
        fun _ => htarget (List.cons_ne_nil _ _), by rw [layeredReply_seq], ?_⟩
      show (if e.bridgingLevel - 1 = 0 then e.msg.targetCmd else e.msg.cmd) = _
      rw [hlevel']
      cases rest with
      | nil => exact htarget (List.cons_ne_nil _ _)
      | cons h' rest =>
        have hcmd' := (hlayers h' (.tail _ List.mem_cons_self)).2
        exact hawaits.2.trans (hcmd.trans hcmd'.symm)
    obtain ⟨l'', hrun, hccode, hdata, hseq⟩ := ih (hoff.session ▸ hhdr) hoff.holds hoff.entries hnext
      (Nat.lt_of_succ_lt_succ hfuel)
    exact ⟨l'', hrun, hccode, hdata, hseq.trans hoff.currSeq⟩

end packet

/-! ### A call -/

section call
variable {c : Digests} {l : Link} {req : IpmiRq} {targetCmd : UInt8}

/-- The link behind the first build of a call. -/
def Link.built (l : Link) (req : IpmiRq) (targetCmd : UInt8) : Link :=
  { l with
    currSeq := nextCurrSeq false l.currSeq
    entries := [builtEntry l.intf (nextCurrSeq false l.currSeq)
      ⟨l.allocs, ⟨req.cmd, targetCmd⟩, nextCurrSeq false l.currSeq, 0⟩]
    allocs := l.allocs + 1
    session := { l.session with inSeq := nextInSeq l.session.inSeq } }

theorem ipmiLanBuildCmd_first (hentries : l.entries = []) (sendOk : Bool) :
    ∃ target, ipmiLanBuildCmd c req targetCmd false ⟨true, true, sendOk⟩ l =
      .ok (some (target, (ipmiLanBuildMsg c l.intf l.session req (nextCurrSeq false l.currSeq)).2))
        (l.built req targetCmd) := by
  have hnone : ipmiReqLookupEntry (nextCurrSeq false l.currSeq) req.cmd l.entries = none := by
    rw [hentries]
    rfl
  have hupdate : ∀ f, updateEntry (nextCurrSeq false l.currSeq) req.cmd f
      (l.entries ++ [⟨l.allocs, ⟨req.cmd, targetCmd⟩, nextCurrSeq false l.currSeq, 0⟩]) =
        [f ⟨l.allocs, ⟨req.cmd, targetCmd⟩, nextCurrSeq false l.currSeq, 0⟩] := by
    intro f
    rw [updateEntry_append hnone (by simp [RqEntry.hasKey]), hentries]
    rfl
  let l₁ : Link := { l with currSeq := nextCurrSeq false l.currSeq }
  let entry : RqEntry := ⟨l.allocs, ⟨req.cmd, targetCmd⟩, nextCurrSeq false l.currSeq, 0⟩
  have hentry : ipmiReqEntry req targetCmd (nextCurrSeq false l.currSeq) ⟨true, true, sendOk⟩ l₁ =
      .ok (some entry) { l₁ with entries := l.entries ++ [entry], allocs := l.allocs + 1 } := by
    rw [ipmiReqEntry, get_bind_apply, show l₁.entries = l.entries from rfl, hnone]
    rfl
  refine ⟨(builtEntry l.intf (nextCurrSeq false l.currSeq) entry).msg.targetCmd, ?_⟩
  have hmodify : (modify fun l => { l with currSeq := nextCurrSeq false l.currSeq } : LanM PUnit) l = .ok ⟨⟩ l₁ := rfl
  rw [ipmiLanBuildCmd, bind_ok hmodify, get_bind_apply, bind_ok hentry]
  show EStateM.Result.ok _ { l₁ with
    entries := updateEntry (nextCurrSeq false l.currSeq) req.cmd (builtEntry l.intf (nextCurrSeq false l.currSeq))
      (l.entries ++ [entry])
    allocs := l.allocs + 1
    session := { l.session with inSeq := nextInSeq l.session.inSeq } } = _
  rw [hupdate]
  rfl

/-- A packet that comes, in the array. -/
theorem ipmiLanPollRecv_datagram {bytes : List UInt8} {rest : List Arrival} (harrivals : l.arrivals = .datagram bytes :: rest)
    (hne : bytes ≠ []) (hsize : bytes.length ≤ ipmiBufSize) :
    ∃ rsp, Holds rsp bytes ∧ ipmiLanPollRecv l =
      pollTurns (Link.turns { l with rsp := rsp, arrivals := rest }) { l with rsp := rsp, arrivals := rest } := by
  have htake : bytes.take ipmiBufSize = bytes := List.take_of_length_le hsize
  let rsp : IpmiRs :=
    { l.rsp with data := store (store l.rsp.data 0 bytes) bytes.length [0], dataLen := bytes.length }
  have harrival : takeArrival l = .ok (.datagram bytes) { l with arrivals := rest } := by
    rw [takeArrival, get_bind_apply, harrivals]
    rfl
  have hrecv : ipmiLanRecvPacket l = .ok true { l with rsp := rsp, arrivals := rest } := by
    rw [ipmiLanRecvPacket, bind_ok harrival]
    dsimp only
    rw [storePacket, htake, if_neg hne]
    rfl
  refine ⟨rsp, ⟨rfl, ?_⟩, ?_⟩
  · show slice (store (store l.rsp.data 0 bytes) bytes.length [0]) 0 bytes.length = bytes
    rw [slice_store_of_disjoint _ (.inl (Nat.le_of_eq (Nat.zero_add _))), slice_store]
  · rw [ipmiLanPollRecv, bind_ok hrecv, if_pos rfl, get_bind_apply]

/-- The entry of the call waits for the answer. -/
theorem built_awaits {last : ReplyHdr} {layers : List ReplyHdr}
    (hlayers : layers.length = l.intf.bridgingLevel ∧ ∀ h ∈ layers, h.netfnLun >>> 2 = 7 ∧ h.cmd = sendMessageCmd)
    (hseq : ((layers ++ [last]).head (by simp)).seqLun >>> 2 = nextCurrSeq false l.currSeq)
    (hcmd : last.cmd = req.cmd) :
    AwaitsAll l.intf (builtEntry l.intf (nextCurrSeq false l.currSeq)
      ⟨l.allocs, ⟨req.cmd, targetCmd⟩, nextCurrSeq false l.currSeq, 0⟩) last layers := by
  have hlevel := hlayers.1
  unfold Intf.bridgingLevel at hlevel
  cases hun : l.intf.unbridged with
  | true =>
    rw [hun, if_pos rfl] at hlevel
    obtain rfl := List.length_eq_zero_iff.1 hlevel
    refine ⟨hlayers.1.symm, fun hne => absurd rfl hne, List.forall_mem_nil _, fun hne => absurd rfl hne, hseq.symm, ?_⟩
    unfold builtEntry
    rw [hun]
    exact hcmd.symm
  | false =>
    rw [hun, if_neg nofun] at hlevel
    cases layers with
    | nil =>
      exfalso
      split at hlevel
      · cases hlevel
      · cases hlevel
    | cons h rest =>
      unfold builtEntry
      rw [hun]
      exact ⟨hlayers.1.symm, fun _ => hun, hlayers.2, fun _ => hcmd.symm, hseq.symm,
        (hlayers.2 h List.mem_cons_self).2.symm⟩

theorem bridgingLevel_le (intf : Intf) : intf.bridgingLevel ≤ 2 := by
  unfold Intf.bridgingLevel
  split
  · decide
  · split
    · decide
    · decide

theorem pollTurns_sent {fuel : Nat} {answer : Option Answer} {l' : Link} (h : pollTurns fuel l = .ok answer l') :
    l'.sent = l.sent := by
  have hquiet : Quiet fun l' => l'.sent = l.sent := fun _ _ _ _ _ _ h => h
  exact (ends_ok h).1 (pollTurns_quiet hquiet fuel l rfl)

/-- **An answered request**: unless the answer says that the request is a duplicate, the call sends one packet and
returns the completion code and the data of the innermost message, and leaves no entry behind. -/
theorem ipmiLanSendCmd_answered {retry : Nat} {attempts : List Attempt} {hdr data : List UInt8} {n ccode : UInt8}
    {last : ReplyHdr} {layers : List ReplyHdr} {rest : List Arrival} (hentries : l.entries = [])
    (hanswer : l.noanswer = false) (hhdr : PacketHdr l.session hdr)
    (harrivals : l.arrivals = .datagram (hdr ++ n :: layeredReply (replyMessage last ccode data) layers) :: rest)
    (hsize : (hdr ++ n :: layeredReply (replyMessage last ccode data) layers).length ≤ ipmiBufSize)
    (hlayers : layers.length = l.intf.bridgingLevel ∧ ∀ h ∈ layers, h.netfnLun >>> 2 = 7 ∧ h.cmd = sendMessageCmd)
    (hseq : ((layers ++ [last]).head (by simp)).seqLun >>> 2 = nextCurrSeq false l.currSeq) (hcmd : last.cmd = req.cmd)
    (hccode : ccode ≠ duplicateRequest) :
    ∃ l', ipmiLanSendCmd c req targetCmd retry (⟨true, true, true⟩ :: attempts) l = .ok (some .packet) l' ∧
      l'.rsp.ccode = ccode ∧ Holds l'.rsp data ∧ l'.entries = [] ∧
      l'.sent = l.sent ++ [(ipmiLanBuildMsg c l.intf l.session req (nextCurrSeq false l.currSeq)).2] := by
  obtain ⟨msg, hmsg⟩ : ∃ msg, (ipmiLanBuildMsg c l.intf l.session req (nextCurrSeq false l.currSeq)).2 = msg := ⟨_, rfl⟩
  obtain ⟨target, hbuild⟩ := @ipmiLanBuildCmd_first c l req targetCmd hentries true
  rw [hmsg] at hbuild ⊢
  let l₂ : Link := { l.built req targetCmd with sent := l.sent ++ [msg] }
  have hne : hdr ++ n :: layeredReply (replyMessage last ccode data) layers ≠ [] := by simp
  obtain ⟨rsp, hholds, hpoll⟩ := ipmiLanPollRecv_datagram (l := l₂) harrivals hne hsize
  let l₃ : Link := { l₂ with rsp := rsp, arrivals := rest }
  have hfuel : layers.length < l₃.turns := by
    have hlen : rsp.dataLen = hdr.length + _ := hholds.1.trans (List.length_append ..)
    have hhdr13 := hhdr.le_length
    have htwo := bridgingLevel_le l.intf
    have hlevel := hlayers.1
    show _ < rsp.dataLen + _ + 1
    omega
  obtain ⟨l₄, hrun, hcode, hdata, -⟩ := pollTurns_answer (l := l₃) layers ⟨hhdr.length, hhdr.rmcpClass, hhdr.id⟩
    hholds rfl (built_awaits hlayers hseq hcmd) hfuel
  have hsent : l₄.sent = l.sent ++ [msg] := pollTurns_sent hrun
  have hreply : pollReply l₂ = .ok (some .packet) l₄ := by
    rw [pollReply, bind_ok (hpoll.trans hrun), get_bind_apply, hcode, if_neg fun h => hccode h.2]
    rfl
  have hturns : sendTurns c req targetCmd retry 0 (⟨true, true, true⟩ :: attempts) l =
      .ok (.leave (some .packet)) l₄ := by
    have hfirst : (decide ((0 : Nat) ≠ 0)) = false := rfl
    have hnote : (modify fun l => { l with sent := l.sent ++ [msg] } : LanM PUnit) (l.built req targetCmd) =
      .ok ⟨⟩ l₂ := rfl
    rw [sendTurns, hfirst, bind_ok hbuild]
    dsimp only
    rw [bind_ok hnote, if_neg nofun, get_bind_apply, show l₂.noanswer = false from hanswer, if_neg nofun,
      bind_ok hreply]
    rfl
  refine ⟨{ l₄ with
    entries := []
    returned := l₄.returned ++ [⟨req, !l₄.intf.unbridged, l₄.currSeq, .packet, l₄.rsp⟩] }, ?_, hcode, hdata, rfl, hsent⟩
  rw [ipmiLanSendCmd, bind_ok hturns]
  rfl

end call

/-- The answer to a request that is bridged to twice. -/
def transitLayers : List ReplyHdr :=
  [⟨remoteSwid, 0x1C, bmcSlaveAddr, 4, sendMessageCmd⟩, ⟨0x20, 0x1C, 0x82, 4, sendMessageCmd⟩]

def transitLast : ReplyHdr := ⟨0x20, 0x1C, 0x72, 4, 0x23⟩

def transitAnswer : List UInt8 := layeredReply (replyMessage transitLast 0xC1 [5, 6]) transitLayers

def transitLink : Link :=
  .start transitIntf presession false [.datagram (rmcpHeader ++ [(0 : UInt8)] ++ le32 0 ++ le32 0 ++ 26 :: transitAnswer)]

theorem ipmiLanSendCmd_answered_transit :
    ∃ l', ipmiLanSendCmd .zero ⟨6, 0, 0x23, []⟩ 0 4 [⟨true, true, true⟩] transitLink = .ok (some .packet) l' ∧
      l'.rsp.ccode = 0xC1 ∧ Holds l'.rsp [5, 6] ∧ l'.entries = [] ∧
      l'.sent = [] ++ [(ipmiLanBuildMsg .zero transitIntf presession ⟨6, 0, 0x23, []⟩ 1).2] :=
  @ipmiLanSendCmd_answered .zero transitLink ⟨6, 0, 0x23, []⟩ 0 4 [] (rmcpHeader ++ [(0 : UInt8)] ++ le32 0 ++ le32 0)
    [5, 6] 26 0xC1 transitLast transitLayers [] rfl rfl ⟨by decide, by decide, by decide⟩ rfl (by decide)
    (by decide) (by decide) rfl (by decide)

end KTools.Lan
