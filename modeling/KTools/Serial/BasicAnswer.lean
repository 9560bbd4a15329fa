import KTools.Serial.BasicRequest

/-!
# Answers in the basic mode

The answer to a bridged request comes in as many layers as the request went out with, each with the header that
belongs to the layer of the request; a layer that has failed has nothing within. The call takes the layers off and
returns what the innermost one says (`serialBmSendRequest_answered`).
-/

namespace KTools.Serial.BasicMode
open KTools.Lib KTools.Lib.Bytes KTools.Lanplus

/-- The message that answers a request with this header. -/
def answer (c : RequestCtx) (ccode : UInt8) (data : List UInt8) : List UInt8 :=
  ipmbMessage ⟨c.rqSA, c.answerNetFn, c.rsSA, c.answerSeq, c.cmd⟩ (ccode :: data)

/-- The answers in their layers: all but the innermost are successes. -/
def nestedAnswer : List RequestCtx → UInt8 → List UInt8 → List UInt8
  | [], _, _ => []
  | [c], ccode, data => answer c ccode data
  | c :: d :: cs, ccode, data => answer c 0 (nestedAnswer (d :: cs) ccode data)

/-- The headers of a request, from the outermost to the innermost. -/
def requestLayers (intf : Intf) (req : IpmiRq) (seq : UInt8) : List RequestCtx :=
  match ipmiIntfGetBridgingLevel intf with
  | 0 => [directHdr req seq]
  | 1 => [sendMessageHdr seq, ((innerRq intf req seq).forSystem intf.isSystem).msg]
  | _ => [sendMessageHdr seq, ((outerRq intf seq).forSystem intf.isSystem).msg, (innerRq intf req seq).msg]

theorem length_answer (c : RequestCtx) (ccode : UInt8) (data : List UInt8) :
    (answer c ccode data).length = data.length + 8 := by
  rw [answer, length_ipmbMessage, List.length_cons]

/-- An answer passes the checks. -/
theorem isAnswer_answer (c : RequestCtx) (ccode : UInt8) (data : List UInt8) :
    c.isAnswer (answer c ccode data) = true := by
  have hfirst : ipmiCsum ((answer c ccode data).take 3) = 0 := ipmiCsum_withCsum [c.rqSA, c.answerNetFn]
  have hsecond : ipmiCsum ((answer c ccode data).drop 3) = 0 :=
    ipmiCsum_withCsum ([c.rsSA, c.answerSeq, c.cmd] ++ ccode :: data)
  have hlength := length_answer c ccode data
  unfold RequestCtx.isAnswer
  rw [hfirst, hsecond, hlength]
  simp [answer, ipmbMessage, withCsum]

theorem answer_payload (c : RequestCtx) (ccode : UInt8) (data : List UInt8) :
    ((answer c ccode data).drop 6).take ((answer c ccode data).length - 7) = ccode :: data := by
  have hlength : (answer c ccode data).length - 7 = (ccode :: data).length := by
    rw [length_answer, List.length_cons]
    omega
  have hheader : (RequestCtx.header ⟨c.rqSA, c.answerNetFn, c.rsSA, c.answerSeq, c.cmd⟩).length = 6 := rfl
  rw [hlength, answer, ipmbMessage_eq, List.append_assoc, List.drop_left' hheader, List.take_left]

/-! ### Waiting for an answer -/

/-- The next message that comes on the line is this one, and nothing delays it. -/
structure Delivers (line : Line) (m : List UInt8) (ms : List (List UInt8)) : Prop where
  carries : Carries line.stream (m :: ms)
  fits : ∀ m' ∈ m :: ms, m'.length ≤ serialBmMaxMsgSize
  reads : ∀ event ∈ line.events, ∃ n, event = .read (n + 1)
  enough : line.stream.length ≤ line.events.length

theorem recvMsg_delivers {s : Port} {m : List UInt8} {ms : List (List UInt8)} (hbuffer : 0 < s.recv.maxBufferSize)
    (hempty : s.recv.content = []) (hline : Delivers s.line m ms) :
    (serialBmRecvMsg s.recv serialBmMaxMsgSize s.line).result = .message m :=
  recvLoop_delivers _ hbuffer hempty (.skipping rfl hline.carries) hline.fits hline.reads hline.enough

/-- What the port is after a message has been received. -/
def Port.afterRecv (s : Port) : Port :=
  { s with
    recv := (serialBmRecvMsg s.recv serialBmMaxMsgSize s.line).recv
    line := (serialBmRecvMsg s.recv serialBmMaxMsgSize s.line).line
    received := s.received + 1 }

/-- A wait whose answer is the next message. -/
theorem serialBmWaitResponse_answer {s : Port} {ctx : RequestCtx} {ccode : UInt8} {data : List UInt8}
    {ms : List (List UInt8)} (hbuffer : 0 < s.recv.maxBufferSize) (hempty : s.recv.content = [])
    (hline : Delivers s.line (answer ctx ccode data) ms) :
    serialBmWaitResponse ctx s = .ok (.payload (ccode :: data)) s.afterRecv := by
  have hrecv : recvMsg serialBmMaxMsgSize s = .ok (.message (answer ctx ccode data)) s.afterRecv := by
    rw [recvMsg, get_bind_apply, recvMsg_delivers hbuffer hempty hline, if_neg nofun]
    rfl
  have hne : answer ctx ccode data ≠ [] := by
    intro hnil
    have hlength := length_answer ctx ccode data
    rw [hnil] at hlength
    simp at hlength
  rw [serialBmWaitResponse, get_bind_apply, waitLoop, bind_ok hrecv]
  dsimp only
  rw [if_neg hne, if_pos (isAnswer_answer ctx ccode data), answer_payload]
  rfl

/-! ### A call -/

theorem slice_shift {α : Type*} (m : Nat → α) (k off len : Nat) :
    slice (fun i => m (k + i)) off len = slice m (k + off) len := by
  unfold slice
  exact List.map_congr_left fun i _ => congrArg m (Nat.add_assoc ..).symm

theorem slice_succ {α : Type*} (m : Nat → α) (off len : Nat) :
    slice m off (len + 1) = m off :: slice m (off + 1) len := by
  rw [Nat.add_comm len 1, slice_add]
  rfl

/-- The bytes behind the first ones of a message. -/
theorem slice_byteAt (s : Port) (x y z : List UInt8) :
    slice (fun i => byteAt s (x ++ y ++ z) (x.length + i)) 0 y.length = y := by
  have hinside := slice_store_inside (s.behind s.received) 0 (x ++ y ++ z) (i := x.length) (n := y.length)
    (by simp only [List.length_append]; omega)
  rw [Nat.zero_add] at hinside
  rw [slice_shift, byteAt, Nat.add_zero, hinside, List.append_assoc, List.drop_left, List.take_left]

section response
variable {level : Nat} {resp : Nat → UInt8} {ccode : UInt8} {data : List UInt8}

/-- The response without layers around it. -/
theorem fillRsp_innermost (hresp : slice resp 0 (data.length + 1) = ccode :: data)
    (hlevel : ¬ (level = 2 ∧ ccode = 0)) (s : Port) :
    fillRsp level resp ((data.length + 1 : Nat) : Int) s = .ok (some ⟨ccode, data⟩) s := by
  rw [slice_succ] at hresp
  obtain ⟨hcode, hdata⟩ := List.cons.inj hresp
  have hlength : (((data.length + 1 : Nat) : Int) - 1).toNat = data.length := by omega
  rw [fillRsp, hcode, if_neg hlevel, if_neg (by omega), hlength, hdata]
  rfl

/-- The response in a layer around it, at level 2. -/
theorem fillRsp_layer {c : RequestCtx}
    (hresp : slice resp 0 (data.length + 9) = 0 :: answer c ccode data) (s : Port) :
    fillRsp 2 resp ((data.length + 9 : Nat) : Int) s = .ok (some ⟨ccode, data⟩) s := by
  have hfirst : resp 0 = 0 := (List.cons.inj ((slice_succ ..).symm.trans hresp)).1
  have hinner : slice resp 7 (data.length + 1) = ccode :: data := by
    have hpayload := answer_payload c ccode data
    rw [length_answer] at hpayload
    rw [← Nat.zero_add 7, ← take_drop_slice resp 0 (show 7 + (data.length + 1) ≤ data.length + 9 by omega), hresp]
    exact hpayload
  rw [slice_succ] at hinner
  obtain ⟨hcode, hdata⟩ := List.cons.inj hinner
  have hlength : (((data.length + 9 : Nat) : Int) - 9).toNat = data.length := by omega
  rw [fillRsp, if_pos ⟨rfl, hfirst⟩, if_neg (by omega), hlength, hcode, hdata]
  rfl

end response

/-- A port behind the write of a request. -/
def Port.sent (s : Port) (msg : List UInt8) : Port :=
  { s with
    seq := nextSeq s.seq
    line := s.lines.headD ⟨[], []⟩
    lines := s.lines.tail
    written := s.written ++ [serialBmSendMsg msg] }

/-- What a try does with a response that has everything in its layers. -/
def takeLayers (level : Nat) (p : List UInt8) (s : Port) : SerialM (Option CmdRsp) :=
  if level ≠ 0 ∧ byteAt s p 0 = 0 then
    bridgedRsp level (fun i => byteAt s p (7 + i)) ((p.length : Int) - 8)
  else fillRsp level (byteAt s p) p.length

section layers
variable {level : Nat} {ccode : UInt8} {data : List UInt8}

/-- The bytes of an inner answer, where the code looks for them. -/
theorem slice_inner (c : RequestCtx) (s : Port) :
    slice (fun i => byteAt s (0 :: answer c ccode data) (7 + i)) 0 (data.length + 1) = ccode :: data := by
  have hsplit : 0 :: answer c ccode data =
      0 :: RequestCtx.header ⟨c.rqSA, c.answerNetFn, c.rsSA, c.answerSeq, c.cmd⟩ ++ (ccode :: data) ++
        [ipmiCsum ([c.rsSA, c.answerSeq, c.cmd] ++ ccode :: data)] := by
    rw [answer, ipmbMessage_eq]
    rfl
  rw [hsplit]
  exact slice_byteAt s _ (ccode :: data) _

theorem takeLayers_direct (hcode : level = 0 ∨ ccode ≠ 0) (s t : Port) :
    takeLayers level (ccode :: data) s t = .ok (some ⟨ccode, data⟩) t := by
  have hbyte : byteAt s (ccode :: data) 0 = ccode := rfl
  have hresp : slice (byteAt s (ccode :: data)) 0 (data.length + 1) = ccode :: data := slice_store ..
  rw [takeLayers, hbyte, if_neg fun h => hcode.elim h.1 (fun hne => hne h.2)]
  refine fillRsp_innermost hresp ?_ t
  rintro ⟨rfl, hzero⟩
  exact hcode.elim nofun fun hne => hne hzero

theorem takeLayers_one (hlevel : level ≠ 0) (c : RequestCtx) (hcode : level = 1 ∨ ccode ≠ 0) (s t : Port) :
    takeLayers level (0 :: answer c ccode data) s t = .ok (some ⟨ccode, data⟩) t := by
  have hbyte : byteAt s (0 :: answer c ccode data) 0 = 0 := rfl
  have hlength : ((0 :: answer c ccode data).length : Int) - 8 = ((data.length + 1 : Nat) : Int) := by
    rw [List.length_cons, length_answer]
    omega
  have hresp : slice (fun i => byteAt s (0 :: answer c ccode data) (7 + i)) 0 (data.length + 1) = ccode :: data :=
    slice_inner c s
  have hfirst : byteAt s (0 :: answer c ccode data) (7 + 0) = ccode :=
    (List.cons.inj ((slice_succ ..).symm.trans hresp)).1
  have hne : ¬ (level = 2 ∧ ccode = 0) := by
    rintro ⟨rfl, hzero⟩
    exact hcode.elim nofun fun hne => hne hzero
  rw [takeLayers, hbyte, if_pos ⟨hlevel, rfl⟩, bridgedRsp, hfirst, if_neg fun h => hne ⟨h.2.1, h.1⟩, hlength]
  exact fillRsp_innermost hresp hne t

theorem takeLayers_two (c d : RequestCtx) (s t : Port) :
    takeLayers 2 (0 :: answer c 0 (answer d ccode data)) s t = .ok (some ⟨ccode, data⟩) t := by
  have hbyte : byteAt s (0 :: answer c 0 (answer d ccode data)) 0 = 0 := rfl
  have hlength : ((0 :: answer c 0 (answer d ccode data)).length : Int) - 8 = ((data.length + 9 : Nat) : Int) := by
    rw [List.length_cons, length_answer, length_answer]
    omega
  have hresp : slice (fun i => byteAt s (0 :: answer c 0 (answer d ccode data)) (7 + i)) 0
      ((answer d ccode data).length + 1) = 0 :: answer d ccode data := slice_inner c s
  rw [length_answer] at hresp
  rw [takeLayers, hbyte, if_pos ⟨by decide, rfl⟩, bridgedRsp, if_neg (by omega), hlength]
  exact fillRsp_layer hresp t

end layers

section call
variable {intf : Intf} {req : IpmiRq}

theorem built_of_fits (hfits : req.data.length + 7 + ipmiIntfGetBridgingLevel intf * 8 ≤ serialBmMaxMsgSize)
    (seq : UInt8) : serialBmBuildMsg intf req serialBmMaxMsgSize seq = some (buildMsg intf req (seq <<< 2)) :=
  if_neg (Nat.not_lt.2 hfits)

/-- The outermost header is that of the first context, and there is one more for each bridging level. -/
theorem requestLayers_spec (intf : Intf) (req : IpmiRq) (seq : UInt8) :
    ∃ cs, requestLayers intf req seq = (buildMsg intf req seq).ctx₀ :: cs ∧
      cs.length = (buildMsg intf req seq).bridgingLevel ∧ cs.length ≤ 2 := by
  rcases bridgingLevel_cases intf with h | h | h
  · refine ⟨[], ?_, ?_, by decide⟩ <;> simp [requestLayers, buildMsg, h]
  · refine ⟨[((innerRq intf req seq).forSystem intf.isSystem).msg], ?_, ?_, Nat.le_succ 1⟩
    · simp only [requestLayers, buildMsg, h]
      rfl
    · simp [buildMsg, h]
  · refine ⟨[((outerRq intf seq).forSystem intf.isSystem).msg, (innerRq intf req seq).msg], ?_, ?_, Nat.le_refl 2⟩
    · simp only [requestLayers, buildMsg, h]
      rfl
    · simp [buildMsg, h]

/-- A try whose response has come, with everything in its layers. -/
theorem sendTries_payload {retry : Nat} {s t : Port} {p : List UInt8} (hsys : intf.isSystem = false)
    (hfits : req.data.length + 7 + ipmiIntfGetBridgingLevel intf * 8 ≤ serialBmMaxMsgSize) {built : BuiltMsg}
    (hbuilt : buildMsg intf req (nextSeq s.seq <<< 2) = built)
    (hwait : serialBmWaitResponse built.ctx₀ (s.sent built.msg) = .ok (.payload p) t)
    (hlayers : built.bridgingLevel ≠ 0 → byteAt t p 0 = 0 → p.length ≠ 1) :
    sendTries intf req (retry + 1) s = takeLayers built.bridgingLevel p t t := by
  have hseq : serialBmAllocSeq s = .ok (nextSeq s.seq) { s with seq := nextSeq s.seq } := rfl
  rw [sendTries, bind_ok hseq, built_of_fits hfits, hbuilt]
  change ((serialBmWaitResponse built.ctx₀ >>= _ : SerialM (Option CmdRsp))) (s.sent built.msg) = _
  rw [bind_ok hwait]
  dsimp only
  rw [get_bind_apply, takeLayers]
  by_cases hbridged : built.bridgingLevel ≠ 0 ∧ byteAt t p 0 = 0
  · rw [if_pos hbridged, if_pos hbridged, hsys, if_neg (hlayers hbridged.1 hbridged.2)]
    rfl
  · rw [if_neg hbridged, if_neg hbridged]

/-- **An answered request**: the call sends the request in its layers and returns the innermost answer, whether
all layers are answered or one of them fails. -/
theorem serialBmSendRequest_answered {s : Port} {retry : Nat} {buffer : Nat → UInt8} {path : List RequestCtx}
    {ccode : UInt8} {data : List UInt8} {line : Line} {rest : List Line} {ms : List (List UInt8)}
    (hsys : intf.isSystem = false)
    (hfits : req.data.length + 7 + ipmiIntfGetBridgingLevel intf * 8 ≤ serialBmMaxMsgSize)
    (hpath : path ≠ []) (hstart : path.IsPrefix (requestLayers intf req (nextSeq s.seq <<< 2)))
    (hcode : path = requestLayers intf req (nextSeq s.seq <<< 2) ∨ ccode ≠ 0) (hlines : s.lines = line :: rest)
    (hline : Delivers line (nestedAnswer path ccode data) ms) :
    ∃ s', serialBmSendRequest intf req (retry + 1) buffer s = .ok (some ⟨ccode, data⟩) s' ∧
      s'.written = s.written ++ [serialBmSendMsg (nestedRequest intf req (nextSeq s.seq <<< 2))] := by
  obtain ⟨built, hbuilt⟩ : ∃ built, buildMsg intf req (nextSeq s.seq <<< 2) = built := ⟨_, rfl⟩
  have hmsg : built.msg = nestedRequest intf req (nextSeq s.seq <<< 2) := by rw [← hbuilt, buildMsg_nested]
  let s₀ : Port := { s with recv := .start buffer }
  have hwait : ∀ {ccode' : UInt8} {data' : List UInt8},
      nestedAnswer path ccode data = answer built.ctx₀ ccode' data' →
        serialBmWaitResponse built.ctx₀ (s₀.sent built.msg) =
          .ok (.payload (ccode' :: data')) (s₀.sent built.msg).afterRecv := by
    intro ccode' data' heq
    have hnext : Delivers (s.lines.headD ⟨[], []⟩) (answer built.ctx₀ ccode' data') ms := by
      rw [hlines, ← heq]
      exact hline
    exact serialBmWaitResponse_answer (Nat.succ_pos 249) rfl hnext
  have hrun : ∀ p, serialBmWaitResponse built.ctx₀ (s₀.sent built.msg) =
        .ok (.payload p) (s₀.sent built.msg).afterRecv →
      (built.bridgingLevel ≠ 0 → byteAt (s₀.sent built.msg).afterRecv p 0 = 0 → p.length ≠ 1) →
      serialBmSendRequest intf req (retry + 1) buffer s =
        takeLayers built.bridgingLevel p (s₀.sent built.msg).afterRecv (s₀.sent built.msg).afterRecv :=
    fun p => sendTries_payload (s := s₀) hsys hfits hbuilt
  refine ⟨(s₀.sent built.msg).afterRecv, ?_, by rw [← hmsg]; rfl⟩
  obtain ⟨cs, hlayers, hlevel, htwo⟩ := requestLayers_spec intf req (nextSeq s.seq <<< 2)
  rw [hbuilt] at hlayers hlevel
  rw [hlayers] at hstart hcode
  obtain ⟨ps, rfl, hps⟩ := (List.prefix_cons_iff.1 hstart).resolve_left hpath
  have hlength : ps.length ≤ built.bridgingLevel := hlevel ▸ hps.length_le
  have hcode' : ps.length = built.bridgingLevel ∨ ccode ≠ 0 :=
    hcode.imp_left fun heq => by rw [(List.cons.inj heq).2, hlevel]
  match ps with
  | [] =>
    rw [hrun _ (hwait rfl) fun hbridged hzero => absurd hzero (hcode'.resolve_left (Ne.symm hbridged))]
    exact takeLayers_direct (hcode'.imp_left Eq.symm) _ _
  | [d] =>
    have hdata : (0 :: answer d ccode data).length ≠ 1 := by
      rw [List.length_cons, length_answer]
      omega
    rw [hrun _ (hwait rfl) fun _ _ => hdata]
    exact takeLayers_one (Nat.ne_of_gt hlength) d (hcode'.imp_left Eq.symm) _ _
  | [d, e] =>
    have hlevel₂ : built.bridgingLevel = 2 := Nat.le_antisymm (hlevel ▸ htwo) hlength
    have hdata : (0 :: answer d 0 (answer e ccode data)).length ≠ 1 := by
      rw [List.length_cons, length_answer]
      omega
    rw [hrun _ (hwait rfl) fun _ _ => hdata, hlevel₂]
    exact takeLayers_two d e _ _
  | _ :: _ :: _ :: _ =>
    simp only [List.length_cons] at hlength
    omega

end call

/-- A line on which the answer comes, three bytes at a time. -/
def answeringLine (bytes : List UInt8) : Line :=
  ⟨serialBmSendMsg bytes, List.replicate 60 (.read 3)⟩

def answeringPort (bytes : List UInt8) : Port :=
  ⟨0, .start fun _ => 0, ⟨[], []⟩, [answeringLine bytes], [], 0, fun _ _ => 0, []⟩

def bridgedAnswer : List UInt8 := nestedAnswer (requestLayers bridgedIntf deviceIdRq 4) 0 [0x51, 0xA5]

theorem delivers_bridgedAnswer : Delivers (answeringLine bridgedAnswer) bridgedAnswer [] where
  carries := by
    have hcarries := Carries.sent (m := bridgedAnswer) (.noise (List.not_mem_nil (a := bmStart)))
    rwa [List.append_nil] at hcarries
  fits := by decide
  reads := fun event hevent => ⟨2, List.eq_of_mem_replicate hevent⟩
  enough := by decide

theorem serialBmSendRequest_answered_bridged :
    ∃ s', serialBmSendRequest bridgedIntf deviceIdRq 1 (fun _ => 0) (answeringPort bridgedAnswer) =
        .ok (some ⟨0, [0x51, 0xA5]⟩) s' ∧
      s'.written = [] ++ [serialBmSendMsg (nestedRequest bridgedIntf deviceIdRq 4)] :=
  @serialBmSendRequest_answered bridgedIntf deviceIdRq (answeringPort bridgedAnswer) 0 (fun _ => 0)
    (requestLayers bridgedIntf deviceIdRq 4) 0 [0x51, 0xA5] (answeringLine bridgedAnswer) [] [] rfl (by decide)
    (by decide) (List.prefix_refl _) (.inl rfl) rfl delivers_bridgedAnswer

end KTools.Serial.BasicMode
