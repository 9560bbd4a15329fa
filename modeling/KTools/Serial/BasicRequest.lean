import Mathlib.Algebra.Group.Nat.Defs
import KTools.Lib.Triple
import KTools.Lanplus.Build
import KTools.Serial.BasicFrames

/-!
# Requests in the basic mode

A request goes out as an IPMB message, behind up to two Send Message requests when its target is bridged to
(`serialBmBuildMsg`). Each layer has two checksums; the code sums up only the first bytes of an outer layer, which
is enough because an inner message sums up to zero. `serialBmSendRequest` flushes the port, sends the frame and
waits for the message that answers it.

Every flush drops what has come by then, so what the line does behind it is a new `Line`.
-/

namespace KTools.Serial.BasicMode
open KTools.Lib KTools.Lib.Bytes KTools.Lanplus

/-! ### Building -/

/-- What a message is built from; `isSystem` is the static of that name. -/
structure Intf where
  myAddr : UInt32
  targetAddr : UInt32
  targetChannel : UInt8
  transitAddr : UInt32
  transitChannel : UInt8
  isSystem : Bool

def ipmiIntfGetBridgingLevel (intf : Intf) : Nat :=
  if intf.targetAddr ≠ 0 ∧ intf.targetAddr ≠ intf.myAddr then
    if intf.transitAddr ≠ 0 ∧
        (intf.transitAddr ≠ intf.targetAddr ∨ intf.transitChannel ≠ intf.targetChannel) then 2
    else 1
  else 0

/-- `struct serial_bm_request_ctx`; with a checksum, also a `struct ipmb_msg_hdr`. -/
structure RequestCtx where
  rsSA : UInt8
  netFn : UInt8
  rqSA : UInt8
  rqSeq : UInt8
  cmd : UInt8
  deriving DecidableEq

def RequestCtx.header (c : RequestCtx) : List UInt8 :=
  [c.rsSA, c.netFn, -(c.rsSA + c.netFn), c.rqSA, c.rqSeq, c.cmd]

/-- `struct ipmi_send_message_rq`. -/
structure SendMessageRq where
  channel : UInt8
  msg : RequestCtx

def SendMessageRq.bytes (rq : SendMessageRq) : List UInt8 := rq.channel :: rq.msg.header

/-- The changes for the system interface. -/
def SendMessageRq.forSystem (rq : SendMessageRq) (isSystem : Bool) : SendMessageRq :=
  if isSystem then
    let channel := rq.channel &&& ~~~0x40
    let rqSA := if channel ≠ 0 then bmcSlaveAddr else rq.msg.rqSA
    ⟨channel, { rq.msg with rqSeq := rq.msg.rqSeq ||| 2, rqSA := rqSA }⟩
  else rq

def directHdr (req : IpmiRq) (seq : UInt8) : RequestCtx :=
  ⟨bmcSlaveAddr, req.netfn <<< 2 ||| req.lun, remoteSwid, seq, req.cmd⟩

def sendMessageHdr (seq : UInt8) : RequestCtx := ⟨bmcSlaveAddr, 0x18, remoteSwid, seq, sendMessageCmd⟩

/-- The request to the transit address, at level 2. -/
def outerRq (intf : Intf) (seq : UInt8) : SendMessageRq :=
  ⟨intf.transitChannel ||| 0x40, intf.transitAddr.toUInt8, 0x18, intf.myAddr.toUInt8, seq, sendMessageCmd⟩

/-- The request to the target. -/
def innerRq (intf : Intf) (req : IpmiRq) (seq : UInt8) : SendMessageRq :=
  ⟨intf.targetChannel ||| 0x40, intf.targetAddr.toUInt8, req.netfn <<< 2 ||| req.lun, intf.myAddr.toUInt8, seq,
    req.cmd⟩

/-- A message that has been built, and the contexts of the responses to wait for. -/
structure BuiltMsg where
  bridgingLevel : Nat
  msg : List UInt8
  ctx₀ : RequestCtx
  ctx₁ : RequestCtx

/-- `serial_bm_build_msg` behind the check of the length. The first context stands for the second one where that
is not set. -/
def buildMsg (intf : Intf) (req : IpmiRq) (seq : UInt8) : BuiltMsg :=
  let level := ipmiIntfGetBridgingLevel intf
  if level = 0 then
    let hdr := directHdr req seq
    ⟨level, hdr.header ++ req.data ++ [ipmiCsum ([hdr.rqSA, hdr.rqSeq, hdr.cmd] ++ req.data)], hdr, hdr⟩
  else
    let hdr := sendMessageHdr seq
    if level = 2 then
      let outer := (outerRq intf seq).forSystem intf.isSystem
      let inner := innerRq intf req seq
      ⟨level, hdr.header ++ outer.bytes ++ inner.bytes ++ req.data ++
          [ipmiCsum ([inner.msg.rqSA, inner.msg.rqSeq, inner.msg.cmd] ++ req.data),
            ipmiCsum [outer.msg.rqSA, outer.msg.rqSeq, outer.msg.cmd, inner.channel],
            ipmiCsum [hdr.rqSA, hdr.rqSeq, hdr.cmd, outer.channel]], hdr, outer.msg⟩
    else
      let inner := (innerRq intf req seq).forSystem intf.isSystem
      ⟨level, hdr.header ++ inner.bytes ++ req.data ++
          [ipmiCsum ([inner.msg.rqSA, inner.msg.rqSeq, inner.msg.cmd] ++ req.data),
            ipmiCsum [hdr.rqSA, hdr.rqSeq, hdr.cmd, inner.channel]], hdr, inner.msg⟩

/-- `none` is the message that is too long. -/
def serialBmBuildMsg (intf : Intf) (req : IpmiRq) (maxLen : Nat) (seq : UInt8) : Option BuiltMsg :=
  if maxLen < req.data.length + 7 + ipmiIntfGetBridgingLevel intf * 8 then none
  else some (buildMsg intf req (seq <<< 2))

/-! ### Waiting -/

/-- The static of `serial_bm_alloc_seq`, the receive context, the line, the lines behind the next flushes, whether
there is time left at each look at the clock, the number of messages received, what lies in the memory behind
each of them, and what has been written. -/
structure Port where
  seq : UInt8
  recv : RecvCtx
  line : Line
  lines : List Line
  timeLeft : List Bool
  received : Nat
  behind : Nat → Nat → UInt8
  written : List (List UInt8)

/-- Why a call does not come to its end: `read` with a count that has wrapped around, `memcpy` with a negative
length, or a message whose length has not been set. -/
inductive Stop where
  | overrun
  | badCopy
  | noLength
  | endless
  deriving DecidableEq

abbrev SerialM := EStateM Stop Port

def nextSeq (seq : UInt8) : UInt8 := if seq + 1 = 64 then 0 else seq + 1

def serialBmAllocSeq : SerialM UInt8 := do
  modify fun s => { s with seq := nextSeq s.seq }
  let s ← get
  return s.seq

def serialBmFlush : SerialM PUnit :=
  modify fun s => { s with line := s.lines.headD ⟨[], []⟩, lines := s.lines.tail }

def writeMsg (msg : List UInt8) : SerialM PUnit :=
  modify fun s => { s with written := s.written ++ [serialBmSendMsg msg] }

def recvMsg (maxLen : Nat) : SerialM RecvEnd := do
  let s ← get
  let x := serialBmRecvMsg s.recv maxLen s.line
  set { s with recv := x.recv, line := x.line, received := s.received + 1 }
  if x.result = .overrun then throw .overrun else return x.result

/-- The fields of the answer: the requester and responder LUNs are swapped. -/
def RequestCtx.answerNetFn (c : RequestCtx) : UInt8 := (c.netFn ||| 4) &&& ~~~3 ||| c.rqSeq &&& 3

def RequestCtx.answerSeq (c : RequestCtx) : UInt8 := c.rqSeq &&& ~~~3 ||| c.netFn &&& 3

/-- A message that passes the checks, and whose header is that of the answer. -/
def RequestCtx.isAnswer (c : RequestCtx) (m : List UInt8) : Bool :=
  8 ≤ m.length && ipmiCsum (m.take 3) == 0 && ipmiCsum (m.drop 3) == 0 &&
    (m.getD 0 0 == c.rqSA && m.getD 1 0 == c.answerNetFn && m.getD 3 0 == c.rsSA && m.getD 4 0 == c.answerSeq &&
      m.getD 5 0 == c.cmd)

/-- How the wait ends: with the completion code and the data of the answer, in time or not, or with an error. -/
inductive Wait where
  | payload (bytes : List UInt8)
  | timeout
  | error
  deriving DecidableEq

/-- The loop of `serial_bm_wait_response`. An empty message ends it, too. -/
def waitLoop (ctx : RequestCtx) : Nat → SerialM Wait
  | 0 => throw .endless
  | fuel + 1 => do
    match ← recvMsg serialBmMaxMsgSize with
    | .message m =>
      if m = [] then return .timeout
      else if ctx.isAnswer m then return .payload ((m.drop 6).take (m.length - 7))
      else waitLoop ctx fuel
    | .error => return .error
    | _ => return .timeout

def serialBmWaitResponse (ctx : RequestCtx) : SerialM Wait := do
  let s ← get
  waitLoop ctx (s.line.events.length + 1)

/-- The request for Get Message. -/
def getMessageCtx (seq : UInt8) : RequestCtx := ⟨bmcSlaveAddr, 0x18, remoteSwid, seq <<< 2, 0x33⟩

/-- The memory that a message has been received into. -/
def byteAt (s : Port) (bytes : List UInt8) : Nat → UInt8 := store (s.behind s.received) 0 bytes

/-- The loop of `serial_bm_get_message`, once for each look at the clock. `rp` is a `struct ipmi_get_message_rp`,
of 7 bytes. -/
def getMessageLoop (ctx : RequestCtx) : List Bool → SerialM Wait
  | [] => return .timeout
  | timeLeft :: rest => do
    let seq ← serialBmAllocSeq
    let hdr := getMessageCtx seq
    serialBmFlush
    writeMsg (hdr.header ++ [ipmiCsum [hdr.rqSA, hdr.rqSeq, hdr.cmd]])
    match ← serialBmWaitResponse hdr with
    | .payload rp =>
      let s ← get
      if byteAt s rp 0 = 0 then
        if byteAt s rp 2 = ctx.answerNetFn ∧ byteAt s rp 4 = ctx.rsSA ∧ byteAt s rp 5 = ctx.answerSeq ∧
            byteAt s rp 6 = ctx.cmd then
          if rp.length < 8 then throw .badCopy
          else if rp.length = 8 then return .timeout
          else return .payload ((rp.drop 7).take (rp.length - 8))
        else if timeLeft then getMessageLoop ctx rest else return .timeout
      else if byteAt s rp 0 ≠ 0x80 then return .timeout
      else if timeLeft then getMessageLoop ctx rest else return .timeout
    | end' => return end'

def serialBmGetMessage (ctx : RequestCtx) : SerialM Wait := do
  let s ← get
  getMessageLoop ctx s.timeLeft

/-! ### A call -/

/-- `rsp` from the bytes at `resp`, of which `rv` are valid. -/
def fillRsp (level : Nat) (resp : Nat → UInt8) (rv : Int) : SerialM (Option CmdRsp) :=
  if level = 2 ∧ resp 0 = 0 then
    if rv - 9 < 0 then throw .badCopy else return some ⟨resp 7, slice resp 8 (rv - 9).toNat⟩
  else if rv - 1 < 0 then throw .badCopy
  else return some ⟨resp 0, slice resp 1 (rv - 1).toNat⟩

/-- The check of the size, for a bridged request whose first response has been a success. -/
def bridgedRsp (level : Nat) (resp : Nat → UInt8) (rv : Int) : SerialM (Option CmdRsp) :=
  if resp 0 = 0 ∧ level = 2 ∧ rv < 8 then return none else fillRsp level resp rv

/-- The loop of `serial_bm_send_request`, with so many tries left. -/
def sendTries (intf : Intf) (req : IpmiRq) : Nat → SerialM (Option CmdRsp)
  | 0 => return none
  | retry + 1 => do
    let seq ← serialBmAllocSeq
    match serialBmBuildMsg intf req serialBmMaxMsgSize seq with
    | none => throw .noLength
    | some built =>
      serialBmFlush
      writeMsg built.msg
      match ← serialBmWaitResponse built.ctx₀ with
      | .error => return none
      | .timeout => sendTries intf req retry
      | .payload p =>
        let s ← get
        if built.bridgingLevel ≠ 0 ∧ byteAt s p 0 = 0 then
          if intf.isSystem then
            match ← serialBmGetMessage built.ctx₁ with
            | .error => return none
            | .timeout => sendTries intf req retry
            | .payload p' => bridgedRsp built.bridgingLevel (byteAt s p') p'.length
          else if p.length = 1 then
            match ← serialBmWaitResponse built.ctx₁ with
            | .error => return none
            | .timeout => sendTries intf req retry
            | .payload p' => bridgedRsp built.bridgingLevel (byteAt s p') p'.length
          else bridgedRsp built.bridgingLevel (fun i => byteAt s p (7 + i)) ((p.length : Int) - 8)
        else fillRsp built.bridgingLevel (byteAt s p) p.length

/-- A call on an open port, with an empty receive context. -/
def serialBmSendRequest (intf : Intf) (req : IpmiRq) (retry : Nat) (buffer : Nat → UInt8) :
    SerialM (Option CmdRsp) := do
  modify fun s => { s with recv := .start buffer }
  sendTries intf req retry

/-! ### Checksums -/

theorem foldl_add (d : List UInt8) : ∀ a : UInt8, d.foldl (· + ·) a = a + d.foldl (· + ·) 0 := by
  induction d with
  | nil => exact fun a => (UInt8.add_zero a).symm
  | cons x rest ih =>
    intro a
    rw [List.foldl_cons, List.foldl_cons, ih, ih (0 + x), UInt8.zero_add, UInt8.add_assoc]

theorem ipmiCsum_append (x y : List UInt8) : ipmiCsum (x ++ y) = ipmiCsum x + ipmiCsum y := by
  unfold ipmiCsum
  rw [List.foldl_append, foldl_add, UInt8.neg_add, UInt8.sub_eq_add_neg]

theorem ipmiCsum_withCsum (d : List UInt8) : ipmiCsum (withCsum d) = 0 := by
  have hlast : ipmiCsum [ipmiCsum d] = -ipmiCsum d := by
    show -(0 + ipmiCsum d) = _
    rw [UInt8.zero_add]
  rw [withCsum, ipmiCsum_append, hlast]
  exact UInt8.add_right_neg _

/-- An IPMB message; both of its checksums are over everything before them. -/
def ipmbMessage (c : RequestCtx) (payload : List UInt8) : List UInt8 :=
  withCsum [c.rsSA, c.netFn] ++ withCsum ([c.rqSA, c.rqSeq, c.cmd] ++ payload)

theorem ipmiCsum_ipmbMessage (c : RequestCtx) (payload : List UInt8) : ipmiCsum (ipmbMessage c payload) = 0 := by
  rw [ipmbMessage, ipmiCsum_append, ipmiCsum_withCsum, ipmiCsum_withCsum]
  rfl

theorem length_ipmbMessage (c : RequestCtx) (payload : List UInt8) :
    (ipmbMessage c payload).length = payload.length + 7 := by
  simp only [ipmbMessage, withCsum, List.length_append, List.length_cons, List.length_nil]
  omega

/-- The checksum over the address and the function is the negated sum that the code writes. -/
theorem ipmbMessage_eq (c : RequestCtx) (payload : List UInt8) :
    ipmbMessage c payload = c.header ++ payload ++ [ipmiCsum ([c.rqSA, c.rqSeq, c.cmd] ++ payload)] := by
  have hfirst : ipmiCsum [c.rsSA, c.netFn] = -(c.rsSA + c.netFn) := by
    show -(0 + c.rsSA + c.netFn) = _
    rw [UInt8.zero_add]
  rw [ipmbMessage, withCsum, withCsum, hfirst]
  simp [RequestCtx.header]

/-- Around a whole message, the sum of the first four bytes is the sum of all. -/
theorem ipmbMessage_around (c : RequestCtx) (channel : UInt8) {inner : List UInt8} (hinner : ipmiCsum inner = 0) :
    ipmbMessage c (channel :: inner) =
      c.header ++ channel :: inner ++ [ipmiCsum [c.rqSA, c.rqSeq, c.cmd, channel]] := by
  have hsum : ipmiCsum ([c.rqSA, c.rqSeq, c.cmd] ++ channel :: inner) =
      ipmiCsum [c.rqSA, c.rqSeq, c.cmd, channel] := by
    have happend := ipmiCsum_append [c.rqSA, c.rqSeq, c.cmd, channel] inner
    rwa [hinner, UInt8.add_zero] at happend
  rw [ipmbMessage_eq, hsum]

theorem bridgingLevel_cases (intf : Intf) :
    ipmiIntfGetBridgingLevel intf = 0 ∨ ipmiIntfGetBridgingLevel intf = 1 ∨
      ipmiIntfGetBridgingLevel intf = 2 := by
  unfold ipmiIntfGetBridgingLevel
  split
  · split
    · exact .inr (.inr rfl)
    · exact .inr (.inl rfl)
  · exact .inl rfl

/-- The request in its layers. -/
def nestedRequest (intf : Intf) (req : IpmiRq) (seq : UInt8) : List UInt8 :=
  let inner := innerRq intf req seq
  match ipmiIntfGetBridgingLevel intf with
  | 0 => ipmbMessage (directHdr req seq) req.data
  | 1 =>
    let inner := inner.forSystem intf.isSystem
    ipmbMessage (sendMessageHdr seq) (inner.channel :: ipmbMessage inner.msg req.data)
  | _ =>
    let outer := (outerRq intf seq).forSystem intf.isSystem
    ipmbMessage (sendMessageHdr seq)
      (outer.channel :: ipmbMessage outer.msg (inner.channel :: ipmbMessage inner.msg req.data))

/-- Each layer has its checksums over all of its bytes, although an outer one is summed up over four bytes only. -/
theorem buildMsg_nested (intf : Intf) (req : IpmiRq) (seq : UInt8) :
    (buildMsg intf req seq).msg = nestedRequest intf req seq := by
  rcases bridgingLevel_cases intf with h | h | h
  · simp only [buildMsg, nestedRequest, h, if_true, ipmbMessage_eq]
  · have hinner := ipmiCsum_ipmbMessage ((innerRq intf req seq).forSystem intf.isSystem).msg req.data
    simp only [buildMsg, nestedRequest, h, ipmbMessage_around _ _ hinner]
    simp [ipmbMessage_eq, SendMessageRq.bytes]
  · have hinner := ipmiCsum_ipmbMessage (innerRq intf req seq).msg req.data
    have houter := ipmiCsum_ipmbMessage ((outerRq intf seq).forSystem intf.isSystem).msg
      ((innerRq intf req seq).channel :: ipmbMessage (innerRq intf req seq).msg req.data)
    simp only [buildMsg, nestedRequest, h, ipmbMessage_around _ _ houter]
    rw [ipmbMessage_around _ _ hinner]
    simp [ipmbMessage_eq, SendMessageRq.bytes]

theorem length_nestedRequest (intf : Intf) (req : IpmiRq) (seq : UInt8) :
    (nestedRequest intf req seq).length = req.data.length + 7 + ipmiIntfGetBridgingLevel intf * 8 := by
  rcases bridgingLevel_cases intf with h | h | h
  · simp [nestedRequest, h, length_ipmbMessage]
  · simp [nestedRequest, h, length_ipmbMessage]
  · simp [nestedRequest, h, length_ipmbMessage]

/-- **A message that is built** is well formed in each of its layers and stays in its buffer. -/
theorem serialBmBuildMsg_wellFormed {intf : Intf} {req : IpmiRq} {maxLen : Nat} {seq : UInt8} {built : BuiltMsg}
    (h : serialBmBuildMsg intf req maxLen seq = some built) :
    built.msg = nestedRequest intf req (seq <<< 2) ∧ built.msg.length ≤ maxLen := by
  unfold serialBmBuildMsg at h
  split at h
  · cases h
  · rename_i hfits
    obtain rfl := Option.some.inj h
    refine ⟨buildMsg_nested intf req (seq <<< 2), ?_⟩
    rw [buildMsg_nested, length_nestedRequest]
    exact Nat.not_lt.1 hfits

/-- A request to a target behind the BMC. -/
def bridgedIntf : Intf := ⟨0x20, 0x24, 0, 0, 0, false⟩

def deviceIdRq : IpmiRq := ⟨0x06, 0, 0x01, []⟩

theorem serialBmBuildMsg_wellFormed_bridged :
    (buildMsg bridgedIntf deviceIdRq ((1 : UInt8) <<< 2)).msg = nestedRequest bridgedIntf deviceIdRq ((1 : UInt8) <<< 2) ∧
      (buildMsg bridgedIntf deviceIdRq ((1 : UInt8) <<< 2)).msg.length ≤ serialBmMaxMsgSize :=
  @serialBmBuildMsg_wellFormed bridgedIntf deviceIdRq serialBmMaxMsgSize 1 _ rfl

end KTools.Serial.BasicMode
