import KTools.Lib.Triple
import KTools.Lan.Build
import KTools.Lanplus.Bounds
import KTools.Lanplus.Send

/-!
# Requests in a v1.5 session

`ipmi_lan_send_cmd` puts an entry for its request into the list of pending requests, sends it, and waits for a
response that matches an entry; a request that is not answered is sent again under the same sequence number. When
it returns it clears the list, so that a late response to this request is not taken for one to the next
(the comment at its end says why).

A response to Send Message either ends the wait for the layer, or holds the response to the inner request: the
packet is then rewritten in place and looked at again.

What the environment decides in a turn is an `Attempt`; what comes in is the list `arrivals`. `intf->opened` is
set, and no OEM type that sends packets of its own.
-/

namespace KTools.Lan
open KTools.Lib KTools.Lib.Bytes KTools.Lanplus

/-- What `select` and `recv` give: nothing in time, or an error of `select`; an error of `recv`; a datagram. -/
inductive Arrival where
  | silence
  | refused
  | datagram (bytes : List UInt8)
  deriving DecidableEq

/-- Whether `malloc` gives the entry and the message, and whether `send` succeeds. -/
structure Attempt where
  entryAllocated : Bool
  msgAllocated : Bool
  sendOk : Bool
  deriving DecidableEq

/-- What a call returns: a pong, or a packet of class IPMI. The caller does not see which. -/
inductive Answer where
  | pong
  | packet
  deriving DecidableEq

/-- A response that a call has returned, with the sequence number of the call. -/
structure Returned where
  request : IpmiRq
  bridged : Bool
  seq : UInt8
  answer : Answer
  rsp : IpmiRs

/-- The interface with its session, the static response, the pending requests, the static `curr_seq`, the number
of entries allocated, the packets to come and those handed to `send`; and, as a note that no step reads, the
responses that have been returned. -/
structure Link where
  intf : Intf
  session : Session
  noanswer : Bool
  rsp : IpmiRs
  entries : List RqEntry
  currSeq : UInt8
  allocs : Nat
  arrivals : List Arrival
  sent : List (List UInt8)
  returned : List Returned

/-- Why a call does not come to its end: `memmove` with a negative length, a loop without an end, or a call that
has not returned when the attempts are over. -/
inductive Stop where
  | fault
  | endless
  | unfinished
  deriving DecidableEq

abbrev LanM := EStateM Stop Link

def modifyRsp (f : IpmiRs → IpmiRs) : LanM PUnit := modify fun l => { l with rsp := f l.rsp }

def modifyEntries (f : List RqEntry → List RqEntry) : LanM PUnit := modify fun l => { l with entries := f l.entries }

/-! ### `ipmi_lan_recv_packet` -/

def takeArrival : LanM Arrival := do
  let l ← get
  match l.arrivals with
  | [] => return .silence
  | a :: rest =>
    set { l with arrivals := rest }
    return a

def storePacket (bytes : List UInt8) : LanM Bool := do
  let got := bytes.take ipmiBufSize
  if got = [] then return false
  else
    modifyRsp fun r => { r with data := store (store r.data 0 got) got.length [0], dataLen := got.length }
    return true

/-- `false` is NULL. After an error of `recv` there is a second `select`. -/
def ipmiLanRecvPacket : LanM Bool := do
  match ← takeArrival with
  | .silence => return false
  | .datagram bytes => storePacket bytes
  | .refused =>
    match ← takeArrival with
    | .datagram bytes => storePacket bytes
    | _ => return false

/-! ### `ipmi_lan_poll_recv` -/

/-- How a turn of the loop ends: with NULL, with a pong, with the next packet, with the packet (or what has come
instead) to be looked at again, or behind the loop, with the offset `x`. -/
inductive Turn where
  | null
  | pong
  | next
  | again
  | last (x : Nat)
  deriving DecidableEq

/-- The SOL session id differs from the session id in its most significant byte. -/
def Session.solId (s : Session) : UInt32 := s.sessionId + 0x10000000

/-- `x` behind the session header. -/
def Session.msgOffset (s : Session) (authtype : UInt8) : Nat :=
  if s.active = true ∧ (authtype ≠ 0 ∨ s.authtype ≠ 0) then 29 else 13

def readSessionHeader : LanM PUnit := modifyRsp fun r =>
  { r with
    session := { r.session with authtype := r.data 4, seq := ipmi32toh r.data 5, id := ipmi32toh r.data 9 } }

/-- The SOL header at 14, with one more byte behind it. -/
def readSolPacket : LanM Turn := do
  modifyRsp fun r =>
    { r with
      session := { r.session with payloadtype := payloadTypeSol, msglen := (r.data 13).toNat }
      payload := .solPacket (solPacketAt r.data 14) }
  return .last 19

/-- The IPMI response behind its length at `x`. -/
def readIpmiResponse (x : Nat) : LanM PUnit := modifyRsp fun r =>
  { r with
    session := { r.session with payloadtype := payloadTypeIpmi, msglen := (r.data x).toNat }
    payload := .ipmiResponse (ipmiResponseAt r.data (x + 1))
    ccode := r.data (x + 7) }

/-- The packet that comes behind a success. -/
def recvInner : LanM Bool := do
  let l ← get
  if l.rsp.ccode = 0 then ipmiLanRecvPacket else return false

/-- A response to Send Message that has nothing behind its completion code. -/
def layerAnswered (r : IpmiResponse) (entry : RqEntry) : LanM Turn := do
  modifyEntries (updateEntry r.rqSeq r.cmd RqEntry.decrementBridging)
  if ← recvInner then return .again
  else
    modifyEntries (ipmiReqRemoveEntry r.rqSeq entry.decrementBridging.msg.cmd)
    return .null

/-- The packet without the layer whose data begin at `x`. -/
def withoutLayer (rsp : IpmiRs) (x : Nat) : IpmiRs :=
  let data := store rsp.data (x - 7) (slice rsp.data x (rsp.dataLen - x - 1))
  { rsp with data := store data (x - 8) [data (x - 8) - 8], dataLen := rsp.dataLen - 8 }

/-- A response to Send Message that holds the response to the inner request. -/
def layerTakenOff (r : IpmiResponse) (x : Nat) : LanM Turn := do
  modifyRsp fun rsp => withoutLayer rsp x
  let l ← get
  let seq := l.rsp.data (x - 3) >>> 2
  modifyEntries (updateEntry r.rqSeq r.cmd fun e => { e.decrementBridging with rqSeq := seq })
  return .again

/-- The response ends a layer of bridging. -/
def endsLayer (intf : Intf) (entry : RqEntry) (r : IpmiResponse) : Bool :=
  !intf.unbridged && entry.bridgingLevel != 0 && r.netfn == 7 && r.cmd == sendMessageCmd

/-- A response with its data at `x`, and the entry that it matches. -/
def matchedResponse (x : Nat) (r : IpmiResponse) (entry : RqEntry) : LanM Turn := do
  let l ← get
  if endsLayer l.intf entry r then
    if l.rsp.dataLen = x + 1 then layerAnswered r entry
    -- the length of the rest is negative
    else if l.rsp.dataLen < x + 1 then throw .fault
    else layerTakenOff r x
  else
    modifyEntries (ipmiReqRemoveEntry r.rqSeq r.cmd)
    return .last x

def matchResponse (x : Nat) : LanM Turn := do
  let l ← get
  let r := ipmiResponseAt l.rsp.data (x - 7)
  match ipmiReqLookupEntry r.rqSeq r.cmd l.entries with
  | none => return .next
  | some entry => matchedResponse x r entry

/-- A packet of class IPMI. -/
def handleIpmiClass : LanM Turn := do
  readSessionHeader
  let l ← get
  if l.rsp.session.id = l.session.solId then readSolPacket
  else
    let x := l.session.msgOffset l.rsp.session.authtype
    readIpmiResponse x
    matchResponse (x + 8)

def handlePacket : LanM Turn := do
  let l ← get
  if l.rsp.data offsetRmcpClass = rmcpClassAsf then
    return if l.rsp.data offsetSupEntities &&& 0x80 ≠ 0 then .pong else .null
  else if l.rsp.data offsetRmcpClass = rmcpClassIpmi then handleIpmiClass
  else return .next

/-- The data behind `x` without the checksum, and zeros behind them. -/
def shiftData (x : Nat) : LanM PUnit := modifyRsp fun r =>
  if x < r.dataLen then
    let len := if r.session.payloadtype = payloadTypeIpmi then r.dataLen - x - 1 else r.dataLen - x
    let data := store r.data 0 (slice r.data x len)
    { r with data := store data len (List.replicate (ipmiBufSize - len) 0), dataLen := len }
  else r

/-- The loop, with so many turns left. `none` is NULL. -/
def pollTurns : Nat → LanM (Option Answer)
  | 0 => throw .endless
  | fuel + 1 => do
    match ← handlePacket with
    | .null => return none
    | .pong => return some .pong
    | .next => if ← ipmiLanRecvPacket then pollTurns fuel else return none
    | .again => pollTurns fuel
    | .last x =>
      shiftData x
      return some .packet

def Arrival.weight : Arrival → Nat
  | .datagram bytes => bytes.length + 1
  | _ => 1

/-- A bound on the number of turns: each takes a packet, or makes the present one shorter. -/
def Link.turns (l : Link) : Nat := l.rsp.dataLen + l.arrivals.foldr (fun a n => a.weight + n) 0 + 1

def ipmiLanPollRecv : LanM (Option Answer) := do
  if ← ipmiLanRecvPacket then
    let l ← get
    pollTurns l.turns
  else return none

/-! ### `ipmi_lan_build_cmd` -/

/-- The changes to the entry of a request, new or found in the list. -/
def builtEntry (intf : Intf) (seq : UInt8) (e : RqEntry) : RqEntry :=
  { e with
    rqSeq := seq
    bridgingLevel := intf.bridgingLevel
    msg := if intf.unbridged then e.msg else { cmd := sendMessageCmd, targetCmd := e.msg.cmd } }

/-- The entry in the list for this sequence number and command, or a new one. -/
def ipmiReqEntry (req : IpmiRq) (targetCmd seq : UInt8) (a : Attempt) : LanM (Option RqEntry) := do
  let l ← get
  match ipmiReqLookupEntry seq req.cmd l.entries with
  | some entry => return some entry
  | none =>
    if !a.entryAllocated then return none
    else
      let entry : RqEntry := ⟨l.allocs, ⟨req.cmd, targetCmd⟩, seq, 0⟩
      set { l with entries := l.entries ++ [entry], allocs := l.allocs + 1 }
      return some entry

/-- The target command of the entry and the packet; `none` is NULL. `targetCmd` is what the request of the caller
holds for it. -/
def ipmiLanBuildCmd (c : Digests) (req : IpmiRq) (targetCmd : UInt8) (isRetry : Bool) (a : Attempt) :
    LanM (Option (UInt8 × List UInt8)) := do
  modify fun l => { l with currSeq := nextCurrSeq isRetry l.currSeq }
  let l ← get
  let seq := l.currSeq
  match ← ipmiReqEntry req targetCmd seq a with
  | none => return none
  | some entry =>
    if !a.msgAllocated then return none
    else
      let l ← get
      let (_, msg) := ipmiLanBuildMsg c l.intf l.session req seq
      modifyEntries (updateEntry seq req.cmd (builtEntry l.intf seq))
      modify fun l => { l with session := { l.session with inSeq := nextInSeq l.session.inSeq } }
      return some ((builtEntry l.intf seq entry).msg.targetCmd, msg)

/-! ### `ipmi_lan_send_cmd` -/

/-- A response with the completion code 0xcf is ignored; the next one is not. -/
def pollReply : LanM (Option Answer) := do
  let answer ← ipmiLanPollRecv
  let l ← get
  if answer ≠ none ∧ l.rsp.ccode = duplicateRequest then ipmiLanPollRecv else return answer

/-- How the loop ends: `return NULL` inside it, or behind it. -/
inductive LoopEnd where
  | returnNull
  | leave (rsp : Option Answer)
  deriving DecidableEq

/-- The loop with the attempts to come. A `send` that fails counts as a try, but it does not end the loop. -/
def sendTurns (c : Digests) (req : IpmiRq) (targetCmd : UInt8) (retry : Nat) : Nat → List Attempt → LanM LoopEnd
  | _, [] => throw .unfinished
  | tries, a :: rest => do
    match ← ipmiLanBuildCmd c req targetCmd (tries ≠ 0) a with
    | none => return .returnNull
    | some (target, msg) =>
      modify fun l => { l with sent := l.sent ++ [msg] }
      if !a.sendOk then
        modify fun l => { l with entries := ipmiReqRemoveEntry l.currSeq target l.entries }
        sendTurns c req targetCmd retry (tries + 1) rest
      else
        let l ← get
        if l.noanswer then return .leave none
        else
          match ← pollReply with
          | some answer => return .leave (some answer)
          | none =>
            if retry ≤ tries + 1 then return .leave none
            else sendTurns c req targetCmd retry (tries + 1) rest

def noteReturned (req : IpmiRq) : Option Answer → LanM PUnit
  | none => return ⟨⟩
  | some answer => modify fun l =>
    { l with returned := l.returned ++ [⟨req, !l.intf.unbridged, l.currSeq, answer, l.rsp⟩] }

/-- The response is then in `rsp`. -/
def ipmiLanSendCmd (c : Digests) (req : IpmiRq) (targetCmd : UInt8) (retry : Nat) (attempts : List Attempt) :
    LanM (Option Answer) := do
  match ← sendTurns c req targetCmd retry 0 attempts with
  | .returnNull => return none
  | .leave rsp =>
    modifyEntries fun _ => []
    noteReturned req rsp
    return rsp

/-! ### Runs -/

/-- What happens on an interface: a call, a packet polled outside the calls, and a change of the interface or the
session by the caller. -/
inductive Step where
  | call (req : IpmiRq) (targetCmd : UInt8) (retry : Nat) (attempts : List Attempt)
  | poll
  | setIntf (intf : Intf) (session : Session) (noanswer : Bool)

def Step.run (c : Digests) : Step → LanM PUnit
  | .call req targetCmd retry attempts => do
    let _ ← ipmiLanSendCmd c req targetCmd retry attempts
  | .poll => do
    let _ ← ipmiLanPollRecv
  | .setIntf intf session noanswer =>
    modify fun l => { l with intf := intf, session := session, noanswer := noanswer }

def runSteps (c : Digests) : List Step → LanM PUnit
  | [] => return ⟨⟩
  | step :: rest => do
    step.run c
    runSteps c rest

/-- An interface before anything has been sent; the static response is 0. -/
def Link.start (intf : Intf) (session : Session) (noanswer : Bool) (arrivals : List Arrival) : Link where
  intf := intf
  session := session
  noanswer := noanswer
  rsp := .clear 0
  entries := []
  currSeq := 0
  allocs := 0
  arrivals := arrivals
  sent := []
  returned := []

/-- The BMC itself, and an interface without a session. -/
def directIntf : Intf := ⟨0x20, 0x20, 0, 0, 0, true⟩

def presession : Session := ⟨false, authtypeNone, 0, 0, List.replicate 16 0, List.length_replicate⟩

end KTools.Lan
