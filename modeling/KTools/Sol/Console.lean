import KTools.Lib.Keeps
import KTools.Lanplus.Send

/-!
# Serial over LAN: receiving and sending console packets

The SOL half of `lanplus.c` in an ACTIVE session: `recv_sol` acknowledges a packet and trims what has been
received before, `send_sol` sends a packet and resends what the BMC did not accept, and the keepalive handles
the console packets that come instead of its response. The input handler of the session is `output` of
`ipmi_sol.c`.

The environment gives the results of `ipmi_lan_poll_recv` (`polls`, then timeouts) and what each turn of the
loop in `ipmi_lanplus_send_payload` meets (`attempts`, then turns without an event). The responses of a run
are numbered, and the bytes of the log carry the number of their response; no step reads the numbers.
-/

namespace KTools.Sol
open KTools.Lanplus KTools.Lib.Bytes

/-- The fields of a `struct ipmi_rs` that the SOL functions read. -/
structure Rs where
  number : Nat
  authtype : UInt8
  payloadtype : UInt8
  ccode : UInt8
  solPacket : SolPacket
  data : Nat → UInt8
  dataLen : Int

/-- `intf` and the options of `ipmitool`, which a session leaves as they are. -/
structure Env where
  name : String
  fd : Nat
  opened : Bool
  noanswer : Bool
  retry : Nat
  port : Nat
  solEscapeChar : UInt8
  intelplus : Bool
  i82571spt : Bool
  disableKeepalive : Bool
  useSolForKeepalive : Bool
  isatty : Bool

/-- One turn of the loop in `ipmi_lanplus_send_payload`: whether the message is built and `send` succeeds,
and whether the timeout has passed behind it. -/
structure Attempt where
  sendOk : Bool
  timeUp : Bool

/-- The packets to come, the static variables of `lanplus.c` and `ipmi_sol.c`, and what a run leaves. -/
structure Console where
  polls : List (Option Rs)
  attempts : List Attempt
  lastReceivedSequenceNumber : UInt8
  lastReceivedByteCount : UInt8
  sequenceNumber : UInt8
  startKeepalive : Int
  escapePending : Bool
  lastWasCr : Bool
  inRawMode : Bool
  polled : Nat
  /-- The new characters of each packet that was acknowledged. -/
  received : List (Nat × List UInt8)
  /-- The file `/var/log/es_console_log.txt`. -/
  written : List (Nat × UInt8)
  sent : List SolRequest
  deactivations : List Int
  reads : List Nat
  userInputs : List (List UInt8)
  messages : List String

structure Loop where
  shouldExit : Bool
  bmcClosedSession : Bool
  keepAliveRet : Int
  retrySol : Nat
  deriving DecidableEq

/-- How a run ends without returning: `exit`, or the environment has no more turns for the loop of the red
pill. -/
inductive Stop where
  | exit (code : Nat)
  | unfinished (l : Loop)
  deriving DecidableEq

abbrev SolM := EStateM Stop Console

/-! ### SOL packets -/

def Rs.isSolPacket (rsp : Rs) : Bool := rsp.authtype == authtypeRmcpPlus && rsp.payloadtype == payloadTypeSol

def Rs.isNumbered (rsp : Rs) : Bool := rsp.isSolPacket && rsp.solPacket.packetSequenceNumber != 0

def Rs.chars (rsp : Rs) : List UInt8 := slice rsp.data 0 rsp.dataLen.toNat

/-- The SOL part of a caller's `struct ipmi_v2_payload`; `data` is its array as far as it is used. -/
structure SolPayload where
  data : List UInt8
  characterCount : Nat
  packetSequenceNumber : UInt8
  ackedPacketNumber : UInt8
  acceptedCharacterCount : UInt8
  generateBreak : Bool
  deriving DecidableEq

def SolPayload.zero : SolPayload := ⟨[], 0, 0, 0, 0, false⟩

def SolPayload.request (p : SolPayload) : SolRequest where
  data := p.data.take p.characterCount
  packetSequenceNumber := p.packetSequenceNumber
  ackedPacketNumber := p.ackedPacketNumber
  acceptedCharacterCount := p.acceptedCharacterCount
  isNack := false
  assertRingWor := false
  generateBreak := p.generateBreak
  deassertCts := false
  deassertDcdDsr := false
  flushInbound := false
  flushOutbound := false

def Rs.acksPacket (rsp : Rs) (p : SolPayload) : Bool :=
  rsp.isSolPacket && rsp.solPacket.ackedPacketNumber == p.packetSequenceNumber

/-! ### Receiving -/

def pollRecv : SolM (Option Rs) := do
  let c ← get
  match c.polls with
  | [] => return none
  | rsp :: rest =>
    set { c with polls := rest, polled := c.polled + 1 }
    return rsp.map fun rsp => { rsp with number := c.polled }

def nextAttempt : SolM Attempt := do
  let c ← get
  match c.attempts with
  | [] => return ⟨true, false⟩
  | a :: rest =>
    set { c with attempts := rest }
    return a

/-- `output` of `ipmi_sol.c`. -/
def output (rsp : Rs) : SolM PUnit :=
  if rsp.isSolPacket then
    modify fun c => { c with written := c.written ++ rsp.chars.map fun ch => (rsp.number, ch) }
  else return ⟨⟩

def outputNew (rsp : Rs) : SolM PUnit := if rsp.dataLen ≠ 0 then output rsp else return ⟨⟩

def ackOf (rsp : Rs) : SolPayload :=
  { SolPayload.zero with
    ackedPacketNumber := rsp.solPacket.packetSequenceNumber
    acceptedCharacterCount := UInt8.ofInt rsp.dataLen }

def transmit (p : SolPayload) : SolM PUnit := modify fun c => { c with sent := c.sent ++ [p.request] }

/-- `ipmi_lanplus_send_payload` for a packet with the sequence number 0, whose result is not used: it is
transmitted once. -/
def sendAck (e : Env) (ack : SolPayload) : SolM PUnit :=
  if e.retry = 0 then return ⟨⟩
  else do
    let _ ← nextAttempt
    transmit ack

def ackSolPacket (e : Env) (rsp : Rs) : SolM PUnit :=
  if rsp.isNumbered then sendAck e (ackOf rsp) else return ⟨⟩

/-- The response without what the last packet with its sequence number has brought. -/
def Rs.trim (rsp : Rs) (lastReceivedByteCount : UInt8) : Rs :=
  let newDataSize := rsp.dataLen - lastReceivedByteCount.toNat
  { rsp with
    data :=
      if newDataSize > 0 then
        store rsp.data 0 (slice rsp.data (rsp.dataLen - newDataSize).toNat newDataSize.toNat)
      else rsp.data
    dataLen := newDataSize }

/-- The response with its new data; the number of new bytes, which the function returns, is not used. -/
def checkSolPacketForNewData (rsp : Rs) : SolM Rs := do
  if !rsp.isSolPacket then return rsp
  else
    let c ← get
    let seq := rsp.solPacket.packetSequenceNumber
    let unalteredDataLen := UInt8.ofInt rsp.dataLen
    if seq ≠ 0 then
      set { c with lastReceivedSequenceNumber := seq, lastReceivedByteCount := unalteredDataLen }
    return if seq = c.lastReceivedSequenceNumber then rsp.trim c.lastReceivedByteCount else rsp

def noteReceived (rsp : Rs) : SolM PUnit :=
  if rsp.isNumbered then modify fun c => { c with received := c.received ++ [(rsp.number, rsp.chars)] }
  else return ⟨⟩

def takeSolPacket (e : Env) (rsp : Rs) : SolM Rs := do
  ackSolPacket e rsp
  let rsp ← checkSolPacketForNewData rsp
  noteReceived rsp
  return rsp

/-- `ipmi_lanplus_recv_sol`. -/
def recvSol (e : Env) : SolM (Option Rs) := do
  match ← pollRecv with
  | none => return none
  | some rsp =>
    if rsp.authtype ≠ 0 then
      let rsp ← takeSolPacket e rsp
      return some rsp
    else return some rsp

/-! ### The keepalive -/

/-- `ipmi_lan_poll_recv` until the completion code is not "duplicate request", on at most `n` packets. -/
def pollReply : Nat → SolM (Option Rs)
  | 0 => return none
  | n + 1 => do
    match ← pollRecv with
    | none => return none
    | some rsp => if rsp.ccode = duplicateRequest then pollReply n else return some rsp

/-- The loop of `ipmi_lanplus_send_payload` for an IPMI request, with `n` turns left. -/
def sendrecvTurns (e : Env) : Nat → (xmit : Bool) → SolM (Option Rs)
  | 0, _ => return none
  | n + 1, xmit => do
    let a ← nextAttempt
    if xmit && !a.sendOk then return none
    else if e.noanswer then return none
    else
      let c ← get
      match ← pollReply c.polls.length with
      | some rsp => return some rsp
      | none => sendrecvTurns e n a.timeUp

def sendrecv (e : Env) : SolM (Option Rs) := sendrecvTurns e e.retry true

/-- The loop of `ipmi_lanplus_keepalive`, on at most `n` responses. -/
def keepaliveLoop (e : Env) : Nat → Rs → SolM Int
  | 0, _ => return 0
  | n + 1, rsp => do
    if rsp.isSolPacket then
      let rsp ← takeSolPacket e rsp
      outputNew rsp
      match ← pollRecv with
      | none => return 0
      | some rsp => keepaliveLoop e n rsp
    else return if rsp.ccode ≠ 0 then -1 else 0

/-- `ipmi_lanplus_keepalive`. -/
def keepalive (e : Env) : SolM Int := do
  if !e.opened then return 0
  else
    match ← sendrecv e with
    | none => return -1
    | some rsp =>
      let c ← get
      keepaliveLoop e (c.polls.length + 1) rsp

/-! ### Sending -/

/-- A turn transmits the packet, if it is the first one or the last one ran into the timeout. -/
def beginTurn (p : SolPayload) (xmit : Bool) : SolM Attempt := do
  let a ← nextAttempt
  if xmit then
    transmit p
    return a
  else return a

/-- The loop of `ipmi_lanplus_send_payload` for a SOL packet, with `n` turns left. -/
def solTurns (e : Env) (p : SolPayload) : Nat → (xmit : Bool) → (rsp : Option Rs) → SolM (Option Rs)
  | 0, _, rsp => return rsp
  | n + 1, xmit, rsp => do
    let a ← beginTurn p xmit
    if xmit && !a.sendOk then return none
    else if e.noanswer then return rsp
    else if p.packetSequenceNumber = 0 then return rsp
    else
      match ← recvSol e with
      | none => return none
      | some rsp =>
        if !rsp.isSolPacket then return some rsp
        else if rsp.acksPacket p then return some rsp
        else if rsp.dataLen ≠ 0 then
          output rsp
          return some { rsp with dataLen := 0 }
        else solTurns e p n a.timeUp (some rsp)

/-- `ipmi_lanplus_send_payload` for a SOL packet. -/
def sendPayload (e : Env) (p : SolPayload) : SolM (Option Rs) := solTurns e p e.retry true none

def isSolPartialAck (e : Env) (p : SolPayload) (rs : Rs) : Nat :=
  let accepted := rs.solPacket.acceptedCharacterCount.toNat
  if rs.isSolPacket && rs.acksPacket p && accepted < p.characterCount then
    if e.intelplus && accepted == 0 then 0 else p.characterCount - accepted
  else 0

def saneSequenceNumber (n : UInt8) : UInt8 := if n > 0x0F then 1 else n

def setSolPacketSequenceNumber (p : SolPayload) : SolM SolPayload := do
  let c ← get
  let seq := saneSequenceNumber c.sequenceNumber
  set { c with sequenceNumber := seq + 1 }
  return { p with packetSequenceNumber := seq }

/-- `memmove` of the characters to resend to the front of the array. -/
def SolPayload.rest (p : SolPayload) (accepted charsToResend : Nat) : SolPayload :=
  { p with
    data := (p.data.drop accepted).take charsToResend ++ p.data.drop charsToResend
    characterCount := charsToResend }

def resends (e : Env) (p : SolPayload) (rs : Rs) : Bool :=
  !rs.solPacket.transferUnavailable && !rs.solPacket.isNack && isSolPartialAck e p rs != 0

/-- The packet to send after `rs`, whose new data is written. -/
def prepareResend (e : Env) (p : SolPayload) (rs : Rs) : SolM SolPayload := do
  let charsToResend := isSolPartialAck e p rs
  outputNew rs
  let p ← setSolPacketSequenceNumber p
  return p.rest rs.solPacket.acceptedCharacterCount.toNat charsToResend

/-- The loop of `ipmi_lanplus_send_sol`, with at most `n` resends. -/
def resendLoop (e : Env) : Nat → SolPayload → Option Rs → SolM (Option Rs × SolPayload)
  | 0, p, rs => return (rs, p)
  | _ + 1, p, none => return (none, p)
  | n + 1, p, some rs => do
    if resends e p rs then
      let p ← prepareResend e p rs
      let rs ← sendPayload e p
      resendLoop e n p rs
    else return (some rs, p)

/-- `ipmi_lanplus_send_sol`: the response, and the payload as it leaves it. A resend follows a packet, so
there are no more of them than packets to come, and one that is not answered. -/
def sendSol (e : Env) (p : SolPayload) : SolM (Option Rs × SolPayload) := do
  let p ← setSolPacketSequenceNumber { p with ackedPacketNumber := 0, acceptedCharacterCount := 0 }
  let rs ← sendPayload e p
  let c ← get
  resendLoop e (c.polls.length + 1) p rs

end KTools.Sol
