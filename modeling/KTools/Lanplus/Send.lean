import KTools.Lib.Keeps
import KTools.Lanplus.Build

/-!
# Sending a payload and waiting for its reply

`ipmi_lanplus_send_payload` for IPMI requests and the messages of the handshake: it transmits the message,
remembers an IPMI request in the list of pending requests, polls for a reply, and transmits again when the
time is up. The state of an interface between and during the calls is a `Link`; what the environment
decides in one turn of the loop is an `Attempt`.

The list of pending requests outlives a call. An entry is only read through the pointer that `add_entry`
returned; once the receive path has freed it, that read gives whatever lies there (`freedKey`).

A run also notes, for each datagram it polls, the call it was polled in, and for each response it returns
the transmissions of the call (`Ledger`); no step reads these notes. `intf->opened` is set: the calls that
`intf->open` makes are calls of their own.
-/

namespace KTools.Lanplus
open KTools.Lib KTools.Lib.Bytes

/-! ### Interface and environment -/

/-- A sequence number and a command. -/
abbrev RqKey := UInt8 × UInt8

/-- A payload to send, of the types that are answered. -/
inductive Request where
  | ipmi (request : IpmiRq)
  | openSession (request : List UInt8)
  | rakp1 (message : List UInt8)
  | rakp3 (message : List UInt8)
  deriving DecidableEq

/-- A datagram, or a timeout, that `ipmi_lan_poll_single` is called on. `first` is the number of the first
entry that the call allocates. -/
structure Polled where
  request : Option Request
  first : Nat
  v2 : V2Data
  rx : RxState
  arrival : Arrival

/-- A response that a call returns. `keys` are the sequence numbers and commands of its transmissions. -/
structure Returned where
  request : Request
  keys : List RqKey
  rsp : IpmiRs

/-- The notes of a run. -/
structure Ledger where
  request : Option Request
  first : Nat
  keys : List RqKey
  polled : List Polled
  returned : List Returned

/-- The state that the calls on an interface share: the interface, the static response with the pending
requests, the static `curr_seq`, the number of entries allocated, `session->timeout` in seconds, the
packets still to come, and the packets handed to `send`. -/
structure Link where
  intf : Intf
  noanswer : Bool
  rx : RxState
  currSeq : UInt8
  allocs : Nat
  timeout : Nat
  arrivals : List Arrival
  sent : List (List UInt8)
  ledger : Ledger

/-- What is not part of the interface: OpenSSL, and the memory behind a `malloc`ed block. -/
structure World where
  crypto : Crypto
  heap : Nat → UInt8

/-- What one turn of the loop meets: the random bytes of an IV, whether `malloc` gives the entry and the
v1.5 message, whether `send` succeeds, the seconds since the last transmission, and what is read from an
entry that has been freed. -/
structure Attempt where
  iv : List UInt8
  entryAllocated : Bool
  msgAllocated : Bool
  sendOk : Bool
  elapsed : Int
  freedKey : RqKey

abbrev Tx := EStateM Abort Link

def Link.env (w : World) (l : Link) : RxEnv := { crypto := w.crypto, v2 := l.intf.v2, heap := w.heap }

def modifyLedger (f : Ledger → Ledger) : Tx PUnit := modify fun l => { l with ledger := f l.ledger }

/-! ### The pending request of a transmission -/

/-- `curr_seq` has 6 bits. -/
def nextCurrSeq (isRetry : Bool) (currSeq : UInt8) : UInt8 :=
  let next := if isRetry then currSeq else currSeq + 1
  if 64 ≤ next then 0 else next

def Intf.bridged (intf : Intf) : Bool := intf.targetAddr != intf.myAddr && intf.bridgePossible

def Intf.bridgingLevel (intf : Intf) : Nat :=
  if intf.transitAddr ≠ 0 ∧ intf.transitAddr ≠ intf.myAddr then 2 else 1

/-- The entry of a request. The target command of an unbridged one is not read. -/
def newEntry (alloc : Nat) (req : IpmiRq) (seq : UInt8) : RqEntry where
  alloc := alloc
  msg := { cmd := req.cmd, targetCmd := 0 }
  rqSeq := seq
  bridgingLevel := 0

/-- The entry of a bridged request waits for the response to Send Message first. -/
def bridgedEntry (intf : Intf) (alloc : Nat) (req : IpmiRq) (seq : UInt8) : RqEntry where
  alloc := alloc
  msg := { cmd := sendMessageCmd, targetCmd := req.cmd }
  rqSeq := seq
  bridgingLevel := intf.bridgingLevel

/-- `ipmi_req_add_entry`, and the number of the entry. -/
def ipmiReqAddEntry (entry : Nat → RqEntry) : Tx Nat := do
  let l ← get
  modify fun l =>
    { l with
      rx := { l.rx with entries := l.rx.entries ++ [entry l.allocs] }
      allocs := l.allocs + 1 }
  return l.allocs

/-- The sequence number and the command that are read through the pointer to an entry. -/
def entryKey (entries : List RqEntry) (alloc : Nat) (freedKey : RqKey) : RqKey :=
  match entries.find? fun e => e.alloc == alloc with
  | some e => (e.rqSeq, e.msg.cmd)
  | none => freedKey

/-! ### Building and sending -/

def getChannelAuthCapCmd : UInt8 := 0x38

/-- The command that is sent before there is a session, in the v1.5 format. -/
def sendsV15 (intf : Intf) (req : IpmiRq) : Bool :=
  req.netfn == netfnApp && req.cmd == getChannelAuthCapCmd && intf.v2.bmcId == 0

/-- The message of `ipmi_lanplus_build_v15_ipmi_cmd`. -/
def v15Message (outSeq : UInt32) (req : IpmiRq) : List UInt8 :=
  rmcpHeader ++ [(0 : UInt8)] ++ le32 outSeq ++ le32 0 ++ [UInt8.ofNat (req.data.length + 7)] ++
    withCsum [bmcSlaveAddr, req.netfn <<< 2] ++ withCsum ([remoteSwid, 0, req.cmd] ++ req.data)

/-- The keys that a response to the transmission can have. -/
def noteKeys (keys : List RqKey) : Tx PUnit := modifyLedger fun g => { g with keys := g.keys ++ keys }

/-- The entry and the message; `none` is NULL. -/
def ipmiLanplusBuildV15IpmiCmd (req : IpmiRq) (a : Attempt) : Tx (Option (Nat × List UInt8)) := do
  if !a.entryAllocated then return none
  else
    noteKeys [(0, req.cmd)]
    let entry ← ipmiReqAddEntry fun alloc => newEntry alloc req 0
    if !a.msgAllocated then return none
    else
      let l ← get
      return some (entry, v15Message l.intf.outSeq req)

/-- `ipmi_lanplus_build_v2x_msg` on the interface; a failed assertion ends the run. -/
def buildV2xMsg (w : World) (payload : V2Payload) (iv : List UInt8) (currSeq : UInt8) :
    Tx (List UInt8) := do
  let l ← get
  match ipmiLanplusBuildV2xMsg w.crypto l.intf payload iv currSeq with
  | none => throw .assertion
  | some (msg, intf) =>
    modify fun l => { l with intf := intf }
    return msg

def ipmiLanplusBuildV2xIpmiCmd (w : World) (req : IpmiRq) (isRetry : Bool) (a : Attempt) :
    Tx (Option (Nat × List UInt8)) := do
  modify fun l => { l with currSeq := nextCurrSeq isRetry l.currSeq }
  let l ← get
  let seq := l.currSeq
  if !a.entryAllocated then return none
  else
    noteKeys (if l.intf.bridged then [(seq, req.cmd), (seq, sendMessageCmd)] else [(seq, req.cmd)])
    let entry ← ipmiReqAddEntry fun alloc =>
      if l.intf.bridged then bridgedEntry l.intf alloc req seq else newEntry alloc req seq
    let msg ← buildV2xMsg w (.ipmiRequest req seq) a.iv seq
    return some (entry, msg)

/-- `false` is a negative result of `send`. -/
def ipmiLanSendPacket (msg : List UInt8) (a : Attempt) : Tx Bool := do
  modify fun l => { l with sent := l.sent ++ [msg] }
  return a.sendOk

/-! ### Waiting for a reply -/

def setArrivals (arrivals : List Arrival) : Tx PUnit := modify fun l => { l with arrivals := arrivals }

def notePolled (a : Arrival) : Tx PUnit := modify fun l =>
  { l with
    ledger := { l.ledger with
      polled := l.ledger.polled ++ [⟨l.ledger.request, l.ledger.first, l.intf.v2, l.rx, a⟩] } }

/-- A part of the receive path on the state it works on. -/
def receive {α : Type} (w : World) (m : RxEnv → Rx α) : Tx α := fun l =>
  match m (l.env w) l.rx with
  | .ok a rx => .ok a { l with rx := rx }
  | .error e rx => .error e { l with rx := rx }

def pollSingle (w : World) (a : Arrival) : Tx Poll := do
  notePolled a
  receive w fun e => ipmiLanPollSingle e a

/-- A datagram is noted, and the receive path has left `rx`. -/
def Link.afterPoll (l : Link) (a : Arrival) (rx : RxState) : Link :=
  { l with
    rx := rx
    ledger := { l.ledger with
      polled := l.ledger.polled ++ [⟨l.ledger.request, l.ledger.first, l.intf.v2, l.rx, a⟩] } }

theorem pollSingle_link (w : World) (a : Arrival) (l : Link) :
    pollSingle w a l = match ipmiLanPollSingle (l.env w) a l.rx with
      | .ok p rx => .ok p (l.afterPoll a rx)
      | .error e rx => .error e (l.afterPoll a rx) := by
  show receive w (fun e => ipmiLanPollSingle e a) (l.afterPoll a l.rx) = _
  have hrun : ipmiLanPollSingle ((l.afterPoll a l.rx).env w) a (l.afterPoll a l.rx).rx =
      ipmiLanPollSingle (l.env w) a l.rx := rfl
  unfold receive
  simp only [hrun]
  cases ipmiLanPollSingle (l.env w) a l.rx with
  | ok p rx => rfl
  | error e rx => rfl

/-- `ipmi_lan_poll_recv` on the packets to come. -/
def pollRecvFrom (w : World) : List Arrival → Tx Bool
  | [] => return false
  | a :: rest => do
    setArrivals rest
    match ← pollSingle w a with
    | .null => return false
    | .rsp => return true
    | .again => pollRecvFrom w rest

def pollRecv (w : World) : Tx Bool := do
  let l ← get
  pollRecvFrom w l.arrivals

/-- The completion code "duplicate request". -/
def duplicateRequest : UInt8 := 0xcf

/-- `ipmi_lan_poll_recv`, and again as long as the response has the completion code 0xcf: both loops go
on with the next packet. -/
def pollReplyFrom (w : World) : List Arrival → Tx Bool
  | [] => return false
  | a :: rest => do
    setArrivals rest
    match ← pollSingle w a with
    | .null => return false
    | .again => pollReplyFrom w rest
    | .rsp =>
      let l ← get
      if l.rx.rsp.ccode = duplicateRequest then pollReplyFrom w rest else return true

def pollReply (w : World) : Tx Bool := do
  let l ← get
  pollReplyFrom w l.arrivals

/-- The loop around `ipmi_lan_poll_recv`, as the source has it. -/
theorem pollReplyFrom_eq (w : World) (arrivals : List Arrival) : ∀ l : Link, l.arrivals = arrivals →
    pollReplyFrom w arrivals l = (do
      if ← pollRecvFrom w arrivals then
        let l ← get
        if l.rx.rsp.ccode = duplicateRequest then pollReplyFrom w l.arrivals else return true
      else return false : Tx Bool) l := by
  induction arrivals with
  | nil => exact fun _ _ => rfl
  | cons a rest ih =>
    intro l _
    have hlink := pollSingle_link w a { l with arrivals := rest }
    simp only [pollReplyFrom, pollRecvFrom, bind_assoc]
    show (pollSingle w a >>= _) { l with arrivals := rest } = (pollSingle w a >>= _) { l with arrivals := rest }
    cases hrun : ipmiLanPollSingle (Link.env w { l with arrivals := rest }) a l.rx with
    | error e rx =>
      simp only [hrun] at hlink
      simp only [Bind.bind, EStateM.bind, hlink]
    | ok p rx =>
      simp only [hrun] at hlink
      rw [bind_ok hlink, bind_ok hlink]
      cases p with
      | null => rfl
      | rsp => rfl
      | again => exact ih _ rfl

/-! ### `ipmi_lanplus_send_payload` -/

/-- How the loop ends: `return NULL` inside it, or behind it with `rsp` NULL or not. -/
inductive LoopEnd where
  | returnNull
  | leave (rsp : Bool)
  deriving DecidableEq

/-- The entry and the message of a request, in the format of its transmission. -/
def buildIpmiCmd (w : World) (req : IpmiRq) (isRetry : Bool) (a : Attempt) :
    Tx (Option (Nat × List UInt8)) := do
  let l ← get
  if sendsV15 l.intf req then ipmiLanplusBuildV15IpmiCmd req a
  else ipmiLanplusBuildV2xIpmiCmd w req isRetry a

/-- A transmission of an IPMI request: the number of its entry, or NULL is returned. -/
def transmitIpmi (w : World) (req : IpmiRq) (isRetry : Bool) (a : Attempt) : Tx (Option Nat) := do
  match ← buildIpmiCmd w req isRetry a with
  | none => return none
  | some (entry, msg) =>
    if ← ipmiLanSendPacket msg a then return some entry else return none

/-- The entry of a turn: of the last transmission, if the turn does not transmit again. -/
def turnEntry (w : World) (req : IpmiRq) (isRetry : Bool) (a : Attempt) : Option Nat → Tx (Option Nat)
  | some entry => return some entry
  | none => transmitIpmi w req isRetry a

/-- The loop for an IPMI request with the turns that are left; `sent` is the entry of the last
transmission, if `xmit` is 0. -/
def ipmiTurns (w : World) (req : IpmiRq) : (isRetry : Bool) → (sent : Option Nat) → List Attempt → Tx LoopEnd
  | _, _, [] => return .leave false
  | isRetry, sent, a :: rest => do
    match ← turnEntry w req isRetry a sent with
    | none => return .returnNull
    | some entry => do
      let l ← get
      if l.noanswer then return .leave false
      else
        if ← pollReply w then return .leave true
        else
          modify fun l =>
            let key := entryKey l.rx.entries entry a.freedKey
            { l with rx := { l.rx with entries := ipmiReqRemoveEntry key.1 key.2 l.rx.entries } }
          let l ← get
          if (l.timeout : Int) ≤ a.elapsed then do
            modify fun l => { l with timeout := l.timeout + 1 }
            ipmiTurns w req true none rest
          else ipmiTurns w req true (some entry) rest

/-- The states in which a message of the handshake may be sent, and the state after it. -/
def mayOpenSession (state : LanplusState) : Bool := state == .presession || state == .openSessionSent

def setSessionState (state : LanplusState) : Tx PUnit := modify fun l =>
  { l with intf := { l.intf with v2 := { l.intf.v2 with sessionState := state } } }

/-- The loop for a message of the handshake. It is not sent again: `try` is set to the last turn, and
`session->timeout`, whatever the turn adds to it, is restored behind the loop. -/
def handshakeTurn (w : World) (payload : V2Payload) (may : LanplusState → Bool) (sentState : LanplusState) :
    List Attempt → Tx LoopEnd
  | [] => return .leave false
  | a :: _ => do
    let l ← get
    if !may l.intf.v2.sessionState then throw .assertion
    else
      let msg ← buildV2xMsg w payload a.iv 0
      if !(← ipmiLanSendPacket msg a) then return .returnNull
      else if l.noanswer then return .leave false
      else
        setSessionState sentState
        return .leave (← pollReply w)

/-- The loop by the type of the payload. -/
def sendTurns (w : World) (attempts : List Attempt) : Request → Tx LoopEnd
  | .ipmi req => ipmiTurns w req false none attempts
  | .openSession request => handshakeTurn w (.openSessionRequest request) mayOpenSession .openSessionSent attempts
  | .rakp1 message => handshakeTurn w (.rakp1Message message) (· == .openSessionReceived) .rakp1Sent attempts
  | .rakp3 message => handshakeTurn w (.rakp3Message message) (· == .rakp2Received) .rakp3Sent attempts

def noteCall (request : Request) : Tx PUnit := modify fun l =>
  { l with ledger := { l.ledger with request := some request, first := l.allocs, keys := [] } }

def noteReturn : Tx PUnit := modifyLedger fun g => { g with request := none }

def noteReturned (request : Request) : Tx PUnit := modify fun l =>
  { l with
    ledger := { l.ledger with returned := l.ledger.returned ++ [⟨request, l.ledger.keys, l.rx.rsp⟩] } }

/-- `ipmi_lanplus_send_payload` with one attempt for each of the `intf->ssn_params.retry` turns. `true` is
the response, which is then in `l.rx.rsp`. -/
def ipmiLanplusSendPayload (w : World) (request : Request) (attempts : List Attempt) : Tx Bool := do
  noteCall request
  let l ← get
  let savedTimeout := l.timeout
  match ← sendTurns w attempts request with
  | .returnNull =>
    noteReturn
    return false
  | .leave rsp => do
    modify fun l => { l with timeout := savedTimeout }
    if rsp then noteReturned request
    noteReturn
    return rsp

/-! ### Runs -/

/-- What happens on an interface: a call, a packet polled outside the calls (`recv_sol`), a change of the
interface by the caller, and the list of pending requests emptied. -/
inductive Step where
  | call (request : Request) (attempts : List Attempt)
  | poll
  | setIntf (intf : Intf) (noanswer : Bool)
  | clearEntries

def Step.run (w : World) : Step → Tx PUnit
  | .call request attempts => do
    let _ ← ipmiLanplusSendPayload w request attempts
  | .poll => do
    let _ ← pollRecv w
  | .setIntf intf noanswer => modify fun l => { l with intf := intf, noanswer := noanswer }
  | .clearEntries => modify fun l => { l with rx := { l.rx with entries := [] } }

def runSteps (w : World) : List Step → Tx PUnit
  | [] => return ⟨⟩
  | step :: rest => do
    step.run w
    runSteps w rest

end KTools.Lanplus
