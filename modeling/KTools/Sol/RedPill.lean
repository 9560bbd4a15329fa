import KTools.Sol.Console

/-!
# The console logger

`ipmi_sol_activate` and `ipmi_sol_red_pill` of `ipmi_sol.c`: the SOL payload is activated, and a loop sends
keepalives and waits in `select` for packets, until the session ends and the payload is deactivated. The loop
runs over a list of turns, which say what the environment does in each.

This fork no longer puts descriptor 0 in the set that `select` is called on, but still tests it first.
-/

namespace KTools.Sol
open KTools.Lanplus

/-! ### The terminal -/

/-- `leave_raw_mode`; `tcsetattr` succeeds. -/
def leaveRawMode : SolM PUnit := modify fun c => { c with inRawMode := false }

def enterRawMode (e : Env) : SolM PUnit :=
  if e.isatty then modify fun c => { c with inRawMode := true } else return ⟨⟩

/-- `SIGTSTP` is blocked. -/
def suspendSelf (e : Env) (bRestoreTty : Bool) : SolM PUnit := do
  leaveRawMode
  if bRestoreTty then enterRawMode e

def print (message : String) : SolM PUnit := modify fun c => { c with messages := c.messages ++ [message] }

/-! ### User input -/

/-- The response to the break is not used. -/
def sendBreak (e : Env) : SolM PUnit := do
  let _ ← sendSol e { SolPayload.zero with generateBreak := true }

/-- The characters to send and `retval` of `processSolUserInput`. -/
structure Input where
  data : List UInt8
  retval : Int
  deriving DecidableEq

def setStatics (escapePending lastWasCr : Bool) : SolM PUnit :=
  modify fun c => { c with escapePending := escapePending, lastWasCr := lastWasCr }

def isNewline (ch : UInt8) : Bool := ch == 0x0D || ch == 0x0A

/-- The character behind an escape character. -/
def processEscape (e : Env) (ch : UInt8) (lastWasCr : Bool) (x : Input) : SolM Input := do
  setStatics false lastWasCr
  if ch = 0x2E then
    setStatics false (isNewline ch)
    return { x with retval := 1 }
  else if ch = 0x1A then
    suspendSelf e true
    return x
  else if ch = 0x18 then
    suspendSelf e false
    return x
  else if ch = 0x42 then
    sendBreak e
    return x
  else if ch = 0x3F then return x
  else
    setStatics false (isNewline ch)
    return { x with data := x.data ++ (if ch ≠ e.solEscapeChar then [e.solEscapeChar] else []) ++ [ch] }

def processChar (e : Env) (ch : UInt8) (x : Input) : SolM Input := do
  let c ← get
  if c.escapePending then processEscape e ch c.lastWasCr x
  else if c.lastWasCr && ch == e.solEscapeChar then
    setStatics true c.lastWasCr
    return x
  else
    setStatics false (isNewline ch)
    return { x with data := x.data ++ [ch] }

def processChars (e : Env) : List UInt8 → Input → SolM Input
  | [], x => return x
  | ch :: rest, x => do
    let x ← processChar e ch x
    processChars e rest x

/-- The loop that sends the characters, with `n` tries left. The array keeps what a resend has moved. -/
def sendTries (e : Env) (length : Nat) : Nat → SolPayload → SolM (Option Rs)
  | 0, _ => return none
  | n + 1, p => do
    match ← sendSol e { p with characterCount := length } with
    | (some rsp, _) => return some rsp
    | (none, p) => sendTries e length n p

/-- The characters that are left are sent. -/
def sendInput (e : Env) (x : Input) : SolM Int := do
  match ← sendTries e x.data.length e.retry { SolPayload.zero with data := x.data } with
  | none =>
    print "Error sending SOL data: FAIL"
    return -1
  | some rsp =>
    if x.retval = 0 ∧ rsp.isNumbered = true then output rsp
    return x.retval

def noteUserInput (input : List UInt8) : SolM PUnit :=
  modify fun c => { c with userInputs := c.userInputs ++ [input] }

def processSolUserInput (e : Env) (input : List UInt8) : SolM Int := do
  noteUserInput input
  let x ← processChars e input ⟨[], 0⟩
  if x.data ≠ [] then sendInput e x else return x.retval

/-! ### Keepalives -/

def solKeepaliveTimeout : Int := 15

def maxSolRetry : Nat := 6

def setStartKeepalive (now : Int) : SolM PUnit := modify fun c => { c with startKeepalive := now }

/-- A keepalive, if it is time for one; `now` and `later` are what `gettimeofday` gives before and after. -/
def keepaliveIfDue (e : Env) (now later : Int) (send : SolM Bool) : SolM Int := do
  let c ← get
  if e.disableKeepalive then return 0
  else if now - c.startKeepalive > solKeepaliveTimeout then
    if ← send then
      setStartKeepalive later
      return 0
    else return -1
  else return 0

def ipmiSolKeepaliveUsingSol (e : Env) (now later : Int) : SolM Int :=
  keepaliveIfDue e now later do
    let rs ← sendSol e SolPayload.zero
    return rs.1.isSome

def ipmiSolKeepaliveUsingGetdeviceid (e : Env) (now later : Int) : SolM Int :=
  keepaliveIfDue e now later do
    let result ← keepalive e
    return result == 0

/-! ### `ipmi_sol_red_pill` -/

def noteDeactivation (inst : Int) : SolM PUnit :=
  modify fun c => { c with deactivations := c.deactivations ++ [inst] }

/-- The request is attempted; its outcome is only reported. -/
def ipmiSolDeactivate (e : Env) (inst : Int) : SolM PUnit :=
  if inst ≤ 0 ∨ 15 < inst then print "Error: Instance must range from 1 to 15"
  else do
    noteDeactivation inst
    let _ ← sendrecv e

/-- The result of `select`. The kernel clears the bits of the descriptors that are not ready. -/
inductive Select where
  | error
  | timeout
  | ready (fds : List Nat)
  deriving DecidableEq

/-- What the environment does in one turn of the loop: the times around the keepalive, the result of
`select`, and what `read` gives on standard input. -/
structure Turn where
  now : Int
  later : Int
  select : Select
  input : Option (List UInt8)
  deriving DecidableEq

def Loop.start : Loop := ⟨false, false, 0, 0⟩

def sendKeepalive (e : Env) (t : Turn) : SolM Int :=
  if e.useSolForKeepalive then ipmiSolKeepaliveUsingSol e t.now t.later
  else ipmiSolKeepaliveUsingGetdeviceid e t.now t.later

/-- The keepalive of a turn. After `MAX_SOL_RETRY` failures in a row the next one ends the loop. -/
def keepaliveStep (e : Env) (t : Turn) (l : Loop) : SolM Loop := do
  if e.i82571spt then return l
  else
    let ret ← sendKeepalive e t
    if ret ≠ 0 then
      if l.retrySol = maxSolRetry then return { l with keepAliveRet := ret, shouldExit := true }
      else return { l with keepAliveRet := ret, retrySol := l.retrySol + 1 }
    else return { l with keepAliveRet := ret, retrySol := 0 }

/-- `read` is called on descriptor 0. -/
def noteRead : SolM PUnit := modify fun c => { c with reads := c.reads ++ [0] }

/-- What was read from standard input is processed; `none` is an error. -/
def processRead (e : Env) (bufferSize : Nat) (l : Loop) : Option (List UInt8) → SolM Loop
  | none => return { l with shouldExit := true }
  | some input => do
    if input.take bufferSize ≠ [] then
      let rc ← processSolUserInput e (input.take bufferSize)
      if rc < 0 then return { l with shouldExit := true, bmcClosedSession := true }
      else if rc ≠ 0 then return { l with shouldExit := true }
      else return l
    else return { l with shouldExit := true }

/-- Input of the user. -/
def readStdin (e : Env) (bufferSize : Nat) (t : Turn) (l : Loop) : SolM Loop := do
  noteRead
  processRead e bufferSize l t.input

/-- Input of the BMC. -/
def readBmc (e : Env) (l : Loop) : SolM Loop := do
  match ← recvSol e with
  | some rs =>
    output rs
    return l
  | none => return { l with shouldExit := true, bmcClosedSession := true }

/-- `select` and what follows it; `none` is `return -1`. -/
def selectStep (e : Env) (bufferSize : Nat) (t : Turn) (l : Loop) : SolM (Option Loop) := do
  match t.select with
  | .error =>
    print "select"
    return none
  | .timeout => return some l
  | .ready fds =>
    -- the set holds `intf->fd` only
    let readFds := [e.fd].filter fun fd => fds.contains fd
    if 0 ∈ readFds then return some (← readStdin e bufferSize t l)
    else if e.fd ∈ readFds then return some (← readBmc e l)
    else
      print "Error: Select returned with nothing to read"
      return some { l with shouldExit := true }

/-- The loop; `none` is `return -1`. -/
def redPillLoop (e : Env) (bufferSize : Nat) : List Turn → Loop → SolM (Option Loop)
  | [], l => if l.shouldExit then return some l else throw (.unfinished l)
  | t :: rest, l => do
    if l.shouldExit then return some l
    else
      let l ← keepaliveStep e t l
      if l.shouldExit then redPillLoop e bufferSize rest l
      else
        match ← selectStep e bufferSize t l with
        | none => return none
        | some l => redPillLoop e bufferSize rest l

def sessionClosed : String := "SOL session closed by BMC"

/-- What follows the loop. -/
def finish (e : Env) (inst : Int) (l : Loop) : SolM Int := do
  leaveRawMode
  if l.keepAliveRet ≠ 0 then
    print "Error: No response to keepalive - Terminating session"
    ipmiSolDeactivate e inst
    throw (.exit 1)
  else if l.bmcClosedSession then
    print sessionClosed
    throw (.exit 1)
  else
    ipmiSolDeactivate e inst
    return 0

def afterLoop (e : Env) (inst : Int) : Option Loop → SolM Int
  | none => return -1
  | some l => finish e inst l

/-- `buffer_size` without the SOL header. -/
def bufferSizeOf (maxInboundPayloadSize : Nat) : Nat :=
  if maxInboundPayloadSize > 4 then maxInboundPayloadSize - 4 else maxInboundPayloadSize

/-- `ipmi_sol_red_pill`; `now` is the time at its start. -/
def ipmiSolRedPill (e : Env) (inst : Int) (maxInboundPayloadSize : Nat) (mallocOk : Bool) (now : Int)
    (turns : List Turn) : SolM Int := do
  if !mallocOk then
    print "ipmitool: malloc failure"
    return -1
  else
    setStartKeepalive now
    enterRawMode e
    let l ← redPillLoop e (bufferSizeOf maxInboundPayloadSize) turns .start
    afterLoop e inst l

/-! ### `ipmi_sol_activate` -/

/-- The arguments of `ipmi_sol_activate`, and the environment of the red pill. -/
structure Activation where
  env : Env
  looptest : Int
  inst : Int
  mallocOk : Bool
  now : Int
  turns : List Turn

/-- A word of the response, its low byte first. -/
def Rs.word (rsp : Rs) (off : Nat) : Nat := (rsp.data (off + 1)).toNat * 256 + (rsp.data off).toNat

/-- `BSWAP_16`. -/
def bswap16 (n : Nat) : Nat := n % 256 * 256 + n / 256

/-- The UDP port of the response is the one of the session, maybe with its bytes swapped. -/
def Rs.portMatches (rsp : Rs) (port : Nat) : Bool := rsp.word 8 == port || bswap16 (rsp.word 8) == port

/-- What is reported for a completion code that is not 0, up to the text of other codes. -/
def activationError (ccode : UInt8) : String :=
  if ccode = 0x80 then "Info: SOL payload already active on another session"
  else if ccode = 0x81 then "Info: SOL payload disabled"
  else if ccode = 0x82 then "Info: SOL payload activation limit reached"
  else if ccode = 0x83 then "Info: cannot activate SOL payload with encryption"
  else if ccode = 0x84 then "Info: cannot activate SOL payload without encryption"
  else "Error activating SOL payload: "

/-- The session after a response with the completion code 0. -/
def runSession (x : Activation) (rsp : Rs) : SolM Int := do
  if rsp.dataLen ≠ 12 then
    print ("Error: Unexpected data length (" ++ toString rsp.dataLen ++
      ") received in payload activation response")
    return -1
  else if !rsp.portMatches x.env.port then
    print "Error: BMC requests SOL session on different port"
    return -1
  else if x.looptest = 1 then
    ipmiSolDeactivate x.env x.inst
    return 0
  else
    let result ← ipmiSolRedPill x.env x.inst (rsp.word 4) x.mallocOk x.now x.turns
    if result ≠ 0 then
      print "Error in SOL session"
      return -1
    else return 0

def ipmiSolActivate (x : Activation) : SolM Int := do
  if x.env.name ≠ "lanplus" then
    print "Error: This command is only available over the lanplus interface"
    return -1
  else if x.inst ≤ 0 ∨ 15 < x.inst then
    print "Error: Instance must range from 1 to 15"
    return -1
  else
    match ← sendrecv x.env with
    | none =>
      print "Error: No response activating SOL payload"
      return -1
    | some rsp =>
      if rsp.ccode ≠ 0 then
        print (activationError rsp.ccode)
        return -1
      else runSession x rsp

end KTools.Sol
