import KTools.Lib.Keeps
import KTools.Lanplus.Build
import KTools.Lanplus.Send

/-!
# Opening a session

`ipmi_lanplus_open` and the messages of the handshake: Open Session, RAKP 1 and RAKP 3, with the HMAC
checks on RAKP 2 and RAKP 4. What `ipmi_lanplus_send_payload` returns for a message is a `Reply`; what the
environment decides in one pass of the retry loop is a `HandshakeTry`. A failed assertion ends the run.

The interface is not yet open and has no OEM handle. `rsp->payload` is read as the message that the function
expects; an authentication code is the bytes of its array from the start.
-/

namespace KTools.Lanplus
open KTools.Lib

/-! ### Session parameters -/

def sessionPrivUser : UInt8 := 0x2
def sessionPrivAdmin : UInt8 := 0x4
def cryptXrc4_128 : UInt8 := 0x02
def cryptXrc4_40 : UInt8 := 0x03
def cipherSuiteReserved : UInt8 := 0xff
def ipmiLanRetry : Nat := 4
def ipmiMaxUserNameLength : Nat := 16
def rakpStatusNoErrors : UInt8 := 0x00
def rakpStatusInvalidIntegrityCheckValue : UInt8 := 0x0f

/-- `intf->ssn_params`; the user name is without its terminating 0, `authcode` and `kg` have 20 bytes. -/
structure SsnParams where
  username : List UInt8
  authcode : List UInt8
  kg : List UInt8
  privlvl : UInt8
  lookupbit : UInt8
  cipherSuiteId : UInt8

/-- The algorithms of a session. -/
structure Algorithms where
  auth : UInt8
  integrity : UInt8
  crypt : UInt8
  deriving DecidableEq

def lanplusGetRequestedCiphers (cipherSuiteId : UInt8) : Option Algorithms :=
  match cipherSuiteId.toNat with
  | 0 => some ⟨authRakpNone, integrityNone, cryptNone⟩
  | 1 => some ⟨authRakpHmacSha1, integrityNone, cryptNone⟩
  | 2 => some ⟨authRakpHmacSha1, integrityHmacSha1_96, cryptNone⟩
  | 3 => some ⟨authRakpHmacSha1, integrityHmacSha1_96, cryptAesCbc128⟩
  | 4 => some ⟨authRakpHmacSha1, integrityHmacSha1_96, cryptXrc4_128⟩
  | 5 => some ⟨authRakpHmacSha1, integrityHmacSha1_96, cryptXrc4_40⟩
  | 6 => some ⟨authRakpHmacMd5, integrityNone, cryptNone⟩
  | 7 => some ⟨authRakpHmacMd5, integrityHmacMd5_128, cryptNone⟩
  | 8 => some ⟨authRakpHmacMd5, integrityHmacMd5_128, cryptAesCbc128⟩
  | 9 => some ⟨authRakpHmacMd5, integrityHmacMd5_128, cryptXrc4_128⟩
  | 10 => some ⟨authRakpHmacMd5, integrityHmacMd5_128, cryptXrc4_40⟩
  | 11 => some ⟨authRakpHmacMd5, integrityMd5_128, cryptNone⟩
  | 12 => some ⟨authRakpHmacMd5, integrityMd5_128, cryptAesCbc128⟩
  | 13 => some ⟨authRakpHmacMd5, integrityMd5_128, cryptXrc4_128⟩
  | 14 => some ⟨authRakpHmacMd5, integrityMd5_128, cryptXrc4_40⟩
  | 15 => some ⟨authRakpHmacSha256, integrityNone, cryptNone⟩
  | 16 => some ⟨authRakpHmacSha256, integrityHmacSha256_128, cryptNone⟩
  | 17 => some ⟨authRakpHmacSha256, integrityHmacSha256_128, cryptAesCbc128⟩
  | _ => none

/-! ### State and environment -/

/-- What `ipmi_lanplus_send_payload` does with a message of the handshake: NULL without the message sent and
the session state changed, NULL after it, or the response. -/
inductive Reply (α : Type) where
  | notSent
  | silent
  | message (m : α)

/-- What one pass of the loop meets, in the order of the source: the results of `malloc`, the random number
(`none` where `lanplus_rand` fails), and the replies. -/
structure HandshakeTry where
  openAllocated : Bool
  openSession : Reply OpenSessionResponse
  rakp1Allocated : Bool
  consoleRand : Option (List UInt8)
  rakp2 : Reply Rakp2Message
  rakp2MacAllocated : Bool
  rakp3Allocated : Bool
  authcodeAllocated : Bool
  sikAllocated : Bool
  rakp4 : Reply Rakp4Message
  rakp4MacAllocated : Bool

/-- The session data and the messages sent; `rakp2` and `rakp4` note the messages of this pass of the loop
that have been received. -/
structure Handshake where
  v2 : V2Data
  sent : List V2Payload
  rakp2 : Option Rakp2Message
  rakp4 : Option Rakp4Message

abbrev Hs := EStateM Abort Handshake

/-- The results 0, 1 and 2. -/
inductive Rc where
  | success
  | error
  | timeout
  deriving DecidableEq

def modifyV2 (f : V2Data → V2Data) : Hs PUnit := modify fun s => { s with v2 := f s.v2 }

def setState (state : LanplusState) : Hs PUnit := modifyV2 fun v2 => { v2 with sessionState := state }

/-- `ipmi_lanplus_send_payload` for a message that may be sent in the states `may`; `none` is NULL. -/
def sendHandshake {α : Type} (payload : V2Payload) (may : LanplusState → Bool) (sentState : LanplusState)
    (reply : Reply α) : Hs (Option α) := do
  let s ← get
  if !may s.v2.sessionState then throw .assertion
  else
    modify fun s => { s with sent := s.sent ++ [payload] }
    match reply with
    | .notSent => return none
    | .silent =>
      setState sentState
      return none
    | .message m =>
      setState sentState
      return some m

/-! ### `ipmi_lanplus_open_session` -/

def consoleSessionId : UInt32 := 0xA0A2A3A4

/-- The message tag, the privilege level, the console session id, and one block for each algorithm. -/
def openSessionRequest (p : SsnParams) (v2 : V2Data) : List UInt8 :=
  [0, if p.privlvl ≠ sessionPrivAdmin then p.privlvl else 0, 0, 0] ++ le32 v2.consoleId ++
    [0, 0, 0, 8, v2.requestedAuthAlg, 0, 0, 0] ++ [1, 0, 0, 8, v2.requestedIntegrityAlg, 0, 0, 0] ++
    [2, 0, 0, 8, v2.requestedCryptAlg, 0, 0, 0]

def V2Data.requesting (v2 : V2Data) (a : Algorithms) : V2Data :=
  { v2 with requestedAuthAlg := a.auth, requestedIntegrityAlg := a.integrity, requestedCryptAlg := a.crypt }

/-- The data of an Open Session Response without an error. -/
def V2Data.opened (v2 : V2Data) (m : OpenSessionResponse) : V2Data :=
  { v2 with
    maxPrivLevel := m.maxPrivLevel
    bmcId := m.bmcId
    authAlg := m.authAlg
    integrityAlg := m.integrityAlg
    cryptAlg := m.cryptAlg
    sessionState := .openSessionReceived }

def ipmiLanplusOpenSession (p : SsnParams) (t : HandshakeTry) : Hs Rc := do
  if !t.openAllocated then return .error
  else
    modifyV2 fun v2 => { v2 with consoleId := consoleSessionId }
    match lanplusGetRequestedCiphers p.cipherSuiteId with
    | none => return .error
    | some requested =>
      modifyV2 fun v2 => v2.requesting requested
      let s ← get
      match ← sendHandshake (.openSessionRequest (openSessionRequest p s.v2)) mayOpenSession .openSessionSent
          t.openSession with
      | none => return .timeout
      | some m =>
        if m.rakpReturnCode ≠ rakpStatusNoErrors then return .error
        else
          modifyV2 fun v2 => v2.opened m
          -- each algorithm has to be the one that was requested
          if m.authAlg ≠ requested.auth then return .error
          else if m.integrityAlg ≠ requested.integrity then return .error
          else if m.cryptAlg ≠ requested.crypt then return .error
          else return .success

/-! ### HMACs -/

/-- The algorithms that the assertions of the HMAC functions accept. -/
def isRakpHmac (authAlg : UInt8) : Bool :=
  authAlg == authRakpHmacSha1 || authAlg == authRakpHmacMd5 || authAlg == authRakpHmacSha256

/-- The requested role, and the user name with its length. -/
def roleAndName (p : SsnParams) (v2 : V2Data) : List UInt8 :=
  [v2.requestedRole, UInt8.ofNat p.username.length] ++ p.username

def rakp2MacInput (p : SsnParams) (v2 : V2Data) : List UInt8 :=
  le32 v2.consoleId ++ le32 v2.bmcId ++ v2.consoleRand ++ v2.bmcRand ++ v2.bmcGuid ++ roleAndName p v2

def rakp4MacInput (v2 : V2Data) : List UInt8 := v2.consoleRand ++ le32 v2.bmcId ++ v2.bmcGuid

/-- The first bytes of the code are the HMAC that the console computes. -/
def rakp2Right (c : Crypto) (p : SsnParams) (v2 : V2Data) (code : List UInt8) : Option Bool := do
  let mac ← lanplusHMAC c v2.authAlg p.authcode (rakp2MacInput p v2)
  return code.take mac.length = mac

/-- The bytes that the RAKP 4 message carries are compared. -/
def rakp4Right (c : Crypto) (v2 : V2Data) (code : List UInt8) : Option Bool := do
  let mac ← lanplusHMAC c v2.authAlg v2.sik (rakp4MacInput v2)
  let len ← rakp4CodeLength v2.authAlg
  return code.take len = mac.take len

/-- The frame of both HMAC checks: nothing to check without authentication, and 1 when `malloc` fails.
`none` is a failed assertion. -/
def hmacMatches (authAlg : UInt8) (allocated : Bool) (right : Option Bool) : Option Bool :=
  if authAlg = authRakpNone then some true
  else if !isRakpHmac authAlg then none
  else if !allocated then some true
  else right

def lanplusRakp2HmacMatches (c : Crypto) (p : SsnParams) (v2 : V2Data) (allocated : Bool)
    (bmcMac : List UInt8) : Option Bool :=
  hmacMatches v2.authAlg allocated (rakp2Right c p v2 bmcMac)

def lanplusRakp4HmacMatches (c : Crypto) (v2 : V2Data) (allocated : Bool) (bmcMac : List UInt8) :
    Option Bool :=
  hmacMatches v2.authAlg allocated (rakp4Right c v2 bmcMac)

/-- A value that only a failed assertion keeps from being there. -/
def asserted {α : Type} : Option α → Hs α
  | none => throw .assertion
  | some a => return a

/-! ### `ipmi_lanplus_rakp1` -/

def rakp1Message (p : SsnParams) (v2 : V2Data) : List UInt8 :=
  [0, 0, 0, 0] ++ le32 v2.bmcId ++ v2.consoleRand ++ [v2.requestedRole, 0, 0, UInt8.ofNat p.username.length] ++
    p.username

/-- The data of a RAKP 2 message without an error. -/
def V2Data.exchanged (v2 : V2Data) (m : Rakp2Message) : V2Data :=
  { v2 with bmcRand := m.bmcRand, bmcGuid := m.bmcGuid }

def ipmiLanplusRakp1 (c : Crypto) (p : SsnParams) (t : HandshakeTry) : Hs Rc := do
  if !t.rakp1Allocated then return .error
  else
    match t.consoleRand with
    | none => return .error
    | some rand =>
      modifyV2 fun v2 => { v2 with consoleRand := rand, requestedRole := p.privlvl ||| p.lookupbit }
      if ipmiMaxUserNameLength < p.username.length then return .error
      else
        let s ← get
        match ← sendHandshake (.rakp1Message (rakp1Message p s.v2)) (· == .openSessionReceived) .rakp1Sent
            t.rakp2 with
        | none => return .timeout
        | some m =>
          modify fun s => { s with rakp2 := some m }
          setState .rakp2Received
          if m.rakpReturnCode ≠ rakpStatusNoErrors then return .error
          else
            modifyV2 fun v2 => v2.exchanged m
            let s ← get
            if !(← asserted (lanplusRakp2HmacMatches c p s.v2 t.rakp2MacAllocated m.keyExchangeAuthCode)) then
              modifyV2 fun v2 => { v2 with rakp2ReturnCode := rakpStatusInvalidIntegrityCheckValue }
              return .error
            else
              modifyV2 fun v2 => { v2 with rakp2ReturnCode := rakpStatusNoErrors }
              return .success

/-! ### `ipmi_lanplus_rakp3` -/

/-- `lanplus_generate_rakp3_authcode`; `none` is its result 1. -/
def lanplusGenerateRakp3Authcode (c : Crypto) (p : SsnParams) (v2 : V2Data) (allocated : Bool) :
    Hs (Option (List UInt8)) := do
  if v2.authAlg = authRakpNone then return some []
  else if !isRakpHmac v2.authAlg then throw .assertion
  else if !allocated then return none
  else
    let mac ← asserted (lanplusHMAC c v2.authAlg p.authcode
      (v2.bmcRand ++ le32 v2.consoleId ++ roleAndName p v2))
    return some mac

/-- The key of the session integrity key: Kg if it is set, else the user's. -/
def sikKey (p : SsnParams) : List UInt8 := if p.kg.headD 0 ≠ 0 then p.kg else p.authcode

/-- `lanplus_generate_sik`; `false` is its result 1. -/
def lanplusGenerateSik (c : Crypto) (p : SsnParams) (allocated : Bool) : Hs Bool := do
  modifyV2 fun v2 => { v2 with sik := [] }
  let s ← get
  if s.v2.authAlg = authRakpNone then return true
  else if !isRakpHmac s.v2.authAlg then throw .assertion
  else if !allocated then return false
  else
    let mac ← asserted (lanplusHMAC c s.v2.authAlg (sikKey p)
      (s.v2.consoleRand ++ s.v2.bmcRand ++ roleAndName p s.v2))
    modifyV2 fun v2 => { v2 with sik := mac }
    return true

/-- The bytes of `K1` and `K2`: without authentication the length of the key stays as it was. -/
def generatedKey (c : Crypto) (v2 : V2Data) (old : List UInt8) (const : UInt8) : Option (List UInt8) :=
  if v2.authAlg = authRakpNone then some ((List.replicate 20 const).take old.length)
  else lanplusHMAC c v2.authAlg v2.sik (List.replicate 20 const)

def lanplusGenerateK1 (c : Crypto) : Hs PUnit := do
  let s ← get
  let k1 ← asserted (generatedKey c s.v2 s.v2.k1 0x01)
  modifyV2 fun v2 => { v2 with k1 := k1 }

def lanplusGenerateK2 (c : Crypto) : Hs PUnit := do
  let s ← get
  let k2 ← asserted (generatedKey c s.v2 s.v2.k2 0x02)
  modifyV2 fun v2 => { v2 with k2 := k2 }

/-- The authcode of the RAKP 3 message, after the session keys are generated; none after an error in RAKP 2.
The outer `none` is the result 1. -/
def rakp3Keys (c : Crypto) (p : SsnParams) (t : HandshakeTry) : Hs (Option (List UInt8)) := do
  let s ← get
  if s.v2.rakp2ReturnCode ≠ rakpStatusNoErrors then return some []
  else
    match ← lanplusGenerateRakp3Authcode c p s.v2 t.authcodeAllocated with
    | none => return none
    | some authcode =>
      if ← lanplusGenerateSik c p t.sikAllocated then
        lanplusGenerateK1 c
        lanplusGenerateK2 c
        return some authcode
      else return none

def rakp3Message (v2 : V2Data) (authcode : List UInt8) : List UInt8 :=
  [0, v2.rakp2ReturnCode, 0, 0] ++ le32 v2.bmcId ++ authcode

def ipmiLanplusRakp3 (c : Crypto) (p : SsnParams) (t : HandshakeTry) : Hs Rc := do
  let s ← get
  if s.v2.sessionState ≠ .rakp2Received then throw .assertion
  else if !t.rakp3Allocated then return .error
  else
    match ← rakp3Keys c p t with
    | none => return .error
    | some authcode =>
      let s ← get
      let reply ← sendHandshake (.rakp3Message (rakp3Message s.v2 authcode)) (· == .rakp2Received) .rakp3Sent
        t.rakp4
      if s.v2.rakp2ReturnCode ≠ rakpStatusNoErrors then return .error
      else
        match reply with
        | none => return .timeout
        | some m =>
          modify fun s => { s with rakp4 := some m }
          if m.rakpReturnCode ≠ rakpStatusNoErrors then return .error
          else
            let s ← get
            if ← asserted (lanplusRakp4HmacMatches c s.v2 t.rakp4MacAllocated m.integrityCheckValue) then
              setState .active
              return .success
            else return .error

/-! ### `ipmi_lanplus_open` -/

/-- The loop starts over from the state PRESESSION. -/
def startTry : Hs PUnit := modify fun s =>
  { s with v2 := { s.v2 with sessionState := .presession }, rakp2 := none, rakp4 := none }

def handshakeTry (c : Crypto) (p : SsnParams) (t : HandshakeTry) : Hs Rc := do
  startTry
  match ← ipmiLanplusOpenSession p t with
  | .error => return .error
  | .timeout => return .timeout
  | .success =>
    match ← ipmiLanplusRakp1 c p t with
    | .error => return .error
    | .timeout => return .timeout
    | .success => ipmiLanplusRakp3 c p t

/-- The retry loop; `false` is `goto fail`. A pass that times out is followed by the next one, the last one
by the code behind the loop. -/
def handshakeLoop (c : Crypto) (p : SsnParams) : List HandshakeTry → Hs Bool
  | [] => return true
  | t :: rest => do
    match ← handshakeTry c p t with
    | .error => return false
    | .success => return true
    | .timeout => handshakeLoop c p rest

/-- The algorithms of an ACTIVE session that a command can be built with; the others fail an assertion. -/
def buildsCommand (v2 : V2Data) : Bool :=
  v2.sessionState != .active ||
    (v2.cryptAlg == cryptNone || v2.cryptAlg == cryptAesCbc128) &&
      (v2.integrityAlg == integrityNone || (authcodeLength v2.integrityAlg).isSome)

/-- An IPMI command; its reply is a completion code. -/
def sendCommand (reply : Reply UInt8) : Hs (Reply UInt8) := do
  let s ← get
  if !buildsCommand s.v2 then throw .assertion else return reply

/-- `false` is a negative result. -/
def ipmiSetSessionPrivlvlCmd (p : SsnParams) (reply : Reply UInt8) : Hs Bool := do
  if p.privlvl ≤ sessionPrivUser then return true
  else
    match ← sendCommand reply with
    | .message ccode => return ccode = 0
    | _ => return false

/-- What `ipmi_lanplus_open` meets: whether a host name is given, the socket (`none` where it cannot be
connected), `malloc` of the session, Get Channel Authentication Capabilities (`none` where it fails, else
whether v2.0 data is available), the best cipher suite, the passes of the loop, the reply to Set Session
Privilege Level, and the replies to the commands that `hpm2_detect_max_payload_size` sends first. -/
structure Opening where
  crypto : Crypto
  params : SsnParams
  hostname : Bool
  fd : Option Nat
  sessionAllocated : Bool
  authCap : Option Bool
  bestCipherSuite : UInt8
  tries : List HandshakeTry
  length_tries : tries.length = ipmiLanRetry
  privlvlReply : Reply UInt8
  hpm2Reply : Reply UInt8

/-- The parameters with the defaults of `ipmi_lanplus_open`. -/
def Opening.ssnParams (o : Opening) : SsnParams :=
  { o.params with
    privlvl := if o.params.privlvl = 0 then sessionPrivAdmin else o.params.privlvl
    cipherSuiteId :=
      if o.params.cipherSuiteId = cipherSuiteReserved then o.bestCipherSuite else o.params.cipherSuiteId }

/-- The code behind the loop. What `hpm2_detect_max_payload_size` and `ipmi_get_oem` find out does not
matter for the result. -/
def Opening.finish (o : Opening) (fd : Nat) : Hs Int := do
  if ← ipmiSetSessionPrivlvlCmd o.ssnParams o.privlvlReply then
    let _ ← sendCommand o.hpm2Reply
    return fd
  else return -1

def ipmiLanplusOpen (o : Opening) : Hs Int := do
  if !o.hostname then return -1
  else
    match o.fd with
    | none => return -1
    | some fd =>
      if !o.sessionAllocated then return -1
      else if o.authCap ≠ some true then return -1
      else if ← handshakeLoop o.crypto o.ssnParams o.tries then o.finish fd
      else return -1

/-- The session after `memset`. -/
def Handshake.start : Handshake where
  v2 :=
    { V2Data.initial with
      requestedAuthAlg := 0, requestedIntegrityAlg := 0, requestedCryptAlg := 0
      sik := [], k1 := [], k2 := [] }
  sent := []
  rakp2 := none
  rakp4 := none

end KTools.Lanplus
