import KTools.Lanplus.Types

/-!
# Receiving a datagram

`ipmi_lan_poll_single` reads one datagram into the static response structure and takes it apart in
place: session header, integrity check, decryption, then the payload by its type. The programs here
follow the C functions over the state `RxState` and note every access to the packet data and every
subtraction of lengths (`Access`). A run ends early where the C code fails an assertion or leaves its
memory (`Abort`).

An answer of `ipmi_lan_poll_single` is NULL, a request for one more packet (the pointer 1), or the
response structure (`Poll`); `ipmi_lan_poll_recv` loops while it is asked for one more.

`malloc` in `lanplus_decrypt_payload` succeeds here: after a failure it sets no payload size at all.
-/

namespace KTools.Lanplus
open KTools.Lib KTools.Lib.Bytes

/-! ### State, accesses and aborts -/

inductive Access where
  /-- `len` bytes of `rsp->data` are read as packet data. -/
  | read (off len : Nat)
  /-- `len` bytes of `rsp->data` are written. -/
  | write (off len : Nat)
  /-- The length `a - b`. -/
  | sub (a b : Nat)
  /-- `len` bytes of a decrypted payload of `size` bytes are read. -/
  | scratch (off len size : Nat)

inductive Abort where
  | assertion
  | fault
  deriving DecidableEq

/-- `log` holds the accesses since the last datagram came. -/
structure RxState where
  rsp : IpmiRs
  entries : List RqEntry
  log : List Access

abbrev Rx := EStateM Abort RxState

/-- What the receive path reads beside the datagram: OpenSSL, the session, and the memory behind a
`malloc`ed block. -/
structure RxEnv where
  crypto : Crypto
  v2 : V2Data
  heap : Nat → UInt8

def touch (accesses : List Access) : Rx PUnit :=
  modify fun s => { s with log := s.log ++ accesses }

def restartLog : Rx PUnit := modify fun s => { s with log := [] }

def modifyRsp (f : IpmiRs → IpmiRs) : Rx PUnit :=
  modify fun s => { s with rsp := f s.rsp }

def modifyEntries (f : List RqEntry → List RqEntry) : Rx PUnit :=
  modify fun s => { s with entries := f s.entries }

/-! ### `ipmi_lan_recv_packet` -/

/-- What `select` and `recv` give: nothing within the time or an error, or a datagram. -/
abbrev Arrival := Option (List UInt8)

/-- `false` is NULL. -/
def ipmiLanRecvPacket (a : Arrival) : Rx Bool := do
  let some datagram := a | return false
  let got := datagram.take ipmiBufSize
  if got = [] then return false
  else
    restartLog
    touch [.write 0 got.length, .write got.length 1]
    modifyRsp fun r =>
      { r with data := store (store r.data 0 got) got.length [0], dataLen := got.length }
    return true

/-! ### Session headers -/

/-- `ipmi16toh` and `ipmi32toh`. -/
def ipmi16toh (data : Nat → UInt8) (off : Nat) : Nat :=
  (data off).toNat + 256 * (data (off + 1)).toNat

def ipmi32toh (data : Nat → UInt8) (off : Nat) : UInt32 :=
  (data off).toUInt32 ||| (data (off + 1)).toUInt32 <<< 8 ||| (data (off + 2)).toUInt32 <<< 16 |||
    (data (off + 3)).toUInt32 <<< 24

def sessionV2x (data : Nat → UInt8) (off : Nat) : SessionHdr where
  authtype := data off
  seq := ipmi32toh data (off + 6)
  id := ipmi32toh data (off + 2)
  bEncrypted := data (off + 1) &&& 0x80 ≠ 0
  bAuthenticated := data (off + 1) &&& 0x40 ≠ 0
  payloadtype := data (off + 1) &&& 0x3F
  msglen := ipmi16toh data (off + 10)

def readSessionDataV2x (off : Nat) : Rx Nat := do
  touch [.read off 2, .read (off + 2) 4, .read (off + 6) 4, .read (off + 10) 2]
  modifyRsp fun r => { r with session := sessionV2x r.data off }
  return off + 12

/-- The session id and the sequence number are skipped. -/
def readSessionDataV15 (off : Nat) : Rx Nat := do
  touch [.read off 1, .read (off + 9) 1]
  modifyRsp fun r =>
    { r with
      session := { r.session with
        authtype := r.data off, bEncrypted := false, bAuthenticated := false
        payloadtype := payloadTypeIpmi, msglen := (r.data (off + 9)).toNat } }
  return off + 10

def readSessionData (off : Nat) : Rx Nat := do
  touch [.read off 1]
  modifyRsp fun r => { r with session := { r.session with authtype := r.data off } }
  let s ← get
  if s.rsp.session.authtype = authtypeRmcpPlus then readSessionDataV2x off
  else readSessionDataV15 off

/-! ### `lanplus_has_valid_auth_code` -/

/-- The number of authcode bytes in a packet; `none` is the failed assertion. -/
def authcodeLength (integrityAlg : UInt8) : Option Nat :=
  if integrityAlg = integrityHmacSha1_96 then some sha1AuthcodeSize
  else if integrityAlg = integrityHmacMd5_128 then some hmacMd5AuthcodeSize
  else if integrityAlg = integrityHmacSha256_128 then some hmacSha256AuthcodeSize
  else none

/-- The packet carries an authcode that the session wants checked. -/
def checksAuthcode (v2 : V2Data) (h : SessionHdr) : Bool :=
  h.authtype == authtypeRmcpPlus && v2.sessionState == .active && h.bAuthenticated &&
    v2.integrityAlg != integrityNone

/-- The comparison of the last `len` bytes of a packet with the HMAC of the bytes before them. -/
def compareAuthcode (e : RxEnv) (dataLen len : Nat) : Rx Bool := do
  touch [.sub dataLen len, .sub dataLen (offsetAuthtype + len)]
  -- a negative length makes HMAC run over the whole address space
  if dataLen < offsetAuthtype + len then throw .fault
  else
    touch [.read offsetAuthtype (dataLen - offsetAuthtype - len), .read (dataLen - len) len]
    let s ← get
    let bmcAuthcode := slice s.rsp.data (dataLen - len) len
    let input := slice s.rsp.data offsetAuthtype (dataLen - offsetAuthtype - len)
    match lanplusHMAC e.crypto e.v2.integrityAlg e.v2.k1 input with
    | none => throw .assertion
    | some mac => return bmcAuthcode = mac.take len

def lanplusHasValidAuthCode (e : RxEnv) : Rx Bool := do
  let s ← get
  if !checksAuthcode e.v2 s.rsp.session then return true
  else
    match authcodeLength e.v2.integrityAlg with
    | none => throw .assertion
    | some len => compareAuthcode e s.rsp.dataLen len

/-! ### `lanplus_decrypt_payload` -/

/-- A byte of `decrypted_payload`; behind the decrypted bytes lies other memory. -/
def scratchByte (e : RxEnv) (decrypted : List UInt8) (i : Nat) : UInt8 := decrypted.getD i (e.heap i)

/-- The loop over the confidentiality pad, with `n` bytes to go. -/
def checkPad (e : RxEnv) (decrypted : List UInt8) (payloadSize : Nat) : Nat → Nat → Rx PUnit
  | 0, _ => return ⟨⟩
  | n + 1, i => do
    touch [.scratch (payloadSize + i) 1 decrypted.length]
    if (scratchByte e decrypted (payloadSize + i)).toNat ≠ i + 1 then throw .assertion
    else checkPad e decrypted payloadSize n (i + 1)

/-- `payload_size` is a `uint16_t`. -/
def unpaddedSize (bytesDecrypted confPadLength : Nat) : Nat :=
  (65536 + bytesDecrypted - confPadLength - 1) % 65536

/-- The decrypted bytes are moved to the payload's place, and their pad is taken off. -/
def unpadDecrypted (e : RxEnv) (off : Nat) (decrypted : List UInt8) : Rx Nat := do
  let bytesDecrypted := decrypted.length
  touch [.write off bytesDecrypted]
  modifyRsp fun r => { r with data := store r.data off decrypted }
  let confPadLength := (scratchByte e decrypted (bytesDecrypted - 1)).toNat
  let payloadSize := unpaddedSize bytesDecrypted confPadLength
  touch [.scratch (bytesDecrypted - 1) 1 bytesDecrypted, .sub bytesDecrypted (confPadLength + 1)]
  checkPad e decrypted payloadSize confPadLength 0
  return payloadSize

/-- `lanplus_decrypt_payload` on the payload at `off`, decrypted in place; returns `payload_size`. -/
def lanplusDecryptPayload (e : RxEnv) (off inputLength : Nat) : Rx Nat := do
  if e.v2.cryptAlg = cryptNone then
    touch [.read off inputLength, .write off inputLength]
    return inputLength
  else if e.v2.cryptAlg ≠ cryptAesCbc128 then throw .assertion
  else
    touch [.sub inputLength cryptAesCbc128BlockSize]
    -- nothing to decrypt is decrypted to 0 bytes; a length that wraps around is no multiple of the
    -- block size, or is refused by OpenSSL as negative
    if inputLength ≤ cryptAesCbc128BlockSize then throw .assertion
    else
      touch [.read off cryptAesCbc128BlockSize]
      let length := inputLength - cryptAesCbc128BlockSize
      if length % cryptAesCbc128BlockSize ≠ 0 then throw .assertion
      else
        touch [.read (off + cryptAesCbc128BlockSize) length]
        let s ← get
        let iv := slice s.rsp.data off cryptAesCbc128BlockSize
        let input := slice s.rsp.data (off + cryptAesCbc128BlockSize) length
        unpadDecrypted e off (e.crypto.aesDecrypt iv e.v2.k2 input)

/-! ### Payloads -/

/-- The answers of `ipmi_lan_poll_single`. -/
inductive Poll where
  | null
  | again
  | rsp
  deriving DecidableEq

def openSessionResponseAt (data : Nat → UInt8) (off : Nat) : OpenSessionResponse :=
  let rakpReturnCode := data (off + 1)
  let ok := rakpReturnCode = 0
  { messageTag := data off
    rakpReturnCode := rakpReturnCode
    maxPrivLevel := data (off + 2)
    consoleId := ipmi32toh data (off + 4)
    bmcId := if ok then ipmi32toh data (off + 8) else 0
    authAlg := if ok then data (off + 16) else 0
    integrityAlg := if ok then data (off + 24) else 0
    cryptAlg := if ok then data (off + 32) else 0 }

/-- The rest of the message is only read when the return code is 0. -/
def openSessionAccesses (data : Nat → UInt8) (off : Nat) : List Access :=
  [.read off 3, .read (off + 4) 4] ++
    if data (off + 1) = 0 then
      [.read (off + 8) 4, .read (off + 16) 1, .read (off + 24) 1, .read (off + 32) 1]
    else []

def readOpenSessionResponse (off : Nat) : Rx PUnit := do
  let s ← get
  touch (openSessionAccesses s.rsp.data off)
  modifyRsp fun r => { r with payload := .openSessionResponse (openSessionResponseAt r.data off) }

/-- The bytes of the key exchange authentication code in a RAKP 2 message. -/
def rakp2CodeLength (authAlg : UInt8) : Option Nat :=
  if authAlg = authRakpNone then some 0
  else if authAlg = authRakpHmacSha1 then some shaDigestLength
  else if authAlg = authRakpHmacMd5 then some md5DigestLength
  else if authAlg = authRakpHmacSha256 then some sha256DigestLength
  else none

/-- The bytes of the integrity check value in a RAKP 4 message. -/
def rakp4CodeLength (authAlg : UInt8) : Option Nat :=
  if authAlg = authRakpNone then some 0
  else if authAlg = authRakpHmacSha1 then some sha1AuthcodeSize
  else if authAlg = authRakpHmacMd5 then some hmacMd5AuthcodeSize
  else if authAlg = authRakpHmacSha256 then some hmacSha256AuthcodeSize
  else none

def rakp2MessageAt (data : Nat → UInt8) (off len : Nat) : Rakp2Message where
  messageTag := data off
  rakpReturnCode := data (off + 1)
  consoleId := ipmi32toh data (off + 4)
  bmcRand := slice data (off + 8) 16
  bmcGuid := slice data (off + 24) 16
  keyExchangeAuthCode := slice data (off + 40) len

def readRakp2Message (off : Nat) (authAlg : UInt8) : Rx PUnit := do
  touch [.read off 2, .read (off + 4) 4, .read (off + 8) 16, .read (off + 24) 16]
  let some len := rakp2CodeLength authAlg | throw .assertion
  touch [.read (off + 40) len]
  modifyRsp fun r => { r with payload := .rakp2Message (rakp2MessageAt r.data off len) }

def rakp4MessageAt (data : Nat → UInt8) (off len : Nat) : Rakp4Message where
  messageTag := data off
  rakpReturnCode := data (off + 1)
  consoleId := ipmi32toh data (off + 4)
  integrityCheckValue := slice data (off + 8) len

def readRakp4Message (off : Nat) (authAlg : UInt8) : Rx PUnit := do
  touch [.read off 2, .read (off + 4) 4]
  let some len := rakp4CodeLength authAlg | throw .assertion
  touch [.read (off + 8) len]
  modifyRsp fun r => { r with payload := .rakp4Message (rakp4MessageAt r.data off len) }

def ipmiResponseAt (data : Nat → UInt8) (off : Nat) : IpmiResponse where
  rqAddr := data off
  netfn := data (off + 1) >>> 2
  rqLun := data (off + 1) &&& 0x3
  rsAddr := data (off + 3)
  rqSeq := data (off + 4) >>> 2
  rsLun := data (off + 4) &&& 0x3
  cmd := data (off + 5)

def ipmiResponseLength : Nat := 7

/-- The checksum at `off + 2` is skipped. -/
def readIpmiResponse (off : Nat) : Rx PUnit := do
  touch [.read off 2, .read (off + 3) 4]
  modifyRsp fun r =>
    { r with payload := .ipmiResponse (ipmiResponseAt r.data off), ccode := r.data (off + 6) }

def solPacketAt (data : Nat → UInt8) (off : Nat) : SolPacket where
  packetSequenceNumber := data off &&& 0x0F
  ackedPacketNumber := data (off + 1) &&& 0x0F
  acceptedCharacterCount := data (off + 2)
  isNack := data (off + 3) &&& 0x40 ≠ 0
  transferUnavailable := data (off + 3) &&& 0x20 ≠ 0
  solInactive := data (off + 3) &&& 0x10 ≠ 0
  transmitOverrun := data (off + 3) &&& 0x08 ≠ 0
  breakDetected := data (off + 3) &&& 0x04 ≠ 0

def solHeaderLength : Nat := 4

def readSolPacket (off : Nat) : Rx PUnit := do
  touch [.read off solHeaderLength]
  modifyRsp fun r => { r with payload := .solPacket (solPacketAt r.data off) }

/-- The data behind a header of `header` bytes is moved to the start of the array; `trailer` bytes at
its end are left out. -/
def shiftData (off payloadSize header trailer : Nat) : Rx PUnit := do
  touch [.sub payloadSize (header + trailer)]
  let extra := payloadSize - (header + trailer)
  if 0 < extra then
    touch [.read (off + header) extra, .write 0 extra]
    modifyRsp fun r =>
      { r with dataLen := extra, data := store r.data 0 (slice r.data (off + header) extra) }
  else modifyRsp fun r => { r with dataLen := 0 }

/-! ### IPMI responses -/

/-- How a turn of the loop over IPMI responses ends. -/
inductive Turn where
  | again
  | last
  | embedded

/-- A response that matches `entry`: the entry is removed, and what follows the completion code is moved
to the start of the array. A bridged response with more than 8 bytes holds the next response. -/
def matchedResponse (off payloadSize dataLen : Nat) (r : IpmiResponse) (ccode : UInt8)
    (entry : RqEntry) : Rx Turn := do
  if entry.bridgingLevel ≠ 0 ∧ ccode = 0 then
    modifyEntries (updateEntry r.rqSeq r.cmd RqEntry.decrementBridging)
    if 8 < payloadSize then
      touch [.sub dataLen (off + ipmiResponseLength + 1)]
      modifyEntries (ipmiReqRemoveEntry r.rqSeq r.cmd)
      shiftData off payloadSize ipmiResponseLength 1
      return .embedded
    else return .again
  else
    modifyEntries (ipmiReqRemoveEntry r.rqSeq r.cmd)
    shiftData off payloadSize ipmiResponseLength 1
    return .last

/-- The entry that the response at `off` matches. -/
def pendingEntry (data : Nat → UInt8) (off : Nat) (entries : List RqEntry) : Option RqEntry :=
  ipmiReqLookupEntry (ipmiResponseAt data off).rqSeq (ipmiResponseAt data off).cmd entries

def matchResponse (off payloadSize : Nat) : Rx Turn := do
  let s ← get
  match pendingEntry s.rsp.data off s.entries with
  | none => return .again
  | some entry =>
    matchedResponse off payloadSize s.rsp.dataLen (ipmiResponseAt s.rsp.data off) s.rsp.ccode entry

/-- One turn of the loop, on the response at `off`. -/
def handleIpmiResponse (off payloadSize : Nat) : Rx Turn := do
  readIpmiResponse off
  matchResponse off payloadSize

/-- The loop over IPMI responses. Only a payload of more than 8 bytes is embedded. -/
def ipmiResponses (off payloadSize : Nat) : Rx Poll := do
  match ← handleIpmiResponse off payloadSize with
  | .again => return .again
  | .last => return .rsp
  | .embedded =>
    match payloadSize with
    | rest + 9 => ipmiResponses 0 (rest + 1)
    | _ => return .rsp

/-! ### `ipmi_lan_poll_single` -/

/-- The payload by its type. -/
def handlePayload (e : RxEnv) (payloadtype : UInt8) (off payloadSize : Nat) : Rx Poll :=
  if payloadtype = payloadTypeIpmi then ipmiResponses off payloadSize
  else if payloadtype = payloadTypeOpenResponse then
    if e.v2.sessionState ≠ .openSessionSent then return .again
    else do
      readOpenSessionResponse off
      return .rsp
  else if payloadtype = payloadTypeRakp2 then
    if e.v2.sessionState ≠ .rakp1Sent then return .again
    else do
      readRakp2Message off e.v2.authAlg
      return .rsp
  else if payloadtype = payloadTypeRakp4 then
    if e.v2.sessionState ≠ .rakp3Sent then return .again
    else do
      readRakp4Message off e.v2.authAlg
      return .rsp
  else if payloadtype = payloadTypeSol then
    if e.v2.sessionState ≠ .active then return .again
    else do
      readSolPacket off
      shiftData off payloadSize solHeaderLength 0
      return .rsp
  else return .again

/-- The packet is for another session. -/
def otherSession (v2 : V2Data) (h : SessionHdr) : Bool :=
  v2.sessionState == .active && h.authtype == authtypeRmcpPlus && h.id != v2.consoleId

/-- The payload is decrypted. -/
def decrypts (v2 : V2Data) (h : SessionHdr) : Bool :=
  v2.sessionState == .active && h.authtype == authtypeRmcpPlus && h.bEncrypted

/-- The value of `payload_size` before the payload is read. -/
def payloadSizeOf (e : RxEnv) (off : Nat) (h : SessionHdr) : Rx Nat :=
  if decrypts e.v2 h then lanplusDecryptPayload e off h.msglen else return h.msglen

/-- The rest of `ipmi_lan_poll_single` for a packet of class IPMI. -/
def handleIpmiClass (e : RxEnv) : Rx Poll := do
  let off ← readSessionData offsetAuthtype
  let s ← get
  if otherSession e.v2 s.rsp.session then return .again
  else
    let valid ← lanplusHasValidAuthCode e
    if !valid then return .null
    else
      let payloadSize ← payloadSizeOf e off s.rsp.session
      handlePayload e s.rsp.session.payloadtype off payloadSize

/-- The offsets of the RMCP class and, in a pong, of the supported entities. -/
def offsetRmcpClass : Nat := 3
def offsetSupEntities : Nat := 20

def ipmiHandlePong : Rx Poll := do
  touch [.read offsetSupEntities 1]
  let s ← get
  return if s.rsp.data offsetSupEntities &&& 0x80 ≠ 0 then .rsp else .null

/-- `ipmi_lan_poll_single` after a datagram has been received. -/
def handleDatagram (e : RxEnv) : Rx Poll := do
  touch [.read offsetRmcpClass 1]
  let s ← get
  if s.rsp.data offsetRmcpClass = rmcpClassAsf then ipmiHandlePong
  else if s.rsp.data offsetRmcpClass ≠ rmcpClassIpmi then return .again
  else handleIpmiClass e

def ipmiLanPollSingle (e : RxEnv) (a : Arrival) : Rx Poll := do
  let received ← ipmiLanRecvPacket a
  if !received then return .null else handleDatagram e

/-- `ipmi_lan_poll_recv` returns NULL (`false`) or the response structure, and leaves the arrivals it
has not read. When there are no more, `select` runs into its timeout. -/
def ipmiLanPollRecv (e : RxEnv) : List Arrival → Rx (Bool × List Arrival)
  | [] => return (false, [])
  | a :: rest => do
    match ← ipmiLanPollSingle e a with
    | .null => return (false, rest)
    | .rsp => return (true, rest)
    | .again => ipmiLanPollRecv e rest

end KTools.Lanplus
