import KTools.Lib.Bytes

/-!
# The lanplus interface: constants, session, response and pending requests

The data the RMCP+ client works on: the session (`V2Data`), the static response structure that every
received datagram is read into (`IpmiRs`), and the list of requests that wait for a response
(`RqEntry`, with `ipmi_req_add_entry`, `ipmi_req_lookup_entry` and `ipmi_req_remove_entry`). OpenSSL is
a parameter with the laws of HMAC and of AES-CBC without padding (`Crypto`).

The host is little-endian and has SHA-256; `verbose` is 0.
-/

namespace KTools.Lanplus
open KTools.Lib

/-! ### Constants -/

def ipmiBufSize : Nat := 1024

def rmcpVersion1 : UInt8 := 0x06
def rmcpClassAsf : UInt8 := 0x06
def rmcpClassIpmi : UInt8 := 0x07

def authtypeRmcpPlus : UInt8 := 0x06

def payloadTypeIpmi : UInt8 := 0x00
def payloadTypeSol : UInt8 := 0x01
def payloadTypeOpenRequest : UInt8 := 0x10
def payloadTypeOpenResponse : UInt8 := 0x11
def payloadTypeRakp1 : UInt8 := 0x12
def payloadTypeRakp2 : UInt8 := 0x13
def payloadTypeRakp3 : UInt8 := 0x14
def payloadTypeRakp4 : UInt8 := 0x15

def authRakpNone : UInt8 := 0x00
def authRakpHmacSha1 : UInt8 := 0x01
def authRakpHmacMd5 : UInt8 := 0x02
def authRakpHmacSha256 : UInt8 := 0x03

def integrityNone : UInt8 := 0x00
def integrityHmacSha1_96 : UInt8 := 0x01
def integrityHmacMd5_128 : UInt8 := 0x02
def integrityMd5_128 : UInt8 := 0x03
def integrityHmacSha256_128 : UInt8 := 0x04

def cryptNone : UInt8 := 0x00
def cryptAesCbc128 : UInt8 := 0x01

def cryptAesCbc128BlockSize : Nat := 0x10

def cipherSuite3 : UInt8 := 3

def sha1AuthcodeSize : Nat := 12
def hmacMd5AuthcodeSize : Nat := 16
def hmacSha256AuthcodeSize : Nat := 16

def shaDigestLength : Nat := 20
def md5DigestLength : Nat := 16
def sha256DigestLength : Nat := 32

def offsetAuthtype : Nat := 0x04
def offsetPayloadType : Nat := 0x05
def offsetSessionId : Nat := 0x06
def offsetSequenceNum : Nat := 0x0A
def offsetPayloadSize : Nat := 0x0E
def offsetPayload : Nat := 0x10

/-! ### OpenSSL -/

/-- The functions of OpenSSL: HMAC by key and data, AES-CBC-128 without padding by IV, key and data. -/
structure Crypto where
  hmacSha1 : List UInt8 → List UInt8 → List UInt8
  hmacMd5 : List UInt8 → List UInt8 → List UInt8
  hmacSha256 : List UInt8 → List UInt8 → List UInt8
  aesEncrypt : List UInt8 → List UInt8 → List UInt8 → List UInt8
  aesDecrypt : List UInt8 → List UInt8 → List UInt8 → List UInt8
  length_hmacSha1 : ∀ key d, (hmacSha1 key d).length = shaDigestLength
  length_hmacMd5 : ∀ key d, (hmacMd5 key d).length = md5DigestLength
  length_hmacSha256 : ∀ key d, (hmacSha256 key d).length = sha256DigestLength
  length_aesEncrypt : ∀ iv key d, d.length % cryptAesCbc128BlockSize = 0 →
    (aesEncrypt iv key d).length = d.length
  length_aesDecrypt : ∀ iv key d, d.length % cryptAesCbc128BlockSize = 0 →
    (aesDecrypt iv key d).length = d.length
  aesDecrypt_aesEncrypt : ∀ iv key d, d.length % cryptAesCbc128BlockSize = 0 →
    aesDecrypt iv key (aesEncrypt iv key d) = d

/-- A library that authenticates nothing and encrypts to the text itself. -/
def Crypto.plain : Crypto where
  hmacSha1 := fun _ _ => List.replicate shaDigestLength 0
  hmacMd5 := fun _ _ => List.replicate md5DigestLength 0
  hmacSha256 := fun _ _ => List.replicate sha256DigestLength 0
  aesEncrypt := fun _ _ d => d
  aesDecrypt := fun _ _ d => d
  length_hmacSha1 := fun _ _ => List.length_replicate
  length_hmacMd5 := fun _ _ => List.length_replicate
  length_hmacSha256 := fun _ _ => List.length_replicate
  length_aesEncrypt := fun _ _ _ _ => rfl
  length_aesDecrypt := fun _ _ _ _ => rfl
  aesDecrypt_aesEncrypt := fun _ _ _ _ => rfl

/-- `lanplus_HMAC`; `none` is its failed assertion. -/
def lanplusHMAC (c : Crypto) (mac : UInt8) (key d : List UInt8) : Option (List UInt8) :=
  if mac = authRakpHmacSha1 ∨ mac = integrityHmacSha1_96 then some (c.hmacSha1 key d)
  else if mac = authRakpHmacMd5 ∨ mac = integrityHmacMd5_128 then some (c.hmacMd5 key d)
  else if mac = authRakpHmacSha256 ∨ mac = integrityHmacSha256_128 then some (c.hmacSha256 key d)
  else none

/-! ### The session -/

inductive LanplusState where
  | presession
  | openSessionSent
  | openSessionReceived
  | rakp1Sent
  | rakp2Received
  | rakp3Sent
  | active
  | closeSent
  deriving DecidableEq

/-- `session->v2_data`; a key is the bytes up to its length. -/
structure V2Data where
  sessionState : LanplusState
  requestedAuthAlg : UInt8
  requestedIntegrityAlg : UInt8
  requestedCryptAlg : UInt8
  authAlg : UInt8
  integrityAlg : UInt8
  cryptAlg : UInt8
  maxPrivLevel : UInt8
  consoleId : UInt32
  bmcId : UInt32
  consoleRand : List UInt8
  bmcRand : List UInt8
  bmcGuid : List UInt8
  requestedRole : UInt8
  rakp2ReturnCode : UInt8
  sik : List UInt8
  k1 : List UInt8
  k2 : List UInt8

/-- A session before Open Session. -/
def V2Data.initial : V2Data where
  sessionState := .presession
  requestedAuthAlg := authRakpHmacSha1
  requestedIntegrityAlg := integrityHmacSha1_96
  requestedCryptAlg := cryptAesCbc128
  authAlg := authRakpNone
  integrityAlg := integrityNone
  cryptAlg := cryptNone
  maxPrivLevel := 0
  consoleId := 0
  bmcId := 0
  consoleRand := List.replicate 16 0
  bmcRand := List.replicate 16 0
  bmcGuid := List.replicate 16 0
  requestedRole := 0
  rakp2ReturnCode := 0
  sik := List.replicate 20 0
  k1 := List.replicate 20 0
  k2 := List.replicate 20 0

/-! ### The response structure -/

/-- `rsp->session`. -/
structure SessionHdr where
  authtype : UInt8
  seq : UInt32
  id : UInt32
  bEncrypted : Bool
  bAuthenticated : Bool
  payloadtype : UInt8
  msglen : Nat
  deriving DecidableEq

structure IpmiResponse where
  rqAddr : UInt8
  netfn : UInt8
  rqLun : UInt8
  rsAddr : UInt8
  rqSeq : UInt8
  rsLun : UInt8
  cmd : UInt8
  deriving DecidableEq

/-- The last four members are 0 unless the return code is 0. -/
structure OpenSessionResponse where
  messageTag : UInt8
  rakpReturnCode : UInt8
  maxPrivLevel : UInt8
  consoleId : UInt32
  bmcId : UInt32
  authAlg : UInt8
  integrityAlg : UInt8
  cryptAlg : UInt8
  deriving DecidableEq

structure Rakp2Message where
  messageTag : UInt8
  rakpReturnCode : UInt8
  consoleId : UInt32
  bmcRand : List UInt8
  bmcGuid : List UInt8
  keyExchangeAuthCode : List UInt8
  deriving DecidableEq

structure Rakp4Message where
  messageTag : UInt8
  rakpReturnCode : UInt8
  consoleId : UInt32
  integrityCheckValue : List UInt8
  deriving DecidableEq

structure SolPacket where
  packetSequenceNumber : UInt8
  ackedPacketNumber : UInt8
  acceptedCharacterCount : UInt8
  isNack : Bool
  transferUnavailable : Bool
  solInactive : Bool
  transmitOverrun : Bool
  breakDetected : Bool
  deriving DecidableEq

/-- The union `rsp->payload`, as the member written last. -/
inductive RsPayload where
  | ipmiResponse (r : IpmiResponse)
  | openSessionResponse (r : OpenSessionResponse)
  | rakp2Message (r : Rakp2Message)
  | rakp4Message (r : Rakp4Message)
  | solPacket (r : SolPacket)
  deriving DecidableEq

/-- The static `struct ipmi_rs`. -/
structure IpmiRs where
  ccode : UInt8
  data : Nat → UInt8
  dataLen : Nat
  session : SessionHdr
  payload : RsPayload

/-- The response to a command, as `sendrecv` returns it; `data` has `data_len` bytes. -/
structure CmdRsp where
  ccode : UInt8
  data : List UInt8
  deriving DecidableEq

/-! ### The pending requests -/

/-- The commands of a `struct ipmi_rq`. -/
structure RqMsg where
  cmd : UInt8
  targetCmd : UInt8
  deriving DecidableEq

/-- `struct ipmi_rq_entry`, with the number of its allocation. -/
structure RqEntry where
  alloc : Nat
  msg : RqMsg
  rqSeq : UInt8
  bridgingLevel : Nat
  deriving DecidableEq

def RqEntry.hasKey (seq cmd : UInt8) (e : RqEntry) : Bool := e.rqSeq == seq && e.msg.cmd == cmd

def ipmiReqLookupEntry (seq cmd : UInt8) (entries : List RqEntry) : Option RqEntry :=
  entries.find? (RqEntry.hasKey seq cmd)

def ipmiReqRemoveEntry (seq cmd : UInt8) (entries : List RqEntry) : List RqEntry :=
  entries.eraseP (RqEntry.hasKey seq cmd)

/-- An assignment through the pointer that `ipmi_req_lookup_entry` returned. -/
def updateEntry (seq cmd : UInt8) (f : RqEntry → RqEntry) : List RqEntry → List RqEntry
  | [] => []
  | e :: rest => if e.hasKey seq cmd then f e :: rest else e :: updateEntry seq cmd f rest

/-- One level of bridging is answered; after the last one the entry waits for the target command. -/
def RqEntry.decrementBridging (e : RqEntry) : RqEntry :=
  let level := e.bridgingLevel - 1
  { e with
    bridgingLevel := level
    msg := { e.msg with cmd := if level = 0 then e.msg.targetCmd else e.msg.cmd } }

end KTools.Lanplus
