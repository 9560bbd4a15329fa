import KTools.Lanplus.Receive

/-!
# Building a message

`ipmi_lanplus_build_v2x_msg` puts a payload into an RMCP+ message: session header, the payload's wire
representation, encrypted in an ACTIVE session with a confidentiality algorithm, and with an integrity
algorithm a trailer with the authcode. A message is the list of its bytes.

`malloc`, `realloc` and the random source succeed; `iv` is what `lanplus_rand` writes.
-/

namespace KTools.Lanplus
open KTools.Lib KTools.Lib.Bytes

def bmcSlaveAddr : UInt8 := 0x20
def remoteSwid : UInt8 := 0x81
def netfnApp : UInt8 := 0x06
def sendMessageCmd : UInt8 := 0x34

/-- What the messages of an interface are built from. `icts` is the OEM handle of that name. -/
structure Intf where
  v2 : V2Data
  outSeq : UInt32
  myAddr : UInt32
  targetAddr : UInt32
  targetChannel : UInt8
  transitAddr : UInt32
  transitChannel : UInt8
  bridgePossible : Bool
  icts : Bool

/-- `struct ipmi_rq`; `data` has `data_len` bytes. -/
structure IpmiRq where
  netfn : UInt8
  lun : UInt8
  cmd : UInt8
  data : List UInt8
  deriving DecidableEq

/-- The SOL part of a `struct ipmi_v2_payload`; `data` has `character_count` bytes. -/
structure SolRequest where
  data : List UInt8
  packetSequenceNumber : UInt8
  ackedPacketNumber : UInt8
  acceptedCharacterCount : UInt8
  isNack : Bool
  assertRingWor : Bool
  generateBreak : Bool
  deassertCts : Bool
  deassertDcdDsr : Bool
  flushInbound : Bool
  flushOutbound : Bool
  deriving DecidableEq

/-- `struct ipmi_v2_payload` by its type. -/
inductive V2Payload where
  | ipmiRequest (request : IpmiRq) (rqSeq : UInt8)
  | solPacket (packet : SolRequest)
  | openSessionRequest (request : List UInt8)
  | rakp1Message (message : List UInt8)
  | rakp3Message (message : List UInt8)

def V2Payload.payloadType : V2Payload → UInt8
  | ipmiRequest _ _ => payloadTypeIpmi
  | solPacket _ => payloadTypeSol
  | openSessionRequest _ => payloadTypeOpenRequest
  | rakp1Message _ => payloadTypeRakp1
  | rakp3Message _ => payloadTypeRakp3

/-! ### Wire representations -/

def ipmiCsum (d : List UInt8) : UInt8 := -d.foldl (· + ·) 0

/-- A part of a message with its checksum behind it. -/
def withCsum (d : List UInt8) : List UInt8 := d ++ [ipmiCsum d]

/-- A request encapsulated in a Send Message request. -/
def encapsulated (addr channel currSeq : UInt8) (inner : List UInt8) : List UInt8 :=
  withCsum [addr, netfnApp <<< 2] ++
    withCsum ([remoteSwid, currSeq <<< 2, sendMessageCmd, 0x40 ||| channel] ++ inner)

theorem length_encapsulated (addr channel currSeq : UInt8) (inner : List UInt8) :
    (encapsulated addr channel currSeq inner).length = inner.length + (7 + 1) := by
  simp only [encapsulated, withCsum, List.length_append, List.length_cons, List.length_nil]
  omega

/-- The request itself, from `rqAddr` to `rsAddr`. -/
def requestMessage (rsAddr rqAddr : UInt8) (req : IpmiRq) (rqSeq : UInt8) : List UInt8 :=
  withCsum [rsAddr, req.netfn <<< 2 ||| (req.lun &&& 3)] ++
    withCsum ([rqAddr, rqSeq <<< 2, req.cmd] ++ req.data)

theorem length_requestMessage (rsAddr rqAddr : UInt8) (req : IpmiRq) (rqSeq : UInt8) :
    (requestMessage rsAddr rqAddr req rqSeq).length = req.data.length + 7 := by
  simp only [requestMessage, withCsum, List.length_append, List.length_cons, List.length_nil]
  omega

/-- `ourAddress` in `getIpmiPayloadWireRep`. -/
def Intf.ourAddress (intf : Intf) : UInt8 :=
  if intf.myAddr.toUInt8 = 0 then bmcSlaveAddr else intf.myAddr.toUInt8

def Intf.unbridged (intf : Intf) : Bool :=
  intf.targetAddr == intf.ourAddress.toUInt32 || !intf.bridgePossible

def getIpmiPayloadWireRep (intf : Intf) (req : IpmiRq) (rqSeq currSeq : UInt8) : List UInt8 :=
  if intf.unbridged then requestMessage bmcSlaveAddr remoteSwid req rqSeq
  else if intf.transitAddr ≠ intf.ourAddress.toUInt32 ∧ intf.transitAddr ≠ 0 then
    encapsulated bmcSlaveAddr intf.transitChannel currSeq
      (encapsulated intf.transitAddr.toUInt8 intf.targetChannel currSeq
        (requestMessage intf.targetAddr.toUInt8 intf.myAddr.toUInt8 req rqSeq))
  else
    encapsulated bmcSlaveAddr intf.targetChannel currSeq
      (requestMessage intf.targetAddr.toUInt8 remoteSwid req rqSeq)

def SolRequest.flags (p : SolRequest) : UInt8 :=
  (if p.isNack then 0x40 else 0) ||| (if p.assertRingWor then 0x20 else 0) |||
    (if p.generateBreak then 0x10 else 0) ||| (if p.deassertCts then 0x08 else 0) |||
    (if p.deassertDcdDsr then 0x04 else 0) ||| (if p.flushInbound then 0x02 else 0) |||
    (if p.flushOutbound then 0x01 else 0)

def getSolPayloadWireRep (p : SolRequest) : List UInt8 :=
  [p.packetSequenceNumber, p.ackedPacketNumber, p.acceptedCharacterCount, p.flags] ++ p.data

def wireRep (intf : Intf) (currSeq : UInt8) : V2Payload → List UInt8
  | .ipmiRequest request rqSeq => getIpmiPayloadWireRep intf request rqSeq currSeq
  | .solPacket packet => getSolPayloadWireRep packet
  | .openSessionRequest request => request
  | .rakp1Message message => message
  | .rakp3Message message => message

/-! ### `lanplus_encrypt_payload` -/

/-- The confidentiality pad makes the payload, the pad and the pad length whole blocks. -/
def confPadLength (inputLength : Nat) : Nat :=
  let mod := (inputLength + 1) % cryptAesCbc128BlockSize
  if mod ≠ 0 then cryptAesCbc128BlockSize - mod else 0

/-- The pad counts from 1, and its length follows it. -/
def paddedInput (input : List UInt8) : List UInt8 :=
  let padLength := confPadLength input.length
  input ++ (List.range padLength).map (fun i => UInt8.ofNat (i + 1)) ++ [UInt8.ofNat padLength]

/-- `none` is a failed assertion. -/
def lanplusEncryptPayload (c : Crypto) (cryptAlg : UInt8) (key iv input : List UInt8) :
    Option (List UInt8) :=
  if cryptAlg = cryptNone then some input
  else if cryptAlg ≠ cryptAesCbc128 then none
  else some (iv ++ c.aesEncrypt iv key (paddedInput input))

/-! ### `ipmi_lanplus_build_v2x_msg` -/

def rmcpHeader : List UInt8 := [rmcpVersion1, 0, 0xff, rmcpClassIpmi]

/-- The bytes of a word, the least significant first. -/
def le16 (n : Nat) : List UInt8 := [UInt8.ofNat n, UInt8.ofNat (n >>> 8)]

def le32 (w : UInt32) : List UInt8 :=
  [w.toUInt8, (w >>> 8).toUInt8, (w >>> 16).toUInt8, (w >>> 24).toUInt8]

/-- The encrypted and the authenticated bit. -/
def securityBits (v2 : V2Data) : UInt8 :=
  if v2.sessionState = .active then
    (if v2.cryptAlg ≠ cryptNone then 0x80 else 0) ||| (if v2.integrityAlg ≠ integrityNone then 0x40 else 0)
  else 0

/-- The session header and the message length. Outside an ACTIVE session the id and the sequence number
are 0. -/
def sessionHeader (intf : Intf) (payloadType : UInt8) (payloadLength : Nat) : List UInt8 :=
  let active := intf.v2.sessionState = .active
  [authtypeRmcpPlus, payloadType ||| securityBits intf.v2] ++
    le32 (if active then intf.v2.bmcId else 0) ++ le32 (if active then intf.outSeq else 0) ++
    le16 payloadLength

/-- The authcode covers a multiple of 4 bytes. -/
def integrityPadSize (icts : Bool) (payloadLength : Nat) : Nat :=
  let lengthBeforeAuthcode := if icts then 12 + payloadLength else 12 + payloadLength + 1 + 1
  if lengthBeforeAuthcode % 4 ≠ 0 then 4 - lengthBeforeAuthcode % 4 else 0

/-- The integrity pad, the pad length and the next header. -/
def integrityPad (icts : Bool) (payloadLength : Nat) : List UInt8 :=
  List.replicate (integrityPadSize icts payloadLength) 0xFF ++
    [UInt8.ofNat (integrityPadSize icts payloadLength), 0x07]

/-- The session header, the payload and the pad with their authcode; `none` is a failed assertion. -/
def withTrailer (c : Crypto) (intf : Intf) (payloadLength : Nat) (covered : List UInt8) :
    Option (List UInt8) :=
  if intf.v2.sessionState = .active ∧ intf.v2.integrityAlg ≠ integrityNone then do
    let input := covered ++ integrityPad intf.icts payloadLength
    let mac ← lanplusHMAC c intf.v2.integrityAlg intf.v2.k1 input
    let authLength ← authcodeLength intf.v2.integrityAlg
    return input ++ mac.take authLength
  else some covered

/-- `session->out_seq` skips 0. -/
def nextOutSeq (outSeq : UInt32) : UInt32 := if outSeq + 1 = 0 then 1 else outSeq + 1

/-- The message, and the interface with its next sequence number; `none` is a failed assertion. -/
def ipmiLanplusBuildV2xMsg (c : Crypto) (intf : Intf) (payload : V2Payload) (iv : List UInt8)
    (currSeq : UInt8) : Option (List UInt8 × Intf) := do
  let wire := wireRep intf currSeq payload
  let sent ← if intf.v2.sessionState = .active then
      lanplusEncryptPayload c intf.v2.cryptAlg intf.v2.k2 iv wire
    else some wire
  let body ← withTrailer c intf sent.length (sessionHeader intf payload.payloadType sent.length ++ sent)
  return (rmcpHeader ++ body, { intf with outSeq := nextOutSeq intf.outSeq })

end KTools.Lanplus
