import KTools.Lanplus.Build

/-!
# Messages of the v1.5 session

`ipmi_lan_build_cmd` writes a message from its front to its back and computes each checksum over what has been
written since the part began: the request first, then what encapsulates it. The authcode is written last, since it
is over the message within the packet. `ipmiLanBuildMsg_wellFormed` says what comes out of that: the layers of the
message, each with its checksums, in a packet that stays within the memory allocated for it and that the BMC can
authenticate.
-/

namespace KTools.Lan
open KTools.Lib KTools.Lib.Bytes KTools.Lanplus

def authtypeNone : UInt8 := 0x00
def authtypeMd2 : UInt8 := 0x01
def authtypeMd5 : UInt8 := 0x02

/-- OpenSSL's digests. -/
structure Digests where
  md5 : List UInt8 → List UInt8
  md2 : List UInt8 → List UInt8
  length_md5 : ∀ d, (md5 d).length = 16
  length_md2 : ∀ d, (md2 d).length = 16

/-- `struct ipmi_session`; the authcode is the 16 bytes of it that are sent. -/
structure Session where
  active : Bool
  authtype : UInt8
  inSeq : UInt32
  sessionId : UInt32
  authcode : List UInt8
  length_authcode : authcode.length = 16

/-- The addresses that a message is built from, and the static `bridge_possible`. -/
structure Intf where
  myAddr : UInt32
  targetAddr : UInt32
  targetChannel : UInt8
  transitAddr : UInt32
  transitChannel : UInt8
  bridgePossible : Bool

def Intf.ourAddress (intf : Intf) : UInt8 :=
  if intf.myAddr.toUInt8 = 0 then bmcSlaveAddr else intf.myAddr.toUInt8

def Intf.unbridged (intf : Intf) : Bool :=
  intf.targetAddr == intf.ourAddress.toUInt32 || !intf.bridgePossible

def Intf.transits (intf : Intf) : Bool := intf.transitAddr != intf.myAddr && intf.transitAddr != 0

/-- There is an authcode in the packets. -/
def Session.signs (s : Session) : Bool := s.active && s.authtype != authtypeNone

/-- The size of the allocated memory. -/
def msgSize (intf : Intf) (s : Session) (req : IpmiRq) : Nat :=
  req.data.length + 29 + (if s.signs then 16 else 0) + if intf.transits then 8 else 0

/-! ### Building -/

/-- `msg[len++] = ipmi_csum(msg+cs, len-cs)`. -/
def pushCsum (msg : List UInt8) (cs : Nat) : List UInt8 := msg ++ [ipmiCsum (msg.drop cs)]

/-- The request itself. -/
def pushRequest (msg : List UInt8) (rsAddr rqAddr : UInt8) (req : IpmiRq) (rqSeq : UInt8) : List UInt8 :=
  let cs := msg.length
  let msg := pushCsum (msg ++ [rsAddr, req.netfn <<< 2 ||| (req.lun &&& 3)]) cs
  let cs := msg.length
  pushCsum (msg ++ [rqAddr, rqSeq <<< 2, req.cmd] ++ req.data) cs

/-- The RMCP and session headers. -/
def sessionHeader (s : Session) : List UInt8 :=
  rmcpHeader ++ [if s.active then s.authtype else 0] ++ le32 s.inSeq ++ le32 s.sessionId

/-- Where there is an authcode, the password is in its place at first. -/
def packetHeader (s : Session) : List UInt8 :=
  if s.signs then sessionHeader s ++ s.authcode else sessionHeader s

/-- The packet without its authcode, the offset `mp` of the message within it, and the bridging level. -/
def unsignedPacket (intf : Intf) (s : Session) (req : IpmiRq) (currSeq : UInt8) : List UInt8 × Nat × Nat :=
  let msg := packetHeader s
  if intf.unbridged then
    let msg := msg ++ [UInt8.ofNat (req.data.length + 7)]
    let mp := msg.length
    (pushRequest msg bmcSlaveAddr remoteSwid req currSeq, mp, 0)
  else
    let msg := msg ++ [UInt8.ofNat (req.data.length + 15 + if intf.transits then 8 else 0)]
    let mp := msg.length
    let msg := pushCsum (msg ++ [bmcSlaveAddr, netfnApp <<< 2]) mp
    let cs2 := msg.length
    let msg := msg ++ [remoteSwid, currSeq <<< 2, sendMessageCmd]
    if intf.transits then
      let msg := msg ++ [0x40 ||| intf.transitChannel]
      let cs := msg.length
      let msg := pushCsum (msg ++ [intf.transitAddr.toUInt8, netfnApp <<< 2]) cs
      let cs3 := msg.length
      let msg := msg ++ [intf.myAddr.toUInt8, currSeq <<< 2, sendMessageCmd, 0x40 ||| intf.targetChannel]
      let msg := pushRequest msg intf.targetAddr.toUInt8 intf.myAddr.toUInt8 req currSeq
      let msg := pushCsum msg cs3
      (pushCsum msg cs2, mp, 2)
    else
      let msg := msg ++ [0x40 ||| intf.targetChannel]
      let msg := pushRequest msg intf.targetAddr.toUInt8 intf.myAddr.toUInt8 req currSeq
      (pushCsum msg cs2, mp, 1)

/-- `ipmi_auth_md5` and `ipmi_auth_md2`: what is hashed. -/
def authInput (s : Session) (d : List UInt8) : List UInt8 :=
  s.authcode ++ le32 s.sessionId ++ d ++ le32 s.inSeq ++ s.authcode

/-- The authcode over the `msg[mp-1]` bytes at `mp`; the other types leave the password where it is. -/
def authcodeFor (c : Digests) (s : Session) (msg : List UInt8) (mp : Nat) : List UInt8 :=
  let d := (msg.drop mp).take (msg.getD (mp - 1) 0).toNat
  if s.authtype = authtypeMd5 then c.md5 (authInput s d)
  else if s.authtype = authtypeMd2 then c.md2 (authInput s d)
  else s.authcode

/-- The offset of the authcode. -/
def authcodeOffset : Nat := 13

/-- The bridging level and the packet. -/
def ipmiLanBuildMsg (c : Digests) (intf : Intf) (s : Session) (req : IpmiRq) (currSeq : UInt8) :
    Nat × List UInt8 :=
  let (msg, mp, level) := unsignedPacket intf s req currSeq
  (level,
    if s.signs then msg.take authcodeOffset ++ authcodeFor c s msg mp ++ msg.drop (authcodeOffset + 16) else msg)

/-- `in_seq` counts the packets of a session and skips 0; before a session it stays 0. -/
def nextInSeq (inSeq : UInt32) : UInt32 :=
  if inSeq = 0 then 0 else if inSeq + 1 = 0 then 1 else inSeq + 1

/-! ### The packet as it should be -/

/-- A Send Message request from `rqAddr`, around an inner message. -/
def sendMessageRequest (rsAddr rqAddr channel currSeq : UInt8) (inner : List UInt8) : List UInt8 :=
  withCsum [rsAddr, netfnApp <<< 2] ++
    withCsum ([rqAddr, currSeq <<< 2, sendMessageCmd, 0x40 ||| channel] ++ inner)

/-- The message of a packet in its layers. -/
def layeredMessage (intf : Intf) (req : IpmiRq) (currSeq : UInt8) : List UInt8 :=
  if intf.unbridged then requestMessage bmcSlaveAddr remoteSwid req currSeq
  else
    let request := requestMessage intf.targetAddr.toUInt8 intf.myAddr.toUInt8 req currSeq
    if intf.transits then
      sendMessageRequest bmcSlaveAddr remoteSwid intf.transitChannel currSeq
        (sendMessageRequest intf.transitAddr.toUInt8 intf.myAddr.toUInt8 intf.targetChannel currSeq request)
    else sendMessageRequest bmcSlaveAddr remoteSwid intf.targetChannel currSeq request

/-- The authcode of a message by the type of the session. -/
def expectedAuthcode (c : Digests) (s : Session) (message : List UInt8) : List UInt8 :=
  if !s.signs then []
  else if s.authtype = authtypeMd5 then c.md5 (authInput s message)
  else if s.authtype = authtypeMd2 then c.md2 (authInput s message)
  else s.authcode

/-- A packet around a message. -/
def packet (c : Digests) (s : Session) (message : List UInt8) : List UInt8 :=
  sessionHeader s ++ expectedAuthcode c s message ++ [UInt8.ofNat message.length] ++ message

/-! ### What is built -/

theorem pushCsum_append (msg part : List UInt8) : pushCsum (msg ++ part) msg.length = msg ++ withCsum part := by
  rw [pushCsum, List.drop_left, withCsum, List.append_assoc]

theorem pushRequest_eq (msg : List UInt8) (rsAddr rqAddr : UInt8) (req : IpmiRq) (rqSeq : UInt8) :
    pushRequest msg rsAddr rqAddr req rqSeq = msg ++ requestMessage rsAddr rqAddr req rqSeq := by
  unfold pushRequest
  simp only [pushCsum_append]
  rw [List.append_assoc (msg ++ _), pushCsum_append, requestMessage, List.append_assoc]

theorem pushCsum_of_eq {whole msg part : List UInt8} (h : whole = msg ++ part) :
    pushCsum whole msg.length = msg ++ withCsum part := by
  rw [h, pushCsum_append]

theorem length_sendMessageRequest (rsAddr rqAddr channel currSeq : UInt8) (inner : List UInt8) :
    (sendMessageRequest rsAddr rqAddr channel currSeq inner).length = inner.length + 8 := by
  simp only [sendMessageRequest, withCsum, List.length_append, List.length_cons, List.length_nil]
  omega

theorem length_layeredMessage (intf : Intf) (req : IpmiRq) (currSeq : UInt8) :
    (layeredMessage intf req currSeq).length =
      req.data.length + 7 + if intf.unbridged then 0 else if intf.transits then 16 else 8 := by
  unfold layeredMessage
  split
  · rw [length_requestMessage]
  · split
    · rw [length_sendMessageRequest, length_sendMessageRequest, length_requestMessage]
    · rw [length_sendMessageRequest, length_requestMessage]

/-- The bridging level that is noted in the entry. -/
def Intf.bridgingLevel (intf : Intf) : Nat := if intf.unbridged then 0 else if intf.transits then 2 else 1

theorem unsignedPacket_eq (intf : Intf) (s : Session) (req : IpmiRq) (currSeq : UInt8) :
    unsignedPacket intf s req currSeq =
      (packetHeader s ++ [UInt8.ofNat (layeredMessage intf req currSeq).length] ++ layeredMessage intf req currSeq,
        (packetHeader s).length + 1, intf.bridgingLevel) := by
  have hlength := length_layeredMessage intf req currSeq
  unfold unsignedPacket Intf.bridgingLevel
  by_cases hun : intf.unbridged = true
  · simp only [hun, if_true, pushRequest_eq, layeredMessage, length_requestMessage, List.length_append]
    rfl
  · rw [if_neg hun] at hlength
    rw [if_neg hun, if_neg hun, hlength, layeredMessage, if_neg hun]
    by_cases htrans : intf.transits = true
    · simp only [htrans, if_true, pushCsum_append, pushRequest_eq]
      rw [List.append_assoc (packetHeader s ++ _ ++ _ ++ _ ++ _ ++ _), pushCsum_append,
        pushCsum_of_eq (by simp only [List.append_assoc]; rfl)]
      simp only [sendMessageRequest, List.append_assoc, List.length_append]
      rfl
    · simp only [if_neg htrans, pushCsum_append, pushRequest_eq]
      rw [pushCsum_of_eq (by simp only [List.append_assoc]; rfl)]
      simp only [sendMessageRequest, List.append_assoc, List.length_append]
      rfl

/-! ### The authcode -/

theorem length_sessionHeader (s : Session) : (sessionHeader s).length = authcodeOffset := rfl

theorem length_expectedAuthcode (c : Digests) (s : Session) (message : List UInt8) :
    (expectedAuthcode c s message).length = if s.signs then 16 else 0 := by
  unfold expectedAuthcode
  cases s.signs with
  | false => rfl
  | true =>
    simp only [Bool.not_true, if_true]
    split
    · simp at *
    · split
      · exact c.length_md5 _
      · split
        · exact c.length_md2 _
        · exact s.length_authcode

/-- The authcode is over the whole message, as long as its length fits into the byte before it. -/
theorem authcodeFor_message (c : Digests) {s : Session} (hsigns : s.signs = true) {message : List UInt8}
    (hlength : message.length < 256) :
    authcodeFor c s (packetHeader s ++ [UInt8.ofNat message.length] ++ message) ((packetHeader s).length + 1) =
      expectedAuthcode c s message := by
  have hdrop : (packetHeader s ++ [UInt8.ofNat message.length] ++ message).drop ((packetHeader s).length + 1) =
      message := List.drop_left' (by rw [List.length_append]; rfl)
  have hbyte : (packetHeader s ++ [UInt8.ofNat message.length] ++ message).getD ((packetHeader s).length + 1 - 1) 0 =
      UInt8.ofNat message.length := by
    rw [List.append_assoc, Nat.add_sub_cancel, List.getD_append_right _ _ _ _ (Nat.le_refl _), Nat.sub_self]
    rfl
  have hlen : (UInt8.ofNat message.length).toNat = message.length := by
    rw [UInt8.toNat_ofNat']
    exact Nat.mod_eq_of_lt hlength
  unfold authcodeFor expectedAuthcode
  rw [hdrop, hbyte, hlen, List.take_length, hsigns]
  rfl

/-- **The packet that is built**: the message in its layers, in a packet whose authcode the BMC can check, and
within the allocated memory. -/
theorem ipmiLanBuildMsg_wellFormed (c : Digests) (intf : Intf) (s : Session) (req : IpmiRq) (currSeq : UInt8)
    (hlength : (layeredMessage intf req currSeq).length < 256) :
    ipmiLanBuildMsg c intf s req currSeq = (intf.bridgingLevel, packet c s (layeredMessage intf req currSeq)) ∧
      (ipmiLanBuildMsg c intf s req currSeq).2.length ≤ msgSize intf s req := by
  have hbuilt : ipmiLanBuildMsg c intf s req currSeq =
      (intf.bridgingLevel, packet c s (layeredMessage intf req currSeq)) := by
    rw [ipmiLanBuildMsg, unsignedPacket_eq]
    dsimp only
    cases hsigns : s.signs with
    | false =>
      rw [if_neg nofun, packet, expectedAuthcode, hsigns, packetHeader, hsigns]
      simp
    | true =>
      have hheader : packetHeader s = sessionHeader s ++ s.authcode := by rw [packetHeader, hsigns, if_pos rfl]
      rw [if_pos rfl, authcodeFor_message c hsigns hlength, hheader, packet]
      have htake : (sessionHeader s ++ s.authcode ++ [UInt8.ofNat (layeredMessage intf req currSeq).length] ++
          layeredMessage intf req currSeq).take authcodeOffset = sessionHeader s := by
        rw [List.append_assoc, List.append_assoc]
        exact List.take_left' (length_sessionHeader s)
      have hdrop : (sessionHeader s ++ s.authcode ++ [UInt8.ofNat (layeredMessage intf req currSeq).length] ++
          layeredMessage intf req currSeq).drop (authcodeOffset + 16) =
            [UInt8.ofNat (layeredMessage intf req currSeq).length] ++ layeredMessage intf req currSeq := by
        rw [List.append_assoc]
        exact List.drop_left' (by rw [List.length_append, s.length_authcode, length_sessionHeader])
      rw [htake, hdrop]
      simp only [List.append_assoc]
  refine ⟨hbuilt, ?_⟩
  rw [hbuilt, packet, msgSize]
  simp only [List.length_append, length_sessionHeader, length_expectedAuthcode, length_layeredMessage,
    List.length_singleton, authcodeOffset]
  split <;> split <;> split <;> omega

/-- A target that is bridged to twice, and a session with MD5. -/
def transitIntf : Intf := ⟨0x20, 0x72, 7, 0x82, 0, true⟩

def Digests.zero : Digests where
  md5 := fun _ => List.replicate 16 0
  md2 := fun _ => List.replicate 16 0
  length_md5 := fun _ => List.length_replicate
  length_md2 := fun _ => List.length_replicate

def md5Session : Session := ⟨true, authtypeMd5, 0xFFFFFFFF, 0x12345678, List.replicate 16 0x61, List.length_replicate⟩

theorem ipmiLanBuildMsg_wellFormed_transit :
    ipmiLanBuildMsg .zero transitIntf md5Session ⟨6, 0, 1, [1, 2]⟩ 5 =
        (2, packet .zero md5Session (layeredMessage transitIntf ⟨6, 0, 1, [1, 2]⟩ 5)) ∧
      (ipmiLanBuildMsg .zero transitIntf md5Session ⟨6, 0, 1, [1, 2]⟩ 5).2.length ≤
        msgSize transitIntf md5Session ⟨6, 0, 1, [1, 2]⟩ :=
  ipmiLanBuildMsg_wellFormed .zero transitIntf md5Session ⟨6, 0, 1, [1, 2]⟩ 5 (by decide)

end KTools.Lan
