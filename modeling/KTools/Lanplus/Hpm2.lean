import KTools.Lanplus.MessageRoundTrip

/-!
# The payload sizes of HPM.2

`hpm2_detect_max_payload_size` asks the BMC for the largest payloads it takes and sends, and the size setters of
the interface store what is left of them for the data of a request and of a response. The sizes are `uint16_t`:
7 and 8 are taken off before the size is compared with the minimum, and with cipher suite 3 another 17 after it,
so both subtractions can wrap around.

The limits are right exactly for the sizes of `Reported.Fits` (`limits_right_iff`): the first subtraction does not
wrap around, and with cipher suite 3 the size is either left or large enough for the second, and the inbound size
leaves the rest of a block that a padded request of the stored length needs.
-/

namespace KTools.Lanplus
open KTools.Lib

def ipmiDefaultPayloadSize : UInt16 := 25
def ipmiLanMaxRequestSize : UInt16 := 38
def ipmiLanMaxResponseSize : UInt16 := 34

/-- The part of `struct ipmi_intf` with the sizes. -/
structure SizeIntf where
  cipherSuiteId : UInt8
  maxRequestDataSize : UInt16
  maxResponseDataSize : UInt16
  deriving DecidableEq

/-- After `ipmi_lanplus_setup`. -/
def SizeIntf.setup (cipherSuiteId : UInt8) : SizeIntf where
  cipherSuiteId := cipherSuiteId
  maxRequestDataSize := ipmiLanMaxRequestSize
  maxResponseDataSize := ipmiLanMaxResponseSize

/-! ### The setters -/

/-- What both setters of lanplus make of a size. -/
def lanpSize (cipherSuiteId : UInt8) (size : UInt16) : UInt16 :=
  if cipherSuiteId = cipherSuite3 then (size &&& ~~~15) - (16 + 1) else size

def ipmiLanpSetMaxRqDataSize (intf : SizeIntf) (size : UInt16) : SizeIntf :=
  { intf with maxRequestDataSize := lanpSize intf.cipherSuiteId size }

def ipmiLanpSetMaxRpDataSize (intf : SizeIntf) (size : UInt16) : SizeIntf :=
  { intf with maxResponseDataSize := lanpSize intf.cipherSuiteId size }

def ipmiIntfSetMaxRequestDataSize (intf : SizeIntf) (size : UInt16) : SizeIntf :=
  if size < ipmiDefaultPayloadSize then intf else ipmiLanpSetMaxRqDataSize intf size

def ipmiIntfSetMaxResponseDataSize (intf : SizeIntf) (size : UInt16) : SizeIntf :=
  if size < ipmiDefaultPayloadSize - 1 then intf else ipmiLanpSetMaxRpDataSize intf size

/-! ### The capabilities -/

def hpm2LanParamsRev : UInt8 := 0x01
def hpm2SolParamsRev : UInt8 := 0x01
def hpm2CapsSolExtension : UInt8 := 0x01

def lanParamRev (x y : UInt8) : UInt8 := x <<< 4 ||| (y &&& 0xF)

/-- The little-endian word at `i`. -/
def wordAt (bytes : List UInt8) (i : Nat) : UInt16 :=
  (bytes.getD (i + 1) 0).toUInt16 <<< 8 ||| (bytes.getD i 0).toUInt16

structure LanAttachCapabilities where
  hpm2RevisionId : UInt8
  lanChannelMask : UInt16
  hpm2Caps : UInt8
  hpm2LanParamsStart : UInt8
  hpm2LanParamsRev : UInt8
  hpm2SolParamsStart : UInt8
  hpm2SolParamsRev : UInt8

/-- The bytes of the response, the missing ones 0. -/
def LanAttachCapabilities.ofBytes (bytes : List UInt8) : LanAttachCapabilities where
  hpm2RevisionId := bytes.getD 0 0
  lanChannelMask := wordAt bytes 1
  hpm2Caps := bytes.getD 3 0
  hpm2LanParamsStart := bytes.getD 4 0
  hpm2LanParamsRev := bytes.getD 5 0
  hpm2SolParamsStart := bytes.getD 6 0
  hpm2SolParamsRev := bytes.getD 7 0

structure LanChannelCapabilities where
  capabilities : UInt8
  attachType : UInt8
  bandwidthClass : UInt8
  maxInboundPldSize : UInt16
  maxOutboundPldSize : UInt16

def LanChannelCapabilities.ofBytes (bytes : List UInt8) : LanChannelCapabilities where
  capabilities := bytes.getD 0 0
  attachType := bytes.getD 1 0
  bandwidthClass := bytes.getD 2 0
  maxInboundPldSize := wordAt bytes 3
  maxOutboundPldSize := wordAt bytes 5

/-- `sizeof (struct hpm2_lan_channel_capabilities)`. -/
def lanChannelCapabilitiesSize : Nat := 7

/-- The checks of the capabilities that `data_len` bytes of response gave; the result of the call. -/
def checkAttachCapabilities (dataLen : Nat) (caps : LanAttachCapabilities) : Int :=
  if caps.hpm2RevisionId = 0 then -1
  else if caps.lanChannelMask = 0 then -1
  else if dataLen < 8 then -1
  else if caps.hpm2LanParamsStart < 0xC0 then -1
  else if caps.hpm2LanParamsRev ≠ hpm2LanParamsRev then -1
  else if caps.hpm2Caps &&& hpm2CapsSolExtension = 0 then 0
  else if dataLen < 10 then -1
  else if caps.hpm2SolParamsStart < 0xC0 then -1
  else if caps.hpm2SolParamsRev ≠ hpm2SolParamsRev then -1
  else 0

/-- `hpm2_get_capabilities` with the response to its request: the result and `*caps`. -/
def hpm2GetCapabilities : Option CmdRsp → Int × LanAttachCapabilities
  | none => (-1, .ofBytes [])
  | some rsp =>
    if rsp.ccode ≠ 0 then (rsp.ccode.toNat, .ofBytes [])
    else if rsp.data.length < 2 ∨ 10 < rsp.data.length then (-1, .ofBytes [])
    else if rsp.data.getD 1 0 ≠ 2 then (rsp.ccode.toNat, .ofBytes [])
    else if rsp.data.length < 4 then (-1, .ofBytes [])
    else
      let caps := LanAttachCapabilities.ofBytes (rsp.data.drop 2)
      (checkAttachCapabilities rsp.data.length caps, caps)

/-- `hpm2_get_lan_channel_capabilities` with the response to its request: the result and `*caps`. -/
def hpm2GetLanChannelCapabilities : Option CmdRsp → Int × LanChannelCapabilities
  | none => (-1, .ofBytes [])
  | some rsp =>
    if rsp.ccode ≠ 0 then (rsp.ccode.toNat, .ofBytes [])
    else if rsp.data.length ≠ lanChannelCapabilitiesSize + 1 then (-1, .ofBytes [])
    else if rsp.data.getD 0 0 ≠ lanParamRev hpm2LanParamsRev hpm2LanParamsRev then (-1, .ofBytes [])
    else (0, .ofBytes (rsp.data.drop 1))

/-- `hpm2_detect_max_payload_size`; `channel` is the response to the request for the parameter. -/
def hpm2DetectMaxPayloadSize (intf : SizeIntf) (attach : Option CmdRsp) (channel : UInt8 → Option CmdRsp) :
    Int × SizeIntf :=
  let attachCaps := hpm2GetCapabilities attach
  if attachCaps.1 ≠ 0 ∨ attachCaps.2.lanChannelMask = 0 then (attachCaps.1, intf)
  else
    let channelCaps := hpm2GetLanChannelCapabilities (channel attachCaps.2.hpm2LanParamsStart)
    if channelCaps.1 ≠ 0 then (channelCaps.1, intf)
    else
      let intf := ipmiIntfSetMaxRequestDataSize intf (channelCaps.2.maxInboundPldSize - 7)
      let intf := ipmiIntfSetMaxResponseDataSize intf (channelCaps.2.maxOutboundPldSize - 8)
      (0, intf)

/-! ### What the limits should be -/

/-- A call for a session with a cipher suite, with what the BMC answers. -/
structure Detection where
  cipherSuiteId : UInt8
  attach : Option CmdRsp
  channel : UInt8 → Option CmdRsp

/-- The limit for a payload size of which `allowance` bytes are not data, computed without wrap-around. -/
def exactLimit (cipherSuiteId : UInt8) (allowance : Nat) (reported : UInt16) : Int :=
  let size : Int := reported.toNat - allowance
  if cipherSuiteId = cipherSuite3 then size / 16 * 16 - (16 + 1) else size

/-- A limit that was left, or that was computed exactly and is not larger than the size. -/
def LimitRight (cipherSuiteId : UInt8) (allowance : Nat) (reported left limit : UInt16) : Prop :=
  limit = left ∨ ((limit.toNat : Int) = exactLimit cipherSuiteId allowance reported ∧ limit ≤ reported)

/-- Every unbridged request with at most `limit` bytes of data is encrypted to a payload of at most `size` bytes. -/
def EncryptsWithin (limit size : Nat) : Prop :=
  ∀ (c : Crypto) (key iv : List UInt8) (intf : Intf) (req : IpmiRq) (rqSeq currSeq : UInt8),
    iv.length = cryptAesCbc128BlockSize → intf.unbridged = true → req.data.length ≤ limit →
      ∃ sent, lanplusEncryptPayload c cryptAesCbc128 key iv (getIpmiPayloadWireRep intf req rqSeq currSeq) =
        some sent ∧ sent.length ≤ size

namespace Detection
variable (x : Detection)

def after : SizeIntf := (hpm2DetectMaxPayloadSize (.setup x.cipherSuiteId) x.attach x.channel).2

/-- The capabilities of the channel, if both requests succeed. -/
def reported : Option LanChannelCapabilities :=
  let attachCaps := hpm2GetCapabilities x.attach
  if attachCaps.1 ≠ 0 ∨ attachCaps.2.lanChannelMask = 0 then none
  else
    let channelCaps := hpm2GetLanChannelCapabilities (x.channel attachCaps.2.hpm2LanParamsStart)
    if channelCaps.1 ≠ 0 then none else some channelCaps.2

/-- The limits after the call are right. -/
structure Right : Prop where
  unreported : x.reported = none → x.after = .setup x.cipherSuiteId
  request : ∀ caps, x.reported = some caps →
    LimitRight x.cipherSuiteId 7 caps.maxInboundPldSize ipmiLanMaxRequestSize x.after.maxRequestDataSize
  response : ∀ caps, x.reported = some caps →
    LimitRight x.cipherSuiteId 8 caps.maxOutboundPldSize ipmiLanMaxResponseSize x.after.maxResponseDataSize
  encrypted : ∀ caps, x.reported = some caps → x.cipherSuiteId = cipherSuite3 →
    x.after.maxRequestDataSize ≠ ipmiLanMaxRequestSize →
      EncryptsWithin x.after.maxRequestDataSize.toNat caps.maxInboundPldSize.toNat

/-- The sizes for which they are. -/
structure Fits : Prop where
  inbound : ∀ caps, x.reported = some caps → 7 ≤ caps.maxInboundPldSize.toNat
  outbound : ∀ caps, x.reported = some caps → 8 ≤ caps.maxOutboundPldSize.toNat
  inboundBlocks : ∀ caps, x.reported = some caps → x.cipherSuiteId = cipherSuite3 →
    caps.maxInboundPldSize.toNat < 7 + 25 ∨
      (7 + 32 ≤ caps.maxInboundPldSize.toNat ∧ 9 ≤ (caps.maxInboundPldSize.toNat - 7) % 16)
  outboundBlocks : ∀ caps, x.reported = some caps → x.cipherSuiteId = cipherSuite3 →
    caps.maxOutboundPldSize.toNat < 8 + 24 ∨ 8 + 32 ≤ caps.maxOutboundPldSize.toNat

end Detection

/-! ### One limit -/

/-- The mask rounds down to blocks of 16. -/
theorem toNat_and_not_15 (size : UInt16) : (size &&& ~~~15).toNat = size.toNat / 16 * 16 := by
  have hmask : (~~~15 : UInt16).toNat = (2 ^ 12 - 1) <<< 4 := by decide
  have hdown : size.toNat / 16 * 16 = (size.toNat >>> 4) <<< 4 := by
    rw [Nat.shiftLeft_eq, Nat.shiftRight_eq_div_pow]
  rw [UInt16.toNat_and, hmask, hdown]
  apply Nat.eq_of_testBit_eq
  intro i
  rw [Nat.testBit_and, Nat.testBit_shiftLeft, Nat.testBit_shiftLeft, Nat.testBit_shiftRight,
    Nat.testBit_two_pow_sub_one]
  by_cases h : 4 ≤ i
  · by_cases hlow : i - 4 < 12
    · simp [h, hlow]
    · -- the size has no such bit
      have hbig : size.toNat < 2 ^ i :=
        Nat.lt_of_lt_of_le size.toNat_lt (Nat.pow_le_pow_right (by decide) (by omega))
      rw [Nat.add_sub_cancel' h, Nat.testBit_lt_two_pow hbig]
      simp
  · simp [h]

/-- What a setter stores for a reported size: nothing below the minimum. -/
def storedLimit (cipherSuiteId : UInt8) (allowance minimum reported left : UInt16) : UInt16 :=
  if reported - allowance < minimum then left else lanpSize cipherSuiteId (reported - allowance)

section Limit
variable (cipherSuiteId : UInt8) (allowance minimum reported left : UInt16)

theorem toNat_lanpSize_3 (size : UInt16) :
    (lanpSize cipherSuite3 size).toNat = (size.toNat / 16 * 16 + (65536 - 17)) % 65536 := by
  have hsub : (16 + 1 : UInt16).toNat = 17 := by decide
  rw [lanpSize, if_pos rfl, UInt16.toNat_sub, toNat_and_not_15, hsub, Nat.add_comm]

/-- A stored limit is right when the first subtraction does not wrap around and, with cipher suite 3, the second
one has two blocks to take from. -/
theorem limitRight_storedLimit (hallowance : allowance.toNat ≤ 8) (hminimum : minimum.toNat ≤ 25)
    (hleft : left.toNat ≤ 38) :
    LimitRight cipherSuiteId allowance.toNat reported left
        (storedLimit cipherSuiteId allowance minimum reported left) ↔
      allowance.toNat ≤ reported.toNat ∧ (cipherSuiteId = cipherSuite3 →
        reported.toNat < allowance.toNat + minimum.toNat ∨ allowance.toNat + 32 ≤ reported.toNat) := by
  have hlt := reported.toNat_lt
  have hsub : (reported - allowance).toNat = (65536 - allowance.toNat + reported.toNat) % 65536 :=
    UInt16.toNat_sub reported allowance
  unfold LimitRight storedLimit exactLimit
  simp only [UInt16.lt_iff_toNat_lt, UInt16.le_iff_toNat_le, ← UInt16.toNat_inj]
  by_cases hsmall : (reported - allowance).toNat < minimum.toNat
  · simp only [if_pos hsmall, true_or, true_iff]
    omega
  · simp only [if_neg hsmall]
    by_cases hsuite : cipherSuiteId = cipherSuite3
    · subst hsuite
      simp only [toNat_lanpSize_3, if_true, forall_const]
      omega
    · have hsize : lanpSize cipherSuiteId (reported - allowance) = reported - allowance := if_neg hsuite
      rw [if_neg hsuite, hsize]
      simp only [hsuite, false_imp_iff, and_true]
      omega

end Limit

/-! ### One encrypted request -/

/-- The payload of an unbridged request: the initialization vector, and blocks for 7 bytes of header, the data and
the pad length. -/
theorem length_encrypted (c : Crypto) (key iv : List UInt8) (intf : Intf) (req : IpmiRq) (rqSeq currSeq : UInt8)
    (hiv : iv.length = cryptAesCbc128BlockSize) (hunbridged : intf.unbridged = true) :
    ∃ sent, lanplusEncryptPayload c cryptAesCbc128 key iv (getIpmiPayloadWireRep intf req rqSeq currSeq) =
      some sent ∧ sent.length = 16 + (req.data.length + 8 + confPadLength (req.data.length + 7)) := by
  have hwire : (getIpmiPayloadWireRep intf req rqSeq currSeq).length = req.data.length + 7 := by
    rw [getIpmiPayloadWireRep, if_pos hunbridged]
    exact length_requestMessage _ _ _ _
  have hne : cryptAesCbc128 ≠ cryptNone := by decide
  refine ⟨_, by rw [lanplusEncryptPayload, if_neg hne, if_neg (not_not_intro rfl)], ?_⟩
  rw [List.length_append, hiv, length_aesEncrypt_padded, hwire]
  unfold cryptAesCbc128BlockSize
  omega

/-- An interface that bridges nothing. -/
def Intf.direct : Intf where
  v2 := .initial
  outSeq := 1
  myAddr := 0x20
  targetAddr := 0x20
  targetChannel := 0
  transitAddr := 0
  transitChannel := 0
  bridgePossible := true
  icts := false

/-- With a limit of one byte less than whole blocks behind the header, the longest request needs the next block. -/
theorem encryptsWithin_iff {blocks size : Nat} (hblocks : 2 ≤ blocks) :
    EncryptsWithin (blocks * 16 - 17) size ↔ blocks * 16 + 16 ≤ size := by
  constructor
  · intro h
    obtain ⟨req, hreq⟩ : ∃ req : IpmiRq, req.data.length = blocks * 16 - 17 :=
      ⟨⟨6, 0, 1, List.replicate (blocks * 16 - 17) 0⟩, List.length_replicate⟩
    obtain ⟨sent, hsent, hle⟩ := h .plain [] (List.replicate 16 0) .direct req 0 0 rfl (by decide) (by omega)
    obtain ⟨sent', hsent', hlen⟩ := length_encrypted .plain [] (List.replicate 16 0) .direct req 0 0 rfl
      (by decide)
    obtain rfl : sent = sent' := Option.some.inj (hsent.symm.trans hsent')
    have hmod := confPadLength_mod (req.data.length + 7)
    omega
  · intro h c key iv intf req rqSeq currSeq hiv hunbridged hreq
    obtain ⟨sent, hsent, hlen⟩ := length_encrypted c key iv intf req rqSeq currSeq hiv hunbridged
    refine ⟨sent, hsent, ?_⟩
    have hmod := confPadLength_mod (req.data.length + 7)
    have hpad := confPadLength_le (req.data.length + 7)
    omega

/-- The limit that cipher suite 3 gives an inbound size. -/
theorem storedLimit_inbound {inbound : UInt16} (h : 7 + 32 ≤ inbound.toNat) :
    (storedLimit cipherSuite3 7 25 inbound ipmiLanMaxRequestSize).toNat =
      (inbound.toNat - 7) / 16 * 16 - 17 := by
  have hlt := inbound.toNat_lt
  have hsub : (inbound - 7).toNat = (65536 - 7 + inbound.toNat) % 65536 := UInt16.toNat_sub inbound 7
  have hmin : ¬ (inbound - 7) < 25 := by
    rw [UInt16.lt_iff_toNat_lt, show (25 : UInt16).toNat = 25 from rfl]
    omega
  rw [storedLimit, if_neg hmin, toNat_lanpSize_3]
  omega

theorem encryptsWithin_storedLimit {inbound : UInt16} (h : 7 + 32 ≤ inbound.toNat) :
    EncryptsWithin (storedLimit cipherSuite3 7 25 inbound ipmiLanMaxRequestSize).toNat inbound.toNat ↔
      9 ≤ (inbound.toNat - 7) % 16 := by
  rw [storedLimit_inbound h, encryptsWithin_iff (by omega)]
  omega

/-! ### The limits of a call -/

namespace Detection
variable (x : Detection)

theorem after_unreported (h : x.reported = none) : x.after = .setup x.cipherSuiteId := by
  unfold reported at h
  unfold after hpm2DetectMaxPayloadSize
  by_cases hattach : (hpm2GetCapabilities x.attach).1 ≠ 0 ∨ (hpm2GetCapabilities x.attach).2.lanChannelMask = 0
  · simp only [if_pos hattach]
  · simp only [if_neg hattach] at h ⊢
    split
    · rfl
    · rename_i hchannel
      rw [if_neg hchannel] at h
      cases h

/-- Both limits come from the capabilities of the channel. -/
theorem after_reported {caps : LanChannelCapabilities} (h : x.reported = some caps) : x.after =
    { cipherSuiteId := x.cipherSuiteId
      maxRequestDataSize := storedLimit x.cipherSuiteId 7 25 caps.maxInboundPldSize ipmiLanMaxRequestSize
      maxResponseDataSize := storedLimit x.cipherSuiteId 8 24 caps.maxOutboundPldSize ipmiLanMaxResponseSize } := by
  unfold reported at h
  unfold after hpm2DetectMaxPayloadSize
  by_cases hattach : (hpm2GetCapabilities x.attach).1 ≠ 0 ∨ (hpm2GetCapabilities x.attach).2.lanChannelMask = 0
  · simp only [if_pos hattach] at h
    cases h
  · simp only [if_neg hattach] at h ⊢
    split
    · rename_i hchannel
      rw [if_pos hchannel] at h
      cases h
    · rename_i hchannel
      rw [if_neg hchannel] at h
      obtain rfl := Option.some.inj h
      have hminimum : ipmiDefaultPayloadSize - 1 = 24 := by decide
      unfold ipmiIntfSetMaxResponseDataSize ipmiIntfSetMaxRequestDataSize storedLimit
      rw [hminimum, ipmiDefaultPayloadSize]
      split <;> split <;> rfl

/-- The limits are right exactly for the sizes that fit. -/
theorem limits_right_iff : x.Right ↔ x.Fits := by
  have hrequest := fun R => limitRight_storedLimit x.cipherSuiteId 7 25 R ipmiLanMaxRequestSize (by decide)
    (by decide) (by decide)
  have hresponse := fun R => limitRight_storedLimit x.cipherSuiteId 8 24 R ipmiLanMaxResponseSize (by decide)
    (by decide) (by decide)
  constructor
  · intro h
    refine ⟨fun caps hcaps => ?_, fun caps hcaps => ?_, fun caps hcaps hsuite => ?_, fun caps hcaps hsuite => ?_⟩
    · have hin := h.request caps hcaps
      rw [x.after_reported hcaps] at hin
      exact ((hrequest _).1 hin).1
    · have hout := h.response caps hcaps
      rw [x.after_reported hcaps] at hout
      exact ((hresponse _).1 hout).1
    · have hin := h.request caps hcaps
      rw [x.after_reported hcaps] at hin
      refine (((hrequest _).1 hin).2 hsuite).imp_right fun hlarge => ⟨hlarge, ?_⟩
      have hlimit := storedLimit_inbound hlarge
      have henc := h.encrypted caps hcaps hsuite
      simp only [x.after_reported hcaps, hsuite] at henc
      refine (encryptsWithin_storedLimit hlarge).1 (henc fun hleft => ?_)
      rw [hleft, show ipmiLanMaxRequestSize.toNat = 38 from rfl] at hlimit
      omega
    · have hout := h.response caps hcaps
      rw [x.after_reported hcaps] at hout
      exact ((hresponse _).1 hout).2 hsuite
  · intro h
    refine ⟨x.after_unreported, fun caps hcaps => ?_, fun caps hcaps => ?_, fun caps hcaps hsuite hstored => ?_⟩
    · rw [x.after_reported hcaps]
      exact (hrequest _).2 ⟨h.inbound caps hcaps,
        fun hsuite => (h.inboundBlocks caps hcaps hsuite).imp_right And.left⟩
    · rw [x.after_reported hcaps]
      exact (hresponse _).2 ⟨h.outbound caps hcaps, h.outboundBlocks caps hcaps⟩
    · rw [x.after_reported hcaps] at hstored ⊢
      dsimp only at hstored ⊢
      rw [hsuite] at hstored ⊢
      rcases h.inboundBlocks caps hcaps hsuite with hsmall | ⟨hlarge, hrest⟩
      · -- the size was left
        have hin := h.inbound caps hcaps
        have hsub := UInt16.toNat_sub caps.maxInboundPldSize 7
        refine absurd (if_pos ?_) hstored
        rw [UInt16.lt_iff_toNat_lt, hsub, show (7 : UInt16).toNat = 7 from rfl,
          show (25 : UInt16).toNat = 25 from rfl]
        omega
      · exact (encryptsWithin_storedLimit hlarge).2 hrest

/-- A BMC with payloads of 36 bytes. -/
def small : Detection where
  cipherSuiteId := cipherSuite3
  attach := some ⟨0, [0, 2, 1, 1, 0, 0, 0xC0, 1]⟩
  channel := fun _ => some ⟨0, [0x11, 0, 0, 0, 36, 0, 36, 0]⟩

/-- Both limits wrap around. -/
theorem small_after : small.after = ⟨cipherSuite3, 65535, 65535⟩ := by decide

theorem small_not_right : ¬ small.Right := by
  intro h
  have hin := h.request (.ofBytes [0, 0, 0, 36, 0, 36, 0]) rfl
  rw [small_after] at hin
  rcases hin with hleft | ⟨-, hle⟩
  · exact absurd hleft (by decide)
  · exact absurd hle (by decide)

end Detection

end KTools.Lanplus
