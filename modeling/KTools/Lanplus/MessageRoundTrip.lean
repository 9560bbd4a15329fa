import KTools.Lanplus.Build
import KTools.Lanplus.Bounds
import Mathlib.Logic.Equiv.Basic

/-!
# A message reads back

The receive functions take a message apart that `ipmi_lanplus_build_v2x_msg` has built in the same
ACTIVE session: the session header gives the flags and the length back (`sessionAt_message`), the last
bytes are the authcode of the bytes before them (`authcodeCheck_message`), and decryption and the pad give
the payload's wire representation (`plainPayload_message`).
-/

namespace KTools.Lanplus
open KTools.Lib KTools.Lib.Bytes

/-! ### Bytes and words -/

section words

theorem toNat_ofNat_mod (n : Nat) : (UInt8.ofNat n).toNat = n % 256 := UInt8.toNat_ofNat'

theorem le16_toNat {n : Nat} (hn : n < 65536) :
    (UInt8.ofNat n).toNat + 256 * (UInt8.ofNat (n >>> 8)).toNat = n := by
  rw [toNat_ofNat_mod, toNat_ofNat_mod, Nat.shiftRight_eq_div_pow]
  omega

theorem length_le32 (w : UInt32) : (le32 w).length = 4 := rfl

end words

/-! ### The confidentiality pad -/

section pad
variable (input : List UInt8)

theorem confPadLength_le (n : Nat) : confPadLength n ≤ 15 := by
  unfold confPadLength cryptAesCbc128BlockSize
  dsimp only
  split
  · omega
  · omega

theorem confPadLength_mod (n : Nat) : (n + confPadLength n + 1) % 16 = 0 := by
  unfold confPadLength cryptAesCbc128BlockSize
  dsimp only
  split
  · omega
  · omega

theorem length_paddedInput :
    (paddedInput input).length = input.length + confPadLength input.length + 1 := by
  unfold paddedInput
  simp only [List.length_append, List.length_map, List.length_range, List.length_singleton]

theorem paddedInput_blocks : (paddedInput input).length % cryptAesCbc128BlockSize = 0 := by
  rw [length_paddedInput]
  exact confPadLength_mod input.length

theorem take_paddedInput : (paddedInput input).take input.length = input := by
  unfold paddedInput
  rw [List.append_assoc]
  exact List.take_left' rfl

/-- The last byte is the pad's length. -/
theorem padLength_paddedInput : padLength (paddedInput input) = confPadLength input.length := by
  unfold padLength
  have hpad := confPadLength_le input.length
  rw [length_paddedInput, Nat.add_sub_cancel]
  unfold paddedInput
  rw [List.getD_eq_getElem?_getD, List.getElem?_append_right (by simp)]
  simp only [List.length_append, List.length_map, List.length_range, Nat.sub_self,
    List.getElem?_cons_zero, Option.getD_some, toNat_ofNat_mod]
  omega

/-- Byte `i` of the pad is `i + 1`. -/
theorem getD_paddedInput {i : Nat} (hi : i < confPadLength input.length) :
    ((paddedInput input).getD (input.length + i) 0).toNat = i + 1 := by
  have hpad := confPadLength_le input.length
  unfold paddedInput
  rw [List.append_assoc, List.getD_eq_getElem?_getD, List.getElem?_append_right (by omega),
    Nat.add_sub_cancel_left, List.getElem?_append_left (by simpa using hi)]
  simp only [List.getElem?_map, List.getElem?_range hi, Option.map_some, Option.getD_some, toNat_ofNat_mod]
  omega

theorem padCounts_paddedInput (e : RxEnv) (m : Nat) :
    ∀ i, i + m ≤ confPadLength input.length → padCounts e (paddedInput input) input.length m i = true := by
  induction m with
  | zero => intro i _; rfl
  | succ m ih =>
    intro i hi
    unfold padCounts
    rw [scratchByte_of_lt (by rw [length_paddedInput]; omega), getD_paddedInput input (by omega),
      ih (i + 1) (by omega), beq_self_eq_true]
    rfl

end pad

/-! ### The receiving side -/

/-- The buffer holds exactly `msg`; behind it lie older bytes. -/
def RxState.holding (s : RxState) (msg : List UInt8) : RxState :=
  { s with rsp := { s.rsp with data := store s.rsp.data 0 msg, dataLen := msg.length } }

theorem slice_holding (s : RxState) {msg : List UInt8} {off n : Nat} (h : off + n ≤ msg.length) :
    slice (s.holding msg).rsp.data off n = (msg.drop off).take n := by
  have := slice_store_inside s.rsp.data 0 msg h
  rwa [Nat.zero_add] at this

/-- `read_session_data_v2x`, `lanplus_has_valid_auth_code` and, when the encrypted bit is set,
`lanplus_decrypt_payload`; gives the authcode's validity, and the payload's place and size. -/
def readBack (e : RxEnv) : Rx (Bool × Nat × Nat) := do
  let off ← readSessionDataV2x offsetAuthtype
  let valid ← lanplusHasValidAuthCode e
  let s ← get
  let size ← payloadSizeOf e off s.rsp.session
  return (valid, off, size)

/-- A message starts with the RMCP header and a session header whose second byte is `t`. -/
structure Starts (msg : List UInt8) (t : UInt8) (msglen : Nat) (rest : List UInt8) : Prop where
  bytes : ∃ id seq, msg = rmcpHeader ++ ([authtypeRmcpPlus, t] ++ le32 id ++ le32 seq ++ le16 msglen) ++ rest

theorem Starts.drop {msg rest : List UInt8} {t : UInt8} {msglen : Nat} (h : Starts msg t msglen rest) :
    msg.drop offsetPayload = rest := by
  obtain ⟨id, seq, rfl⟩ := h.bytes
  rfl

theorem Starts.length {msg rest : List UInt8} {t : UInt8} {msglen : Nat} (h : Starts msg t msglen rest) :
    msg.length = offsetPayload + rest.length := by
  obtain ⟨id, seq, rfl⟩ := h.bytes
  simp only [List.length_append, length_le32]
  rfl

/-- The session header gives the flags and the length back. -/
theorem Starts.session {msg rest : List UInt8} {t : UInt8} {msglen : Nat} (h : Starts msg t msglen rest)
    (hlen : msglen < 65536) (s : RxState) :
    (sessionV2x (s.holding msg).rsp.data offsetAuthtype).authtype = authtypeRmcpPlus ∧
      (sessionV2x (s.holding msg).rsp.data offsetAuthtype).bEncrypted = decide (t &&& 0x80 ≠ 0) ∧
      (sessionV2x (s.holding msg).rsp.data offsetAuthtype).bAuthenticated = decide (t &&& 0x40 ≠ 0) ∧
      (sessionV2x (s.holding msg).rsp.data offsetAuthtype).msglen = msglen := by
  obtain ⟨id, seq, rfl⟩ := h.bytes
  exact ⟨rfl, rfl, rfl, le16_toNat hlen⟩

/-! ### The authcode -/

/-- A negotiated integrity algorithm has an authcode that its HMAC is long enough for. -/
theorem authcode_of_integrity (c : Crypto) {alg : UInt8}
    (h : alg = integrityHmacSha1_96 ∨ alg = integrityHmacMd5_128 ∨ alg = integrityHmacSha256_128)
    (key d : List UInt8) :
    ∃ len mac, authcodeLength alg = some len ∧ lanplusHMAC c alg key d = some mac ∧ len ≤ mac.length ∧
      len ≤ 16 := by
  rcases h with rfl | rfl | rfl
  · exact ⟨_, _, rfl, rfl, by rw [c.length_hmacSha1]; decide, by decide⟩
  · exact ⟨_, _, rfl, rfl, by rw [c.length_hmacMd5]; decide, by decide⟩
  · exact ⟨_, _, rfl, rfl, by rw [c.length_hmacSha256]; decide, by decide⟩

theorem integrityPadSize_le (icts : Bool) (n : Nat) : integrityPadSize icts n ≤ 3 := by
  have hmod : ∀ m, (if m % 4 ≠ 0 then 4 - m % 4 else 0) ≤ 3 := by
    intro m
    split
    · omega
    · omega
  exact hmod _

/-- The last bytes are the authcode of those between the RMCP header and them. -/
theorem authcodeCheck_message {c : Crypto} {v2 : V2Data} {h : SessionHdr} {len : Nat}
    {head input mac : List UInt8} (hhead : head.length = offsetAuthtype)
    (hlen : authcodeLength v2.integrityAlg = some len)
    (hmac : lanplusHMAC c v2.integrityAlg v2.k1 input = some mac) (hle : len ≤ mac.length) (s : RxState) :
    authcodeCheck c v2 (s.holding (head ++ (input ++ mac.take len))).rsp.data
      (head ++ (input ++ mac.take len)).length h = some true := by
  have hauth : (mac.take len).length = len := List.length_take_of_le hle
  have hn : (head ++ (input ++ mac.take len)).length = offsetAuthtype + input.length + len := by
    rw [List.length_append, List.length_append, hauth, hhead, Nat.add_assoc]
  have hinput : slice (s.holding (head ++ (input ++ mac.take len))).rsp.data offsetAuthtype
      ((head ++ (input ++ mac.take len)).length - offsetAuthtype - len) = input := by
    rw [slice_holding s (by omega), List.drop_left' hhead]
    exact List.take_left' (by omega)
  have hcode : slice (s.holding (head ++ (input ++ mac.take len))).rsp.data
      ((head ++ (input ++ mac.take len)).length - len) len = mac.take len := by
    have hcovered : (head ++ input).length = (head ++ (input ++ mac.take len)).length - len := by
      rw [List.length_append, List.length_append, List.length_append, hauth]
      omega
    rw [slice_holding s (by omega), ← List.append_assoc, List.drop_left' (by rw [List.append_assoc]; exact hcovered)]
    exact List.take_of_length_le (by omega)
  unfold authcodeCheck
  split
  · rfl
  · rw [hlen]
    simp only [Option.bind_eq_bind, Option.bind_some, hinput, hmac, hcode]
    rfl

/-! ### The payload -/

/-- What `lanplus_encrypt_payload` sends. -/
def sentPayload (c : Crypto) (v2 : V2Data) (iv wire : List UInt8) : List UInt8 :=
  if v2.cryptAlg = cryptNone then wire else iv ++ c.aesEncrypt iv v2.k2 (paddedInput wire)

theorem lanplusEncryptPayload_eq (c : Crypto) {v2 : V2Data}
    (hcrypt : v2.cryptAlg = cryptNone ∨ v2.cryptAlg = cryptAesCbc128) (iv wire : List UInt8) :
    lanplusEncryptPayload c v2.cryptAlg v2.k2 iv wire = some (sentPayload c v2 iv wire) := by
  unfold lanplusEncryptPayload sentPayload
  rcases hcrypt with h | h
  · rw [if_pos h, if_pos h]
  · have hne : v2.cryptAlg ≠ cryptNone := by rw [h]; decide
    rw [if_neg hne, if_neg hne, if_neg (not_not_intro h)]

theorem length_aesEncrypt_padded (c : Crypto) (iv key wire : List UInt8) :
    (c.aesEncrypt iv key (paddedInput wire)).length = wire.length + confPadLength wire.length + 1 := by
  rw [c.length_aesEncrypt _ _ _ (paddedInput_blocks wire), length_paddedInput]

theorem length_sentPayload_le (c : Crypto) (v2 : V2Data) {iv : List UInt8}
    (hiv : iv.length = cryptAesCbc128BlockSize) (wire : List UInt8) :
    (sentPayload c v2 iv wire).length ≤ wire.length + 32 := by
  unfold sentPayload
  split
  · omega
  · have := confPadLength_le wire.length
    rw [List.length_append, hiv, length_aesEncrypt_padded]
    unfold cryptAesCbc128BlockSize
    omega

section payload
variable {e : RxEnv} {iv wire msg tail : List UInt8} {h : SessionHdr}

/-- The initialization vector and the blocks behind it are decrypted to the padded input. -/
theorem decryptedPayload_message (hiv : iv.length = cryptAesCbc128BlockSize)
    (hdrop : msg.drop offsetPayload = iv ++ e.crypto.aesEncrypt iv e.v2.k2 (paddedInput wire) ++ tail)
    (hlen : msg.length = offsetPayload + (iv ++ e.crypto.aesEncrypt iv e.v2.k2 (paddedInput wire) ++ tail).length)
    (s : RxState) :
    decryptedPayload e.crypto e.v2 (s.holding msg).rsp.data offsetPayload
      (iv ++ e.crypto.aesEncrypt iv e.v2.k2 (paddedInput wire)).length = paddedInput wire := by
  simp only [List.length_append, hiv] at hlen
  have hiv' : slice (s.holding msg).rsp.data offsetPayload cryptAesCbc128BlockSize = iv := by
    rw [slice_holding s (by omega), hdrop, List.append_assoc]
    exact List.take_left' hiv
  have hblocks : slice (s.holding msg).rsp.data (offsetPayload + cryptAesCbc128BlockSize)
      ((iv ++ e.crypto.aesEncrypt iv e.v2.k2 (paddedInput wire)).length - cryptAesCbc128BlockSize) =
        e.crypto.aesEncrypt iv e.v2.k2 (paddedInput wire) := by
    rw [List.length_append, hiv, Nat.add_sub_cancel_left, slice_holding s (by omega), ← List.drop_drop, hdrop,
      List.append_assoc, List.drop_left' hiv]
    exact List.take_left' rfl
  unfold decryptedPayload
  rw [hiv', hblocks, e.crypto.aesDecrypt_aesEncrypt _ _ _ (paddedInput_blocks wire)]

/-- The payload of the message, in the clear, is the wire representation. -/
theorem plainPayload_message (hcrypt : e.v2.cryptAlg = cryptNone ∨ e.v2.cryptAlg = cryptAesCbc128)
    (hiv : iv.length = cryptAesCbc128BlockSize)
    (hdrop : msg.drop offsetPayload = sentPayload e.crypto e.v2 iv wire ++ tail)
    (hlen : msg.length = offsetPayload + (sentPayload e.crypto e.v2 iv wire ++ tail).length)
    (hdec : decrypts e.v2 h = decide (e.v2.cryptAlg ≠ cryptNone))
    (hbound : wire.length ≤ ipmiBufSize) (hmsglen : h.msglen = (sentPayload e.crypto e.v2 iv wire).length) (s : RxState) :
    ∃ data, plainPayload e (s.holding msg).rsp.data offsetPayload h = some (data, wire.length) ∧
      slice data offsetPayload wire.length = wire := by
  unfold plainPayload
  rw [hdec, hmsglen]
  rcases hcrypt with hnone | haes
  · have hsent : sentPayload e.crypto e.v2 iv wire = wire := if_pos hnone
    rw [hsent] at hdrop hlen
    have hfits : offsetPayload + wire.length ≤ msg.length := by
      rw [hlen, List.length_append]
      omega
    simp only [hnone, ne_eq, not_true_eq_false, decide_false, Bool.not_false, true_or, if_true, hsent]
    refine ⟨_, rfl, ?_⟩
    rw [slice_holding s hfits, hdrop]
    exact List.take_left' rfl
  · have hne : e.v2.cryptAlg ≠ cryptNone := by rw [haes]; decide
    have hsent : sentPayload e.crypto e.v2 iv wire = iv ++ e.crypto.aesEncrypt iv e.v2.k2 (paddedInput wire) := if_neg hne
    rw [hsent] at hdrop hlen
    have hdecrypted := decryptedPayload_message hiv hdrop hlen s
    have hpad := confPadLength_le wire.length
    have hsentlen : (iv ++ e.crypto.aesEncrypt iv e.v2.k2 (paddedInput wire)).length =
        cryptAesCbc128BlockSize + (wire.length + confPadLength wire.length + 1) := by
      rw [List.length_append, hiv, length_aesEncrypt_padded]
    have hblocks : ((iv ++ e.crypto.aesEncrypt iv e.v2.k2 (paddedInput wire)).length - cryptAesCbc128BlockSize) %
        cryptAesCbc128BlockSize = 0 := by
      rw [hsentlen, Nat.add_sub_cancel_left]
      exact confPadLength_mod wire.length
    have hfits : offsetPayload + (iv ++ e.crypto.aesEncrypt iv e.v2.k2 (paddedInput wire)).length ≤ msg.length := by
      rw [hlen, @List.length_append _ _ tail]
      omega
    simp only [hne, ne_eq, not_false_eq_true, decide_true, if_false, hsent, Bool.not_true,
      Bool.false_eq_true, or_self]
    refine ⟨store (s.holding msg).rsp.data offsetPayload (paddedInput wire), ?_, ?_⟩
    · have hlt : ¬ (iv ++ e.crypto.aesEncrypt iv e.v2.k2 (paddedInput wire)).length ≤ cryptAesCbc128BlockSize := by
        omega
      have hcond : ¬ (e.v2.cryptAlg ≠ cryptAesCbc128 ∨
          (iv ++ e.crypto.aesEncrypt iv e.v2.k2 (paddedInput wire)).length ≤ cryptAesCbc128BlockSize ∨
          ¬ ((iv ++ e.crypto.aesEncrypt iv e.v2.k2 (paddedInput wire)).length - cryptAesCbc128BlockSize) %
            cryptAesCbc128BlockSize = 0) := by
        rintro (h | h | h)
        · exact h haes
        · exact hlt h
        · exact h hblocks
      rw [if_neg hcond, hdecrypted, padLength_paddedInput, length_paddedInput]
      have hsize : unpaddedSize (wire.length + confPadLength wire.length + 1) (confPadLength wire.length) =
          wire.length := by
        rw [unpaddedSize_eq (by unfold ipmiBufSize at hbound; omega) (by omega)]
        omega
      rw [hsize, if_pos (padCounts_paddedInput wire e _ 0 (by omega))]
    · have := slice_store_inside (s.holding msg).rsp.data offsetPayload (paddedInput wire) (i := 0)
        (n := wire.length) (by rw [length_paddedInput]; omega)
      rw [Nat.add_zero] at this
      rw [this]
      exact take_paddedInput wire

end payload

/-! ### The round trip -/

/-- A payload that is sent and read back in an ACTIVE session. -/
structure Exchange where
  crypto : Crypto
  intf : Intf
  payload : V2Payload
  iv : List UInt8
  currSeq : UInt8
  heap : Nat → UInt8
  active : intf.v2.sessionState = .active
  integrity : intf.v2.integrityAlg = integrityNone ∨ intf.v2.integrityAlg = integrityHmacSha1_96 ∨
    intf.v2.integrityAlg = integrityHmacMd5_128 ∨ intf.v2.integrityAlg = integrityHmacSha256_128
  crypt : intf.v2.cryptAlg = cryptNone ∨ intf.v2.cryptAlg = cryptAesCbc128
  length_iv : iv.length = cryptAesCbc128BlockSize
  length_wire : (wireRep intf currSeq payload).length ≤ ipmiBufSize

namespace Exchange
variable (x : Exchange)

/-- The payload's wire representation before encryption. -/
def wire : List UInt8 := wireRep x.intf x.currSeq x.payload

def sent : List UInt8 := sentPayload x.crypto x.intf.v2 x.iv x.wire

def receiver : RxEnv := { crypto := x.crypto, v2 := x.intf.v2, heap := x.heap }

/-- The second byte of the session header. -/
def typeByte : UInt8 := x.payload.payloadType ||| securityBits x.intf.v2

/-- The session header and the payload. -/
def covered : List UInt8 := sessionHeader x.intf x.payload.payloadType x.sent.length ++ x.sent

theorem payloadType_mem (p : V2Payload) :
    p.payloadType ∈ [payloadTypeIpmi, payloadTypeSol, payloadTypeOpenRequest, payloadTypeRakp1,
      payloadTypeRakp3] := by
  cases p with
  | ipmiRequest _ _ => exact .head _
  | solPacket _ => exact .tail _ (.head _)
  | openSessionRequest _ => exact .tail _ (.tail _ (.head _))
  | rakp1Message _ => exact .tail _ (.tail _ (.tail _ (.head _)))
  | rakp3Message _ => exact .tail _ (.tail _ (.tail _ (.tail _ (.head _))))

/-- No payload type has the encrypted or the authenticated bit. -/
theorem bits_of_type {t : UInt8} (ht : t ∈ [payloadTypeIpmi, payloadTypeSol, payloadTypeOpenRequest,
    payloadTypeRakp1, payloadTypeRakp3]) (p q : Prop) [Decidable p] [Decidable q] :
    decide ((t ||| ((if p then 0x80 else 0) ||| (if q then 0x40 else 0))) &&& 0x80 ≠ 0) = decide p ∧
      decide ((t ||| ((if p then 0x80 else 0) ||| (if q then 0x40 else 0))) &&& 0x40 ≠ 0) = decide q := by
  have hcheck : ∀ t ∈ [payloadTypeIpmi, payloadTypeSol, payloadTypeOpenRequest, payloadTypeRakp1,
      payloadTypeRakp3], ∀ p q : Bool,
      decide ((t ||| ((if p then 0x80 else 0) ||| (if q then 0x40 else 0))) &&& 0x80 ≠ 0) = p ∧
        decide ((t ||| ((if p then 0x80 else 0) ||| (if q then 0x40 else 0))) &&& 0x40 ≠ 0) = q := by
    simp only [List.forall_mem_cons, List.not_mem_nil, false_implies, implies_true, and_true]
    decide
  simpa only [decide_eq_true_eq] using hcheck t ht (decide p) (decide q)

theorem typeByte_bits :
    decide (x.typeByte &&& 0x80 ≠ 0) = decide (x.intf.v2.cryptAlg ≠ cryptNone) ∧
      decide (x.typeByte &&& 0x40 ≠ 0) = decide (x.intf.v2.integrityAlg ≠ integrityNone) := by
  unfold typeByte securityBits
  rw [if_pos x.active]
  exact bits_of_type (payloadType_mem x.payload) _ _

theorem length_sent_le : x.sent.length ≤ 1056 :=
  Nat.le_trans (length_sentPayload_le x.crypto x.intf.v2 x.length_iv x.wire)
    (Nat.add_le_add_right x.length_wire 32)

/-- The message: the header, the payload, and with an integrity algorithm the trailer. -/
theorem build_eq : ∃ msg intf' tail, ipmiLanplusBuildV2xMsg x.crypto x.intf x.payload x.iv x.currSeq =
      some (msg, intf') ∧ Starts msg x.typeByte x.sent.length (x.sent ++ tail) ∧ tail.length ≤ 21 ∧
      (x.intf.v2.integrityAlg ≠ integrityNone → ∃ len mac, authcodeLength x.intf.v2.integrityAlg = some len ∧
        lanplusHMAC x.crypto x.intf.v2.integrityAlg x.intf.v2.k1
          (x.covered ++ integrityPad x.intf.icts x.sent.length) = some mac ∧ len ≤ mac.length ∧
        msg = rmcpHeader ++ (x.covered ++ integrityPad x.intf.icts x.sent.length ++ mac.take len)) := by
  have henc : lanplusEncryptPayload x.crypto x.intf.v2.cryptAlg x.intf.v2.k2 x.iv x.wire = some x.sent :=
    lanplusEncryptPayload_eq x.crypto x.crypt x.iv x.wire
  have hbuild : ipmiLanplusBuildV2xMsg x.crypto x.intf x.payload x.iv x.currSeq =
      (withTrailer x.crypto x.intf x.sent.length x.covered).bind fun body =>
        some (rmcpHeader ++ body, { x.intf with outSeq := nextOutSeq x.intf.outSeq }) := by
    unfold ipmiLanplusBuildV2xMsg
    rw [if_pos x.active, show wireRep x.intf x.currSeq x.payload = x.wire from rfl, henc]
    rfl
  have hcovered : x.covered = [authtypeRmcpPlus, x.typeByte] ++ le32 x.intf.v2.bmcId ++ le32 x.intf.outSeq ++
      le16 x.sent.length ++ x.sent := by
    unfold covered sessionHeader typeByte
    simp only [if_pos x.active]
  rw [hbuild]
  by_cases hint : x.intf.v2.integrityAlg = integrityNone
  · have htrailer : withTrailer x.crypto x.intf x.sent.length x.covered = some x.covered :=
      if_neg fun h => h.2 hint
    rw [htrailer]
    refine ⟨_, _, [], rfl, ⟨x.intf.v2.bmcId, x.intf.outSeq, ?_⟩, by decide, fun h => absurd hint h⟩
    rw [hcovered, List.append_nil, List.append_assoc]
    simp only [List.append_assoc]
  · obtain ⟨len, mac, hlen, hmac, hle, hle16⟩ := authcode_of_integrity x.crypto
      (x.integrity.resolve_left hint) x.intf.v2.k1 (x.covered ++ integrityPad x.intf.icts x.sent.length)
    have htrailer : withTrailer x.crypto x.intf x.sent.length x.covered =
        some (x.covered ++ integrityPad x.intf.icts x.sent.length ++ mac.take len) := by
      unfold withTrailer
      rw [if_pos ⟨x.active, hint⟩]
      simp only [hmac, hlen, Option.bind_eq_bind, Option.bind_some, Option.pure_def]
    rw [htrailer]
    refine ⟨_, _, integrityPad x.intf.icts x.sent.length ++ mac.take len, rfl,
      ⟨x.intf.v2.bmcId, x.intf.outSeq, ?_⟩, ?_, fun _ => ⟨len, mac, hlen, hmac, hle, rfl⟩⟩
    · rw [hcovered]
      simp only [List.append_assoc]
    · have hpad := integrityPadSize_le x.intf.icts x.sent.length
      unfold integrityPad
      simp only [List.length_append, List.length_replicate, List.length_cons, List.length_nil,
        List.length_take_of_le hle]
      omega

/-- **A message reads back**: whatever the buffer held, `ipmi_lanplus_build_v2x_msg` builds a message
whose session header is read, whose authcode is valid, and whose payload is the wire representation, byte
for byte and in length. -/
theorem reads_back (s : RxState) : ∃ msg intf' s',
    ipmiLanplusBuildV2xMsg x.crypto x.intf x.payload x.iv x.currSeq = some (msg, intf') ∧
      readBack x.receiver (s.holding msg) = .ok (true, offsetPayload, x.wire.length) s' ∧
      slice s'.rsp.data offsetPayload x.wire.length = x.wire := by
  obtain ⟨msg, intf', tail, hbuild, hstarts, htail, htrailer⟩ := x.build_eq
  have hsent := x.length_sent_le
  have hlength := hstarts.length
  obtain ⟨hauthtype, hencrypted, hauthenticated, hmsglen⟩ := hstarts.session (by omega) s
  obtain ⟨hcryptBit, hintegrityBit⟩ := x.typeByte_bits
  -- the session header
  let h := sessionV2x (s.holding msg).rsp.data offsetAuthtype
  let s₁ := (s.holding msg).withSession h [.read 4 2, .read 6 4, .read 10 4, .read 14 2]
  have hread : readSessionDataV2x offsetAuthtype (s.holding msg) = .ok offsetPayload s₁ := rfl
  have hchecks : checksAuthcode x.intf.v2 h = decide (x.intf.v2.integrityAlg ≠ integrityNone) := by
    unfold checksAuthcode
    rw [show h.authtype = authtypeRmcpPlus from hauthtype, show h.bAuthenticated = _ from hauthenticated,
      x.active, hintegrityBit]
    by_cases hint : x.intf.v2.integrityAlg = integrityNone
    · simp [hint]
    · simp [hint]
  -- the authcode
  have hcheck : AuthcodeSized msg.length x.intf.v2 h ∧
      authcodeCheck x.crypto x.intf.v2 (s.holding msg).rsp.data msg.length h = some true := by
    by_cases hint : x.intf.v2.integrityAlg = integrityNone
    · have hno : checksAuthcode x.intf.v2 h = false := by rw [hchecks]; exact decide_eq_false (not_not_intro hint)
      refine ⟨fun hyes => absurd hyes (by rw [hno]; exact Bool.false_ne_true), ?_⟩
      unfold authcodeCheck
      rw [hno]
      rfl
    · obtain ⟨len, mac, hlen, hmac, hle, hmsg⟩ := htrailer hint
      refine ⟨fun _ len' hlen' => ?_, ?_⟩
      · obtain rfl := Option.some.inj (hlen.symm.trans hlen')
        rw [hmsg, List.length_append, List.length_append, List.length_take_of_le hle]
        show 4 + len ≤ 4 + _
        omega
      · rw [hmsg]
        exact authcodeCheck_message rfl hlen hmac hle s
  obtain ⟨l, hvalid⟩ := lanplusHasValidAuthCode_run (s := s₁) (n := msg.length)
    (e := x.receiver) rfl hcheck.1
  rw [show authcodeCheck x.receiver.crypto x.receiver.v2 s₁.rsp.data msg.length s₁.rsp.session = some true from
    hcheck.2] at hvalid
  -- the payload
  have hdec : decrypts x.intf.v2 h = decide (x.intf.v2.cryptAlg ≠ cryptNone) := by
    unfold decrypts
    rw [show h.authtype = authtypeRmcpPlus from hauthtype, show h.bEncrypted = _ from hencrypted, x.active,
      hcryptBit]
    simp
  obtain ⟨data, hplain, hdata⟩ := plainPayload_message (e := x.receiver) (h := h) x.crypt x.length_iv
    hstarts.drop hlength hdec x.length_wire hmsglen s
  have hsize := payloadSizeOf_run x.receiver offsetPayload h (s₁.touched l)
  rw [show plainPayload x.receiver (s₁.touched l).rsp.data offsetPayload h =
    some (data, x.wire.length) from hplain] at hsize
  obtain ⟨l', hsize⟩ := hsize
  refine ⟨msg, intf', (s₁.touched l).withData data l', hbuild, ?_, hdata⟩
  unfold readBack
  rw [bind_ok hread, bind_ok hvalid]
  show (payloadSizeOf x.receiver offsetPayload h >>= _) _ = _
  rw [bind_ok hsize]
  rfl

end Exchange

/-! ### A request in an encrypted session -/

theorem length_swap {block cipher : List UInt8} (h : block.length = cipher.length) (d : List UInt8) :
    (Equiv.swap block cipher d).length = d.length := by
  rw [Equiv.swap_apply_def]
  split
  · rename_i hd
    rw [hd, h]
  · split
    · rename_i hd
      rw [hd, h]
    · rfl

def privilegeK1 : List UInt8 := (List.range 20).map UInt8.ofNat

def privilegeK2 : List UInt8 := (List.range 20).map fun i => UInt8.ofNat (32 + i)

def privilegeIv : List UInt8 := (List.range 16).map fun i => UInt8.ofNat (64 + i)

/-- Set Session Privilege Level with its pad, and the block of AES-CBC-128 for it. -/
def privilegeBlock : List UInt8 := paddedInput [0x20, 0x18, 0xC8, 0x81, 0x04, 0x3B, 0x04, 0x3C]

def privilegeCipher : List UInt8 :=
  [0xEE, 0xAD, 0xB4, 0x69, 0x2B, 0xB6, 0xD0, 0xB1, 0x25, 0x3F, 0xE1, 0xD9, 0x1B, 0x09, 0xD3, 0x28]

/-- The bytes under the authcode, and their HMAC-SHA1. -/
def privilegeCovered : List UInt8 :=
  [0x06, 0xC0, 0x00, 0x3A, 0x00, 0x02, 0x03, 0x00, 0x00, 0x00, 0x20, 0x00] ++ privilegeIv ++ privilegeCipher ++
    [0xFF, 0xFF, 0x02, 0x07]

def privilegeMac : List UInt8 :=
  [0xD5, 0xAE, 0x2A, 0xD8, 0xDC, 0x2E, 0x5B, 0x96, 0x3D, 0xB6, 0xAB, 0x99, 0x89, 0xEE, 0x72, 0xFE, 0x33, 0x3C, 0x75, 0x88]

/-- OpenSSL on the block and the bytes of this request. -/
def privilegeCrypto : Crypto :=
  { Crypto.plain with
    hmacSha1 := fun key d =>
      if key = privilegeK1 ∧ d = privilegeCovered then privilegeMac else List.replicate shaDigestLength 0
    aesEncrypt := fun iv key d =>
      if iv = privilegeIv ∧ key = privilegeK2 then Equiv.swap privilegeBlock privilegeCipher d else d
    aesDecrypt := fun iv key d =>
      if iv = privilegeIv ∧ key = privilegeK2 then Equiv.swap privilegeBlock privilegeCipher d else d
    length_hmacSha1 := by
      intro key d
      split
      · rfl
      · exact List.length_replicate
    length_aesEncrypt := by
      intro iv key d _
      split
      · exact length_swap (by decide) d
      · rfl
    length_aesDecrypt := by
      intro iv key d _
      split
      · exact length_swap (by decide) d
      · rfl
    aesDecrypt_aesEncrypt := by
      intro iv key d _
      by_cases h : iv = privilegeIv ∧ key = privilegeK2
      · simp only [if_pos h]
        exact (Equiv.swap privilegeBlock privilegeCipher).symm_apply_apply d
      · simp only [if_neg h] }

/-- The request in an ACTIVE session with HMAC-SHA1-96 and AES-CBC-128. -/
def privilegeExchange : Exchange where
  crypto := privilegeCrypto
  intf :=
    { v2 :=
        { V2Data.initial with
          sessionState := .active
          integrityAlg := integrityHmacSha1_96
          cryptAlg := cryptAesCbc128
          bmcId := 0x02003A00
          k1 := privilegeK1
          k2 := privilegeK2 }
      outSeq := 3
      myAddr := 0x20
      targetAddr := 0x20
      targetChannel := 0
      transitAddr := 0
      transitChannel := 0
      bridgePossible := true
      icts := false }
  payload := .ipmiRequest ⟨netfnApp, 0, 0x3B, [4]⟩ 1
  iv := privilegeIv
  currSeq := 1
  heap := fun _ => 0
  active := rfl
  integrity := .inr (.inl rfl)
  crypt := .inr rfl
  length_iv := rfl
  length_wire := by decide

/-- A buffer before the message comes. -/
def freshBuffer : RxState := ⟨.clear 0, [], []⟩

theorem privilegeExchange_reads_back : ∃ msg intf' s',
    ipmiLanplusBuildV2xMsg privilegeCrypto privilegeExchange.intf privilegeExchange.payload privilegeIv 1 =
      some (msg, intf') ∧
      readBack privilegeExchange.receiver (freshBuffer.holding msg) = .ok (true, offsetPayload, 8) s' ∧
      slice s'.rsp.data offsetPayload 8 = [0x20, 0x18, 0xC8, 0x81, 0x04, 0x3B, 0x04, 0x3C] :=
  privilegeExchange.reads_back freshBuffer

/-- The message has the encrypted block and the first 12 bytes of the HMAC. -/
example : (ipmiLanplusBuildV2xMsg privilegeCrypto privilegeExchange.intf privilegeExchange.payload privilegeIv 1).map
    Prod.fst = some (rmcpHeader ++ privilegeCovered ++ privilegeMac.take 12) := by
  decide +kernel

end KTools.Lanplus
