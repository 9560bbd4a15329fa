import KTools.Lanplus.MessageRoundTrip
import KTools.Lanplus.Send

/-!
# Encryption that fails

`lanplus_encrypt_payload` works in the message's memory and may fail: there is no memory for the padded input,
`RAND_bytes` gives no IV, or the cipher does not encrypt. It says so by its result or by the number of bytes
written, and `ipmi_lanplus_build_v2x_msg` uses only the number.

The functions of the other modules are here with the outcomes of these calls, and `ipmi_lanplus_send_payload`
as far as it builds and transmits, in an ACTIVE session with AES-CBC-128. The other allocations succeed; what
else the environment decides in a turn of the loop is a `Turn`.
-/

namespace KTools.Lanplus.Fallible
open KTools.Lib KTools.Lib.Bytes

/-! ### `lanplus_encrypt_payload` -/

/-- What the calls inside `lanplus_encrypt_payload` give. -/
structure Outcome where
  malloc : Bool
  /-- The result of `RAND_bytes`: 1, or 0 or -1 when it has failed. -/
  rand : Int
  /-- What `RAND_bytes` writes. -/
  randBytes : List UInt8
  ctxNew : Bool
  encryptInit : Bool
  encryptUpdate : Bool
  encryptFinal : Bool
  length_randBytes : randBytes.length ≤ cryptAesCbc128BlockSize
  full_randBytes : rand = 1 → randBytes.length = cryptAesCbc128BlockSize

/-- All calls succeed. -/
structure Outcome.Succeeds (o : Outcome) : Prop where
  malloc : o.malloc = true
  rand : o.rand = 1
  ctxNew : o.ctxNew = true
  encryptInit : o.encryptInit = true
  encryptUpdate : o.encryptUpdate = true
  encryptFinal : o.encryptFinal = true

/-- `lanplus_rand` is true on failure, and -1 is not one to it. -/
def lanplusRand (o : Outcome) : Bool := o.rand == 0

/-- `lanplus_encrypt_aes_cbc_128`; nothing is written on failure. The result of `EVP_EncryptInit_ex` is not
used, but a context without a cipher encrypts nothing. -/
def lanplusEncryptAesCbc128 (c : Crypto) (o : Outcome) (iv key input : List UInt8) : List UInt8 :=
  if !o.ctxNew then []
  else if !(o.encryptInit && o.encryptUpdate) then []
  else if !o.encryptFinal then []
  else c.aesEncrypt iv key input

/-- What `lanplus_encrypt_payload` returns, and what it leaves in the output and in `bytes_written`. -/
structure Encryption where
  failed : Bool
  output : Nat → UInt8
  bytesWritten : Nat

/-- The part that `ipmi_lanplus_build_v2x_msg` sends as the payload. -/
def Encryption.sent (e : Encryption) : List UInt8 := slice e.output 0 e.bytesWritten

/-- The output is the input, and `bytes_written`, a `uint16_t`, is its length before; `none` is a failed
assertion. -/
def lanplusEncryptPayload (c : Crypto) (o : Outcome) (cryptAlg : UInt8) (key : List UInt8)
    (input : Nat → UInt8) (inputLength : Nat) : Option Encryption :=
  if cryptAlg = cryptNone then some ⟨false, input, inputLength⟩
  else if cryptAlg ≠ cryptAesCbc128 then none
  else if !o.malloc then some ⟨true, input, inputLength⟩
  else
    let padded := paddedInput (slice input 0 inputLength)
    let output := store input 0 o.randBytes
    if lanplusRand o then some ⟨true, output, inputLength⟩
    else
      let encrypted := lanplusEncryptAesCbc128 c o (slice output 0 cryptAesCbc128BlockSize) key padded
      some ⟨false, store output cryptAesCbc128BlockSize encrypted,
        (cryptAesCbc128BlockSize + encrypted.length) % 65536⟩

/-! ### `ipmi_lanplus_build_v2x_msg` -/

/-- The zeroed message behind its headers, with the payload. -/
def payloadMemory (wire : List UInt8) : Nat → UInt8 := store (fun _ => 0) 0 wire

/-- The message, and the interface with its next sequence number; `none` is a failed assertion. -/
def ipmiLanplusBuildV2xMsg (c : Crypto) (intf : Intf) (payload : V2Payload) (o : Outcome) (currSeq : UInt8) :
    Option (List UInt8 × Intf) := do
  let wire := wireRep intf currSeq payload
  let payloadLength := wire.length % 65536
  let e ← if intf.v2.sessionState = .active then
      lanplusEncryptPayload c o intf.v2.cryptAlg intf.v2.k2 (payloadMemory wire) payloadLength
    else some ⟨false, payloadMemory wire, payloadLength⟩
  -- `e.failed` is not used
  let body ← withTrailer c intf e.sent.length (sessionHeader intf payload.payloadType e.sent.length ++ e.sent)
  return (rmcpHeader ++ body, { intf with outSeq := nextOutSeq intf.outSeq })

/-! ### `ipmi_lanplus_send_payload` -/

/-- A payload that is sent in a session. -/
inductive Outgoing where
  | ipmi (request : IpmiRq)
  | sol (packet : SolRequest)

/-- What one turn of the loop meets: whether `malloc` gives the entry and the v1.5 message, the encryption,
whether `send` succeeds, whether the loop ends behind it, and whether the timeout has passed. -/
structure Turn where
  entryAllocated : Bool
  msgAllocated : Bool
  outcome : Outcome
  sendOk : Bool
  leaves : Bool
  timeUp : Bool

/-- A message handed to `ipmi_lan_send_packet`, with the payload it was built from. -/
structure Packet where
  wire : List UInt8
  outcome : Outcome
  message : List UInt8

structure Sender where
  intf : Intf
  currSeq : UInt8
  sent : List Packet

abbrev SendM := EStateM Abort Sender

/-- The payload of a message in the v1.5 format. -/
def v15Payload (req : IpmiRq) : List UInt8 :=
  withCsum [bmcSlaveAddr, req.netfn <<< 2] ++ withCsum ([remoteSwid, 0, req.cmd] ++ req.data)

def setCurrSeq (currSeq : UInt8) : SendM PUnit := modify fun s => { s with currSeq := currSeq }

def buildV2xMsg (c : Crypto) (payload : V2Payload) (o : Outcome) (currSeq : UInt8) :
    SendM (Option Packet) := do
  let s ← get
  match ipmiLanplusBuildV2xMsg c s.intf payload o currSeq with
  | none => throw .assertion
  | some (message, intf) =>
    set { s with intf := intf }
    return some ⟨wireRep s.intf currSeq payload, o, message⟩

/-- `ipmi_lanplus_build_v2x_ipmi_cmd`; `none` is NULL. -/
def buildV2xIpmiCmd (c : Crypto) (req : IpmiRq) (isRetry : Bool) (t : Turn) : SendM (Option Packet) := do
  let s ← get
  let seq := nextCurrSeq isRetry s.currSeq
  setCurrSeq seq
  if !t.entryAllocated then return none
  else buildV2xMsg c (.ipmiRequest req seq) t.outcome seq

/-- `ipmi_lanplus_build_v15_ipmi_cmd`. -/
def buildV15IpmiCmd (req : IpmiRq) (t : Turn) : SendM (Option Packet) := do
  if !t.entryAllocated then return none
  else if !t.msgAllocated then return none
  else
    let s ← get
    return some ⟨v15Payload req, t.outcome, v15Message s.intf.outSeq req⟩

/-- The message of a request, in the format of its transmission. -/
def buildIpmiCmd (c : Crypto) (req : IpmiRq) (isRetry : Bool) (t : Turn) : SendM (Option Packet) := do
  let s ← get
  if sendsV15 s.intf req then buildV15IpmiCmd req t else buildV2xIpmiCmd c req isRetry t

/-- The message of a transmission, by the type of the payload. -/
def buildPacket (c : Crypto) (isRetry : Bool) (t : Turn) : Outgoing → SendM (Option Packet)
  | .ipmi req => buildIpmiCmd c req isRetry t
  | .sol packet => buildV2xMsg c (.solPacket packet) t.outcome 0

/-- `ipmi_lan_send_packet`. -/
def sendPacket (p : Packet) : SendM PUnit := modify fun s => { s with sent := s.sent ++ [p] }

/-- A transmission; `false` is `return NULL`. -/
def transmit (c : Crypto) (r : Outgoing) (isRetry : Bool) (t : Turn) : SendM Bool := do
  match ← buildPacket c isRetry t r with
  | none => return false
  | some p =>
    sendPacket p
    return t.sendOk

/-- The loop. -/
def sendTurns (c : Crypto) (r : Outgoing) : (isRetry xmit : Bool) → List Turn → SendM PUnit
  | _, _, [] => return ⟨⟩
  | isRetry, xmit, t :: rest => do
    if xmit then
      if ← transmit c r isRetry t then
        if t.leaves then return ⟨⟩ else sendTurns c r true t.timeUp rest
      else return ⟨⟩
    else if t.leaves then return ⟨⟩
    else sendTurns c r true t.timeUp rest

/-- A call of `ipmi_lanplus_send_payload` in an ACTIVE session with AES-CBC-128. -/
structure EncryptedCall where
  crypto : Crypto
  intf : Intf
  currSeq : UInt8
  payload : Outgoing
  turns : List Turn
  active : intf.v2.sessionState = .active
  aes : intf.v2.cryptAlg = cryptAesCbc128

def EncryptedCall.final (x : EncryptedCall) : Sender :=
  finalState (sendTurns x.crypto x.payload false true x.turns) ⟨x.intf, x.currSeq, []⟩

/-- The payload of an RMCP+ message, with the length that the session header gives. -/
def payloadRegion (message : List UInt8) : List UInt8 :=
  (message.drop offsetPayload).take
    ((message.getD offsetPayloadSize 0).toNat + 256 * (message.getD (offsetPayloadSize + 1) 0).toNat)

/-- The payload region is an IV that `RAND_bytes` gave, and behind it the encrypted payload with its pad. -/
structure Packet.Sealed (c : Crypto) (key : List UInt8) (p : Packet) : Prop where
  rand : p.outcome.rand = 1
  region : payloadRegion p.message = p.outcome.randBytes ++ c.aesEncrypt p.outcome.randBytes key (paddedInput p.wire)

/-- **No plaintext leaves the session.** -/
def EncryptedCall.Sealed (x : EncryptedCall) : Prop :=
  ∀ p ∈ x.final.sent, p.Sealed x.crypto x.intf.v2.k2

/-! ### When a message is sealed -/

/-- The longest payload whose encryption has a length of 16 bits. -/
def maxSealed : Nat := 65503

section message
variable {c : Crypto} {intf : Intf} {o : Outcome} {wire : List UInt8}

theorem slice_payloadMemory (h : wire.length < 65536) :
    slice (payloadMemory wire) 0 (wire.length % 65536) = wire := by
  rw [Nat.mod_eq_of_lt h]
  exact slice_store _ 0 wire

theorem encrypted_of_succeeds (h : o.Succeeds) (iv key input : List UInt8) :
    lanplusEncryptAesCbc128 c o iv key input = c.aesEncrypt iv key input := by
  unfold lanplusEncryptAesCbc128
  rw [h.ctxNew, h.encryptInit, h.encryptUpdate, h.encryptFinal]
  rfl

/-- The cipher encrypts, or nothing is written. -/
theorem encrypted_cases (o : Outcome) (iv key input : List UInt8) :
    (o.ctxNew = true ∧ o.encryptInit = true ∧ o.encryptUpdate = true ∧ o.encryptFinal = true) ∨
      lanplusEncryptAesCbc128 c o iv key input = [] := by
  unfold lanplusEncryptAesCbc128
  cases o.ctxNew with
  | false => exact .inr rfl
  | true =>
    cases o.encryptInit with
    | false => exact .inr rfl
    | true =>
      cases o.encryptUpdate with
      | false => exact .inr rfl
      | true =>
        cases o.encryptFinal with
        | false => exact .inr rfl
        | true => exact .inl ⟨rfl, rfl, rfl, rfl⟩

/-- The IV and the ciphertext behind it. -/
def Encryption.ofCipher (c : Crypto) (o : Outcome) (key : List UInt8) (input : Nat → UInt8) (n : Nat) : Encryption :=
  let output := store input 0 o.randBytes
  let encrypted := lanplusEncryptAesCbc128 c o (slice output 0 cryptAesCbc128BlockSize) key
    (paddedInput (slice input 0 n))
  ⟨false, store output cryptAesCbc128BlockSize encrypted, (cryptAesCbc128BlockSize + encrypted.length) % 65536⟩

/-- How `lanplus_encrypt_payload` ends with AES-CBC-128. -/
theorem lanplusEncryptPayload_cases (c : Crypto) (o : Outcome) (key : List UInt8) (input : Nat → UInt8) (n : Nat) :
    ∃ e, lanplusEncryptPayload c o cryptAesCbc128 key input n = some e ∧
      (o.malloc = false ∧ e = ⟨true, input, n⟩ ∨
        o.rand = 0 ∧ e = ⟨true, store input 0 o.randBytes, n⟩ ∨
        o.malloc = true ∧ e = .ofCipher c o key input n) := by
  unfold lanplusEncryptPayload lanplusRand
  rw [if_neg (by decide), if_neg (by decide)]
  cases hmalloc : o.malloc with
  | false => exact ⟨_, rfl, .inl ⟨rfl, rfl⟩⟩
  | true =>
    rw [if_neg (by decide)]
    by_cases hrand : (o.rand == 0) = true
    · exact ⟨_, if_pos hrand, .inr (.inl ⟨beq_iff_eq.1 hrand, rfl⟩)⟩
    · exact ⟨_, if_neg hrand, .inr (.inr ⟨rfl, rfl⟩)⟩

theorem slice_iv (hrand : o.rand = 1) (input : Nat → UInt8) :
    slice (store input 0 o.randBytes) 0 cryptAesCbc128BlockSize = o.randBytes := by
  rw [← o.full_randBytes hrand]
  exact slice_store _ 0 o.randBytes

/-- What is sent when all calls succeed. -/
theorem sent_ofCipher (hsucceeds : o.Succeeds) (hlength : wire.length ≤ maxSealed) (key : List UInt8) :
    (Encryption.ofCipher c o key (payloadMemory wire) (wire.length % 65536)).sent =
      o.randBytes ++ c.aesEncrypt o.randBytes key (paddedInput wire) := by
  unfold maxSealed at hlength
  have hencrypted := length_aesEncrypt_padded c o.randBytes key wire
  have hmod := confPadLength_mod wire.length
  have hpad := confPadLength_le wire.length
  have hwritten : (cryptAesCbc128BlockSize + (c.aesEncrypt o.randBytes key (paddedInput wire)).length) % 65536 =
      cryptAesCbc128BlockSize + (c.aesEncrypt o.randBytes key (paddedInput wire)).length := by
    rw [hencrypted]
    unfold cryptAesCbc128BlockSize
    omega
  unfold Encryption.ofCipher Encryption.sent
  simp only [slice_payloadMemory (show wire.length < 65536 by omega), slice_iv hsucceeds.rand,
    encrypted_of_succeeds hsucceeds, hwritten]
  rw [slice_add, slice_store_of_disjoint _ (by omega), slice_iv hsucceeds.rand, Nat.zero_add, slice_store]

theorem length_sent (e : Encryption) : e.sent.length = e.bytesWritten := length_slice _ _ _

/-- An IV and an encrypted payload are sent when all calls succeed. -/
theorem sent_of_succeeds {e : Encryption} {key : List UInt8}
    (he : lanplusEncryptPayload c o cryptAesCbc128 key (payloadMemory wire) (wire.length % 65536) = some e)
    (hsucceeds : o.Succeeds) (hlength : wire.length ≤ maxSealed) :
    e.sent = o.randBytes ++ c.aesEncrypt o.randBytes key (paddedInput wire) := by
  obtain ⟨e', he', hcases⟩ := lanplusEncryptPayload_cases c o key (payloadMemory wire) (wire.length % 65536)
  obtain rfl := Option.some.inj (he.symm.trans he')
  rcases hcases with ⟨hmalloc, -⟩ | ⟨hrand, -⟩ | ⟨-, rfl⟩
  · rw [hsucceeds.malloc] at hmalloc
    cases hmalloc
  · rw [hsucceeds.rand] at hrand
    cases hrand
  · exact sent_ofCipher hsucceeds hlength key

/-- They are sent only then. -/
theorem succeeds_of_sent {e : Encryption} {key : List UInt8}
    (he : lanplusEncryptPayload c o cryptAesCbc128 key (payloadMemory wire) (wire.length % 65536) = some e)
    (hrand : o.rand = 1)
    (hsent : e.sent = o.randBytes ++ c.aesEncrypt o.randBytes key (paddedInput wire)) :
    wire.length ≤ maxSealed ∧ o.Succeeds := by
  have hlength := congrArg List.length hsent
  rw [length_sent, List.length_append, o.full_randBytes hrand, length_aesEncrypt_padded] at hlength
  have hmod := confPadLength_mod wire.length
  have hblock : cryptAesCbc128BlockSize = 16 := rfl
  obtain ⟨e', he', hcases⟩ := lanplusEncryptPayload_cases c o key (payloadMemory wire) (wire.length % 65536)
  obtain rfl := Option.some.inj (he.symm.trans he')
  rcases hcases with ⟨-, rfl⟩ | ⟨hzero, -⟩ | ⟨hmalloc, rfl⟩
  · -- the payload in the clear is shorter
    change wire.length % 65536 = _ at hlength
    omega
  · rw [hrand] at hzero
    cases hzero
  · rcases encrypted_cases (c := c) o (slice (store (payloadMemory wire) 0 o.randBytes) 0 cryptAesCbc128BlockSize) key
      (paddedInput (slice (payloadMemory wire) 0 (wire.length % 65536))) with ⟨hnew, hinit, hupdate, hfinal⟩ | hnothing
    · refine ⟨?_, hmalloc, hrand, hnew, hinit, hupdate, hfinal⟩
      change (_ % 65536 : Nat) = _ at hlength
      unfold maxSealed
      omega
    · -- the IV alone is shorter
      unfold Encryption.ofCipher at hlength
      simp only [hnothing, List.length_nil] at hlength
      omega

/-- When all calls succeed, the message is the one of `Lanplus.ipmiLanplusBuildV2xMsg`. -/
theorem build_of_succeeds (c : Crypto) (intf : Intf) {payload : V2Payload} {currSeq : UInt8} (hsucceeds : o.Succeeds)
    (hlength : (wireRep intf currSeq payload).length ≤ maxSealed) :
    ipmiLanplusBuildV2xMsg c intf payload o currSeq =
      Lanplus.ipmiLanplusBuildV2xMsg c intf payload o.randBytes currSeq := by
  have hfits : (wireRep intf currSeq payload).length < 65536 := Nat.lt_of_le_of_lt hlength (by decide)
  have hclear (failed : Bool) : (⟨failed, payloadMemory (wireRep intf currSeq payload),
      (wireRep intf currSeq payload).length % 65536⟩ : Encryption).sent = wireRep intf currSeq payload :=
    slice_payloadMemory hfits
  unfold ipmiLanplusBuildV2xMsg Lanplus.ipmiLanplusBuildV2xMsg
  by_cases hactive : intf.v2.sessionState = .active
  · simp only [if_pos hactive]
    by_cases hnone : intf.v2.cryptAlg = cryptNone
    · unfold lanplusEncryptPayload Lanplus.lanplusEncryptPayload
      simp only [if_pos hnone, Option.bind_eq_bind, Option.bind_some, hclear]
    · by_cases haes : intf.v2.cryptAlg = cryptAesCbc128
      · obtain ⟨e, he, -⟩ := lanplusEncryptPayload_cases c o intf.v2.k2
          (payloadMemory (wireRep intf currSeq payload)) ((wireRep intf currSeq payload).length % 65536)
        have hsent := sent_of_succeeds he hsucceeds hlength
        rw [haes, he]
        unfold Lanplus.lanplusEncryptPayload
        simp only [if_neg (show cryptAesCbc128 ≠ cryptNone by decide), ne_eq, not_true_eq_false, if_false,
          Option.bind_eq_bind, Option.bind_some, hsent]
      · unfold lanplusEncryptPayload Lanplus.lanplusEncryptPayload
        simp only [if_neg hnone, if_pos haes, Option.bind_eq_bind, Option.bind_none]
  · simp only [if_neg hactive, Option.bind_eq_bind, Option.bind_some, hclear]

theorem bytesWritten_lt {e : Encryption} {key : List UInt8} {input : Nat → UInt8} {n : Nat} (hn : n < 65536)
    (he : lanplusEncryptPayload c o cryptAesCbc128 key input n = some e) : e.bytesWritten < 65536 := by
  obtain ⟨e', he', hcases⟩ := lanplusEncryptPayload_cases c o key input n
  obtain rfl := Option.some.inj (he.symm.trans he')
  rcases hcases with ⟨-, rfl⟩ | ⟨-, rfl⟩ | ⟨-, rfl⟩
  · exact hn
  · exact hn
  · exact Nat.mod_lt _ (by decide)

/-- The trailer can be built: there is no integrity algorithm, or one that has an authcode. -/
def hasAuthcode (v2 : V2Data) : Bool := v2.integrityAlg == integrityNone || (authcodeLength v2.integrityAlg).isSome

theorem integrity_of_authcodeLength {alg : UInt8} (h : (authcodeLength alg).isSome = true) :
    alg = integrityHmacSha1_96 ∨ alg = integrityHmacMd5_128 ∨ alg = integrityHmacSha256_128 := by
  unfold authcodeLength at h
  split at h
  · exact .inl ‹_›
  · split at h
    · exact .inr (.inl ‹_›)
    · split at h
      · exact .inr (.inr ‹_›)
      · cases h

/-- A message with its trailer starts with what the trailer covers. -/
theorem withTrailer_of_hasAuthcode (h : hasAuthcode intf.v2 = true) (n : Nat) (covered : List UInt8) :
    ∃ tail, withTrailer c intf n covered = some (covered ++ tail) := by
  unfold withTrailer
  by_cases hint : intf.v2.sessionState = .active ∧ intf.v2.integrityAlg ≠ integrityNone
  · rw [if_pos hint]
    have hauth : (authcodeLength intf.v2.integrityAlg).isSome = true := by
      rcases Bool.or_eq_true_iff.1 h with hnone | hauth
      · exact absurd (beq_iff_eq.1 hnone) hint.2
      · exact hauth
    obtain ⟨len, mac, hlen, hmac, -⟩ := authcode_of_integrity c (integrity_of_authcodeLength hauth) intf.v2.k1
      (covered ++ integrityPad intf.icts n)
    refine ⟨integrityPad intf.icts n ++ mac.take len, ?_⟩
    simp only [hmac, hlen, Option.bind_eq_bind, Option.bind_some, Option.pure_def, List.append_assoc]
  · rw [if_neg hint]
    exact ⟨[], by rw [List.append_nil]⟩

theorem withTrailer_of_not_hasAuthcode (hactive : intf.v2.sessionState = .active)
    (h : hasAuthcode intf.v2 = false) (n : Nat) (covered : List UInt8) : withTrailer c intf n covered = none := by
  obtain ⟨hint, hauth⟩ := Bool.or_eq_false_iff.1 h
  unfold withTrailer
  rw [if_pos ⟨hactive, beq_eq_false_iff_ne.1 hint⟩, Option.not_isSome_iff_eq_none.1 (Bool.eq_false_iff.1 hauth)]
  simp only [Option.bind_eq_bind, Option.bind_none]
  exact Option.bind_fun_none _

theorem payloadRegion_of_starts {msg region tail : List UInt8} {t : UInt8}
    (h : Starts msg t region.length (region ++ tail)) (hlength : region.length < 65536) :
    payloadRegion msg = region := by
  have hbytes : (msg.getD offsetPayloadSize 0).toNat + 256 * (msg.getD (offsetPayloadSize + 1) 0).toNat =
      region.length := by
    obtain ⟨id, seq, rfl⟩ := h.bytes
    exact le16_toNat hlength
  unfold payloadRegion
  rw [hbytes, h.drop, List.take_left' rfl]

section session
variable (hactive : intf.v2.sessionState = .active) (haes : intf.v2.cryptAlg = cryptAesCbc128)
  (payload : V2Payload) (currSeq : UInt8)
include hactive haes

/-- The message that is built. -/
theorem build_message (hauth : hasAuthcode intf.v2 = true) : ∃ e msg,
    lanplusEncryptPayload c o cryptAesCbc128 intf.v2.k2 (payloadMemory (wireRep intf currSeq payload))
      ((wireRep intf currSeq payload).length % 65536) = some e ∧
    ipmiLanplusBuildV2xMsg c intf payload o currSeq =
      some (msg, { intf with outSeq := nextOutSeq intf.outSeq }) ∧ payloadRegion msg = e.sent := by
  obtain ⟨e, he, -⟩ := lanplusEncryptPayload_cases c o intf.v2.k2 (payloadMemory (wireRep intf currSeq payload))
    ((wireRep intf currSeq payload).length % 65536)
  have hlength : e.sent.length < 65536 := by
    rw [length_sent]
    exact bytesWritten_lt (Nat.mod_lt _ (by decide)) he
  obtain ⟨tail, htail⟩ := withTrailer_of_hasAuthcode (c := c) hauth e.sent.length
    (sessionHeader intf payload.payloadType e.sent.length ++ e.sent)
  refine ⟨e, rmcpHeader ++ (sessionHeader intf payload.payloadType e.sent.length ++ e.sent ++ tail), he, ?_, ?_⟩
  · unfold ipmiLanplusBuildV2xMsg
    rw [if_pos hactive, haes]
    simp only [he, Option.bind_eq_bind, Option.bind_some]
    rw [htail]
    rfl
  · have hstarts : Starts (rmcpHeader ++ (sessionHeader intf payload.payloadType e.sent.length ++ e.sent ++ tail))
        (payload.payloadType ||| securityBits intf.v2) e.sent.length (e.sent ++ tail) := by
      refine ⟨intf.v2.bmcId, intf.outSeq, ?_⟩
      unfold sessionHeader
      simp only [if_pos hactive, List.append_assoc]
    exact payloadRegion_of_starts hstarts hlength

theorem build_aborts (hauth : hasAuthcode intf.v2 = false) :
    ipmiLanplusBuildV2xMsg c intf payload o currSeq = none := by
  obtain ⟨e, he, -⟩ := lanplusEncryptPayload_cases c o intf.v2.k2 (payloadMemory (wireRep intf currSeq payload))
    ((wireRep intf currSeq payload).length % 65536)
  unfold ipmiLanplusBuildV2xMsg
  rw [if_pos hactive, haes]
  simp only [he, Option.bind_eq_bind, Option.bind_some]
  rw [withTrailer_of_not_hasAuthcode hactive hauth]
  rfl

/-- A message is sealed when all calls succeed. -/
theorem build_sealed_iff (hauth : hasAuthcode intf.v2 = true) : ∃ msg,
    ipmiLanplusBuildV2xMsg c intf payload o currSeq =
      some (msg, { intf with outSeq := nextOutSeq intf.outSeq }) ∧
    (Packet.Sealed c intf.v2.k2 ⟨wireRep intf currSeq payload, o, msg⟩ ↔
      (wireRep intf currSeq payload).length ≤ maxSealed ∧ o.Succeeds) := by
  obtain ⟨e, msg, he, hbuild, hregion⟩ := build_message (c := c) (o := o) hactive haes payload currSeq hauth
  refine ⟨msg, hbuild, fun h => ?_, fun ⟨hlength, hsucceeds⟩ => ⟨hsucceeds.rand, ?_⟩⟩
  · exact succeeds_of_sent he h.rand (hregion.symm.trans h.region)
  · exact hregion.trans (sent_of_succeeds he hsucceeds hlength)

end session

/-- A message in the v1.5 format has no room for the encrypted payload. -/
theorem v15Message_not_sealed (key : List UInt8) (outSeq : UInt32) (req : IpmiRq) :
    ¬ Packet.Sealed c key ⟨v15Payload req, o, v15Message outSeq req⟩ := by
  intro h
  have hlength := congrArg List.length h.region
  rw [List.length_append, o.full_randBytes h.rand, length_aesEncrypt_padded] at hlength
  have hle : (payloadRegion (v15Message outSeq req)).length ≤ (v15Message outSeq req).length - offsetPayload := by
    unfold payloadRegion
    rw [List.length_take, List.length_drop]
    omega
  have hmessage : (v15Message outSeq req).length = (v15Payload req).length + 14 := by
    unfold v15Message v15Payload
    simp only [List.length_append, length_le32]
    simp [rmcpHeader, withCsum]
    omega
  rw [hmessage] at hle
  change (payloadRegion (v15Message outSeq req)).length = _ at hlength
  rw [hlength] at hle
  have hblock : cryptAesCbc128BlockSize = 16 := rfl
  change _ ≤ (v15Payload req).length + 14 - 16 at hle
  change 16 + ((v15Payload req).length + _ + 1) ≤ _ at hle
  omega

end message

/-! ### The transmissions of a call -/

section call
variable (c : Crypto) (intf : Intf) (r : Outgoing)

/-- The payload is sent in the v1.5 format. -/
def Outgoing.isV15 : Outgoing → Bool
  | .ipmi req => sendsV15 intf req
  | .sol _ => false

/-- The length of the payload; it does not depend on the sequence numbers. -/
def Outgoing.wireLength : Outgoing → Nat
  | .ipmi req => (getIpmiPayloadWireRep intf req 0 0).length
  | .sol packet => (getSolPayloadWireRep packet).length

/-- The turn hands a message to `ipmi_lan_send_packet`, if it is one that transmits. -/
def Turn.builds (t : Turn) : Outgoing → Bool
  | .ipmi req => t.entryAllocated && if sendsV15 intf req then t.msgAllocated else hasAuthcode intf.v2
  | .sol _ => hasAuthcode intf.v2

/-- The turns that hand a message to `ipmi_lan_send_packet`. -/
def transmissions : (xmit : Bool) → List Turn → List Turn
  | _, [] => []
  | xmit, t :: rest =>
    if xmit then
      if t.builds intf r then t :: if !t.sendOk || t.leaves then [] else transmissions t.timeUp rest
      else []
    else if t.leaves then []
    else transmissions t.timeUp rest

/-- What a turn needs for a sealed message. -/
structure Turn.Seals (t : Turn) : Prop where
  format : r.isV15 intf = false
  length : r.wireLength intf ≤ maxSealed
  outcome : t.outcome.Succeeds

/-- The interface of the call, with another sequence number. -/
def Sender.Of (s : Sender) : Prop := ∃ outSeq, s.intf = { intf with outSeq := outSeq }

theorem length_getIpmiPayloadWireRep (req : IpmiRq) (rqSeq currSeq : UInt8) :
    (getIpmiPayloadWireRep intf req rqSeq currSeq).length = (getIpmiPayloadWireRep intf req 0 0).length := by
  unfold getIpmiPayloadWireRep
  split
  · rw [length_requestMessage, length_requestMessage]
  · split
    · simp only [length_encapsulated, length_requestMessage]
    · simp only [length_encapsulated, length_requestMessage]

variable {c intf r} (hactive : intf.v2.sessionState = .active) (haes : intf.v2.cryptAlg = cryptAesCbc128)
include hactive haes

/-- A message of the v2 format on the interface of the call. -/
theorem buildV2xMsg_builds {s : Sender} (hof : s.Of intf) (hauth : hasAuthcode intf.v2 = true) (payload : V2Payload)
    (o : Outcome) (currSeq : UInt8) : ∃ p s', buildV2xMsg c payload o currSeq s = .ok (some p) s' ∧ s'.Of intf ∧
      s'.sent = s.sent ∧ (p.Sealed c intf.v2.k2 ↔ (wireRep intf currSeq payload).length ≤ maxSealed ∧ o.Succeeds) := by
  obtain ⟨outSeq, hintf⟩ := hof
  have hv2 : s.intf.v2 = intf.v2 := by rw [hintf]
  have hwire : wireRep s.intf currSeq payload = wireRep intf currSeq payload := by rw [hintf]; rfl
  rw [← hv2] at hactive haes hauth
  obtain ⟨msg, hbuild, hsealed⟩ := build_sealed_iff (c := c) (o := o) hactive haes payload currSeq hauth
  rw [hv2, hwire] at hsealed
  refine ⟨⟨wireRep intf currSeq payload, o, msg⟩, { s with intf := { s.intf with outSeq := nextOutSeq s.intf.outSeq } },
    ?_, ⟨nextOutSeq s.intf.outSeq, by rw [hintf]⟩, rfl, hsealed⟩
  unfold buildV2xMsg
  rw [get_bind_apply, hbuild, hwire]
  rfl

theorem buildV2xMsg_aborts {s : Sender} (hof : s.Of intf) (hauth : hasAuthcode intf.v2 = false) (payload : V2Payload)
    (o : Outcome) (currSeq : UInt8) : buildV2xMsg c payload o currSeq s = .error .assertion s := by
  obtain ⟨outSeq, hintf⟩ := hof
  have hv2 : s.intf.v2 = intf.v2 := by rw [hintf]
  unfold buildV2xMsg
  rw [get_bind_apply, build_aborts (by rw [hv2]; exact hactive) (by rw [hv2]; exact haes) payload currSeq
    (by rw [hv2]; exact hauth)]
  rfl

omit hactive haes in
theorem buildIpmiCmd_of {s : Sender} (hof : s.Of intf) (req : IpmiRq) (isRetry : Bool) (t : Turn) :
    buildPacket c isRetry t (.ipmi req) s =
      (if sendsV15 intf req then buildV15IpmiCmd req t else buildV2xIpmiCmd c req isRetry t) s := by
  obtain ⟨outSeq, hintf⟩ := hof
  show buildIpmiCmd c req isRetry t s = _
  unfold buildIpmiCmd
  rw [get_bind_apply, hintf]
  rfl

/-- A turn that builds its message. -/
theorem buildPacket_builds {s : Sender} (hof : s.Of intf) {t : Turn} (hbuilds : t.builds intf r = true)
    (isRetry : Bool) : ∃ p s', buildPacket c isRetry t r s = .ok (some p) s' ∧ s'.Of intf ∧ s'.sent = s.sent ∧
      (p.Sealed c intf.v2.k2 ↔ t.Seals intf r) := by
  cases r with
  | sol packet =>
    obtain ⟨p, s', hrun, hof', hsent, hsealed⟩ := buildV2xMsg_builds (c := c) hactive haes hof hbuilds
      (.solPacket packet) t.outcome 0
    exact ⟨p, s', hrun, hof', hsent, hsealed.trans ⟨fun h => ⟨rfl, h.1, h.2⟩, fun h => ⟨h.length, h.outcome⟩⟩⟩
  | ipmi req =>
    obtain ⟨hentry, hrest⟩ := Bool.and_eq_true_iff.1 hbuilds
    rw [buildIpmiCmd_of hof]
    cases hformat : sendsV15 intf req with
    | true =>
      rw [hformat, if_pos rfl] at hrest
      refine ⟨⟨v15Payload req, t.outcome, v15Message s.intf.outSeq req⟩, s, ?_, hof, rfl, ?_⟩
      · rw [if_pos rfl]
        unfold buildV15IpmiCmd
        rw [hentry, hrest]
        rfl
      · refine iff_of_false (v15Message_not_sealed _ _ _) fun h => ?_
        have hv2 := h.format
        rw [show Outgoing.isV15 intf (.ipmi req) = true from hformat] at hv2
        cases hv2
    | false =>
      rw [hformat, if_neg (by decide)] at hrest
      rw [if_neg (by decide)]
      obtain ⟨p, s', hrun, hof', hsent, hsealed⟩ := buildV2xMsg_builds (c := c)
        (s := { s with currSeq := nextCurrSeq isRetry s.currSeq }) hactive haes hof hrest
        (.ipmiRequest req (nextCurrSeq isRetry s.currSeq)) t.outcome (nextCurrSeq isRetry s.currSeq)
      refine ⟨p, s', ?_, hof', hsent, ?_⟩
      · unfold buildV2xIpmiCmd
        rw [get_bind_apply, hentry]
        exact hrun
      · change _ ↔ (getIpmiPayloadWireRep intf req _ _).length ≤ maxSealed ∧ _ at hsealed
        rw [length_getIpmiPayloadWireRep] at hsealed
        exact hsealed.trans ⟨fun h => ⟨hformat, h.1, h.2⟩, fun h => ⟨h.length, h.outcome⟩⟩

/-- A turn that does not build its message ends the call. -/
theorem buildPacket_not_builds {s : Sender} (hof : s.Of intf) {t : Turn} (hbuilds : t.builds intf r = false)
    (isRetry : Bool) : ∃ s', s'.sent = s.sent ∧
      (buildPacket c isRetry t r s = .ok none s' ∨ buildPacket c isRetry t r s = .error .assertion s') := by
  cases r with
  | sol packet => exact ⟨s, rfl, .inr (buildV2xMsg_aborts hactive haes hof hbuilds _ _ _)⟩
  | ipmi req =>
    rw [buildIpmiCmd_of hof]
    change (t.entryAllocated && if sendsV15 intf req then t.msgAllocated else hasAuthcode intf.v2) = false at hbuilds
    cases hformat : sendsV15 intf req with
    | true =>
      rw [hformat, if_pos rfl] at hbuilds
      refine ⟨s, rfl, .inl ?_⟩
      rw [if_pos rfl]
      unfold buildV15IpmiCmd
      rcases Bool.and_eq_false_iff.1 hbuilds with hentry | hmsg
      · rw [hentry]
        rfl
      · rw [hmsg]
        cases t.entryAllocated with
        | true => rfl
        | false => rfl
    | false =>
      rw [hformat, if_neg (by decide)] at hbuilds
      refine ⟨{ s with currSeq := nextCurrSeq isRetry s.currSeq }, rfl, ?_⟩
      rw [if_neg (by decide)]
      unfold buildV2xIpmiCmd
      rw [get_bind_apply]
      cases hentry : t.entryAllocated with
      | false => exact .inl rfl
      | true =>
        rw [hentry, Bool.true_and] at hbuilds
        exact .inr (buildV2xMsg_aborts hactive haes (s := { s with currSeq := nextCurrSeq isRetry s.currSeq }) hof
          hbuilds _ _ _)

omit hactive haes in
theorem sendTurns_waits (isRetry : Bool) (t : Turn) (rest : List Turn) :
    sendTurns c r isRetry false (t :: rest) = if t.leaves then pure ⟨⟩ else sendTurns c r true t.timeUp rest := rfl

omit hactive haes in
theorem sendTurns_transmits (isRetry : Bool) (t : Turn) (rest : List Turn) :
    sendTurns c r isRetry true (t :: rest) = transmit c r isRetry t >>= fun sendOk =>
      if sendOk then if t.leaves then pure ⟨⟩ else sendTurns c r true t.timeUp rest else pure ⟨⟩ := rfl

omit hactive haes in
theorem transmissions_waits (t : Turn) (rest : List Turn) :
    transmissions intf r false (t :: rest) = if t.leaves then [] else transmissions intf r t.timeUp rest := rfl

omit hactive haes in
theorem transmissions_transmits (t : Turn) (rest : List Turn) : transmissions intf r true (t :: rest) =
    if t.builds intf r then t :: if !t.sendOk || t.leaves then [] else transmissions intf r t.timeUp rest
      else [] := rfl

/-- The messages of the loop are sealed when the turns that transmit are good for it. -/
theorem sent_sendTurns (turns : List Turn) : ∀ (isRetry xmit : Bool) (s : Sender), s.Of intf →
    Ends (fun s' => ∃ l, s'.sent = s.sent ++ l ∧
      ((∀ p ∈ l, p.Sealed c intf.v2.k2) ↔ ∀ t ∈ transmissions intf r xmit turns, t.Seals intf r))
      (sendTurns c r isRetry xmit turns) s := by
  induction turns with
  | nil =>
    intro isRetry xmit s _
    exact ⟨[], (List.append_nil _).symm, iff_of_true (List.forall_mem_nil _)
      (List.forall_mem_nil _)⟩
  | cons t rest ih =>
    intro isRetry xmit s hof
    have hnothing : ∃ l, s.sent = s.sent ++ l ∧
        ((∀ p ∈ l, p.Sealed c intf.v2.k2) ↔ ∀ t ∈ ([] : List Turn), t.Seals intf r) :=
      ⟨[], (List.append_nil _).symm, iff_of_true (List.forall_mem_nil _)
        (List.forall_mem_nil _)⟩
    cases xmit with
    | false =>
      rw [sendTurns_waits, transmissions_waits]
      cases t.leaves with
      | true => exact hnothing
      | false => exact ih true t.timeUp s hof
    | true =>
      rw [sendTurns_transmits, transmissions_transmits]
      cases hbuilds : t.builds intf r with
      | false =>
        obtain ⟨s', hsent, hrun | hrun⟩ := buildPacket_not_builds (c := c) hactive haes hof hbuilds isRetry
        · have htransmit : transmit c r isRetry t s = .ok false s' := bind_ok hrun
          rw [ends_bind_ok htransmit]
          show ∃ l, s'.sent = s.sent ++ l ∧ _
          rw [hsent]
          exact hnothing
        · have htransmit : transmit c r isRetry t s = .error .assertion s' := by
            unfold transmit
            simp only [Bind.bind, EStateM.bind, hrun]
          rw [ends_bind_error htransmit, hsent]
          exact hnothing
      | true =>
        obtain ⟨p, s', hrun, ⟨outSeq, hintf⟩, hsent, hsealed⟩ := buildPacket_builds (c := c) hactive haes hof hbuilds isRetry
        have htransmit : transmit c r isRetry t s = .ok t.sendOk { s' with sent := s'.sent ++ [p] } := bind_ok hrun
        rw [ends_bind_ok htransmit, if_pos rfl]
        have hof' : ({ s' with sent := s'.sent ++ [p] } : Sender).Of intf := ⟨outSeq, hintf⟩
        have hlast : ∃ l, s'.sent ++ [p] = s.sent ++ l ∧
            ((∀ p ∈ l, p.Sealed c intf.v2.k2) ↔ ∀ t' ∈ [t], t'.Seals intf r) := by
          refine ⟨[p], by rw [hsent], ?_⟩
          rw [List.forall_mem_singleton, List.forall_mem_singleton]
          exact hsealed
        cases t.sendOk with
        | false => exact hlast
        | true =>
          cases t.leaves with
          | true => exact hlast
          | false =>
            have hrest := ih true t.timeUp _ hof'
            unfold Ends at hrest ⊢
            obtain ⟨l, hl, hiff⟩ := hrest
            refine ⟨p :: l, hl.trans ?_, ?_⟩
            · show s'.sent ++ [p] ++ l = _
              rw [hsent, List.append_assoc]
              rfl
            · show _ ↔ ∀ t' ∈ t :: transmissions intf r t.timeUp rest, t'.Seals intf r
              rw [List.forall_mem_cons, List.forall_mem_cons, hsealed, hiff]

end call

/-- **When no plaintext leaves the session**: in every turn that hands a message to `ipmi_lan_send_packet`, it
is in the v2 format, the payload's encryption fits a length of 16 bits, and all calls inside
`lanplus_encrypt_payload` succeed. -/
theorem sealed_iff (x : EncryptedCall) : x.Sealed ↔
    ∀ t ∈ transmissions x.intf x.payload true x.turns, t.Seals x.intf x.payload := by
  have hrun := sent_sendTurns (c := x.crypto) (r := x.payload) x.active x.aes x.turns false true
    ⟨x.intf, x.currSeq, []⟩ ⟨x.intf.outSeq, rfl⟩
  obtain ⟨l, hl, hiff⟩ := hrun
  unfold EncryptedCall.Sealed
  rw [show x.final.sent = l from hl]
  exact hiff

/-- There is no memory for the padded input of a SOL packet with two characters. -/
def noMemory : EncryptedCall where
  crypto := .plain
  intf :=
    { v2 := { V2Data.initial with sessionState := .active, cryptAlg := cryptAesCbc128 }
      outSeq := 1, myAddr := 0x20, targetAddr := 0x20, targetChannel := 0, transitAddr := 0, transitChannel := 0
      bridgePossible := false, icts := false }
  currSeq := 0
  payload := .sol ⟨[0x6C, 0x73], 1, 0, 0, false, false, false, false, false, false, false⟩
  turns :=
    [{ entryAllocated := true, msgAllocated := true
       outcome := ⟨false, 1, List.replicate 16 0, true, true, true, true, by decide, by decide⟩
       sendOk := true, leaves := true, timeUp := false }]
  active := rfl
  aes := rfl

/-- The packet is sent in the clear. -/
theorem noMemory_not_sealed : ¬ ∀ x : EncryptedCall, x.Sealed := by
  intro h
  have hregions : noMemory.final.sent.map (fun p => payloadRegion p.message) = [[1, 0, 0, 0, 0x6C, 0x73]] := by
    decide +kernel
  have hmem : [1, 0, 0, 0, 0x6C, 0x73] ∈ noMemory.final.sent.map fun p => payloadRegion p.message := by
    rw [hregions]
    exact .head _
  obtain ⟨p, hp, hregion⟩ := List.mem_map.1 hmem
  have hsealed := h noMemory p hp
  have hlength := congrArg List.length (hregion.symm.trans hsealed.region)
  rw [List.length_append, p.outcome.full_randBytes hsealed.rand] at hlength
  change 6 = 16 + _ at hlength
  omega

end KTools.Lanplus.Fallible
