import KTools.Lanplus.Encrypt

/-!
# The memory of a message

`ipmi_lanplus_build_v2x_msg` allocates the message with `payload_length` as its caller has set it. The wire
representations then add to `payload_length`, the encryption sets it, and only when the encryption has changed it
is the message allocated again. `build` lists what is written, with the size of the block at that moment.

A request gets a fresh payload in each transmission, so its messages always fit. A SOL packet is transmitted
again with the `payload_length` that the build before left: the encrypted length, or 16, the length of the IV,
when the cipher has failed. The next block then has 98 bytes, whatever the packet needs
(`PayloadCall.bounded_iff`).
-/

namespace KTools.Lanplus
open KTools.Lib KTools.Lib.Bytes

/-! ### Sizes -/

/-- `len` bytes are written at `off`, while the message has `block` bytes. -/
structure BlockWrite where
  off : Nat
  len : Nat
  block : Nat
  deriving DecidableEq

def BlockWrite.Inside (w : BlockWrite) : Prop := w.off + w.len ≤ w.block

def maxMdSize : Nat := 0x20
def maxIntegrityPadSize : Nat := maxMdSize
def maxAuthCodeSize : Nat := maxMdSize

/-- The size of the first block, and of the second one. -/
def messageSize (payloadLength : Nat) : Nat :=
  offsetPayload + payloadLength + maxIntegrityPadSize + 1 + 1 + maxAuthCodeSize

/-- The bytes that `lanplus_HMAC` writes. -/
def digestLength (integrityAlg : UInt8) : Nat :=
  if integrityAlg = integrityHmacSha1_96 then shaDigestLength
  else if integrityAlg = integrityHmacMd5_128 then md5DigestLength
  else if integrityAlg = integrityHmacSha256_128 then sha256DigestLength
  else 0

/-- The padded payload, a number of whole blocks. -/
def paddedLength (n : Nat) : Nat := n + confPadLength n + 1

/-! ### `payload_length` -/

/-- What `getIpmiPayloadWireRep` adds to `payload_length`: at level 1 the header and the checksum of one
bridge, at level 2 of two. -/
def Intf.bridgingLength (intf : Intf) : Nat :=
  if intf.unbridged then 0
  else if intf.transitAddr ≠ intf.ourAddress.toUInt32 ∧ intf.transitAddr ≠ 0 then 7 + 7 + 1 + 1
  else 7 + 1

/-- The payload as `ipmi_lanplus_build_v2x_msg` gets it. -/
def Fallible.Outgoing.v2Payload (currSeq : UInt8) : Fallible.Outgoing → V2Payload
  | ipmi request => .ipmiRequest request currSeq
  | sol packet => .solPacket packet

/-- The bytes of data. -/
def Fallible.Outgoing.dataLength : Fallible.Outgoing → Nat
  | ipmi request => request.data.length
  | sol packet => packet.data.length

/-- `payload_length` in the first transmission. -/
def Fallible.Outgoing.freshLength : Fallible.Outgoing → Nat
  | ipmi request => request.data.length + 7
  | sol packet => packet.data.length

/-- `payload_length` at the start of a transmission; `left` is what the build before has left. The payload of a
request is a local variable of `ipmi_lanplus_build_v2x_ipmi_cmd`. -/
def Fallible.Outgoing.startLength (p : Fallible.Outgoing) (left : Nat) : Nat :=
  match p with
  | ipmi _ => p.freshLength
  | sol _ => left

/-- `payload_length` when the payload is encrypted. -/
def wireLength (intf : Intf) (payloadLength : Nat) : Fallible.Outgoing → Nat
  | .ipmi _ => payloadLength + intf.bridgingLength
  | .sol packet => packet.data.length + 4

/-- `bytes_written` of `lanplus_encrypt_payload`, a `uint16_t`. -/
def encryptedLength (cryptAlg : UInt8) (o : Fallible.Outcome) (n : Nat) : Nat :=
  if cryptAlg = cryptNone then n
  else if !o.malloc || Fallible.lanplusRand o then n
  else (cryptAesCbc128BlockSize +
    if o.ctxNew && o.encryptInit && o.encryptUpdate && o.encryptFinal then paddedLength n else 0) % 65536

/-! ### `ipmi_lanplus_build_v2x_msg` -/

/-- What one transmission meets: whether the message is allocated, the encryption, and whether the message is
allocated again. `currSeq` is the sequence number of a request. -/
structure Transmission where
  msgAllocated : Bool
  outcome : Fallible.Outcome
  reallocated : Bool
  currSeq : UInt8

/-- The zeroes, the RMCP header, and the session header without the message length. -/
def headerWrites (intf : Intf) (block : Nat) : List BlockWrite :=
  [⟨0, block, block⟩, ⟨0, 4, block⟩, ⟨offsetAuthtype, 1, block⟩, ⟨offsetPayloadType, 1, block⟩] ++
    if intf.v2.sessionState = .active then [⟨offsetSessionId, 4, block⟩, ⟨offsetSequenceNum, 4, block⟩] else []

/-- `EVP_EncryptUpdate` writes the ciphertext, also when `EVP_EncryptFinal_ex` fails after it. -/
def Fallible.Outcome.enciphers (o : Fallible.Outcome) : Bool :=
  o.malloc && !Fallible.lanplusRand o && o.ctxNew && o.encryptInit && o.encryptUpdate

/-- What `lanplus_encrypt_payload` writes into the message: the IV, and the ciphertext behind it. -/
def encryptWrites (cryptAlg : UInt8) (o : Fallible.Outcome) (n block : Nat) : List BlockWrite :=
  if cryptAlg = cryptNone || !o.malloc then []
  else
    ⟨offsetPayload, o.randBytes.length, block⟩ ::
      if o.enciphers then [⟨offsetPayload + cryptAesCbc128BlockSize, paddedLength n, block⟩] else []

/-- The integrity pad, its length, the next header, and the HMAC. -/
def trailerWrites (intf : Intf) (payloadLength block : Nat) : List BlockWrite :=
  if intf.v2.sessionState = .active ∧ intf.v2.integrityAlg ≠ integrityNone then
    let start := offsetPayload + payloadLength
    let pad := integrityPadSize intf.icts payloadLength
    [⟨start, pad, block⟩, ⟨start + pad, 1, block⟩, ⟨start + pad + 1, 1, block⟩,
      ⟨start + pad + 2, digestLength intf.v2.integrityAlg, block⟩]
  else []

/-- What a build writes, `payload_length` at the encryption with the number of bytes that are encrypted, and the
`payload_length` that is left. -/
structure Built where
  writes : List BlockWrite
  encryption : Option (Nat × Nat)
  left : Nat

/-- The build of a message with `payload_length` at its start. -/
def build (intf : Intf) (p : Fallible.Outgoing) (t : Transmission) (payloadLength : Nat) : Built :=
  if !t.msgAllocated then ⟨[], none, payloadLength⟩
  else
    let block := messageSize payloadLength
    let wire := wireRep intf t.currSeq (p.v2Payload t.currSeq)
    let n := wireLength intf payloadLength p
    let before := headerWrites intf block ++ [⟨offsetPayload, wire.length, block⟩]
    if intf.v2.sessionState = .active then
      let after := encryptedLength intf.v2.cryptAlg t.outcome n
      let before := before ++ encryptWrites intf.v2.cryptAlg t.outcome n block
      if n ≠ after then
        if !t.reallocated then ⟨before, some (n, wire.length), after⟩
        else
          let block := messageSize after
          ⟨before ++ ⟨offsetPayloadSize, 2, block⟩ :: trailerWrites intf after block, some (n, wire.length), after⟩
      else
        ⟨before ++ ⟨offsetPayloadSize, 2, block⟩ :: trailerWrites intf after block, some (n, wire.length), after⟩
    else ⟨before ++ ⟨offsetPayloadSize, 2, block⟩ :: trailerWrites intf n block, none, n⟩

/-- All writes lie inside the message, and what is encrypted is the payload. -/
structure Built.Bounded (r : Built) : Prop where
  inside : ∀ w ∈ r.writes, w.Inside
  length : ∀ e ∈ r.encryption, e.1 = e.2

/-- The builds of the transmissions of a payload. -/
def builds (intf : Intf) (p : Fallible.Outgoing) : (left : Nat) → List Transmission → List Built
  | _, [] => []
  | left, t :: rest =>
    let r := build intf p t (p.startLength left)
    r :: builds intf p r.left rest

/-! ### The writes of a build -/

section writes
variable {intf : Intf} {block : Nat}

theorem digestLength_le (integrityAlg : UInt8) : digestLength integrityAlg ≤ 32 := by
  unfold digestLength shaDigestLength md5DigestLength sha256DigestLength
  split
  · omega
  split
  · omega
  split
  · omega
  · omega

theorem headerWrites_inside (hblock : offsetPayload ≤ block) : ∀ w ∈ headerWrites intf block, w.Inside := by
  have hsize : 16 ≤ block := hblock
  have hhead : ∀ w ∈ ([⟨0, block, block⟩, ⟨0, 4, block⟩, ⟨offsetAuthtype, 1, block⟩,
      ⟨offsetPayloadType, 1, block⟩] : List BlockWrite), w.Inside := by
    simp only [List.forall_mem_cons, BlockWrite.Inside, offsetAuthtype, offsetPayloadType]
    exact ⟨by omega, by omega, by omega, by omega, List.forall_mem_nil _⟩
  unfold headerWrites
  rw [List.forall_mem_append]
  refine ⟨hhead, ?_⟩
  split
  · simp only [List.forall_mem_cons, BlockWrite.Inside, offsetSessionId, offsetSequenceNum]
    exact ⟨by omega, by omega, List.forall_mem_nil _⟩
  · exact List.forall_mem_nil _

/-- The IV always fits; the ciphertext has to. -/
theorem encryptWrites_inside_iff (hblock : 32 ≤ block) (cryptAlg : UInt8) (o : Fallible.Outcome) (n : Nat) :
    (∀ w ∈ encryptWrites cryptAlg o n block, w.Inside) ↔
      (cryptAlg ≠ cryptNone → o.enciphers = true → 32 + paddedLength n ≤ block) := by
  have hiv : (⟨offsetPayload, o.randBytes.length, block⟩ : BlockWrite).Inside := by
    have hlength := o.length_randBytes
    unfold BlockWrite.Inside offsetPayload
    unfold cryptAesCbc128BlockSize at hlength
    show 16 + o.randBytes.length ≤ block
    omega
  unfold encryptWrites
  by_cases hnone : cryptAlg = cryptNone
  · rw [if_pos (by simp [hnone])]
    exact iff_of_true (List.forall_mem_nil _) fun h => absurd hnone h
  by_cases hmalloc : o.malloc = true
  · rw [if_neg (by simp [hnone, hmalloc]), List.forall_mem_cons, and_iff_right hiv, forall_prop_of_true hnone]
    by_cases henciphers : o.enciphers = true
    · rw [if_pos henciphers, List.forall_mem_singleton, forall_prop_of_true henciphers]
      rfl
    · rw [if_neg henciphers]
      exact iff_of_true (List.forall_mem_nil _) fun h => absurd h henciphers
  · rw [if_pos (by simp [hmalloc])]
    refine iff_of_true (List.forall_mem_nil _) fun _ henciphers => ?_
    simp only [Fallible.Outcome.enciphers, eq_false_of_ne_true hmalloc, Bool.false_and,
      Bool.false_eq_true] at henciphers

theorem trailerWrites_inside_iff (hactive : intf.v2.sessionState = .active) {payloadLength : Nat} :
    (∀ w ∈ trailerWrites intf payloadLength block, w.Inside) ↔ (intf.v2.integrityAlg ≠ integrityNone →
      offsetPayload + payloadLength + integrityPadSize intf.icts payloadLength + 2 +
        digestLength intf.v2.integrityAlg ≤ block) := by
  unfold trailerWrites
  by_cases hnone : intf.v2.integrityAlg = integrityNone
  · rw [if_neg fun h => h.2 hnone]
    exact iff_of_true (List.forall_mem_nil _) fun h => absurd hnone h
  · rw [if_pos ⟨hactive, hnone⟩, forall_prop_of_true hnone]
    simp only [List.forall_mem_cons, BlockWrite.Inside]
    refine ⟨fun h => h.2.2.2.1, fun h => ⟨by omega, by omega, by omega, h, List.forall_mem_nil _⟩⟩

/-- A message has room for its own trailer. -/
theorem trailerWrites_inside (hactive : intf.v2.sessionState = .active) (payloadLength : Nat) :
    ∀ w ∈ trailerWrites intf payloadLength (messageSize payloadLength), w.Inside := by
  refine (trailerWrites_inside_iff hactive).2 fun _ => ?_
  have hpad := integrityPadSize_le intf.icts payloadLength
  have hdigest := digestLength_le intf.v2.integrityAlg
  unfold messageSize maxIntegrityPadSize maxAuthCodeSize maxMdSize
  omega

end writes

/-! ### One build -/

/-- **`payload_length`** counts the bytes of the payload. -/
theorem length_wireRep (intf : Intf) (currSeq : UInt8) (p : Fallible.Outgoing) (left : Nat) :
    (wireRep intf currSeq (p.v2Payload currSeq)).length = wireLength intf (p.startLength left) p := by
  cases p with
  | sol packet =>
    show ([_, _, _, _] ++ packet.data).length = packet.data.length + 4
    rw [List.length_append, Nat.add_comm]
    rfl
  | ipmi req =>
    show (getIpmiPayloadWireRep intf req currSeq currSeq).length = req.data.length + 7 + intf.bridgingLength
    unfold getIpmiPayloadWireRep Intf.bridgingLength
    split
    · exact length_requestMessage _ _ _ _
    split
    · rw [length_encapsulated, length_encapsulated, length_requestMessage]
    · rw [length_encapsulated, length_requestMessage]

/-- What a build has to fit into its first block: the payload, the ciphertext, and the trailer when the
encryption leaves `payload_length` as it is. -/
structure FirstBlock (intf : Intf) (t : Transmission) (payloadLength n : Nat) : Prop where
  payload : n ≤ payloadLength + 66
  cipher : intf.v2.cryptAlg ≠ cryptNone → t.outcome.enciphers = true → paddedLength n ≤ payloadLength + 50
  trailer : encryptedLength intf.v2.cryptAlg t.outcome n = n → intf.v2.integrityAlg ≠ integrityNone →
    n + integrityPadSize intf.icts n + 2 + digestLength intf.v2.integrityAlg ≤ payloadLength + 66

theorem bounded_some {writes : List BlockWrite} {n left : Nat} :
    (⟨writes, some (n, n), left⟩ : Built).Bounded ↔ ∀ w ∈ writes, w.Inside := by
  refine ⟨fun h => h.inside, fun h => ⟨h, ?_⟩⟩
  rintro e ⟨⟩
  rfl

/-- **One build** is bounded when its first block suffices; the second one always does. -/
theorem build_bounded_iff {intf : Intf} (hactive : intf.v2.sessionState = .active) (p : Fallible.Outgoing)
    (t : Transmission) (left : Nat) :
    (build intf p t (p.startLength left)).Bounded ↔ (t.msgAllocated = true →
      FirstBlock intf t (p.startLength left) (wireLength intf (p.startLength left) p)) := by
  cases hmsg : t.msgAllocated with
  | false =>
    simp only [build, hmsg, Bool.not_false, if_true]
    exact iff_of_true ⟨List.forall_mem_nil _, nofun⟩ nofun
  | true =>
    rw [forall_prop_of_true rfl]
    obtain ⟨m, hm⟩ : ∃ m, m = p.startLength left := ⟨_, rfl⟩
    obtain ⟨n, hn⟩ : ∃ n, n = wireLength intf m p := ⟨_, rfl⟩
    have hlength : (wireRep intf t.currSeq (p.v2Payload t.currSeq)).length = n := by
      rw [hn, hm]
      exact length_wireRep intf t.currSeq p left
    have hblock : messageSize m = m + 82 := by
      unfold messageSize offsetPayload maxIntegrityPadSize maxAuthCodeSize maxMdSize
      omega
    have hsize : ∀ k, (⟨offsetPayloadSize, 2, messageSize k⟩ : BlockWrite).Inside := by
      intro k
      unfold BlockWrite.Inside messageSize offsetPayloadSize offsetPayload
      dsimp only
      omega
    have hheader : ∀ w ∈ headerWrites intf (messageSize m), w.Inside :=
      headerWrites_inside (by rw [hblock]; unfold offsetPayload; omega)
    have hpayload : (⟨offsetPayload, n, messageSize m⟩ : BlockWrite).Inside ↔ n ≤ m + 66 := by
      rw [hblock]
      unfold BlockWrite.Inside offsetPayload
      dsimp only
      omega
    have hencrypt : (∀ w ∈ encryptWrites intf.v2.cryptAlg t.outcome n (messageSize m), w.Inside) ↔
        (intf.v2.cryptAlg ≠ cryptNone → t.outcome.enciphers = true → paddedLength n ≤ m + 50) := by
      rw [encryptWrites_inside_iff (by omega), hblock]
      exact imp_congr_right fun _ => imp_congr_right fun _ => by omega
    have hbefore : (∀ w ∈ headerWrites intf (messageSize m) ++ [⟨offsetPayload, n, messageSize m⟩] ++
        encryptWrites intf.v2.cryptAlg t.outcome n (messageSize m), w.Inside) ↔ n ≤ m + 66 ∧
          (intf.v2.cryptAlg ≠ cryptNone → t.outcome.enciphers = true → paddedLength n ≤ m + 50) := by
      rw [List.forall_mem_append, List.forall_mem_append, List.forall_mem_singleton, and_iff_right hheader,
        hpayload, hencrypt]
    rw [← hm, ← hn]
    simp only [build, hmsg, if_pos hactive, hlength, ← hn, Bool.not_true, Bool.false_eq_true, if_false]
    by_cases hkept : n = encryptedLength intf.v2.cryptAlg t.outcome n
    · rw [if_neg (not_not_intro hkept), ← hkept, bounded_some, List.forall_mem_append, List.forall_mem_cons,
        and_iff_right (hsize m), hbefore, trailerWrites_inside_iff hactive, hblock]
      refine ⟨fun ⟨⟨hfits, hcipher⟩, htrailer⟩ => ⟨hfits, hcipher, fun _ hint => ?_⟩, fun h =>
        ⟨⟨h.payload, h.cipher⟩, fun hint => ?_⟩⟩
      · have := htrailer hint
        unfold offsetPayload at this
        omega
      · have := h.trailer hkept.symm hint
        unfold offsetPayload
        omega
    · have hfirst : FirstBlock intf t m n ↔ n ≤ m + 66 ∧
          (intf.v2.cryptAlg ≠ cryptNone → t.outcome.enciphers = true → paddedLength n ≤ m + 50) :=
        ⟨fun h => ⟨h.payload, h.cipher⟩, fun h => ⟨h.1, h.2, fun hsame => absurd hsame.symm hkept⟩⟩
      rw [if_pos hkept, hfirst, ← hbefore]
      cases t.reallocated with
      | false => exact bounded_some
      | true =>
        simp only [Bool.not_true, Bool.false_eq_true, if_false]
        rw [bounded_some, List.forall_mem_append, List.forall_mem_cons, and_iff_right (hsize _),
          and_iff_left (trailerWrites_inside hactive _)]

/-! ### When the transmissions of a payload are bounded -/

/-- The cipher does not encrypt, and `payload_length` becomes the length of the IV. -/
def cipherFails (cryptAlg : UInt8) (o : Fallible.Outcome) : Bool :=
  cryptAlg != cryptNone && o.malloc && !Fallible.lanplusRand o &&
    !(o.ctxNew && o.encryptInit && o.encryptUpdate && o.encryptFinal)

/-- A payload of `n` bytes fits into a block for one of 16 bytes: with the ciphertext, if there is any, and with
the trailer, if the payload stays in the clear. -/
structure FitsIvBlock (intf : Intf) (o : Fallible.Outcome) (n : Nat) : Prop where
  payload : n ≤ 82
  cipher : o.enciphers = true → n ≤ 63
  trailer : (o.malloc = false ∨ Fallible.lanplusRand o = true) → intf.v2.integrityAlg ≠ integrityNone →
    n + integrityPadSize intf.icts n + 2 + digestLength intf.v2.integrityAlg ≤ 82

/-- No SOL packet of `n` bytes on the wire is transmitted after a transmission in which the cipher has failed,
unless it fits into the block for the IV. `failed` is so behind the last message that was allocated. -/
def SolFits (intf : Intf) (n : Nat) : (failed : Bool) → List Transmission → Prop
  | _, [] => True
  | failed, t :: rest =>
    (t.msgAllocated = true → failed = true → FitsIvBlock intf t.outcome n) ∧
      SolFits intf n (if t.msgAllocated then cipherFails intf.v2.cryptAlg t.outcome else failed) rest

section length
variable {intf : Intf} {n : Nat}

theorem paddedLength_le (n : Nat) : n < paddedLength n ∧ paddedLength n ≤ n + 16 ∧ paddedLength n % 16 = 0 := by
  have hle := confPadLength_le n
  have hmod := confPadLength_mod n
  unfold paddedLength
  omega

/-- The encryption leaves `payload_length`, or sets it to the length of the IV, or of the IV and the
ciphertext. -/
theorem encryptedLength_cases (cryptAlg : UInt8) (o : Fallible.Outcome) (hn : n ≤ 2048) :
    ((cryptAlg = cryptNone ∨ o.malloc = false ∨ Fallible.lanplusRand o = true) ∧
        cipherFails cryptAlg o = false ∧ encryptedLength cryptAlg o n = n) ∨
      (cipherFails cryptAlg o = true ∧ encryptedLength cryptAlg o n = 16) ∨
      (cipherFails cryptAlg o = false ∧ encryptedLength cryptAlg o n = 16 + paddedLength n) := by
  obtain ⟨-, hpadded, -⟩ := paddedLength_le n
  by_cases hnone : cryptAlg = cryptNone
  · refine .inl ⟨.inl hnone, ?_, if_pos hnone⟩
    simp [cipherFails, hnone]
  by_cases hskips : (!o.malloc || Fallible.lanplusRand o) = true
  · have hskipped : o.malloc = false ∨ Fallible.lanplusRand o = true := by simpa using hskips
    refine .inl ⟨.inr hskipped, ?_, ?_⟩
    · rcases hskipped with h | h
      · simp [cipherFails, h]
      · simp [cipherFails, h]
    · unfold encryptedLength
      rw [if_neg hnone, if_pos hskips]
  · obtain ⟨hmalloc, hrand⟩ : o.malloc = true ∧ Fallible.lanplusRand o = false := by simpa using hskips
    have hlength : encryptedLength cryptAlg o n = (cryptAesCbc128BlockSize +
        if o.ctxNew && o.encryptInit && o.encryptUpdate && o.encryptFinal then paddedLength n else 0) % 65536 := by
      unfold encryptedLength
      rw [if_neg hnone, if_neg hskips]
    have hfails : cipherFails cryptAlg o =
        !(o.ctxNew && o.encryptInit && o.encryptUpdate && o.encryptFinal) := by
      simp [cipherFails, hnone, hmalloc, hrand]
    rw [hlength, hfails]
    cases o.ctxNew && o.encryptInit && o.encryptUpdate && o.encryptFinal with
    | false => exact .inr (.inl ⟨rfl, rfl⟩)
    | true =>
      refine .inr (.inr ⟨rfl, ?_⟩)
      rw [if_pos rfl]
      exact Nat.mod_eq_of_lt (by unfold cryptAesCbc128BlockSize; omega)

/-- A block for all but 16 bytes of the payload suffices: the slack is for a pad and an authcode of 32 bytes. -/
theorem firstBlock_of_le {t : Transmission} {m : Nat} (h : n ≤ m + 16) : FirstBlock intf t m n := by
  obtain ⟨-, hpadded, -⟩ := paddedLength_le n
  have hpad := integrityPadSize_le intf.icts n
  have hdigest := digestLength_le intf.v2.integrityAlg
  exact ⟨by omega, fun _ _ => by omega, fun _ _ => by omega⟩

theorem firstBlock_iv_iff {t : Transmission} (hn : n ≤ 2048) (hcrypt : intf.v2.cryptAlg ≠ cryptNone) :
    FirstBlock intf t 16 n ↔ FitsIvBlock intf t.outcome n := by
  obtain ⟨hlt, hle, hblocks⟩ := paddedLength_le n
  have hpad := integrityPadSize_le intf.icts n
  have hdigest := digestLength_le intf.v2.integrityAlg
  have hpadded : paddedLength n ≤ 16 + 50 ↔ n ≤ 63 := by omega
  constructor
  · rintro ⟨hpayload, hcipher, htrailer⟩
    refine ⟨by omega, fun henciphers => hpadded.1 (hcipher hcrypt henciphers), fun hskips hint => ?_⟩
    refine htrailer ?_ hint
    unfold encryptedLength
    rw [if_neg hcrypt, if_pos (by simpa using hskips)]
  · rintro ⟨hpayload, hcipher, htrailer⟩
    refine ⟨by omega, fun _ henciphers => hpadded.2 (hcipher henciphers), fun hsame hint => ?_⟩
    rcases encryptedLength_cases intf.v2.cryptAlg t.outcome hn with
      ⟨hskips, -, -⟩ | ⟨-, hiv⟩ | ⟨-, hboth⟩
    · exact htrailer (hskips.resolve_left hcrypt) hint
    · omega
    · omega

end length

/-! ### The bytes of a message -/

section bytes
variable {c : Crypto} {intf : Intf} {o : Fallible.Outcome}

/-- `encryptedLength` is the `bytes_written` of the encryption that gives the bytes. -/
theorem bytesWritten_eq {cryptAlg : UInt8} {key wire : List UInt8} {e : Fallible.Encryption}
    (he : Fallible.lanplusEncryptPayload c o cryptAlg key (Fallible.payloadMemory wire) wire.length = some e) :
    e.bytesWritten = encryptedLength cryptAlg o wire.length := by
  unfold Fallible.lanplusEncryptPayload at he
  unfold encryptedLength
  by_cases hnone : cryptAlg = cryptNone
  · rw [if_pos hnone] at he ⊢
    cases he
    rfl
  rw [if_neg hnone] at he ⊢
  by_cases haes : cryptAlg ≠ cryptAesCbc128
  · rw [if_pos haes] at he
    cases he
  rw [if_neg haes] at he
  cases hmalloc : o.malloc with
  | false =>
    rw [hmalloc] at he
    cases he
    rfl
  | true =>
    have hslice : slice (Fallible.payloadMemory wire) 0 wire.length = wire := slice_store _ 0 wire
    simp only [hmalloc, Bool.not_true, Bool.false_or, Bool.false_eq_true, if_false] at he ⊢
    by_cases hrand : Fallible.lanplusRand o = true
    · rw [if_pos hrand] at he ⊢
      cases he
      rfl
    · rw [if_neg hrand] at he ⊢
      cases he
      simp only [Fallible.lanplusEncryptAesCbc128, hslice]
      cases o.ctxNew <;> cases o.encryptInit <;> cases o.encryptUpdate <;> cases o.encryptFinal <;>
        simp [length_aesEncrypt_padded, paddedLength]

theorem length_withTrailer_le {n : Nat} {covered body : List UInt8}
    (h : withTrailer c intf n covered = some body) :
    body.length ≤ covered.length + integrityPadSize intf.icts n + 2 + 16 := by
  unfold withTrailer at h
  split at h
  · obtain ⟨mac, -, hrest⟩ := Option.bind_eq_some_iff.1 h
    obtain ⟨len, hlen, hbody⟩ := Option.bind_eq_some_iff.1 hrest
    obtain rfl := Option.some.inj hbody
    have hauth : len ≤ 16 := by
      unfold authcodeLength at hlen
      split at hlen
      · cases hlen
        decide
      split at hlen
      · cases hlen
        decide
      split at hlen
      · cases hlen
        decide
      · cases hlen
    have htake := List.length_take_le len mac
    simp only [integrityPad, List.length_append, List.length_replicate, List.length_cons, List.length_nil]
    omega
  · obtain rfl := Option.some.inj h
    omega

/-- The bytes of a message are no more than the block for its `payload_length` has. -/
theorem length_message_le {payload : V2Payload} {currSeq : UInt8} {msg : List UInt8} {intf' : Intf}
    (hactive : intf.v2.sessionState = .active) (hlength : (wireRep intf currSeq payload).length < 65536)
    (h : Fallible.ipmiLanplusBuildV2xMsg c intf payload o currSeq = some (msg, intf')) :
    msg.length ≤ messageSize (encryptedLength intf.v2.cryptAlg o (wireRep intf currSeq payload).length) := by
  unfold Fallible.ipmiLanplusBuildV2xMsg at h
  rw [if_pos hactive, Nat.mod_eq_of_lt hlength] at h
  obtain ⟨e, he, hrest⟩ := Option.bind_eq_some_iff.1 h
  obtain ⟨body, hbody, hmsg⟩ := Option.bind_eq_some_iff.1 hrest
  obtain ⟨rfl, -⟩ := Prod.mk.inj (Option.some.inj hmsg)
  have htrailer := length_withTrailer_le hbody
  have hpad := integrityPadSize_le intf.icts e.sent.length
  rw [List.length_append, Fallible.length_sent, bytesWritten_eq he] at htrailer
  have hheader : (sessionHeader intf payload.payloadType e.sent.length).length = 12 := rfl
  rw [List.length_append, show rmcpHeader.length = 4 from rfl]
  unfold messageSize offsetPayload maxIntegrityPadSize maxAuthCodeSize maxMdSize
  rw [← bytesWritten_eq he] at htrailer ⊢
  rw [Fallible.length_sent] at hpad hheader
  omega

end bytes

/-! ### The transmissions of a payload -/

section run
variable {intf : Intf}

theorem build_left (hactive : intf.v2.sessionState = .active) (p : Fallible.Outgoing) (t : Transmission) (m : Nat) :
    (build intf p t m).left =
      if t.msgAllocated then encryptedLength intf.v2.cryptAlg t.outcome (wireLength intf m p) else m := by
  unfold build
  cases t.msgAllocated with
  | false => rfl
  | true =>
    simp only [Bool.not_true, Bool.false_eq_true, if_false, if_true, if_pos hactive]
    split
    · split
      · rfl
      · rfl
    · rfl

/-- The messages of a request start from a fresh `payload_length`. -/
theorem ipmi_bounded (hactive : intf.v2.sessionState = .active) (req : IpmiRq) (ts : List Transmission) :
    ∀ left, ∀ r ∈ builds intf (.ipmi req) left ts, r.Bounded := by
  induction ts with
  | nil => exact fun _ => List.forall_mem_nil _
  | cons t rest ih =>
    intro left
    refine List.forall_mem_cons.2 ⟨(build_bounded_iff hactive _ t left).2 fun _ => firstBlock_of_le ?_, ih _⟩
    show req.data.length + 7 + intf.bridgingLength ≤ req.data.length + 7 + 16
    unfold Intf.bridgingLength
    split
    · omega
    split
    · omega
    · omega

/-- What is known about the `payload_length` that a SOL packet of `n` bytes starts with. -/
structure Carries (intf : Intf) (n : Nat) (failed : Bool) (left : Nat) : Prop where
  ivLeft : failed = true → left = 16 ∧ intf.v2.cryptAlg ≠ cryptNone
  room : failed = false → n ≤ left + 16

theorem Carries.next {n left : Nat} {failed : Bool} (h : Carries intf n failed left)
    (hactive : intf.v2.sessionState = .active) {packet : SolRequest} (hn : packet.data.length + 4 = n)
    (hle : n ≤ 2048) (t : Transmission) :
    Carries intf n (if t.msgAllocated then cipherFails intf.v2.cryptAlg t.outcome else failed)
      (build intf (.sol packet) t left).left := by
  rw [build_left hactive]
  cases t.msgAllocated with
  | false => exact h
  | true =>
    obtain ⟨hlt, -, -⟩ := paddedLength_le n
    simp only [if_true, wireLength, hn]
    refine ⟨fun hfails => ?_, fun hfails => ?_⟩
    · have hcrypt : intf.v2.cryptAlg ≠ cryptNone := by
        rintro hnone
        simp [cipherFails, hnone] at hfails
      rcases encryptedLength_cases intf.v2.cryptAlg t.outcome hle with ⟨-, hno, -⟩ | ⟨-, hiv⟩ | ⟨hno, -⟩
      · exact absurd hfails (by rw [hno]; decide)
      · exact ⟨hiv, hcrypt⟩
      · exact absurd hfails (by rw [hno]; decide)
    · rcases encryptedLength_cases intf.v2.cryptAlg t.outcome hle with ⟨-, -, hsame⟩ | ⟨hyes, -⟩ | ⟨-, hboth⟩
      · omega
      · exact absurd hfails (by rw [hyes]; decide)
      · omega

/-- **The messages of a SOL packet**, by induction on its transmissions. -/
theorem sol_bounded_iff (hactive : intf.v2.sessionState = .active) {packet : SolRequest} {n : Nat}
    (hn : packet.data.length + 4 = n) (hle : n ≤ 2048) {ts : List Transmission} :
    ∀ {failed : Bool} {left : Nat}, Carries intf n failed left →
      ((∀ r ∈ builds intf (.sol packet) left ts, r.Bounded) ↔ SolFits intf n failed ts) := by
  induction ts with
  | nil => exact fun _ => ⟨fun _ => trivial, fun _ => List.forall_mem_nil _⟩
  | cons t rest ih =>
    intro failed left h
    have hfirst : (build intf (.sol packet) t left).Bounded ↔
        (t.msgAllocated = true → failed = true → FitsIvBlock intf t.outcome n) := by
      have hbuild := build_bounded_iff hactive (.sol packet) t left
      change _ ↔ (_ → FirstBlock intf t left (packet.data.length + 4)) at hbuild
      rw [hn] at hbuild
      refine hbuild.trans (imp_congr_right fun _ => ?_)
      cases hfailed : failed with
      | false => exact iff_of_true (firstBlock_of_le (h.room hfailed)) nofun
      | true =>
        obtain ⟨hleft, hcrypt⟩ := h.ivLeft hfailed
        rw [hleft, forall_prop_of_true rfl]
        exact firstBlock_iv_iff hle hcrypt
    have hrest := ih (h.next hactive hn hle t)
    show (∀ r ∈ build intf (.sol packet) t left ::
      builds intf (.sol packet) (build intf (.sol packet) t left).left rest, r.Bounded) ↔ _
    rw [List.forall_mem_cons, hfirst, hrest]
    rfl

end run

/-- A payload in the transmissions of a call of `ipmi_lanplus_send_payload`, in an ACTIVE session with supported
algorithms. -/
structure PayloadCall where
  intf : Intf
  payload : Fallible.Outgoing
  transmissions : List Transmission
  active : intf.v2.sessionState = .active
  crypt : intf.v2.cryptAlg = cryptNone ∨ intf.v2.cryptAlg = cryptAesCbc128
  integrity : Fallible.hasAuthcode intf.v2 = true
  dataLength_le : payload.dataLength ≤ 1024

namespace PayloadCall
variable (x : PayloadCall)

/-- The builds; a SOL packet starts with the number of its characters. -/
def built : List Built := builds x.intf x.payload x.payload.freshLength x.transmissions

/-- Every byte that is written lies inside the block of that moment, and `payload_length` at the encryption is
the number of bytes of the payload. -/
def Bounded : Prop := ∀ r ∈ x.built, r.Bounded

def Fits : Prop :=
  match x.payload with
  | .ipmi _ => True
  | .sol packet => SolFits x.intf (packet.data.length + 4) false x.transmissions

/-- **The bounds of the builder.** -/
theorem bounded_iff : x.Bounded ↔ x.Fits := by
  obtain ⟨intf, p, ts, hactive, hcrypt, hintegrity, hle⟩ := x
  cases p with
  | ipmi req => exact iff_of_true (ipmi_bounded hactive req ts _) trivial
  | sol packet =>
    have hlength : packet.data.length ≤ 1024 := hle
    have hcarries : Carries intf (packet.data.length + 4) false packet.data.length :=
      ⟨nofun, fun _ => by omega⟩
    exact sol_bounded_iff hactive rfl (by omega) hcarries

/-! ### A packet that is transmitted again -/

/-- The encryption without memory for a cipher context. -/
def noContext : Fallible.Outcome where
  malloc := true
  rand := 1
  randBytes := List.replicate 16 0x5A
  ctxNew := false
  encryptInit := true
  encryptUpdate := true
  encryptFinal := true
  length_randBytes := Nat.le_of_eq List.length_replicate
  full_randBytes := fun _ => List.length_replicate

/-- 79 characters in two transmissions; the cipher fails in the first one. -/
def resent : PayloadCall where
  intf :=
    { v2 := { V2Data.initial with sessionState := .active, cryptAlg := cryptAesCbc128 }
      outSeq := 3, myAddr := 0x20, targetAddr := 0x20, targetChannel := 0, transitAddr := 0, transitChannel := 0
      bridgePossible := false, icts := false }
  payload := .sol ⟨List.replicate 79 0x61, 1, 0, 0, false, false, false, false, false, false, false⟩
  transmissions := [⟨true, noContext, true, 0⟩, ⟨true, noContext, true, 0⟩]
  active := rfl
  crypt := .inr rfl
  integrity := rfl
  dataLength_le := Nat.le_of_ble_eq_true rfl

/-- The second message gets 98 bytes, and the payload ends at 99. -/
theorem resent_not_bounded : ¬ ∀ x : PayloadCall, x.Bounded := by
  intro h
  have hoverrun : ⟨offsetPayload, 83, 98⟩ ∈ resent.built.flatMap Built.writes := by decide +kernel
  obtain ⟨r, hr, hwrite⟩ := List.mem_flatMap.1 hoverrun
  have hinside := (h resent r hr).inside _ hwrite
  unfold BlockWrite.Inside at hinside
  exact absurd hinside (by decide)

end PayloadCall

end KTools.Lanplus
