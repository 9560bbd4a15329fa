import KTools.Lanplus.Handshake

/-!
# The cipher suites of a channel

`ipmi_get_channel_cipher_suites` asks for the list of cipher suites in sets of 16 bytes, until a set is not
full or 64 sets have come, and takes the collected bytes apart into records of 5 and 8 bytes;
`ipmi_find_best_cipher_suite` picks the suite of the session.

The bytes of the sets lie one behind the other in the buffer (`fetchSets_delivered`), so a record that is
split over two sets is read as a whole, and the parser returns the records that the bytes start with
(`parseLoop_records`). Whatever the BMC answers, there are at most 64 requests, and nothing is written outside
the two buffers.
-/

namespace KTools.Lanplus
open KTools.Lib.Bytes

/-! ### Records -/

def standardCipherSuite : UInt8 := 0xc0
def oemCipherSuite : UInt8 := 0xc1
def cipherAlgMask : UInt8 := 0x3f
def maxCipherSuiteRecordOffset : Nat := 0x40
def maxCipherSuiteDataLen : Nat := 0x10
def listAlgorithmsByCipherSuite : UInt8 := 0x80

/-- The sizes of the two `struct`s of records. -/
def stdRecordSize : Nat := 5
def oemRecordSize : Nat := 8

def maxCipherSuiteCount : Nat := maxCipherSuiteRecordOffset * maxCipherSuiteDataLen / stdRecordSize

/-- The size of `cipher_suite_data`. -/
def cipherSuiteDataSize : Nat := maxCipherSuiteRecordOffset * maxCipherSuiteDataLen

/-- `struct cipher_suite_info`. -/
structure CipherSuiteInfo where
  cipherSuiteId : UInt8
  iana : UInt32
  authAlg : UInt8
  integrityAlg : UInt8
  cryptAlg : UInt8
  deriving DecidableEq

def CipherSuiteInfo.zero : CipherSuiteInfo := ⟨0, 0, 0, 0, 0⟩

def ipmi24toh (data : Nat → UInt8) (off : Nat) : UInt32 :=
  (data (off + 2)).toUInt32 <<< 16 ||| (data (off + 1)).toUInt32 <<< 8 ||| (data off).toUInt32

/-! ### The parser -/

/-- `parse_cipher_suite` on the record at `off`, with `dataLen` bytes left: the suite and the size of the
record, 0 if there is none. -/
def parseCipherSuite (data : Nat → UInt8) (off dataLen : Nat) (s : CipherSuiteInfo) : CipherSuiteInfo × Nat :=
  if data off = standardCipherSuite then
    if dataLen < stdRecordSize then (s, 0)
    else
      ({ s with
          cipherSuiteId := data (off + 1)
          authAlg := cipherAlgMask &&& data (off + 2)
          integrityAlg := cipherAlgMask &&& data (off + 3)
          cryptAlg := cipherAlgMask &&& data (off + 4) }, stdRecordSize)
  else if data off = oemCipherSuite then
    if dataLen < oemRecordSize then (s, 0)
    else
      ({ s with
          iana := ipmi24toh data (off + 2)
          cipherSuiteId := data (off + 1)
          authAlg := cipherAlgMask &&& data (off + 5)
          integrityAlg := cipherAlgMask &&& data (off + 6)
          cryptAlg := cipherAlgMask &&& data (off + 7) }, oemRecordSize)
  else (s, 0)

/-- The array of suites, `count`, and the indices that were written. -/
structure Parsed where
  suites : Nat → CipherSuiteInfo
  count : Nat
  written : List Nat

def Parsed.write (p : Parsed) (s : CipherSuiteInfo) : Parsed :=
  { p with
    suites := fun i => if i = p.count then s else p.suites i
    written := p.written ++ [p.count] }

/-- `count++`. -/
def Parsed.counted (p : Parsed) : Parsed := { p with count := p.count + 1 }

/-- The loop of `parse_channel_cipher_suite_data`, with room for `n` more suites. -/
def parseLoop (data : Nat → UInt8) (dataLen : Nat) : (n offset : Nat) → Parsed → Parsed
  | 0, _, p => p
  | n + 1, offset, p =>
    if offset < dataLen then
      let s := { p.suites p.count with authAlg := authRakpNone, integrityAlg := integrityNone, cryptAlg := cryptNone }
      let r := parseCipherSuite data offset (dataLen - offset) s
      let p := p.write r.1
      if r.2 = 0 then p else parseLoop data dataLen n (offset + r.2) p.counted
    else p

/-- The array after `memset`. -/
def Parsed.start (suites : Nat → CipherSuiteInfo) (nrSuites : Nat) : Parsed where
  suites := fun i => if i < nrSuites then .zero else suites i
  count := 0
  written := List.range nrSuites

def parseChannelCipherSuiteData (data : Nat → UInt8) (dataLen : Nat) (suites : Nat → CipherSuiteInfo)
    (nrSuites : Nat) : Parsed :=
  parseLoop data dataLen nrSuites 0 (.start suites nrSuites)

/-! ### The requests -/

/-- A response that is in error or does not hold a set. -/
def badSet (rsp : CmdRsp) : Bool :=
  rsp.ccode != 0 || decide (rsp.data.length < 1) || decide (1 + maxCipherSuiteDataLen < rsp.data.length)

/-- The local variables of `ipmi_get_channel_cipher_suites`; the data of the requests, and the parts of
`cipher_suite_data` that were written. -/
structure Fetch where
  listIndex : UInt8
  data : Nat → UInt8
  offset : Nat
  requests : List (List UInt8)
  written : List (Nat × Nat)

/-- After the second `memset`. -/
def Fetch.start : Fetch := ⟨0, fun _ => 0, 0, [], [(0, cipherSuiteDataSize)]⟩

/-- `"ipmi"`. -/
def ipmiPayloadType : List UInt8 := [105, 112, 109, 105]

def Fetch.request (f : Fetch) (channel : UInt8) (payloadType : List UInt8) : Fetch :=
  { f with
    requests := f.requests ++
      [[channel, if payloadType = ipmiPayloadType then 0 else 1, listAlgorithmsByCipherSuite ||| f.listIndex]] }

def Fetch.take (f : Fetch) (set : List UInt8) : Fetch :=
  { f with
    data := store f.data f.offset set
    offset := f.offset + set.length
    listIndex := f.listIndex + 1
    written := f.written ++ [(f.offset, set.length)] }

/-- The loop over the sets, with at most `n` requests to go; `replies` are the responses by the number of the
request, `none` for NULL. `false` is the early return of -1. -/
def fetchSets (channel : UInt8) (payloadType : List UInt8) (replies : Nat → Option CmdRsp) :
    Nat → Fetch → Fetch × Bool
  | 0, f => (f, true)
  | n + 1, f =>
    let f := f.request channel payloadType
    match replies (f.requests.length - 1) with
    | none => (f, false)
    | some rsp =>
      if badSet rsp then (f, false)
      else
        let f := f.take rsp.data.tail
        if rsp.data.length = 1 + maxCipherSuiteDataLen then fetchSets channel payloadType replies n f
        else (f, true)

/-- What a call leaves: the array with `*count`, the requests and what was written, and whether it returns 0. -/
structure Got where
  fetch : Fetch
  parsed : Parsed
  ok : Bool

/-- `ipmi_get_channel_cipher_suites` with room for `nrSuites` suites. -/
def ipmiGetChannelCipherSuites (channel : UInt8) (payloadType : List UInt8) (replies : Nat → Option CmdRsp)
    (suites : Nat → CipherSuiteInfo) (nrSuites : Nat) : Got :=
  if nrSuites = 0 then ⟨⟨0, fun _ => 0, 0, [], []⟩, ⟨suites, 0, []⟩, false⟩
  else
    let r := fetchSets channel payloadType replies maxCipherSuiteRecordOffset .start
    if r.2 then ⟨r.1, parseChannelCipherSuiteData r.1.data r.1.offset suites nrSuites, true⟩
    else ⟨r.1, ⟨suites, 0, []⟩, false⟩

/-- The suites that a call returns. -/
def Got.suites (g : Got) : List CipherSuiteInfo := (List.range g.parsed.count).map g.parsed.suites

/-! ### `ipmi_find_best_cipher_suite` -/

def cipherSuite17 : UInt8 := 17
def lanChannelE : UInt8 := 0x0e

/-- The loop over the suites of the BMC. -/
def findSuite (preferred best : UInt8) : List CipherSuiteInfo → UInt8
  | [] => best
  | s :: rest => if preferred = s.cipherSuiteId then preferred else findSuite preferred best rest

/-- The loop over the suites by preference. -/
def preferLoop (suites : List CipherSuiteInfo) : List UInt8 → UInt8 → UInt8
  | [], best => best
  | preferred :: rest, best =>
    if best = cipherSuiteReserved then preferLoop suites rest (findSuite preferred best suites) else best

def ipmiFindBestCipherSuite (replies : Nat → Option CmdRsp) (suites : Nat → CipherSuiteInfo) : UInt8 :=
  let got := ipmiGetChannelCipherSuites lanChannelE ipmiPayloadType replies suites maxCipherSuiteCount
  if !got.ok then cipherSuite3
  else
    let best := preferLoop got.suites [cipherSuite17, cipherSuite3] cipherSuiteReserved
    if best = cipherSuiteReserved then cipherSuite3 else best

/-! ### The bytes of a list of suites -/

/-- A complete record. -/
def IsRecord (r : List UInt8) : Prop :=
  (r.head? = some standardCipherSuite ∧ r.length = stdRecordSize) ∨
    (r.head? = some oemCipherSuite ∧ r.length = oemRecordSize)

/-- The records that the bytes start with, as many as there are. -/
def StartsWith (bytes : List UInt8) (records : List (List UInt8)) : Prop :=
  (∀ r ∈ records, IsRecord r) ∧ ∃ rest, bytes = records.flatten ++ rest ∧ ∀ r, IsRecord r → ¬ r <+: rest

/-- The suite that a record stands for. -/
def suiteOf (r : List UInt8) : CipherSuiteInfo :=
  let byte := fun i => r.getD i 0
  if byte 0 = standardCipherSuite then
    ⟨byte 1, 0, cipherAlgMask &&& byte 2, cipherAlgMask &&& byte 3, cipherAlgMask &&& byte 4⟩
  else ⟨byte 1, ipmi24toh byte 2, cipherAlgMask &&& byte 5, cipherAlgMask &&& byte 6, cipherAlgMask &&& byte 7⟩

/-- A cipher suite of a BMC; `iana` is the number of an OEM suite. -/
structure Suite where
  id : UInt8
  iana : Option UInt32
  auth : UInt8
  integrity : UInt8
  crypt : UInt8
  iana_lt : ∀ n, iana = some n → n < 0x1000000
  auth_lt : auth < 0x40
  integrity_lt : integrity < 0x40
  crypt_lt : crypt < 0x40

/-- The algorithms with the tags of their kinds. -/
def Suite.algorithms (s : Suite) : List UInt8 := [s.auth, 0x40 ||| s.integrity, 0x80 ||| s.crypt]

/-- The record of a suite. -/
def Suite.encode (s : Suite) : List UInt8 :=
  match s.iana with
  | none => [standardCipherSuite, s.id] ++ s.algorithms
  | some n => [oemCipherSuite, s.id, n.toUInt8, (n >>> 8).toUInt8, (n >>> 16).toUInt8] ++ s.algorithms

def Suite.info (s : Suite) : CipherSuiteInfo := ⟨s.id, s.iana.getD 0, s.auth, s.integrity, s.crypt⟩

theorem mask_eq (alg : UInt8) (h : alg < 0x40) : cipherAlgMask &&& alg = alg := by
  have hlt : alg.toNat < 2 ^ 6 := h
  apply UInt8.toNat_inj.1
  rw [UInt8.toNat_and, Nat.and_comm]
  exact (Nat.and_two_pow_sub_one_eq_mod alg.toNat 6).trans (Nat.mod_eq_of_lt hlt)

/-- The mask takes the tag off. -/
theorem mask_tag (tag alg : UInt8) (htag : cipherAlgMask &&& tag = 0) (h : alg < 0x40) :
    cipherAlgMask &&& (tag ||| alg) = alg := by
  have hand : cipherAlgMask.toNat &&& tag.toNat = 0 := by
    rw [← UInt8.toNat_and, htag]
    rfl
  have hmask : cipherAlgMask.toNat &&& alg.toNat = alg.toNat := by rw [← UInt8.toNat_and, mask_eq alg h]
  apply UInt8.toNat_inj.1
  rw [UInt8.toNat_and, UInt8.toNat_or, Nat.and_or_distrib_left, hand, hmask, Nat.zero_or]

/-- The three bytes of a number make the number again. -/
theorem ipmi24toh_bytes (n : UInt32) (h : n < 0x1000000) (data : Nat → UInt8) (off : Nat)
    (h0 : data off = n.toUInt8) (h1 : data (off + 1) = (n >>> 8).toUInt8)
    (h2 : data (off + 2) = (n >>> 16).toUInt8) : ipmi24toh data off = n := by
  have hlt : n.toNat < 2 ^ 24 := h
  have hhigh : (((n >>> 16).toUInt8).toUInt32 <<< 16).toNat = (n.toNat / 2 ^ 16) <<< 16 := by
    simp [Nat.shiftRight_eq_div_pow, Nat.shiftLeft_eq]
    omega
  have hmid : (((n >>> 8).toUInt8).toUInt32 <<< 8).toNat = (n.toNat / 2 ^ 8 % 2 ^ 8) <<< 8 := by
    simp [Nat.shiftRight_eq_div_pow, Nat.shiftLeft_eq]
    omega
  have hlow : (n.toUInt8).toUInt32.toNat = n.toNat % 2 ^ 8 := by simp
  have hlower : (n.toNat / 2 ^ 8 % 2 ^ 8) <<< 8 ||| n.toNat % 2 ^ 8 = n.toNat % 2 ^ 16 := by
    rw [← Nat.shiftLeft_add_eq_or_of_lt (Nat.mod_lt _ (by decide)), Nat.shiftLeft_eq]
    omega
  rw [ipmi24toh, h0, h1, h2]
  apply UInt32.toNat_inj.1
  rw [UInt32.toNat_or, UInt32.toNat_or, hhigh, hmid, hlow, Nat.or_assoc, hlower,
    ← Nat.shiftLeft_add_eq_or_of_lt (Nat.mod_lt _ (by decide)), Nat.shiftLeft_eq]
  omega

namespace Suite
variable (s : Suite)

theorem encode_isRecord : IsRecord s.encode := by
  rcases h : s.iana with _ | n
  · left
    simp [encode, h, algorithms, stdRecordSize]
  · right
    simp [encode, h, algorithms, oemRecordSize]

/-- The record of a suite stands for the suite. -/
theorem suiteOf_encode : suiteOf s.encode = s.info := by
  have hauth := mask_eq s.auth s.auth_lt
  have hinteg := mask_tag 0x40 s.integrity (by decide) s.integrity_lt
  have hcrypt := mask_tag 0x80 s.crypt (by decide) s.crypt_lt
  rcases h : s.iana with _ | n
  · simp [suiteOf, encode, info, h, algorithms, hauth, hinteg, hcrypt]
  · have htag : oemCipherSuite ≠ standardCipherSuite := by decide
    have hiana := ipmi24toh_bytes n (s.iana_lt n h) (fun i => s.encode.getD i 0) 2
      (by simp [encode, h]) (by simp [encode, h]) (by simp [encode, h])
    rw [suiteOf, hiana]
    simp [encode, info, h, algorithms, hauth, hinteg, hcrypt, htag]

end Suite

/-! ### The records of a stream -/

theorem IsRecord.length_pos {r : List UInt8} (h : IsRecord r) : 0 < r.length := by
  rcases h with ⟨-, h⟩ | ⟨-, h⟩
  all_goals
    rw [h]
    decide

/-- Every stream starts with some number of records. -/
theorem exists_startsWith (bytes : List UInt8) : ∃ records, StartsWith bytes records := by
  induction hn : bytes.length using Nat.strongRecOn generalizing bytes with
  | _ n ih =>
    by_cases hr : ∃ r, IsRecord r ∧ r <+: bytes
    · obtain ⟨r, hrec, rest, rfl⟩ := hr
      have hpos := hrec.length_pos
      obtain ⟨records, hall, rest', rfl, hrest⟩ := ih rest.length (by simp at hn; omega) rest rfl
      refine ⟨r :: records, List.forall_mem_cons.2 ⟨hrec, hall⟩, rest', ?_, hrest⟩
      rw [List.flatten_cons, List.append_assoc]
    · exact ⟨[], by simp, bytes, by simp, fun r hrec hpre => hr ⟨r, hrec, hpre⟩⟩

/-- A list of suites starts with its own records. -/
theorem startsWith_encode (list : List Suite) : StartsWith (list.flatMap Suite.encode) (list.map Suite.encode) := by
  refine ⟨List.forall_mem_map.2 fun s _ => s.encode_isRecord, [], by simp [List.flatMap_def], ?_⟩
  intro r hrec hpre
  have hpos := hrec.length_pos
  rw [List.prefix_nil.1 hpre] at hpos
  exact absurd hpos (by decide)

section Parser
variable (data : Nat → UInt8)

theorem byte_of_slice {off len : Nat} {r rest : List UInt8} (h : slice data off len = r ++ rest) {i : Nat}
    (hi : i < r.length) : data (off + i) = r.getD i 0 := by
  have hlen : i < (slice data off len).length := by
    rw [h, List.length_append]
    omega
  rw [← getElem_slice data off len i hlen, List.getD_eq_getElem _ _ hi]
  simp only [h, List.getElem_append_left hi]

/-- A record at the start of what is left is taken whole. -/
theorem parseCipherSuite_record {off dataLen : Nat} {r rest : List UInt8} (hr : IsRecord r)
    (h : slice data off dataLen = r ++ rest) {s : CipherSuiteInfo} (hs : s.iana = 0) :
    parseCipherSuite data off dataLen s = (suiteOf r, r.length) := by
  have hlen : r.length ≤ dataLen := by
    have := congrArg List.length h
    rw [length_slice, List.length_append] at this
    omega
  have hbyte := fun i => byte_of_slice data (i := i) h
  have hhead : ∀ t, r.head? = some t → data off = t ∧ r.getD 0 0 = t := by
    intro t ht
    have hpos := hr.length_pos
    have h0 := hbyte 0 hpos
    cases r with
    | nil => exact absurd hpos (by decide)
    | cons b r =>
      obtain rfl : b = t := by simpa using ht
      exact ⟨by simpa using h0, by simp⟩
  rcases hr with ⟨htag, hsize⟩ | ⟨htag, hsize⟩
  · obtain ⟨hd, h0⟩ := hhead _ htag
    have hshort : ¬ dataLen < stdRecordSize := by omega
    rw [parseCipherSuite, if_pos hd, if_neg hshort, suiteOf]
    simp only [h0, if_true, hsize]
    unfold stdRecordSize at hsize
    rw [hbyte 1 (by omega), hbyte 2 (by omega), hbyte 3 (by omega), hbyte 4 (by omega), hs]
  · obtain ⟨hd, h0⟩ := hhead _ htag
    have htags : oemCipherSuite ≠ standardCipherSuite := by decide
    have hshort : ¬ dataLen < oemRecordSize := by omega
    rw [parseCipherSuite, if_neg (hd.trans_ne htags), if_pos hd, if_neg hshort, suiteOf]
    simp only [h0, if_neg htags, hsize]
    unfold oemRecordSize at hsize
    rw [ipmi24toh, ipmi24toh, Nat.add_assoc, Nat.add_assoc, hbyte 1 (by omega), hbyte 2 (by omega),
      hbyte 3 (by omega), hbyte 4 (by omega), hbyte 5 (by omega), hbyte 6 (by omega), hbyte 7 (by omega)]

/-- What does not start with a record is not counted. -/
theorem parseCipherSuite_none {off dataLen : Nat}
    (h : ∀ r, IsRecord r → ¬ r <+: slice data off dataLen) (s : CipherSuiteInfo) :
    (parseCipherSuite data off dataLen s).2 = 0 := by
  have hnot : ∀ size, 0 < size → size ≤ dataLen → ¬ IsRecord (slice data off size) := by
    intro size _ hle hrec
    refine h _ hrec ?_
    rw [← take_slice data off hle]
    exact List.take_prefix _ _
  have hhead : ∀ size, 0 < size → (slice data off size).head? = some (data off) := by
    intro size hsize
    obtain ⟨k, rfl⟩ := Nat.exists_eq_succ_of_ne_zero (Nat.pos_iff_ne_zero.1 hsize)
    simp [slice, List.range_succ_eq_map]
  rw [parseCipherSuite]
  split
  · rename_i htag
    have hshort : dataLen < stdRecordSize := by
      by_contra hle
      refine hnot stdRecordSize (by decide) (by omega) (.inl ⟨?_, length_slice _ _ _⟩)
      rw [hhead _ (by decide), htag]
    rw [if_pos hshort]
  · split
    · rename_i htag
      have hshort : dataLen < oemRecordSize := by
        by_contra hle
        refine hnot oemRecordSize (by decide) (by omega) (.inr ⟨?_, length_slice _ _ _⟩)
        rw [hhead _ (by decide), htag]
      rw [if_pos hshort]
    · rfl

/-- The suites that were counted so far. -/
def Parsed.list (p : Parsed) : List CipherSuiteInfo := (List.range p.count).map p.suites

theorem Parsed.list_write (p : Parsed) (s : CipherSuiteInfo) : (p.write s).list = p.list := by
  refine List.map_congr_left fun i hi => ?_
  have hlt : i < p.count := List.mem_range.1 hi
  exact if_neg (by omega)

theorem Parsed.list_counted (p : Parsed) (s : CipherSuiteInfo) : (p.write s).counted.list = p.list ++ [s] := by
  rw [← p.list_write s]
  simp [list, counted, write, List.range_succ]

/-- The loop of the parser reads the records one after the other, as many as there is room for. -/
theorem parseLoop_records (dataLen : Nat) : ∀ (n offset : Nat) (p : Parsed) (records : List (List UInt8)),
    offset ≤ dataLen → (∀ i, p.count ≤ i → i < p.count + n → p.suites i = .zero) →
      StartsWith (slice data offset (dataLen - offset)) records →
        (parseLoop data dataLen n offset p).list = p.list ++ (records.map suiteOf).take n := by
  intro n
  induction n with
  | zero =>
    intro offset p records _ _ _
    simp [parseLoop]
  | succ n ih =>
    intro offset p records hle hzero ⟨hall, rest, hbytes, hrest⟩
    rw [parseLoop]
    by_cases hlt : offset < dataLen
    · simp only [if_pos hlt]
      cases records with
      | nil =>
        -- the bytes that are left start with no record
        rw [← List.nil_append rest, ← List.flatten_nil, ← hbytes] at hrest
        rw [if_pos (parseCipherSuite_none data hrest _), Parsed.list_write]
        simp
      | cons r records =>
        obtain ⟨hrec, hall⟩ := List.forall_mem_cons.1 hall
        rw [List.flatten_cons, List.append_assoc] at hbytes
        have hpos := hrec.length_pos
        have hlen : r.length ≤ dataLen - offset := by
          have := congrArg List.length hbytes
          rw [length_slice, List.length_append] at this
          omega
        have htail : slice data (offset + r.length) (dataLen - (offset + r.length)) = records.flatten ++ rest := by
          rw [← Nat.sub_sub, ← drop_slice data offset hlen, hbytes, List.drop_left]
        have hs : ({ p.suites p.count with
            authAlg := authRakpNone, integrityAlg := integrityNone, cryptAlg := cryptNone } :
              CipherSuiteInfo).iana = 0 := by
          rw [hzero p.count (Nat.le_refl _) (by omega)]
          rfl
        rw [parseCipherSuite_record data hrec hbytes hs, if_neg (Nat.pos_iff_ne_zero.1 hpos)]
        refine (ih (offset + r.length) (p.write (suiteOf r)).counted records (by omega) ?_
          ⟨hall, rest, htail, hrest⟩).trans ?_
        · intro i hi hi'
          simp only [Parsed.counted, Parsed.write] at hi hi' ⊢
          rw [if_neg (by omega), hzero i (by omega) (by omega)]
        · rw [Parsed.list_counted, List.append_assoc]
          rfl
    · -- nothing is left
      have hnil : slice data offset (dataLen - offset) = [] := by
        rw [← List.length_eq_zero_iff, length_slice]
        omega
      cases records with
      | nil => simp [if_neg hlt]
      | cons r records =>
        have hpos := (List.forall_mem_cons.1 hall).1.length_pos
        rw [hnil, List.flatten_cons, List.append_assoc] at hbytes
        rw [List.append_eq_nil_iff.1 hbytes.symm |>.1] at hpos
        exact absurd hpos (by decide)

/-- The loop of the parser writes inside the array. -/
theorem parseLoop_inside (dataLen : Nat) {size : Nat} : ∀ (n offset : Nat) (p : Parsed), p.count + n = size →
    (∀ i ∈ p.written, i < size) → ∀ i ∈ (parseLoop data dataLen n offset p).written, i < size := by
  intro n
  induction n with
  | zero =>
    intro offset p _ h
    exact h
  | succ n ih =>
    intro offset p hsize h
    have hwrite : ∀ i ∈ p.written ++ [p.count], i < size := by
      intro i hi
      rcases List.mem_append.1 hi with hi | hi
      · exact h i hi
      · rw [List.mem_singleton.1 hi]
        omega
    rw [parseLoop]
    split
    · dsimp only
      split
      · exact hwrite
      · apply ih
        · simp only [Parsed.counted, Parsed.write]
          omega
        · exact hwrite
    · exact h

end Parser

/-! ### The sets -/

section Sets
variable (channel : UInt8) (payloadType : List UInt8) (replies : Nat → Option CmdRsp)

/-- What holds of the variables after `k` full sets, whatever the BMC answers. -/
structure Fetch.InBounds (f : Fetch) (k : Nat) : Prop where
  requests : f.requests.length = k
  offset : f.offset = maxCipherSuiteDataLen * k
  written : ∀ w ∈ f.written, w.1 + w.2 ≤ cipherSuiteDataSize

theorem Fetch.start_inBounds : Fetch.start.InBounds 0 where
  requests := rfl
  offset := rfl
  written := by
    intro w hw
    rw [List.mem_singleton.1 hw]
    decide

/-- A set that `memcpy` puts into the buffer. -/
theorem Fetch.written_take {f : Fetch} {k : Nat} (h : f.InBounds k) (hk : k < maxCipherSuiteRecordOffset)
    {rsp : CmdRsp} (hrsp : badSet rsp = false) :
    ∀ w ∈ ((f.request channel payloadType).take rsp.data.tail).written, w.1 + w.2 ≤ cipherSuiteDataSize := by
  have hoff := h.offset
  simp only [badSet, Bool.or_eq_false_iff, decide_eq_false_iff_not] at hrsp
  simp only [maxCipherSuiteRecordOffset, maxCipherSuiteDataLen] at hk hoff hrsp
  intro w hw
  rcases List.mem_append.1 hw with hw | hw
  · exact h.written w hw
  · rw [List.mem_singleton.1 hw]
    simp only [Fetch.request, List.length_tail, cipherSuiteDataSize, maxCipherSuiteRecordOffset,
      maxCipherSuiteDataLen]
    omega

/-- At most 64 requests, and every byte of every set inside the buffer. -/
theorem fetchSets_inside : ∀ (n k : Nat) (f : Fetch), n + k = maxCipherSuiteRecordOffset → f.InBounds k →
    (fetchSets channel payloadType replies n f).1.requests.length ≤ maxCipherSuiteRecordOffset ∧
      ∀ w ∈ (fetchSets channel payloadType replies n f).1.written, w.1 + w.2 ≤ cipherSuiteDataSize := by
  intro n
  induction n with
  | zero =>
    intro k f hk h
    exact ⟨by rw [fetchSets, h.requests]; omega, h.written⟩
  | succ n ih =>
    intro k f hk h
    have hrequests : (f.request channel payloadType).requests.length = k + 1 := by
      simp [Fetch.request, h.requests]
    rw [fetchSets]
    dsimp only
    split
    · exact ⟨by dsimp only; omega, h.written⟩
    · rename_i rsp hrsp
      cases hfails : badSet rsp with
      | true => exact ⟨by simp only [if_true]; omega, h.written⟩
      | false =>
        have hwritten := Fetch.written_take channel payloadType h (by omega) hfails
        simp only [Bool.false_eq_true, if_false]
        split
        · rename_i hfull
          refine ih (k + 1) _ (by omega) ⟨hrequests, ?_, hwritten⟩
          simp only [Fetch.take, Fetch.request, h.offset, List.length_tail, hfull]
          rw [Nat.mul_add, Nat.add_sub_cancel_left, Nat.mul_one]
        · exact ⟨by simp only [Fetch.take]; omega, hwritten⟩

/-- A BMC that delivers a stream of bytes in sets of 16, the last of them short or empty, each behind a byte
with the number of the channel. -/
structure Delivers (stream : List UInt8) : Prop where
  set : ∀ k < maxCipherSuiteRecordOffset, maxCipherSuiteDataLen * k ≤ stream.length → ∃ number,
    replies k = some ⟨0, number :: (stream.drop (maxCipherSuiteDataLen * k)).take maxCipherSuiteDataLen⟩

/-- Every stream can be delivered. -/
theorem exists_delivers (number : UInt8) (stream : List UInt8) : ∃ replies, Delivers replies stream :=
  ⟨fun k => some ⟨0, number :: (stream.drop (maxCipherSuiteDataLen * k)).take maxCipherSuiteDataLen⟩,
    ⟨fun _ _ _ => ⟨number, rfl⟩⟩⟩

/-- The buffer holds the first `k` sets of the stream. -/
structure Fetch.Holds (f : Fetch) (stream : List UInt8) (k : Nat) : Prop extends f.InBounds k where
  le : maxCipherSuiteDataLen * k ≤ stream.length
  bytes : slice f.data 0 f.offset = stream.take (maxCipherSuiteDataLen * k)

/-- The next set goes right behind the sets that came before it. -/
theorem Fetch.slice_take {f : Fetch} {stream : List UInt8} {k : Nat} (h : f.Holds stream k) (set : List UInt8)
    (hset : set = (stream.drop (maxCipherSuiteDataLen * k)).take maxCipherSuiteDataLen) :
    slice ((f.request channel payloadType).take set).data 0 ((f.request channel payloadType).take set).offset =
      stream.take (maxCipherSuiteDataLen * (k + 1)) := by
  have hnew := slice_store f.data f.offset set
  have hold : slice (store f.data f.offset set) 0 f.offset = slice f.data 0 f.offset :=
    slice_store_of_disjoint f.data (by omega)
  simp only [Fetch.take, Fetch.request]
  rw [slice_add, Nat.zero_add, hold, hnew, h.bytes, hset, Nat.mul_add, Nat.mul_one, List.take_add]

/-- The buffer ends up with the stream, as far as it has room. -/
theorem fetchSets_delivered {stream : List UInt8} (hdelivers : Delivers replies stream) :
    ∀ (n k : Nat) (f : Fetch), n + k = maxCipherSuiteRecordOffset → f.Holds stream k →
      (fetchSets channel payloadType replies n f).2 = true ∧
        slice (fetchSets channel payloadType replies n f).1.data 0
          (fetchSets channel payloadType replies n f).1.offset = stream.take cipherSuiteDataSize := by
  intro n
  induction n with
  | zero =>
    intro k f hk h
    obtain rfl : k = maxCipherSuiteRecordOffset := by omega
    refine ⟨rfl, ?_⟩
    rw [fetchSets, h.bytes, cipherSuiteDataSize, Nat.mul_comm]
  | succ n ih =>
    intro k f hk h
    obtain ⟨number, hreply⟩ := hdelivers.set k (by omega) h.le
    have hrequests : (f.request channel payloadType).requests.length = k + 1 := by
      simp [Fetch.request, h.requests]
    have hslice := Fetch.slice_take channel payloadType h _ rfl
    obtain ⟨set, hset⟩ :
        ∃ set, (stream.drop (maxCipherSuiteDataLen * k)).take maxCipherSuiteDataLen = set := ⟨_, rfl⟩
    rw [hset] at hreply hslice
    have hlen : set.length = min maxCipherSuiteDataLen (stream.length - maxCipherSuiteDataLen * k) := by
      rw [← hset, List.length_take, List.length_drop]
    have hfails : badSet ⟨0, number :: set⟩ = false := by
      simp only [badSet, List.length_cons, Bool.or_eq_false_iff, decide_eq_false_iff_not]
      exact ⟨⟨rfl, by omega⟩, by omega⟩
    have hwritten := Fetch.written_take channel payloadType h.toInBounds (by omega) hfails
    rw [fetchSets]
    simp only [hrequests, Nat.add_sub_cancel, hreply, hfails, Bool.false_eq_true, if_false, List.tail_cons,
      List.length_cons]
    simp only [maxCipherSuiteDataLen, maxCipherSuiteRecordOffset] at hlen hk
    by_cases hfull : set.length = maxCipherSuiteDataLen
    · rw [if_pos (by omega)]
      refine ih (k + 1) _ (by simp only [maxCipherSuiteRecordOffset]; omega) ⟨⟨hrequests, ?_, hwritten⟩, ?_, hslice⟩
      · simp only [Fetch.take, Fetch.request, h.offset, hfull, Nat.mul_add, Nat.mul_one]
      · simp only [maxCipherSuiteDataLen] at hfull ⊢
        omega
    · -- the set is short, so it is the end of the stream
      rw [if_neg (by omega)]
      refine ⟨rfl, hslice.trans ?_⟩
      have hle := h.le
      simp only [maxCipherSuiteDataLen, cipherSuiteDataSize, maxCipherSuiteRecordOffset] at hfull hle ⊢
      rw [List.take_of_length_le (by omega), List.take_of_length_le (by omega)]

end Sets

/-! ### The suites that come back -/

/-- A call of `ipmi_get_channel_cipher_suites` with room for `count` suites. -/
structure SuitesCall where
  channel : UInt8
  payloadType : List UInt8
  replies : Nat → Option CmdRsp
  suites : Nat → CipherSuiteInfo
  count : Nat
  count_pos : 0 < count

namespace SuitesCall
variable (x : SuitesCall)

def got : Got := ipmiGetChannelCipherSuites x.channel x.payloadType x.replies x.suites x.count

/-- At most 64 requests, and every write inside `cipher_suite_data` or the array of suites. -/
structure InBounds : Prop where
  requests : x.got.fetch.requests.length ≤ maxCipherSuiteRecordOffset
  data : ∀ w ∈ x.got.fetch.written, w.1 + w.2 ≤ cipherSuiteDataSize
  suites : ∀ i ∈ x.got.parsed.written, i < x.count

/-- The call returns what the stream starts with: `count` of the records at most. -/
structure Reassembles (stream : List UInt8) : Prop where
  ok : x.got.ok = true
  records : ∃ records, StartsWith (stream.take cipherSuiteDataSize) records ∧
    x.got.suites = (records.map suiteOf).take x.count
  suites : ∀ list : List Suite, list.flatMap Suite.encode = stream → stream.length ≤ cipherSuiteDataSize →
    x.got.suites = (list.map Suite.info).take x.count

theorem got_eq : x.got =
    let r := fetchSets x.channel x.payloadType x.replies maxCipherSuiteRecordOffset .start
    if r.2 then ⟨r.1, parseChannelCipherSuiteData r.1.data r.1.offset x.suites x.count, true⟩
    else ⟨r.1, ⟨x.suites, 0, []⟩, false⟩ :=
  if_neg (Nat.pos_iff_ne_zero.1 x.count_pos)

theorem inBounds : x.InBounds := by
  obtain ⟨hrequests, hdata⟩ := fetchSets_inside x.channel x.payloadType x.replies maxCipherSuiteRecordOffset 0
    .start rfl Fetch.start_inBounds
  have hparsed := fun data len => parseLoop_inside data len x.count 0 (.start x.suites x.count)
    (Nat.zero_add _) (fun i hi => List.mem_range.1 hi)
  have heq := x.got_eq
  dsimp only at heq
  split at heq
  · refine ⟨?_, ?_, ?_⟩ <;> rw [heq]
    · exact hrequests
    · exact hdata
    · exact hparsed _ _
  · refine ⟨?_, ?_, ?_⟩ <;> rw [heq]
    · exact hrequests
    · exact hdata
    · simp

/-- A call that fails returns no suite. -/
theorem suites_of_failed (h : x.got.ok = false) : x.got.suites = [] := by
  have heq := x.got_eq
  dsimp only at heq
  split at heq
  · rw [heq] at h
    cases h
  · rw [heq]
    rfl

theorem suites_of_startsWith {stream : List UInt8} (hdelivers : Delivers x.replies stream)
    {records : List (List UInt8)} (hrecords : StartsWith (stream.take cipherSuiteDataSize) records) :
    x.got.ok = true ∧ x.got.suites = (records.map suiteOf).take x.count := by
  obtain ⟨hok, hbytes⟩ := fetchSets_delivered x.channel x.payloadType x.replies hdelivers
    maxCipherSuiteRecordOffset 0 .start rfl ⟨Fetch.start_inBounds, by simp, by simp [Fetch.start, slice]⟩
  have heq := x.got_eq
  dsimp only at heq
  rw [if_pos hok] at heq
  refine ⟨by rw [heq], ?_⟩
  rw [heq]
  refine (parseLoop_records _ _ x.count 0 (.start x.suites x.count) records (Nat.zero_le _) ?_ ?_).trans
    (List.nil_append _)
  · intro i _ hi
    exact if_pos (by simpa [Parsed.start] using hi)
  · rwa [Nat.sub_zero, hbytes]

theorem reassembles {stream : List UInt8} (hdelivers : Delivers x.replies stream) : x.Reassembles stream := by
  obtain ⟨records, hrecords⟩ := exists_startsWith (stream.take cipherSuiteDataSize)
  obtain ⟨hok, hsuites⟩ := x.suites_of_startsWith hdelivers hrecords
  refine ⟨hok, ⟨records, hrecords, hsuites⟩, ?_⟩
  rintro list rfl hlen
  have hlist := startsWith_encode list
  rw [← List.take_of_length_le hlen] at hlist
  rw [(x.suites_of_startsWith hdelivers hlist).2, List.map_map]
  refine congrArg _ (List.map_congr_left fun s _ => ?_)
  exact s.suiteOf_encode

end SuitesCall

/-! ### The best suite -/

theorem findSuite_eq (preferred best : UInt8) (suites : List CipherSuiteInfo) :
    findSuite preferred best suites = if ∃ s ∈ suites, s.cipherSuiteId = preferred then preferred else best := by
  induction suites with
  | nil => simp [findSuite]
  | cons s suites ih =>
    rw [findSuite]
    by_cases h : preferred = s.cipherSuiteId
    · rw [if_pos h, if_pos ⟨s, List.mem_cons_self, h.symm⟩]
    · rw [if_neg h, ih]
      simp [Ne.symm h]

/-- 17 is preferred, and 3 is the suite to fall back to. -/
theorem preferLoop_eq (suites : List CipherSuiteInfo) :
    (let best := preferLoop suites [cipherSuite17, cipherSuite3] cipherSuiteReserved
      if best = cipherSuiteReserved then cipherSuite3 else best) =
      if ∃ s ∈ suites, s.cipherSuiteId = cipherSuite17 then cipherSuite17 else cipherSuite3 := by
  have h17 : cipherSuite17 ≠ cipherSuiteReserved := by decide
  simp only [preferLoop, if_true, findSuite_eq]
  by_cases hbest : ∃ s ∈ suites, s.cipherSuiteId = cipherSuite17
  · simp only [if_pos hbest, if_neg h17]
  · simp only [if_neg hbest, if_true]
    split
    · rfl
    · rfl

namespace SuitesCall
variable (x : SuitesCall)

/-- The call that `ipmi_find_best_cipher_suite` makes of the same BMC. -/
def forBest : SuitesCall where
  channel := lanChannelE
  payloadType := ipmiPayloadType
  replies := x.replies
  suites := x.suites
  count := maxCipherSuiteCount
  count_pos := by decide

theorem best_eq : ipmiFindBestCipherSuite x.replies x.suites =
    if ∃ s ∈ x.forBest.got.suites, s.cipherSuiteId = cipherSuite17 then cipherSuite17 else cipherSuite3 := by
  have hbest : ipmiFindBestCipherSuite x.replies x.suites =
      if !x.forBest.got.ok then cipherSuite3
      else
        let best := preferLoop x.forBest.got.suites [cipherSuite17, cipherSuite3] cipherSuiteReserved
        if best = cipherSuiteReserved then cipherSuite3 else best := rfl
  rw [hbest, preferLoop_eq]
  cases hok : x.forBest.got.ok with
  | true => rfl
  | false => simp [x.forBest.suites_of_failed hok]

/-- What `ipmi_get_channel_cipher_suites` and `ipmi_find_best_cipher_suite` promise. -/
structure Correct : Prop where
  inBounds : x.InBounds
  reassembles : ∀ stream, Delivers x.replies stream → x.Reassembles stream
  best : ipmiFindBestCipherSuite x.replies x.suites =
    if ∃ s ∈ x.forBest.got.suites, s.cipherSuiteId = cipherSuite17 then cipherSuite17 else cipherSuite3

theorem correct : x.Correct where
  inBounds := x.inBounds
  reassembles _ hdelivers := x.reassembles hdelivers
  best := x.best_eq

/-- Three suites and one of an OEM, whose record of 8 bytes begins in the first set and ends in the second. -/
def splitStream : List UInt8 :=
  [0xC0, 3, 0x01, 0x41, 0x81] ++ [0xC0, 8, 0x02, 0x42, 0x81] ++ [0xC1, 0x80, 0x57, 0x01, 0x00, 0x01, 0x41, 0x81] ++
    [0xC0, 17, 0x03, 0x44, 0x81]

def splitCall : SuitesCall where
  channel := lanChannelE
  payloadType := ipmiPayloadType
  replies := fun k => some ⟨0, 1 :: (splitStream.drop (maxCipherSuiteDataLen * k)).take maxCipherSuiteDataLen⟩
  suites := fun _ => .zero
  count := maxCipherSuiteCount
  count_pos := by decide

theorem splitCall_reassembles : splitCall.Reassembles splitStream :=
  splitCall.correct.reassembles splitStream ⟨fun _ _ _ => ⟨1, rfl⟩⟩

example : splitCall.got.fetch.requests.length = 2 ∧ splitCall.got.suites =
    [⟨3, 0, 1, 1, 1⟩, ⟨8, 0, 2, 2, 1⟩, ⟨0x80, 0x157, 1, 1, 1⟩, ⟨17, 0, 3, 4, 1⟩] ∧
      ipmiFindBestCipherSuite splitCall.replies splitCall.suites = 17 := by
  decide +kernel

end SuitesCall

end KTools.Lanplus
