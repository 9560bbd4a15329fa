import KTools.Fru.Transfer

/-!
# What is read is in the FRU

A device with contents keeps them when it is read, gives the bytes at the offset it is asked for, and at least one of
them, and writes what it is asked to write where it completes the request (`IsFru`). Then `read_fru_area` returns, in
whatever parts it reads and whatever is refused on the way: the buffer has bytes of the range from its start on, and
all of them if the result is 0.
-/

namespace KTools.Fru
open KTools.Lib KTools.Lib.Bytes KTools.Lanplus
open KTools.Sdr (Rsp request netfnStorage)

variable {δ : Type}

/-- An offset that can be addressed. -/
def FruInfo.Addressable (fru : FruInfo) (offset : UInt32) : Prop :=
  offset ≤ fru.size.toUInt32 ∧ (fru.access = true → offset.toNat % 2 = 0)

/-- The device is a FRU with contents; `Protects` says at which offsets it may refuse a write as protected. -/
structure IsFru (fru : FruInfo) (id : UInt8) (exchange : δ → IpmiRq → Option Rsp × δ) (contents : δ → Nat → UInt8)
    (Protects : Nat → Prop) : Prop where
  keeps : ∀ d offset count, contents (exchange d (getRequest fru id offset count)).2 = contents d
  gives : ∀ d offset count rsp, fru.Addressable offset →
    (exchange d (getRequest fru id offset count)).1 = some rsp → rsp.ccode = 0 →
    ∀ k < (fru.given rsp.data).toNat, k + 1 < rsp.dataLen → rsp.data (1 + k) = contents d (offset.toNat + k)
  givesSome : ∀ d offset count rsp, (exchange d (getRequest fru id offset count)).1 = some rsp → rsp.ccode = 0 →
    count ≠ 0 → fru.given rsp.data ≠ 0
  writes : ∀ d offset data, fru.Addressable offset.toUInt32 →
    contents (exchange d (setRequest fru id offset data)).2 = contents d ∨
    contents (exchange d (setRequest fru id offset data)).2 = store (contents d) offset.toNat data
  completes : ∀ d offset data rsp, fru.Addressable offset.toUInt32 →
    (exchange d (setRequest fru id offset data)).1 = some rsp → rsp.ccode = 0 →
    contents (exchange d (setRequest fru id offset data)).2 = store (contents d) offset.toNat data
  refuses : ∀ d offset data rsp, fru.Addressable offset.toUInt32 →
    (exchange d (setRequest fru id offset data)).1 = some rsp → rsp.ccode = ccFruWriteProtectedOffset →
    Protects offset.toNat ∧ contents (exchange d (setRequest fru id offset data)).2 = contents d

section read
variable {host : Host δ} {fru : FruInfo} {id : UInt8} {contents : δ → Nat → UInt8} {Protects : Nat → Prop}

theorem sendrecv_returns (req : IpmiRq) (s : State δ) :
    Returns (sendrecv host req) s fun answer s' =>
      answer = (host.exchange s.dev req).1 ∧ s' = { s with dev := (host.exchange s.dev req).2 } :=
  Returns.get_bind (Returns.modify_bind (Returns.pure ⟨rfl, rfl⟩))

/-- So many bytes of the range have been read. -/
def HasRead (contents : δ → Nat → UInt8) (c : Nat → UInt8) (frubuf : Nat → UInt8) (pos off left : Nat)
    (p : Int × (Nat → UInt8)) (s : State δ) : Prop :=
  contents s.dev = c ∧ ∃ n ≤ left, p.2 = store frubuf pos (slice c off n) ∧ (p.1 = 0 → n = left)

/-- A range in two parts. -/
theorem store_slice_add (m c : Nat → UInt8) (pos off n n' : Nat) :
    store (store m pos (slice c off n)) (pos + n) (slice c (off + n) n') = store m pos (slice c off (n + n')) := by
  rw [slice_add, ← store_append, length_slice]

/-- Nothing has been read. -/
theorem HasRead.nothing {c frubuf : Nat → UInt8} {rc : Int} {s : State δ} (hs : contents s.dev = c) (pos off : Nat)
    {left : Nat} (h : rc = 0 → left = 0) : HasRead contents c frubuf pos off left (rc, frubuf) s :=
  ⟨hs, 0, Nat.zero_le _, by simp [slice], fun hrc => (h hrc).symm⟩

/-- A part has been read, and then bytes of the rest. -/
theorem HasRead.part {c frubuf : Nat → UInt8} {pos off n left : Nat} {p : Int × (Nat → UInt8)} {s : State δ}
    (h : HasRead contents c (store frubuf pos (slice c off n)) (pos + n) (off + n) left p s) :
    HasRead contents c frubuf pos off (n + left) p s := by
  obtain ⟨hs, k, hk, hbuf, hall⟩ := h
  refine ⟨hs, n + k, by omega, ?_, fun h0 => by rw [hall h0]⟩
  rw [hbuf, store_slice_add]

/-- Nothing is left at the end of the range, and only there. -/
theorem left_eq_zero_iff {off finish : UInt32} (hle : off ≤ finish) : (finish - off).toNat = 0 ↔ ¬ off < finish := by
  rw [UInt32.toNat_sub_of_le _ _ hle, UInt32.lt_iff_toNat_lt]
  have := UInt32.le_iff_toNat_le.1 hle
  omega

theorem readRc_eq_zero {off finish : UInt32} (h : readRc off finish = 0) : ¬ off < finish := by
  intro hlt
  rw [readRc, if_pos hlt] at h
  cases h

/-- The size after a refusal is smaller, and not 0. -/
def smaller (size : UInt8) : UInt8 := if fruAreaMaximumBlockSz < size then size - fruBlockSz else size - 1

theorem sub_lt_size {size n : UInt8} (h0 : n.toNat ≠ 0) (hn : n.toNat < size.toNat) :
    size - n ≠ 0 ∧ (size - n).toNat < size.toNat := by
  have hsub := UInt8.toNat_sub_of_le _ _ (UInt8.le_iff_toNat_le.2 (Nat.le_of_lt hn))
  refine ⟨fun h => ?_, by omega⟩
  rw [h] at hsub
  simp only [UInt8.toNat_zero] at hsub
  omega

theorem smaller_lt {size : UInt8} (h : fruBlockSz < size) : smaller size ≠ 0 ∧ (smaller size).toNat < size.toNat := by
  have h8 : 8 < size.toNat := UInt8.lt_iff_toNat_lt.1 h
  unfold smaller
  split
  · apply sub_lt_size (by decide)
    exact h8
  · apply sub_lt_size (by decide)
    simp only [UInt8.toNat_one]
    omega

/-- As long as something is left, something is asked for. -/
theorem count_ne_zero {size : UInt8} {left : UInt32} (hsize : size ≠ 0) (hleft : left ≠ 0) :
    (if size.toUInt32 < left then size else left.toUInt8) ≠ 0 := by
  split
  · exact hsize
  · rename_i h
    intro h0
    apply hleft
    have hle := UInt32.le_iff_toNat_le.1 (UInt32.not_lt.1 h)
    have h0' := congrArg UInt8.toNat h0
    have := size.toNat_lt
    simp at hle h0'
    apply UInt32.toNat_inj.1
    simp
    omega

theorem toNat_sub_add {off finish tmp : UInt32} (hle : off ≤ finish) (htmp : tmp ≤ finish - off) :
    (off + tmp).toNat = off.toNat + tmp.toNat ∧ off + tmp ≤ finish ∧
      (finish - off).toNat = tmp.toNat + (finish - (off + tmp)).toNat ∧
      finish - off - tmp = finish - (off + tmp) := by
  have hle' := UInt32.le_iff_toNat_le.1 hle
  have htmp' := UInt32.le_iff_toNat_le.1 htmp
  have hsub := UInt32.toNat_sub_of_le _ _ hle
  have hfinish := finish.toNat_lt
  have hadd : (off + tmp).toNat = off.toNat + tmp.toNat := by
    rw [UInt32.toNat_add]
    omega
  have hle'' : off + tmp ≤ finish := UInt32.le_iff_toNat_le.2 (by omega)
  have hsub' := UInt32.toNat_sub_of_le _ _ hle''
  refine ⟨hadd, hle'', by omega, ?_⟩
  apply UInt32.toNat_inj.1
  rw [UInt32.toNat_sub_of_le _ _ htmp]
  omega

theorem given_even (fru : FruInfo) (data : Nat → UInt8) (h : fru.access = true) : (fru.given data).toNat % 2 = 0 := by
  simp only [FruInfo.given, h, if_true]
  rw [UInt32.toNat_shiftLeft]
  simp [Nat.shiftLeft_eq]

theorem readTurns_returns (hdev : IsFru fru id host.exchange contents Protects) {c : Nat → UInt8} {finish : UInt32}
    (hfinish : finish ≤ fru.size.toUInt32) (fuel : Nat) :
    ∀ (off : UInt32) (pos : Nat) (frubuf : Nat → UInt8) (s : State δ), contents s.dev = c → s.maxReadSize ≠ 0 →
      off ≤ finish → (fru.access = true → off.toNat % 2 = 0) →
      (finish - off).toNat + s.maxReadSize.toNat < fuel →
      Returns (readTurns host fru id finish fuel off (finish - off) pos frubuf) s
        (HasRead contents c frubuf pos off.toNat (finish - off).toNat) := by
  induction fuel with
  | zero => intro _ _ _ _ _ _ _ _ h; omega
  | succ fuel ih =>
    intro off pos frubuf s hs hsize hle heven hfuel
    have haddr : fru.Addressable off := ⟨UInt32.le_trans hle hfinish, heven⟩
    refine Returns.get_bind ((sendrecv_returns _ s).bind fun answer t ht => ?_)
    generalize hcount : (if s.maxReadSize.toUInt32 < finish - off then s.maxReadSize else (finish - off).toUInt8) =
      count at ht ⊢
    obtain ⟨hanswer, rfl⟩ := ht
    have hcontents := (hdev.keeps s.dev off count).trans hs
    have hleft := left_eq_zero_iff hle
    cases answer with
    | none => exact Returns.pure (.nothing hcontents _ _ fun h => hleft.2 (readRc_eq_zero h))
    | some rsp =>
      refine Returns.ite (fun _ => Returns.ite (fun hbig => Returns.modify_bind ?_) fun _ => ?_) fun hok => ?_
      · -- a shorter part is asked for
        have hsmaller := smaller_lt hbig.2
        refine Returns.ite (fun _ => ?_) fun hge => ?_
        · refine ih off pos frubuf _ hcontents hsmaller.1 hle heven ?_
          show _ + (smaller s.maxReadSize).toNat < fuel
          omega
        · exact Returns.pure (.nothing hcontents _ _ fun _ => hleft.2 hge)
      · exact Returns.pure (.nothing hcontents _ _ fun h => hleft.2 (readRc_eq_zero h))
      · -- a part has been read
        simp only [ne_eq, not_not] at hok
        refine Returns.ite (fun _ => ?_) fun hfits => ?_
        · exact Returns.pure (.nothing hcontents _ _ fun h => by cases h)
        · simp only [not_or, Nat.not_lt, UInt32.not_lt] at hfits
          obtain ⟨hdata, hlen, hroom⟩ := hfits
          obtain ⟨hadd, hle', hsum, hsub⟩ := toNat_sub_add hle hroom
          have hslice : slice rsp.data 1 (fru.given rsp.data).toNat =
              slice c off.toNat (fru.given rsp.data).toNat := by
            refine List.map_congr_left fun k hk => ?_
            have hk := List.mem_range.1 hk
            rw [hdev.gives s.dev off count rsp haddr hanswer.symm hok k hk (by omega), hs]
          rw [hslice, hsum]
          refine Returns.ite (fun hzero => ?_) fun hnot => Returns.ite (fun hlt => ?_) fun hge => ?_
          · -- a FRU gives some bytes
            refine absurd hzero.1 (hdev.givesSome s.dev off count rsp hanswer.symm hok ?_)
            rw [← hcount]
            refine count_ne_zero hsize fun h0 => hleft.1 (by simp [h0]) ?_
            simpa [hzero.1] using hzero.2
          · have hpos : (fru.given rsp.data).toNat ≠ 0 := fun h => hnot ⟨UInt32.toNat_inj.1 h, hlt⟩
            rw [hsub]
            refine (ih (off + fru.given rsp.data) (pos + (fru.given rsp.data).toNat) _
              { s with dev := (host.exchange s.dev (getRequest fru id off count)).2 } hcontents hsize hle' ?_
              (by simp only; omega)).mono fun p u hu => ?_
            · intro haccess
              have := given_even fru rsp.data haccess
              have := heven haccess
              omega
            · rw [hadd] at hu
              exact hu.part
          · exact Returns.pure (HasRead.part (.nothing hcontents _ _ fun _ => (left_eq_zero_iff hle').2 hge))

theorem toNat_and_even (x : UInt8) : (x &&& 0xFE).toNat = x.toNat / 2 * 2 := by
  have hmask : ∀ n < 256, n &&& 254 = n / 2 * 2 := by decide +kernel
  rw [UInt8.toNat_and]
  exact hmask _ x.toNat_lt

theorem toNat_align (fru : FruInfo) (x : UInt8) :
    (fru.align x).toNat = if fru.access = true then x.toNat / 2 * 2 else x.toNat := by
  unfold FruInfo.align
  split
  · rename_i h
    rw [toNat_and_even]
  · rfl

/-- An interface that has room for two bytes of a FRU gives a size. -/
theorem readSize_some (fru : FruInfo) (h : 4 ≤ host.maxResponseDataSize) :
    ∃ size, readSize host fru = some size ∧ size ≠ 0 := by
  have h4 : 4 ≤ host.maxResponseDataSize.toNat := UInt16.le_iff_toNat_le.1 h
  have hsub : (host.maxResponseDataSize - 1).toNat = host.maxResponseDataSize.toNat - 1 :=
    UInt16.toNat_sub_of_le _ _ (UInt16.le_iff_toNat_le.2 (by simp; omega))
  have hlt := host.maxResponseDataSize.toNat_lt
  unfold readSize
  simp only
  generalize host.maxResponseDataSize - 1 = m at hsub
  rw [if_neg (by
    rw [UInt16.le_iff_toNat_le]
    simp
    omega)]
  have hsub' : (m - 1).toNat = m.toNat - 1 := UInt16.toNat_sub_of_le _ _ (UInt16.le_iff_toNat_le.2 (by simp; omega))
  have hge : 2 ≤ (if 255 < m - 1 then 255 else (m - 1).toUInt8 : UInt8).toNat := by
    split
    · decide
    · rename_i hle
      have hle := UInt16.le_iff_toNat_le.1 (UInt16.not_lt.1 hle)
      rw [UInt16.toNat_toUInt8, hsub']
      simp at hle
      omega
  generalize (if 255 < m - 1 then 255 else (m - 1).toUInt8 : UInt8) = x at hge ⊢
  refine ⟨_, rfl, fun h0 => ?_⟩
  have h0 := congrArg UInt8.toNat h0
  rw [toNat_align] at h0
  simp only [UInt8.toNat_zero] at h0
  split at h0 <;> omega

theorem toNat_finish {offset length : UInt32} (hrange : offset.toNat + length.toNat ≤ fru.size.toNat) :
    (offset + length).toNat = offset.toNat + length.toNat := by
  have hlt := fru.size.toNat_lt
  rw [UInt32.toNat_add]
  omega

/-- A range inside the FRU is not cut. -/
theorem readFruArea_inside {offset length : UInt32} (hrange : offset.toNat + length.toNat ≤ fru.size.toNat)
    (frubuf : Nat → UInt8) :
    readFruArea host fru id offset length frubuf = readRange host fru id offset (offset + length) length frubuf := by
  have hadd := toNat_finish hrange
  have hle : ¬ fru.size.toUInt32 < offset := UInt32.not_lt.2 (UInt32.le_iff_toNat_le.2 (by simp; omega))
  have hfinish : ¬ fru.size.toUInt32 < offset + length :=
    UInt32.not_lt.2 (UInt32.le_iff_toNat_le.2 (by simp; omega))
  unfold readFruArea
  simp only
  rw [if_neg hle, if_neg hfinish]

theorem readRange_returns (hdev : IsFru fru id host.exchange contents Protects) {offset length : UInt32}
    {frubuf : Nat → UInt8} {s : State δ} (hsize : s.maxReadSize ≠ 0 ∨ 4 ≤ host.maxResponseDataSize)
    (hrange : offset.toNat + length.toNat ≤ fru.size.toNat) (heven : fru.access = true → offset.toNat % 2 = 0) :
    Returns (readRange host fru id offset (offset + length) length frubuf) s
      (HasRead contents (contents s.dev) frubuf 0 offset.toNat length.toNat) := by
  have hadd := toNat_finish hrange
  have hle : offset ≤ offset + length := UInt32.le_iff_toNat_le.2 (by omega)
  have hfinish : offset + length ≤ fru.size.toUInt32 := UInt32.le_iff_toNat_le.2 (by simp; omega)
  have hsub : offset + length - offset = length := by
    apply UInt32.toNat_inj.1
    rw [UInt32.toNat_sub_of_le _ _ hle]
    omega
  have hturns (t : State δ) (ht : contents t.dev = contents s.dev) (hne : t.maxReadSize ≠ 0) :=
    readTurns_returns hdev hfinish ((offset + length - offset).toNat + 256) offset 0 frubuf t ht hne hle heven
      (by have := t.maxReadSize.toNat_lt; omega)
  rw [hsub] at hturns
  refine Returns.get_bind ?_
  rw [hsub]
  refine Returns.ite (fun h0 => ?_) fun hne => hturns s rfl hne
  obtain ⟨size, hread, hne⟩ := readSize_some fru (hsize.resolve_left (not_not.2 h0))
  rw [hread]
  exact Returns.modify_bind (hturns _ rfl hne)

/-- A range of the FRU is read into the buffer. -/
theorem readFruArea_returns (hdev : IsFru fru id host.exchange contents Protects) {offset length : UInt32}
    {frubuf : Nat → UInt8} {s : State δ} (hsize : s.maxReadSize ≠ 0 ∨ 4 ≤ host.maxResponseDataSize)
    (hrange : offset.toNat + length.toNat ≤ fru.size.toNat) (heven : fru.access = true → offset.toNat % 2 = 0) :
    Returns (readFruArea host fru id offset length frubuf) s
      (HasRead contents (contents s.dev) frubuf 0 offset.toNat length.toNat) := by
  rw [readFruArea_inside hrange]
  exact readRange_returns hdev hsize hrange heven

end read

/-! ### A device -/

/-- A memory as a FRU by bytes: parts longer than `limit` are refused, and offsets in `locked` are protected. -/
def memoryDevice (limit : Nat) (locked : List Nat) (mem : Nat → UInt8) (req : IpmiRq) : Option Rsp × (Nat → UInt8) :=
  match req.data with
  | _ :: lo :: hi :: rest =>
    let offset := lo.toNat + 256 * hi.toNat
    if req.cmd = getFruData then
      match rest with
      | [count] =>
        if limit < count.toNat then (some ⟨ccCantRetNumReqBytes, 0, mem⟩, mem)
        else (some ⟨0, count.toNat + 1, fun i => if i = 0 then count else mem (offset + (i - 1))⟩, mem)
      | _ => (none, mem)
    else if offset ∈ locked then (some ⟨ccFruWriteProtectedOffset, 0, mem⟩, mem)
    else if limit < rest.length then (some ⟨ccReqDataInvLength, 0, mem⟩, mem)
    else (some ⟨0, 1, mem⟩, store mem offset rest)
  | _ => (none, mem)

/-- The contents of the memory. -/
def memory (mem : Nat → UInt8) : Nat → UInt8 := mem

def Locked (locked : List Nat) (offset : Nat) : Prop := offset ∈ locked

theorem offset_of_bytes {offset : UInt32} (h : offset.toNat < 65536) :
    (offset &&& 0xFF).toUInt8.toNat + 256 * (offset >>> 8).toUInt8.toNat = offset.toNat := by
  have hmask : offset.toNat &&& 255 = offset.toNat % 256 := Nat.and_two_pow_sub_one_eq_mod offset.toNat 8
  rw [UInt32.toNat_toUInt8, UInt32.toNat_toUInt8, UInt32.toNat_and, UInt32.toNat_shiftRight,
    show (0xFF : UInt32).toNat = 255 from rfl, hmask, show (8 : UInt32).toNat % 32 = 8 from rfl,
    Nat.shiftRight_eq_div_pow]
  omega

theorem offset_of_word (offset : UInt16) :
    offset.toUInt32.toUInt8.toNat + 256 * (offset.toUInt32 >>> 8).toUInt8.toNat = offset.toNat := by
  have hlt := offset.toNat_lt
  rw [UInt32.toNat_toUInt8, UInt32.toNat_toUInt8, UInt32.toNat_shiftRight, UInt16.toNat_toUInt32,
    show (8 : UInt32).toNat % 32 = 8 from rfl, Nat.shiftRight_eq_div_pow]
  omega

section device
variable (size : UInt16) (id : UInt8) (limit : Nat) (locked : List Nat) (mem : Nat → UInt8)

theorem memoryDevice_set (offset : UInt16) (data : List UInt8) :
    memoryDevice limit locked mem (setRequest ⟨size, false⟩ id offset data) =
      if offset.toNat ∈ locked then (some ⟨ccFruWriteProtectedOffset, 0, mem⟩, mem)
      else if limit < data.length then (some ⟨ccReqDataInvLength, 0, mem⟩, mem)
      else (some ⟨0, 1, mem⟩, store mem offset.toNat data) := by
  rw [← offset_of_word offset]
  simp [memoryDevice, setRequest, request, FruInfo.place, getFruData, setFruData]

/-- A read that is completed gives the bytes, as many as it is asked for. -/
theorem memoryDevice_read {offset : UInt32} {count : UInt8} {rsp : Rsp}
    (hrsp : (memoryDevice limit locked mem (getRequest ⟨size, false⟩ id offset count)).1 = some rsp)
    (hok : rsp.ccode = 0) :
    rsp.data 0 = count ∧ (offset.toNat < 65536 → ∀ k, rsp.data (1 + k) = mem (offset.toNat + k)) := by
  simp only [memoryDevice, getRequest, request, if_true] at hrsp
  split at hrsp
  · obtain rfl := Option.some.inj hrsp
    exact absurd hok (show ccCantRetNumReqBytes ≠ 0 by decide)
  · obtain rfl := Option.some.inj hrsp
    refine ⟨rfl, fun hlt k => ?_⟩
    have hoffset := offset_of_bytes hlt
    simp only [FruInfo.place, Bool.false_eq_true, if_false]
    rw [hoffset]
    simp

/-- A write is completed, or refused as protected, or refused for its length. -/
theorem memoryDevice_write {offset : UInt16} {data : List UInt8} {rsp : Rsp}
    (hrsp : (memoryDevice limit locked mem (setRequest ⟨size, false⟩ id offset data)).1 = some rsp) :
    (rsp.ccode = 0 →
      (memoryDevice limit locked mem (setRequest ⟨size, false⟩ id offset data)).2 = store mem offset.toNat data) ∧
    (rsp.ccode = ccFruWriteProtectedOffset → offset.toNat ∈ locked ∧
      (memoryDevice limit locked mem (setRequest ⟨size, false⟩ id offset data)).2 = mem) := by
  rw [memoryDevice_set] at hrsp ⊢
  by_cases hlocked : offset.toNat ∈ locked
  · simp only [hlocked, if_true, Option.some.injEq] at hrsp ⊢
    simp [← hrsp, ccFruWriteProtectedOffset]
  · by_cases hlong : limit < data.length
    · simp only [hlocked, hlong, if_true, if_false, Option.some.injEq] at hrsp ⊢
      simp [← hrsp, ccReqDataInvLength, ccFruWriteProtectedOffset]
    · simp only [hlocked, hlong, if_false, Option.some.injEq] at hrsp ⊢
      simp [← hrsp, ccFruWriteProtectedOffset]

end device

theorem memoryDevice_isFru (size : UInt16) (id : UInt8) (limit : Nat) (locked : List Nat) :
    IsFru ⟨size, false⟩ id (memoryDevice limit locked) memory (Locked locked) where
  keeps d offset count := by
    simp only [memoryDevice, getRequest, request, if_true]
    split <;> rfl
  gives d offset count rsp haddr hrsp hok k _ _ := by
    have hlt : offset.toNat < 65536 := Nat.lt_of_le_of_lt (UInt32.le_iff_toNat_le.1 haddr.1) size.toNat_lt
    exact (memoryDevice_read size id limit locked d hrsp hok).2 hlt k
  givesSome d offset count rsp hrsp hok hcount := by
    intro h
    apply hcount
    rw [← (memoryDevice_read size id limit locked d hrsp hok).1]
    simpa [FruInfo.given] using congrArg UInt32.toUInt8 h
  writes d offset data haddr := by
    rw [memoryDevice_set]
    split
    · exact .inl rfl
    · split
      · exact .inl rfl
      · exact .inr rfl
  completes d offset data rsp _ hrsp := (memoryDevice_write size id limit locked d hrsp).1
  refuses d offset data rsp _ hrsp := (memoryDevice_write size id limit locked d hrsp).2

def smallFru : FruInfo := ⟨300, false⟩

/-- The offsets mod 256. -/
def smallMemory (i : Nat) : UInt8 := UInt8.ofNat i

def smallHost : Host (Nat → UInt8) := ⟨memoryDevice 28 [116], 60, 60⟩

def blank (_ : Nat) : UInt8 := 0xEE

/-- A range is read in parts of at most 28 bytes. -/
theorem smallRead_returns :
    Returns (readFruArea smallHost smallFru 0 10 200 blank) ⟨smallMemory, 0, 0⟩
      (HasRead memory (memory smallMemory) blank 0 10 200) :=
  readFruArea_returns (memoryDevice_isFru 300 0 28 [116]) (.inr (by decide)) (by decide) (by decide)

end KTools.Fru
