import KTools.Fru.Files

/-!
# A device that completes what it is asked for

Unless a part is too long for it, the device completes what it is asked for. Then what is inside the FRU is read as a
whole, and written as a whole if the blocks are found. For these `build_fru_bloc` reads five bytes for every record
of the multi-record area, and `read_fru_area` ends the program where they are not inside the FRU: the blocks are found
just where the headers of the records are in it (`RecordsFit`).
-/

namespace KTools.Fru
open KTools.Lib KTools.Lib.Bytes KTools.Lanplus
open KTools.Sdr (Rsp request netfnStorage)

variable {δ : Type}

/-- A FRU with access by bytes, where only parts that are longer than `limit` may be refused, as too long. -/
structure Obliging (fru : FruInfo) (id : UInt8) (host : Host δ) (contents : δ → Nat → UInt8) (limit : Nat) : Prop
    extends IsFru fru id host.exchange contents fun _ => False where
  byBytes : fru.access = false
  header_fits : 8 ≤ fru.size.toNat
  response_fits : 4 ≤ host.maxResponseDataSize
  request_fits : 4 ≤ host.maxRequestDataSize
  limit_ge : 32 ≤ limit
  informs : ∀ d, contents (host.exchange d (infoRequest id)).2 = contents d ∧
    ∃ rsp, (host.exchange d (infoRequest id)).1 = some rsp ∧ rsp.ccode = 0 ∧ fruInfo rsp.data = fru
  answersGet : ∀ d offset count, offset.toNat + count.toNat ≤ fru.size.toNat →
    ∃ rsp, (host.exchange d (getRequest fru id offset count)).1 = some rsp ∧
      (rsp.ccode = 0 ∧ fru.given rsp.data = count.toUInt32 ∧ rsp.dataLen = count.toNat + 1 ∨
        limit < count.toNat ∧ fruCcRq2big rsp.ccode = true)
  answersSet : ∀ d offset data, offset.toNat + data.length ≤ fru.size.toNat →
    ∃ rsp, (host.exchange d (setRequest fru id offset data)).1 = some rsp ∧
      (rsp.ccode = 0 ∨ limit < data.length ∧ fruCcRq2big rsp.ccode = true)

theorem ne_zero_of_rq2big {code : UInt8} (h : fruCcRq2big code = true) : code ≠ 0 := by
  rintro rfl
  exact absurd h (by decide)

section read
variable {host : Host δ} {fru : FruInfo} {id : UInt8} {contents : δ → Nat → UInt8} {limit : Nat}

theorem toNat_count (size : UInt8) (left : UInt32) :
    (if size.toUInt32 < left then size else left.toUInt8).toNat ≤ left.toNat ∧
      (if size.toUInt32 < left then size else left.toUInt8).toNat ≤ size.toNat := by
  split
  · rename_i hlt
    have := UInt32.lt_iff_toNat_lt.1 hlt
    simp only [UInt8.toNat_toUInt32] at this
    omega
  · rename_i hle
    have := UInt32.le_iff_toNat_le.1 (UInt32.not_lt.1 hle)
    simp only [UInt8.toNat_toUInt32] at this
    have := size.toNat_lt
    rw [UInt32.toNat_toUInt8]
    omega

/-- No reading fails. -/
theorem Obliging.readTurns_succeeds (hobl : Obliging fru id host contents limit) {finish : UInt32}
    (hfinish : finish ≤ fru.size.toUInt32) (fuel : Nat) :
    ∀ off pos frubuf, off ≤ finish →
      Triple (fun _ => True) (fun _ => True) (readTurns host fru id finish fuel off (finish - off) pos frubuf)
        fun p _ => p.1 = 0 := by
  induction fuel with
  | zero => exact fun _ _ _ _ => Triple.throw fun _ _ => trivial
  | succ fuel ih =>
    intro off pos frubuf hle
    refine Triple.get_bind fun s _ => ?_
    obtain ⟨hcountLe, hcountSize⟩ := toNat_count s.maxReadSize (finish - off)
    simp only
    generalize (if s.maxReadSize.toUInt32 < finish - off then s.maxReadSize else (finish - off).toUInt8) = count
      at hcountLe hcountSize ⊢
    have hsub := UInt32.toNat_sub_of_le _ _ hle
    have hle' := UInt32.le_iff_toNat_le.1 hle
    have hinside : off.toNat + count.toNat ≤ fru.size.toNat := by
      have := UInt32.le_iff_toNat_le.1 hfinish
      simp only [UInt16.toNat_toUInt32] at this
      omega
    have hanswer : Triple (fun _ => True) (fun _ : State δ => True)
        (sendrecv host (getRequest fru id off count)) fun answer _ => ∃ rsp, answer = some rsp ∧
          (rsp.ccode = 0 ∧ fru.given rsp.data = count.toUInt32 ∧ rsp.dataLen = count.toNat + 1 ∨
            limit < count.toNat ∧ fruCcRq2big rsp.ccode = true) :=
      fun t _ => hobl.answersGet t.dev off count hinside
    refine (hanswer.pre fun _ _ => trivial).bind fun answer => Triple.assuming (fun _ h => h) fun h => ?_
    obtain ⟨rsp, rfl, hrsp⟩ := h
    refine Triple.ite (fun hcode => Triple.ite (fun _ => ?_) fun hnot => ?_) fun hok => ?_
    · refine (Triple.modify (Q := fun _ _ => True) fun _ _ => trivial).bind fun _ => ?_
      exact Triple.ite (fun _ => (ih off pos frubuf hle).pre fun _ _ => trivial) fun _ => Triple.pure fun _ _ => rfl
    · -- only what is too long is refused
      have hlong := hrsp.resolve_left fun h => hcode h.1
      refine absurd ⟨hlong.2, UInt8.lt_iff_toNat_lt.2 ?_⟩ hnot
      have := hobl.limit_ge
      show 8 < _
      omega
    · simp only [ne_eq, not_not] at hok
      obtain ⟨-, hgiven, hlen⟩ := hrsp.resolve_right fun h => ne_zero_of_rq2big h.2 hok
      have hleft : count.toUInt32 ≤ finish - off := UInt32.le_iff_toNat_le.2 (by simpa using hcountLe)
      obtain ⟨-, hle', -, hsub'⟩ := toNat_sub_add hle hleft
      simp only [hgiven, hlen]
      refine Triple.ite (fun hnot => ?_) fun _ => ?_
      · -- the answer fits
        rcases hnot with h | h | h
        · omega
        · simp at h
        · exact absurd hleft (UInt32.not_le.2 h)
      · rw [hsub']
        exact Triple.ite (fun _ => Triple.pure fun _ _ => rfl) fun _ =>
          Triple.ite (fun _ => (ih _ _ _ hle').pre fun _ _ => trivial) fun _ => Triple.pure fun _ _ => rfl

theorem Obliging.readRange_succeeds (hobl : Obliging fru id host contents limit) {offset length : UInt32}
    (frubuf : Nat → UInt8) (hrange : offset.toNat + length.toNat ≤ fru.size.toNat) :
    Triple (fun _ => True) (fun _ => True) (readRange host fru id offset (offset + length) length frubuf)
      fun p _ => p.1 = 0 := by
  have hadd := toNat_finish hrange
  have hle : offset ≤ offset + length := UInt32.le_iff_toNat_le.2 (by omega)
  have hfinish : offset + length ≤ fru.size.toUInt32 := UInt32.le_iff_toNat_le.2 (by simp; omega)
  have hsub : offset + length - offset = length := by
    apply UInt32.toNat_inj.1
    rw [UInt32.toNat_sub_of_le _ _ hle]
    omega
  have hturns := hobl.readTurns_succeeds hfinish ((offset + length - offset).toNat + 256) offset 0 frubuf hle
  rw [hsub] at hturns
  obtain ⟨size, hread, -⟩ := readSize_some fru hobl.response_fits
  refine Triple.get_bind' fun s => ?_
  rw [hsub, hread]
  exact Triple.ite (fun _ => (Triple.modify (Q := fun _ _ => True) fun _ _ => trivial).bind fun _ => hturns) fun _ =>
    hturns

/-- A range inside the FRU is read as a whole. -/
theorem Obliging.readFruArea_reads (hobl : Obliging fru id host contents limit) {offset length : UInt32}
    (frubuf : Nat → UInt8) (hrange : offset.toNat + length.toNat ≤ fru.size.toNat) (s : State δ) :
    Returns (readFruArea host fru id offset length frubuf) s fun p t => contents t.dev = contents s.dev ∧
      p.1 = 0 ∧ p.2 = store frubuf 0 (slice (contents s.dev) offset.toNat length.toNat) := by
  rw [readFruArea_inside hrange]
  have heven : fru.access = true → offset.toNat % 2 = 0 := fun h => absurd (hobl.byBytes ▸ h) (by decide)
  refine ((readRange_returns hobl.toIsFru (.inr hobl.response_fits) hrange heven).and_triple
    (hobl.readRange_succeeds frubuf hrange) trivial).mono fun p t ht => ?_
  obtain ⟨⟨ht, n, -, hbuf, hall⟩, hrc⟩ := ht
  exact ⟨ht, hrc, hall hrc ▸ hbuf⟩

/-! ### The blocks -/

/-- The headers of the records from `off` on that are looked at are inside the FRU; nothing is read where the area
starts behind it. -/
inductive RecordsFit (size : Nat) (c : Nat → UInt8) : Nat → Prop where
  | outside {off : Nat} (behind : size < off) : RecordsFit size c off
  | record {off : Nat} (inside : off + 5 ≤ size)
      (next : ipmiCsum (slice c off 5) = 0 → c (off + 1) &&& 0x80 = 0 → off + 5 + (c (off + 2)).toNat < size →
        RecordsFit size c (off + 5 + (c (off + 2)).toNat)) : RecordsFit size c off

/-- Where a record is inside the FRU, one after it is not. -/
theorem next_not_fit {size off : Nat} {c : Nat → UInt8} (h : ¬ RecordsFit size c off) (hinside : off + 5 ≤ size) :
    ipmiCsum (slice c off 5) = 0 ∧ c (off + 1) &&& 0x80 = 0 ∧ off + 5 + (c (off + 2)).toNat < size ∧
      ¬ RecordsFit size c (off + 5 + (c (off + 2)).toNat) := by
  by_contra hnot
  refine h (.record hinside fun hcsum hon hlt => ?_)
  by_contra hnext
  exact hnot ⟨hcsum, hon, hlt, hnext⟩

/-- The blocks of a FRU with these contents can be found. -/
def Readable (size : Nat) (c : Nat → UInt8) : Prop :=
  ipmiCsum (slice c 0 8) = 0 → c 0 = 1 → c 5 ≠ 0 → RecordsFit size c ((c 5).toNat * 8)

theorem Obliging.header_returns (hobl : Obliging fru id host contents limit) {c : Nat → UInt8} {off : UInt32}
    (hinside : off.toNat + 5 ≤ fru.size.toNat) (recHdr : Nat → UInt8) {s : State δ} (hs : contents s.dev = c) :
    Returns (readFruArea host fru id off 5 recHdr) s fun p t => contents t.dev = c ∧ p.1 = 0 ∧
      p.2 1 = c (off.toNat + 1) ∧ p.2 2 = c (off.toNat + 2) ∧ slice p.2 0 5 = slice c off.toNat 5 := by
  have hrange : off.toNat + (5 : UInt32).toNat ≤ fru.size.toNat := hinside
  refine (hobl.readFruArea_reads recHdr hrange s).mono fun p t ht => ?_
  simp only [hs] at ht
  obtain ⟨ht, hrc, hbuf⟩ := ht
  have hbuf : p.2 = store recHdr 0 (slice c off.toNat 5) := hbuf
  have hbytes (k : Nat) (hk : k < 5) : p.2 k = c (off.toNat + k) := by
    rw [hbuf, ← Nat.zero_add k, store_add _ _ _ (by simpa using hk), getElem_slice, Nat.zero_add]
  refine ⟨ht, hrc, hbytes 1 (by decide), hbytes 2 (by decide), ?_⟩
  rw [hbuf]
  simpa using slice_store recHdr 0 (slice c off.toNat 5)

theorem toNat_nextRecord {off : UInt32} (h : off.toNat + 5 ≤ fru.size.toNat) (len : UInt8) :
    (off + (len.toUInt32 + 5)).toNat = off.toNat + 5 + len.toNat := by
  have := fru.size.toNat_lt
  have := len.toNat_lt
  rw [UInt32.toNat_add, UInt32.toNat_add, UInt8.toNat_toUInt32, show (5 : UInt32).toNat = 5 from rfl]
  omega

theorem lt_size_iff {off : UInt32} : off < fru.size.toUInt32 ↔ off.toNat < fru.size.toNat := by
  rw [UInt32.lt_iff_toNat_lt, UInt16.toNat_toUInt32]

theorem Obliging.multiTurns_returns (hobl : Obliging fru id host contents limit) {c : Nat → UInt8} (fuel : Nat) :
    ∀ (off : UInt32) (recHdr : Nat → UInt8) (blocs : List Bloc) (s : State δ), contents s.dev = c →
      RecordsFit fru.size.toNat c off.toNat → fru.size.toNat - off.toNat < fuel →
      Returns (multiTurns host fru id fuel off recHdr blocs) s fun _ t => contents t.dev = c := by
  induction fuel with
  | zero => intro _ _ _ _ _ _ h; omega
  | succ fuel ih =>
    intro off recHdr blocs s hs hfit hfuel
    unfold multiTurns
    rw [if_neg (by simp [hobl.byBytes])]
    cases hfit with
    | outside hbehind =>
      unfold readFruArea
      simp only [if_pos (UInt32.lt_iff_toNat_lt.2 (by simpa using hbehind : fru.size.toUInt32.toNat < off.toNat))]
      exact Returns.pure hs
    | record hinside hnext =>
      refine (hobl.header_returns hinside recHdr hs).bind fun p t ht => ?_
      obtain ⟨rc, buf⟩ := p
      obtain ⟨ht, rfl, hformat, hlen, hslice⟩ := ht
      simp only at hformat hlen hslice
      have hend := toNat_nextRecord hinside (c (off.toNat + 2))
      simp only [hslice, hformat, hlen]
      refine Returns.ite (fun h => absurd h (by decide)) fun _ => ?_
      refine Returns.ite (fun _ => Returns.pure ht) fun hcsum => ?_
      refine Returns.ite (fun hon => ?_) fun _ => Returns.pure ht
      have hlt := lt_size_iff.1 hon.2
      refine ih _ _ _ t ht ?_ (by omega)
      rw [hend] at hlt ⊢
      exact hnext (not_not.1 hcsum) hon.1 hlt

/-- Less than nothing is cleared. -/
theorem readFruArea_faults {off length : UInt32} (hoff : off.toNat ≤ fru.size.toNat)
    (hend : fru.size.toNat < off.toNat + length.toNat) (hlength : length.toNat < fru.size.toNat)
    (frubuf : Nat → UInt8) (s : State δ) : Throws (readFruArea host fru id off length frubuf) s .fault := by
  have hlt := fru.size.toNat_lt
  have hle : ¬ fru.size.toUInt32 < off := UInt32.not_lt.2 (UInt32.le_iff_toNat_le.2 (by simpa using hoff))
  have hfinish : fru.size.toUInt32 < off + length := by
    rw [UInt32.lt_iff_toNat_lt, UInt32.toNat_add, UInt16.toNat_toUInt32]
    omega
  have hshort : length < fru.size.toUInt32 := lt_size_iff.2 hlength
  unfold readFruArea
  simp only
  rw [if_neg hle, if_pos hfinish, if_pos hshort]
  exact Throws.throw

theorem Obliging.multiTurns_faults (hobl : Obliging fru id host contents limit) {c : Nat → UInt8} (fuel : Nat) :
    ∀ (off : UInt32) (recHdr : Nat → UInt8) (blocs : List Bloc) (s : State δ), contents s.dev = c →
      ¬ RecordsFit fru.size.toNat c off.toNat → fru.size.toNat - off.toNat < fuel →
      Throws (multiTurns host fru id fuel off recHdr blocs) s .fault := by
  induction fuel with
  | zero => intro _ _ _ _ _ _ h; omega
  | succ fuel ih =>
    intro off recHdr blocs s hs hfit hfuel
    unfold multiTurns
    rw [if_neg (by simp [hobl.byBytes])]
    have hoff : off.toNat ≤ fru.size.toNat := Nat.not_lt.1 fun h => hfit (.outside h)
    by_cases hinside : off.toNat + 5 ≤ fru.size.toNat
    · obtain ⟨hcsum, hon, hlt, hnext⟩ := next_not_fit hfit hinside
      refine Throws.returns_bind (hobl.header_returns hinside recHdr hs) fun p t ht => ?_
      obtain ⟨rc, buf⟩ := p
      obtain ⟨ht, rfl, hformat, hlen, hslice⟩ := ht
      simp only at hformat hlen hslice
      have hend := toNat_nextRecord hinside (c (off.toNat + 2))
      simp only [hslice, hformat, hlen]
      rw [if_neg (by decide), if_neg (not_not.2 hcsum), if_pos ⟨hon, lt_size_iff.2 (hend ▸ hlt)⟩]
      exact ih _ _ _ t ht (hend ▸ hnext) (by omega)
    · exact (readFruArea_faults hoff (show fru.size.toNat < off.toNat + (5 : UInt32).toNat from Nat.not_le.1 hinside)
        (Nat.lt_of_lt_of_le (by decide) hobl.header_fits) recHdr s).bind

theorem Obliging.commonHeader_returns (hobl : Obliging fru id host contents limit) {c : Nat → UInt8}
    {s : State δ} (hs : contents s.dev = c) :
    Returns (sendrecv host (getRequest fru id 0 8)) s fun answer t => contents t.dev = c ∧
      ∃ rsp, answer = some rsp ∧ rsp.ccode = 0 ∧ slice rsp.data 1 8 = slice c 0 8 := by
  refine (sendrecv_returns _ s).mono fun answer t ht => ?_
  obtain ⟨rfl, rfl⟩ := ht
  obtain ⟨rsp, hrsp, h⟩ := hobl.answersGet s.dev 0 8 (by simpa using hobl.header_fits)
  have hlimit := hobl.limit_ge
  obtain ⟨hok, hgiven, hlen⟩ := h.resolve_right fun h => absurd h.1 (by simp; omega)
  have haddr : fru.Addressable 0 := ⟨UInt32.le_iff_toNat_le.2 (by simp), fun _ => rfl⟩
  refine ⟨(hobl.keeps s.dev 0 8).trans hs, rsp, hrsp, hok, List.map_congr_left fun k hk => ?_⟩
  have hk := List.mem_range.1 hk
  rw [hobl.gives s.dev 0 8 rsp haddr hrsp hok k (by simpa [hgiven] using hk) (by simp [hlen]; omega), hs]
  simp

/-- Where the multi-record area starts. -/
theorem toNat_multi (c : Nat → UInt8) :
    (((((slice c 0 8).drop 1).take 5).getD 4 0).toUInt32 * 8).toNat = (c 5).toNat * 8 := by
  have := (c 5).toNat_lt
  rw [show (((slice c 0 8).drop 1).take 5).getD 4 0 = c 5 from rfl, UInt32.toNat_mul, UInt8.toNat_toUInt32,
    show (8 : UInt32).toNat = 8 from rfl]
  omega

theorem Obliging.buildFruBloc_returns (hobl : Obliging fru id host contents limit) {c : Nat → UInt8}
    (hreadable : Readable fru.size.toNat c) (stack : Nat → UInt8) {s : State δ} (hs : contents s.dev = c) :
    Returns (buildFruBloc host fru id stack) s fun _ t => contents t.dev = c := by
  unfold buildFruBloc
  rw [header_request fru id]
  refine (hobl.commonHeader_returns hs).bind fun answer t ht => ?_
  obtain ⟨ht, rsp, rfl, hok, hslice⟩ := ht
  simp only [hok, hslice]
  refine Returns.ite (fun h => absurd rfl h) fun _ => Returns.ite (fun _ => Returns.pure ht) fun hcsum => ?_
  refine Returns.ite (fun _ => Returns.pure ht) fun hversion => ?_
  refine Returns.ite (fun hmulti => ?_) fun _ => Returns.pure ht
  refine (hobl.multiTurns_returns (fru.size.toNat + 2) _ stack _ _ ht ?_ (by omega)).bind
    fun p u hu => Returns.pure hu
  rw [toNat_multi]
  exact hreadable (not_not.1 hcsum) (not_not.1 hversion) hmulti

theorem Obliging.buildFruBloc_faults (hobl : Obliging fru id host contents limit) {c : Nat → UInt8}
    (hreadable : ¬ Readable fru.size.toNat c) (stack : Nat → UInt8) {s : State δ} (hs : contents s.dev = c) :
    Throws (buildFruBloc host fru id stack) s .fault := by
  simp only [Readable, Classical.not_imp] at hreadable
  obtain ⟨hcsum, hversion, hmulti, hfit⟩ := hreadable
  unfold buildFruBloc
  rw [header_request fru id]
  refine Throws.returns_bind (hobl.commonHeader_returns hs) fun answer t ht => ?_
  obtain ⟨ht, rsp, rfl, hok, hslice⟩ := ht
  simp only [hok, hslice]
  have hversion' : ¬ (slice c 0 8).getD 0 0 ≠ 1 := not_not.2 hversion
  have hmulti' : (((slice c 0 8).drop 1).take 5).getD 4 0 ≠ 0 := hmulti
  rw [if_neg (not_not.2 rfl), if_neg (not_not.2 hcsum), if_neg hversion', if_pos hmulti']
  refine (hobl.multiTurns_faults (fru.size.toNat + 2) _ stack _ _ ht ?_ (by omega)).bind
  rw [toNat_multi]
  exact hfit

/-! ### The writing -/

/-- A part is not empty. -/
theorem endBloc_gt (blocs : List Bloc) {doffset finish : UInt16} (h : doffset < finish) :
    doffset < endBloc (blocs.dropWhile fun b => b.start.toNat + b.size.toNat ≤ doffset.toNat) finish := by
  induction blocs with
  | nil => exact h
  | cons b blocs ih =>
    rw [List.dropWhile_cons]
    split
    · exact ih
    · rename_i hover
      simp only [decide_eq_true_eq, Nat.not_le] at hover
      simp only [endBloc]
      split
      · have hfinish := finish.toNat_lt
        apply UInt16.lt_iff_toNat_lt.2
        rw [UInt16.toNat_add]
        omega
      · exact h

theorem toNat_part (size : UInt8) (tmp : UInt16) :
    (if size.toUInt16 < tmp then size else tmp.toUInt8).toNat = min size.toNat tmp.toNat := by
  split
  · rename_i hlt
    have := UInt16.lt_iff_toNat_lt.1 hlt
    simp only [UInt8.toNat_toUInt16] at this
    omega
  · rename_i hle
    have := UInt16.le_iff_toNat_le.1 (UInt16.not_lt.1 hle)
    simp only [UInt8.toNat_toUInt16] at this
    have := size.toNat_lt
    rw [UInt16.toNat_toUInt8]
    omega

theorem Obliging.writeTurns_returns (hobl : Obliging fru id host contents limit) {finish : UInt16}
    (hfinish : finish ≤ fru.size) (pFrubuf : Nat → UInt8)
    (fuel : Nat) :
    ∀ (blocs : List Bloc) (doffset soffset : UInt16) (s : State δ), doffset < finish → s.maxWriteSize ≠ 0 →
      finish.toNat - doffset.toNat + s.maxWriteSize.toNat < fuel →
      Returns (writeTurns host fru id finish pFrubuf fuel blocs doffset soffset) s fun rc _ => rc = 1 := by
  induction fuel with
  | zero => intro _ _ _ _ _ _ h; omega
  | succ fuel ih =>
    intro blocs doffset soffset s hlt hne hfuel
    have hlow := endBloc_gt blocs hlt
    obtain ⟨-, hhigh⟩ := endBloc_bounds blocs (UInt16.le_of_lt hlt)
    refine Returns.get_bind ?_
    simp only [FruInfo.align, hobl.byBytes, Bool.false_eq_true, if_false]
    generalize (blocs.dropWhile fun b => b.start.toNat + b.size.toNat ≤ doffset.toNat) = blocs at hlow hhigh ⊢
    generalize endBloc blocs finish = stop at hlow hhigh ⊢
    have hpart := toNat_part s.maxWriteSize (stop - doffset)
    rw [UInt16.toNat_sub_of_le _ _ (UInt16.le_of_lt hlow)] at hpart
    generalize (if s.maxWriteSize.toUInt16 < stop - doffset then s.maxWriteSize else (stop - doffset).toUInt8) =
      writeLength at hpart ⊢
    have hlt' := UInt16.lt_iff_toNat_lt.1 hlt
    have hlow' := UInt16.lt_iff_toNat_lt.1 hlow
    have hhigh' := UInt16.le_iff_toNat_le.1 hhigh
    have hfinish' := UInt16.le_iff_toNat_le.1 hfinish
    have hstop := finish.toNat_lt
    have hne' : s.maxWriteSize.toNat ≠ 0 := fun h => hne (UInt8.toNat_inj.1 h)
    obtain ⟨rsp, hrsp, hcode⟩ := hobl.answersSet s.dev doffset (slice pFrubuf soffset.toNat writeLength.toNat)
      (by simp only [length_slice]; omega)
    rw [length_slice] at hcode
    refine (sendrecv_returns _ s).bind fun answer t ht => ?_
    obtain ⟨hanswer, rfl⟩ := ht
    obtain rfl := hanswer.trans hrsp
    refine Returns.ite (fun hbig => ?_) fun hnot => Returns.ite (fun hprotected => ?_) fun _ => Returns.ite
      (fun hbad => ?_) fun _ => ?_
    · -- a shorter part is written
      have h32 : 32 < s.maxWriteSize.toNat := UInt8.lt_iff_toNat_lt.1 hbig.2
      have hsmaller : s.maxWriteSize - fruBlockSz ≠ 0 ∧
          (s.maxWriteSize - fruBlockSz).toNat < s.maxWriteSize.toNat :=
        sub_lt_size (by decide) (show 8 < s.maxWriteSize.toNat by omega)
      refine Returns.modify_bind ?_
      rw [if_pos hlt]
      exact ih blocs doffset soffset _ hlt hsmaller.1 (by simp only; omega)
    · rw [hprotected] at hcode
      rcases hcode with h | h
      · exact absurd h (by decide)
      · exact absurd h.2 (by decide)
    · -- only what is too long is refused
      obtain ⟨hlong, hbig⟩ := hcode.resolve_left hbad
      have := hobl.limit_ge
      exact absurd ⟨hbig, UInt8.lt_iff_toNat_lt.2 (show 32 < s.maxWriteSize.toNat by omega)⟩ hnot
    · have hadd : (doffset + writeLength.toUInt16).toNat = doffset.toNat + writeLength.toNat := by
        rw [UInt16.toNat_add, UInt8.toNat_toUInt16]
        omega
      refine Returns.ite (fun hlt => ih blocs _ _ _ hlt hne (by simp only; omega)) fun hge => Returns.pure ?_
      rw [writeRc, if_pos (UInt16.not_lt.1 hge)]

theorem writeSize_some (haccess : fru.access = false) (h : 4 ≤ host.maxRequestDataSize) :
    ∃ size, writeSize host fru = some size ∧ size ≠ 0 := by
  have h4 : 4 ≤ host.maxRequestDataSize.toNat := UInt16.le_iff_toNat_le.1 h
  have hsub : (host.maxRequestDataSize - 3).toNat = host.maxRequestDataSize.toNat - 3 :=
    UInt16.toNat_sub_of_le _ _ (UInt16.le_iff_toNat_le.2 (by simp; omega))
  unfold writeSize
  simp only [FruInfo.align, haccess, Bool.false_eq_true, if_false]
  rw [if_neg (by
    rw [UInt16.le_iff_toNat_le]
    simp
    omega)]
  refine ⟨_, rfl, ?_⟩
  split
  · decide
  · rename_i hle
    have hle := UInt16.le_iff_toNat_le.1 (UInt16.not_lt.1 hle)
    intro h0
    have h0 := congrArg UInt8.toNat h0
    rw [UInt16.toNat_toUInt8, hsub] at h0
    rw [hsub] at hle
    simp at hle h0
    omega

/-- A write that is done leaves the part of the buffer in the range, and the rest as it was. -/
theorem Writing.Done.contents_eq {x : Writing} {c : Nat → UInt8} (h : x.Done (fun _ => False) x.stop c)
    (hbetween : x.Between c) :
    c = store x.before x.doffset.toNat (slice x.pFrubuf x.soffset.toNat x.length.toNat) := by
  funext i
  by_cases hin : x.doffset.toNat ≤ i ∧ i < x.stop
  · have hwant := x.part_eq_want (c := x.before) (Nat.le_refl _) hin.1 hin.2
    rw [Nat.sub_self, Nat.add_zero] at hwant
    rw [hwant]
    exact (h i hin.1 hin.2).resolve_right fun ⟨_, _, _, hno⟩ => hno
  · rw [store_of_disjoint _ _ _ (by simp only [length_slice]; unfold Writing.stop at hin; omega)]
    exact (hbetween i).resolve_right fun h => hin ⟨h.1, h.2.1⟩

/-- A range of the FRU is written as a whole. -/
theorem Obliging.writeFruArea_stores (hobl : Obliging fru id host contents limit) (x : Writing)
    (hlength : x.length ≠ 0) (hinside : x.stop ≤ fru.size.toNat)
    (hreadable : Readable fru.size.toNat x.before) {fuel : Nat} (hfuel : x.length.toNat + 255 < fuel)
    (stack : Nat → UInt8) {s : State δ} (hs : contents s.dev = x.before) :
    Returns (writeFruArea host fru id fuel stack x.soffset x.doffset x.length x.pFrubuf) s fun _ t =>
      contents t.dev = store x.before x.doffset.toNat (slice x.pFrubuf x.soffset.toNat x.length.toNat) := by
  have hfinish := x.toNat_finish
  have hsize : x.doffset + x.length ≤ fru.size := UInt16.le_iff_toNat_le.2 (by omega)
  have hlength' : x.length.toNat ≠ 0 := fun h => hlength (UInt16.toNat_inj.1 h)
  have hlt : x.doffset < x.doffset + x.length := UInt16.lt_iff_toNat_lt.2 (by rw [hfinish, Writing.stop]; omega)
  refine Returns.ite (fun h => absurd hsize (UInt16.not_le.2 h)) fun _ => ?_
  refine Returns.ite (fun h => absurd h.1 (by simp [hobl.byBytes])) fun _ => ?_
  refine (hobl.buildFruBloc_returns hreadable stack hs).bind fun blocs t ht => ?_
  have hturns (u : State δ) (hu : contents u.dev = x.before) (hne : u.maxWriteSize ≠ 0) :
      Returns (writeTurns host fru id (x.doffset + x.length) x.pFrubuf fuel blocs x.doffset x.soffset) u fun _ t =>
        contents t.dev = store x.before x.doffset.toNat (slice x.pFrubuf x.soffset.toNat x.length.toNat) := by
    refine ((hobl.writeTurns_returns hsize x.pFrubuf fuel blocs x.doffset x.soffset u hlt hne ?_).and_triple
      (writeTurns_triple x hobl.toIsFru hobl.toIsFru.notes (fun _ _ h => h) hfinish hsize fuel blocs x.doffset x.soffset (Nat.le_refl _)
        (UInt16.le_of_lt hlt) (by simp [hobl.byBytes]) (by omega)) (Writing.At.of_has _ hu)).mono fun rc v hv => ?_
    · have := u.maxWriteSize.toNat_lt
      unfold Writing.stop at hfinish
      omega
    · exact (hv.2.2 hv.1).contents_eq hv.2.1
  refine Returns.get_bind (Returns.ite (fun _ => ?_) fun hne => hturns t ht hne)
  obtain ⟨size, hsome, hne⟩ := writeSize_some hobl.byBytes hobl.request_fits
  rw [hsome]
  exact Returns.modify_bind (hturns _ ht hne)

end read

end KTools.Fru
