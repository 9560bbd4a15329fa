import KTools.Fru.Refusals

/-!
# What is written is in the buffer

However many parts a write takes, and wherever it ends, a byte of the FRU is as it was, or it is in the range and is
the byte of the buffer for it; and where the result is 1, every byte of the range has been written, unless it comes
after an offset of the range at which the device has refused a write as protected.
-/

namespace KTools.Fru
open KTools.Lib KTools.Lib.Bytes KTools.Lanplus
open KTools.Sdr (Rsp request netfnStorage)

variable {δ : Type}

/-! ### Reading keeps the contents -/

/-- The FRU has the contents `c`. -/
def Has (contents : δ → Nat → UInt8) (c : Nat → UInt8) (s : State δ) : Prop := contents s.dev = c

section keeps
variable {host : Host δ} {fru : FruInfo} {id : UInt8} {contents : δ → Nat → UInt8} {Protects : Nat → Prop}
  {c : Nat → UInt8}

theorem sizes_keep {f : State δ → State δ} (h : ∀ s, (f s).dev = s.dev) :
    Keeps (Has contents c) (modify f : FruM δ PUnit) :=
  Keeps.modify fun s hs => (congrArg contents (h s)).trans hs

theorem getRequest_keeps (hdev : IsFru fru id host.exchange contents Protects) (offset : UInt32) (count : UInt8) :
    Keeps (Has contents c) (sendrecv host (getRequest fru id offset count)) :=
  fun s hs => (hdev.keeps s.dev offset count).trans hs

theorem readTurns_keeps (hdev : IsFru fru id host.exchange contents Protects) (finish : UInt32) (fuel : Nat) :
    ∀ off left pos frubuf, Keeps (Has contents c) (readTurns host fru id finish fuel off left pos frubuf) := by
  induction fuel with
  | zero => exact fun _ _ _ _ => Keeps.throw _
  | succ fuel ih =>
    intro off left pos frubuf
    refine Keeps.get.bind fun s => (getRequest_keeps hdev off _).bind fun answer => ?_
    cases answer with
    | none => exact Keeps.pure _
    | some rsp =>
      apply Keeps.ite
      · -- refused, and read again in smaller parts
        apply Keeps.ite
        · refine Keeps.bind (sizes_keep fun _ => rfl) fun _ => ?_
          exact (ih _ _ _ _).ite (Keeps.pure _)
        · exact Keeps.pure _
      · -- completed: two ways to end, then the next part
        apply Keeps.ite (Keeps.pure _)
        apply Keeps.ite (Keeps.pure _)
        exact (ih _ _ _ _).ite (Keeps.pure _)

theorem readFruArea_keeps (hdev : IsFru fru id host.exchange contents Protects) (offset length : UInt32)
    (frubuf : Nat → UInt8) : Keeps (Has contents c) (readFruArea host fru id offset length frubuf) := by
  have hrange (finish length : UInt32) (frubuf : Nat → UInt8) :
      Keeps (Has contents c) (readRange host fru id offset finish length frubuf) := by
    have hturns : Keeps (Has contents c)
        (readTurns host fru id finish ((finish - offset).toNat + 256) offset length 0 frubuf) :=
      readTurns_keeps hdev _ _ _ _ _ _
    refine Keeps.get.bind fun s => Keeps.ite ?_ hturns
    cases readSize host fru with
    | none => exact Keeps.pure _
    | some size => exact Keeps.bind (sizes_keep fun _ => rfl) fun _ => hturns
  apply Keeps.ite (Keeps.pure _)
  apply Keeps.ite
  · exact Keeps.ite (Keeps.throw _) (hrange _ _ _)
  · exact hrange _ _ _

theorem multiTurns_keeps (hdev : IsFru fru id host.exchange contents Protects) (fuel : Nat) :
    ∀ off recHdr blocs, Keeps (Has contents c) (multiTurns host fru id fuel off recHdr blocs) := by
  induction fuel with
  | zero => exact fun _ _ _ => Keeps.throw _
  | succ fuel ih =>
    intro off recHdr blocs
    apply Keeps.ite (Keeps.pure _)
    refine (readFruArea_keeps hdev off 5 recHdr).bind fun p => ?_
    apply Keeps.ite (Keeps.pure _)
    apply Keeps.ite (Keeps.pure _)
    exact (ih _ _ _).ite (Keeps.pure _)

theorem header_request (fru : FruInfo) (id : UInt8) :
    request netfnStorage getFruData [id, 0, 0, 8] = getRequest fru id 0 8 := by
  simp [getRequest, FruInfo.place]

theorem buildFruBloc_keeps (hdev : IsFru fru id host.exchange contents Protects) (stack : Nat → UInt8) :
    Keeps (Has contents c) (buildFruBloc host fru id stack) := by
  unfold buildFruBloc
  rw [header_request fru id]
  refine (getRequest_keeps hdev 0 8).bind fun answer => ?_
  cases answer with
  | none => exact Keeps.pure _
  | some rsp =>
    -- no list, a wrong checksum, or another version
    apply Keeps.ite (Keeps.pure _)
    apply Keeps.ite (Keeps.pure _)
    apply Keeps.ite (Keeps.pure _)
    refine Keeps.ite ?_ (Keeps.pure _)
    exact (multiTurns_keeps hdev _ _ _ _).bind fun p => Keeps.pure _

end keeps

/-! ### Writing -/

/-- A write of `length` bytes of `pFrubuf` from `soffset` on to `doffset`, into a FRU with the contents `before`. -/
structure Writing where
  before : Nat → UInt8
  soffset : UInt16
  doffset : UInt16
  length : UInt16
  pFrubuf : Nat → UInt8
  source_fits : soffset.toNat + length.toNat < 65536
  range_fits : doffset.toNat + length.toNat < 65536

namespace Writing
variable (x : Writing)

/-- The end of the range. -/
def stop : Nat := x.doffset.toNat + x.length.toNat

theorem toNat_finish : (x.doffset + x.length).toNat = x.stop := by
  have hrange := x.range_fits
  rw [UInt16.toNat_add, stop]
  omega

/-- The byte of the buffer for a place of the range. -/
def want (i : Nat) : UInt8 := x.pFrubuf (x.soffset.toNat + (i - x.doffset.toNat))

/-- A byte is as it was, or it is in the range and is the one for it. -/
def Between (c : Nat → UInt8) : Prop :=
  ∀ i, c i = x.before i ∨ x.doffset.toNat ≤ i ∧ i < x.stop ∧ c i = x.want i

/-- Every byte of the range before `d` is written, or comes after an offset of the range that has been refused. -/
def Done (Refused : Nat → Prop) (d : Nat) (c : Nat → UInt8) : Prop :=
  ∀ i, x.doffset.toNat ≤ i → i < d → c i = x.want i ∨ ∃ o, x.doffset.toNat ≤ o ∧ o ≤ i ∧ Refused o

section step
variable {x} {Refused Refused' : Nat → Prop} {c : Nat → UInt8} {d n : Nat}

/-- The part of the buffer that is written at `d`. -/
theorem part_eq_want (hd : x.doffset.toNat ≤ d) {i : Nat} (hi : d ≤ i) (hn : i < d + n) :
    store c d (slice x.pFrubuf (x.soffset.toNat + (d - x.doffset.toNat)) n) i = x.want i := by
  obtain ⟨k, rfl⟩ := Nat.exists_eq_add_of_le hi
  rw [store_add _ _ _ (by simp; omega), getElem_slice, want]
  congr 1
  omega

theorem Between.part (h : x.Between c) (hd : x.doffset.toNat ≤ d) (hn : d + n ≤ x.stop) :
    x.Between (store c d (slice x.pFrubuf (x.soffset.toNat + (d - x.doffset.toNat)) n)) := by
  intro i
  by_cases hin : d ≤ i ∧ i < d + n
  · exact .inr ⟨by omega, by omega, part_eq_want hd hin.1 hin.2⟩
  · rw [store_of_disjoint _ _ _ (by simp; omega)]
    exact h i

theorem Done.part (h : x.Done Refused d c) (hd : x.doffset.toNat ≤ d) :
    x.Done Refused (d + n) (store c d (slice x.pFrubuf (x.soffset.toNat + (d - x.doffset.toNat)) n)) := by
  intro i hlow hhigh
  by_cases hin : d ≤ i
  · exact .inl (part_eq_want hd hin hhigh)
  · rw [store_of_disjoint _ _ _ (by omega)]
    exact h i hlow (by omega)

/-- What comes after an offset that has been refused need not be written. -/
theorem Done.jump (h : x.Done Refused d c) (hd : x.doffset.toNat ≤ d) (hrefused : Refused d) (e : Nat) :
    x.Done Refused e c := by
  intro i hlow _
  by_cases hin : d ≤ i
  · exact .inr ⟨d, hd, hin, hrefused⟩
  · exact h i hlow (by omega)

theorem Done.mono (h : x.Done Refused d c) {d' : Nat} (hle : d' ≤ d) : x.Done Refused d' c :=
  fun i hlow hhigh => h i hlow (by omega)

theorem Done.weaken (h : x.Done Refused d c) (hrefused : ∀ o, Refused o → Refused' o) : x.Done Refused' d c :=
  fun i hlow hhigh => (h i hlow hhigh).imp id fun ⟨o, ho, hle, hr⟩ => ⟨o, ho, hle, hrefused o hr⟩

end step

end Writing

section write
variable {host : Host δ} {fru : FruInfo} {id : UInt8} {contents : δ → Nat → UInt8} {Protects : Nat → Prop}
  {Refused : δ → Nat → Prop}

/-- What has come of a write that returns. -/
def Writing.Ended (x : Writing) (contents : δ → Nat → UInt8) (Refused : δ → Nat → Prop) (rc : Int) (s : State δ) :
    Prop :=
  x.Between (contents s.dev) ∧ (rc = 1 → x.Done (Refused s.dev) x.stop (contents s.dev))

/-- A block that is not over ends at the offset or after it, and not after the range. -/
theorem endBloc_bounds (blocs : List Bloc) {doffset finish : UInt16} (h : doffset ≤ finish) :
    doffset ≤ endBloc (blocs.dropWhile fun b => b.start.toNat + b.size.toNat ≤ doffset.toNat) finish ∧
      endBloc (blocs.dropWhile fun b => b.start.toNat + b.size.toNat ≤ doffset.toNat) finish ≤ finish := by
  induction blocs with
  | nil => exact ⟨h, UInt16.le_refl _⟩
  | cons b blocs ih =>
    rw [List.dropWhile_cons]
    split
    · exact ih
    · rename_i hover
      simp only [decide_eq_true_eq, Nat.not_le] at hover
      simp only [endBloc]
      split
      · rename_i hlt
        have hfinish := finish.toNat_lt
        have hadd : (b.start + b.size).toNat = b.start.toNat + b.size.toNat := by
          rw [UInt16.toNat_add]
          omega
        exact ⟨UInt16.le_iff_toNat_le.2 (by omega), UInt16.le_iff_toNat_le.2 (by omega)⟩
      · exact ⟨h, UInt16.le_refl _⟩

/-- So far everything before `d` is written. -/
def Writing.At (x : Writing) (contents : δ → Nat → UInt8) (Refused : δ → Nat → Prop) (d : Nat) (s : State δ) : Prop :=
  x.Between (contents s.dev) ∧ x.Done (Refused s.dev) d (contents s.dev)

/-- What an answer to a write of `n` bytes at `d` says. -/
def Writing.Answered (x : Writing) (fru : FruInfo) (contents : δ → Nat → UInt8) (Refused : δ → Nat → Prop)
    (d n : Nat) (answer : Option Rsp) (s : State δ) : Prop :=
  x.At contents Refused d s ∧ ∀ rsp, answer = some rsp →
    (rsp.ccode = 0 → x.Done (Refused s.dev) (d + n) (contents s.dev)) ∧
    (rsp.ccode = ccFruWriteProtectedOffset → fru.access = false ∧ Refused s.dev d)

theorem Writing.request_triple (x : Writing) (hdev : IsFru fru id host.exchange contents Protects)
    (hnotes : Notes fru id host.exchange Refused) (hprotects : fru.access = true → ∀ o, ¬ Protects o)
    {E : State δ → Prop} {doffset : UInt16} {n : Nat} (haddr : fru.Addressable doffset.toUInt32)
    (hd : x.doffset.toNat ≤ doffset.toNat) (hn : doffset.toNat + n ≤ x.stop) :
    Triple E (x.At contents Refused doffset.toNat)
      (sendrecv host (setRequest fru id doffset
        (slice x.pFrubuf (x.soffset.toNat + (doffset.toNat - x.doffset.toNat)) n)))
      (x.Answered fru contents Refused doffset.toNat n) := by
  intro s hs
  obtain ⟨hbetween, hdone⟩ := hs
  have hdone := hdone.weaken (hnotes.stays s.dev (setRequest fru id doffset
    (slice x.pFrubuf (x.soffset.toNat + (doffset.toNat - x.doffset.toNat)) n)))
  have hwritten := hdone.part (n := n) hd
  refine ⟨⟨?_, ?_⟩, fun rsp hrsp => ⟨fun hok => ?_, fun hprotected => ?_⟩⟩
  · rcases hdev.writes s.dev doffset (slice x.pFrubuf (x.soffset.toNat + (doffset.toNat - x.doffset.toNat)) n) haddr
      with h | h
    · exact h ▸ hbetween
    · exact h ▸ hbetween.part hd hn
  · have hwrites := hdev.writes s.dev doffset
      (slice x.pFrubuf (x.soffset.toNat + (doffset.toNat - x.doffset.toNat)) n) haddr
    show x.Done _ _ (contents _)
    rcases hwrites with h | h
    · rw [h]
      exact hdone
    · rw [h]
      exact hwritten.mono (Nat.le_add_right _ _)
  · show x.Done _ _ (contents _)
    rw [hdev.completes s.dev doffset _ rsp haddr hrsp hok]
    exact hwritten
  · have hprotects' := (hdev.refuses s.dev doffset _ rsp haddr hrsp hprotected).1
    have hbytes : fru.access = false := Bool.eq_false_iff.2 fun h => hprotects h _ hprotects'
    exact ⟨hbytes, hnotes.notes hbytes s.dev doffset _ rsp haddr hrsp hprotected⟩

theorem Writing.ended (x : Writing) {doffset finish : UInt16} (hfinish : finish.toNat = x.stop) {s : State δ}
    (h : x.At contents Refused doffset.toNat s) : x.Ended contents Refused (writeRc doffset finish) s := by
  refine ⟨h.1, fun hrc => h.2.mono ?_⟩
  unfold writeRc at hrc
  split at hrc
  · rename_i hle
    exact hfinish ▸ UInt16.le_iff_toNat_le.1 hle
  · cases hrc

/-- The bytes of a part are not more than are left. -/
theorem toNat_writeLength (fru : FruInfo) (size : UInt8) (tmp : UInt16) :
    (fru.align (if size.toUInt16 < tmp then size else tmp.toUInt8)).toNat ≤ tmp.toNat ∧
      (fru.access = true → (fru.align (if size.toUInt16 < tmp then size else tmp.toUInt8)).toNat % 2 = 0) := by
  rw [toNat_align]
  have hle : (if size.toUInt16 < tmp then size else tmp.toUInt8 : UInt8).toNat ≤ tmp.toNat := by
    split
    · rename_i hlt
      have := UInt16.lt_iff_toNat_lt.1 hlt
      simp at this
      omega
    · simp
      omega
  constructor
  · split <;> omega
  · intro haccess
    rw [if_pos haccess]
    omega

/-- The offsets in the device and in the buffer move together, and do not overflow. -/
theorem Writing.toNat_add (x : Writing) {doffset soffset n : UInt16} (hd : x.doffset.toNat ≤ doffset.toNat)
    (hsoffset : soffset.toNat = x.soffset.toNat + (doffset.toNat - x.doffset.toNat))
    (hn : doffset.toNat + n.toNat ≤ x.stop) :
    (doffset + n).toNat = doffset.toNat + n.toNat ∧
      (soffset + n).toNat = x.soffset.toNat + ((doffset + n).toNat - x.doffset.toNat) := by
  have hsource := x.source_fits
  have hrange := x.range_fits
  unfold Writing.stop at hn
  have hadd : (doffset + n).toNat = doffset.toNat + n.toNat := by
    rw [UInt16.toNat_add]
    omega
  refine ⟨hadd, ?_⟩
  rw [hadd, UInt16.toNat_add]
  omega

theorem writeTurns_triple (x : Writing) (hdev : IsFru fru id host.exchange contents Protects)
    (hnotes : Notes fru id host.exchange Refused) (hprotects : fru.access = true → ∀ o, ¬ Protects o)
    {finish : UInt16} (hfinish : finish.toNat = x.stop) (hsize : finish ≤ fru.size) (fuel : Nat) :
    ∀ (blocs : List Bloc) (doffset soffset : UInt16), x.doffset.toNat ≤ doffset.toNat → doffset ≤ finish →
      (fru.access = true → doffset.toNat % 2 = 0) →
      soffset.toNat = x.soffset.toNat + (doffset.toNat - x.doffset.toNat) →
      Triple (fun s => x.Between (contents s.dev)) (x.At contents Refused doffset.toNat)
        (writeTurns host fru id finish x.pFrubuf fuel blocs doffset soffset) (x.Ended contents Refused) := by
  induction fuel with
  | zero => exact fun _ _ _ _ _ _ _ => Triple.throw fun _ h => h.1
  | succ fuel ih =>
    intro blocs doffset soffset hd hle heven hsoffset
    refine Triple.get_bind fun s hs => ?_
    obtain ⟨hlow, hhigh⟩ := endBloc_bounds blocs hle
    simp only
    generalize (blocs.dropWhile fun b => b.start.toNat + b.size.toNat ≤ doffset.toNat) = blocs at hlow hhigh ⊢
    generalize endBloc blocs finish = stop at hlow hhigh ⊢
    -- the loop goes on from an offset that everything is written before
    have hnext (doffset' soffset' : UInt16) (hd' : x.doffset.toNat ≤ doffset'.toNat) (hle' : doffset' ≤ finish)
        (heven' : fru.access = true → doffset'.toNat % 2 = 0)
        (hsoffset' : soffset'.toNat = x.soffset.toNat + (doffset'.toNat - x.doffset.toNat)) :
        Triple (fun s => x.Between (contents s.dev)) (x.At contents Refused doffset'.toNat)
          (if doffset' < finish then writeTurns host fru id finish x.pFrubuf fuel blocs doffset' soffset'
            else pure (writeRc doffset' finish)) (x.Ended contents Refused) :=
      Triple.ite (fun _ => ih blocs _ _ hd' hle' heven' hsoffset') fun _ => Triple.pure fun t ht =>
        x.ended hfinish ht
    have hstop : doffset.toNat + (stop - doffset).toNat = stop.toNat := by
      rw [UInt16.toNat_sub_of_le _ _ hlow]
      have := UInt16.le_iff_toNat_le.1 hlow
      omega
    have hhigh' := UInt16.le_iff_toNat_le.1 hhigh
    obtain ⟨hlen, hlenEven⟩ := toNat_writeLength fru s.maxWriteSize (stop - doffset)
    generalize fru.align
      (if s.maxWriteSize.toUInt16 < stop - doffset then s.maxWriteSize else (stop - doffset).toUInt8) = writeLength
      at hlen hlenEven ⊢
    have haddr : fru.Addressable doffset.toUInt32 := by
      refine ⟨UInt32.le_iff_toNat_le.2 ?_, fun h => by simpa using heven h⟩
      simpa using UInt16.le_iff_toNat_le.1 (UInt16.le_trans hle hsize)
    have hpart : doffset.toNat + writeLength.toUInt16.toNat ≤ x.stop := by
      rw [UInt8.toNat_toUInt16]
      omega
    rw [hsoffset]
    refine Triple.pre (P := x.At contents Refused doffset.toNat) ?_ fun t ht => ht ▸ hs
    refine (x.request_triple hdev hnotes hprotects haddr hd hpart).bind fun answer => ?_
    cases answer with
    | none => exact Triple.pure fun t ht => x.ended hfinish ht.1
    | some rsp =>
      refine Triple.ite (fun _ => ?_) fun _ => Triple.ite (fun hprotected => ?_) fun _ => Triple.ite (fun _ => ?_)
        fun hok => ?_
      · -- the part is too long
        refine (Triple.modify (Q := fun _ => x.At contents Refused doffset.toNat) fun t ht => ht.1).bind fun _ => ?_
        exact hnext doffset soffset hd hle heven hsoffset
      · -- the block is protected
        refine Triple.assuming (fun t ht => ((ht.2 rsp rfl).2 hprotected).1) fun hbytes => ?_
        obtain ⟨hadd, hjump⟩ := x.toNat_add hd hsoffset (n := stop - doffset) (by omega)
        rw [hstop] at hadd
        rw [hadd] at hjump
        refine (hnext stop _ (by omega) hhigh (fun h => absurd h (by simp [hbytes])) hjump).pre fun t ht => ?_
        exact ⟨ht.1.1, ht.1.2.jump hd ((ht.2 rsp rfl).2 hprotected).2 _⟩
      · exact Triple.pure fun t ht => x.ended hfinish ht.1
      · -- the part is written
        simp only [ne_eq, not_not] at hok
        obtain ⟨hadd, hmove⟩ := x.toNat_add hd hsoffset hpart
        refine (hnext _ _ (by omega) (UInt16.le_iff_toNat_le.2 (by omega)) ?_ hmove).pre fun t ht => ?_
        · intro haccess
          have := heven haccess
          have := hlenEven haccess
          rw [hadd, UInt8.toNat_toUInt16]
          omega
        · exact ⟨ht.1.1, hadd ▸ (ht.2 rsp rfl).1 hok⟩

theorem Writing.At.of_has (Refused : δ → Nat → Prop) {x : Writing} {s : State δ} (h : Has contents x.before s) :
    x.At contents Refused x.doffset.toNat s :=
  ⟨fun i => .inl (by rw [show contents s.dev = x.before from h]), fun i hlow hhigh => absurd hhigh (by omega)⟩

theorem Writing.refused (x : Writing) {s : State δ} (h : Has contents x.before s) :
    x.Ended contents Refused (-1) s :=
  ⟨(Writing.At.of_has Refused h).1, fun hrc => by cases hrc⟩

theorem writeFruArea_triple (x : Writing) (hdev : IsFru fru id host.exchange contents Protects)
    (hnotes : Notes fru id host.exchange Refused) (hprotects : fru.access = true → ∀ o, ¬ Protects o) (fuel : Nat)
    (stack : Nat → UInt8) :
    Triple (fun s => x.Between (contents s.dev)) (Has contents x.before)
      (writeFruArea host fru id fuel stack x.soffset x.doffset x.length x.pFrubuf) (x.Ended contents Refused) := by
  have hfinish := x.toNat_finish
  have hle : x.doffset ≤ x.doffset + x.length := UInt16.le_iff_toNat_le.2 (by rw [hfinish, Writing.stop]; omega)
  refine Triple.ite (fun _ => Triple.pure fun s hs => x.refused hs) fun hsize => ?_
  refine Triple.ite (fun _ => Triple.pure fun s hs => x.refused hs) fun hodd => ?_
  have heven : fru.access = true → x.doffset.toNat % 2 = 0 := by
    intro haccess
    have hand : x.doffset &&& 1 = 0 := by
      by_contra h
      exact hodd ⟨haccess, .inl h⟩
    have := congrArg UInt16.toNat hand
    rw [UInt16.toNat_and] at this
    simpa [Nat.and_one_is_mod] using this
  have hbuild : Triple (fun s => x.Between (contents s.dev)) (Has contents x.before) (buildFruBloc host fru id stack)
      fun _ => Has contents x.before :=
    (buildFruBloc_keeps hdev stack).triple.error fun s hs => (Writing.At.of_has Refused hs).1
  refine hbuild.bind fun blocs => Triple.get_bind' fun s => ?_
  have hturns := (writeTurns_triple x hdev hnotes hprotects hfinish (UInt16.not_lt.1 hsize) fuel blocs x.doffset
    x.soffset (Nat.le_refl _) hle heven (by omega)).pre fun s (hs : Has contents x.before s) =>
      Writing.At.of_has Refused hs
  refine Triple.ite (fun _ => ?_) fun _ => hturns
  cases writeSize host fru with
  | none => exact Triple.pure fun s hs => x.refused hs
  | some size =>
    refine (Triple.modify (Q := fun _ => Has contents x.before) ?_).bind fun _ => hturns
    exact fun t ht => ht

end write

/-- A write that starts with no refusals noted. -/
def Writing.Starts (x : Writing) (contents : δ → Nat → UInt8) (s : State (δ × List Nat)) : Prop :=
  contents s.dev.1 = x.before ∧ s.dev.2 = []

/-- What has come of a write that returns, with the refusals that it met. -/
def Writing.Writes (x : Writing) (contents : δ → Nat → UInt8) (rc : Int) (s : State (δ × List Nat)) : Prop :=
  x.Between (contents s.dev.1) ∧ (rc = 1 → ∀ i, x.doffset.toNat ≤ i → i < x.stop →
    contents s.dev.1 i = x.want i ∨ ∃ o ∈ s.dev.2, x.doffset.toNat ≤ o ∧ o ≤ i)

/-- Whatever the device refuses, and whether the write returns or not, a byte of the FRU is as it was, or it is in the
range and is the one of the buffer for it; where the result is 1, every byte of the range is written that does not
come after an offset of the range at which a write was refused as protected. Where the access is by words, nothing may
be protected. -/
theorem writeFruArea_writes {host : Host δ} {fru : FruInfo} {id : UInt8} {contents : δ → Nat → UInt8}
    {Protects : Nat → Prop} (x : Writing) (hdev : IsFru fru id host.exchange contents Protects)
    (hprotects : fru.access = true → ∀ o, ¬ Protects o) (fuel : Nat) (stack : Nat → UInt8) :
    Triple (fun s => x.Between (contents s.dev.1)) (x.Starts contents)
      (writeFruArea host.logged fru id fuel stack x.soffset x.doffset x.length x.pFrubuf) (x.Writes contents) := by
  refine (writeFruArea_triple x hdev.logged (logged_notes host fru id) hprotects fuel stack).conseq (fun s hs => hs.1)
    fun rc s hs => ⟨hs.1, fun hrc i hlow hhigh => (hs.2 hrc i hlow hhigh).imp (fun h => h) ?_⟩
  exact fun ⟨o, ho, hle, hmem⟩ => ⟨o, hmem, ho, hle⟩

def smallWriting : Writing where
  before := memory smallMemory
  soffset := 0
  doffset := 16
  length := 200
  pFrubuf := blank
  source_fits := by decide
  range_fits := by decide

/-- The FRU is as it was, or has bytes of the buffer. -/
def smallBetween (s : State ((Nat → UInt8) × List Nat)) : Prop := smallWriting.Between (memory s.dev.1)

theorem smallWrite_writes :
    Triple smallBetween (smallWriting.Starts memory)
      (writeFruArea smallHost.logged smallFru 0 100 blank smallWriting.soffset smallWriting.doffset
        smallWriting.length smallWriting.pFrubuf) (smallWriting.Writes memory) :=
  writeFruArea_writes smallWriting (memoryDevice_isFru 300 0 28 [116]) (fun h => absurd h (by decide)) 100
    blank

end KTools.Fru
