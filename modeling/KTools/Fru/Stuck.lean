import KTools.Fru.Obliging

/-!
# A write by words that does not end

Where the access is by words, `write_fru_area` writes an even number of bytes at a time, but up to the end of a block.
`build_fru_bloc` may end a block at an odd offset, behind the last record of the multi-record area. Then the last byte
before it is never written: the loop sends requests without data and does not end.
-/

namespace KTools.Fru
open KTools.Lib KTools.Lib.Bytes KTools.Lanplus
open KTools.Sdr (Rsp request netfnStorage)

variable {δ : Type}

/-- Where a block ends. -/
def Bloc.stop (b : Bloc) : Nat := b.start.toNat + b.size.toNat

/-- A block ends at `e`, and none before it in the list ends later. -/
def EndsAt (e : Nat) (blocs : List Bloc) : Prop :=
  ∃ before b after, blocs = before ++ b :: after ∧ b.stop = e ∧ ∀ b' ∈ before, b'.stop ≤ e

/-- As long as the offset is before `e`, the block is not left. -/
theorem EndsAt.dropWhile {e d : Nat} {blocs : List Bloc} (h : EndsAt e blocs) (hd : d < e) :
    EndsAt e (blocs.dropWhile fun b => b.start.toNat + b.size.toNat ≤ d) := by
  obtain ⟨before, b, after, rfl, hb, hbefore⟩ := h
  induction before with
  | nil =>
    have hstop : ¬ b.start.toNat + b.size.toNat ≤ d := by
      unfold Bloc.stop at hb
      omega
    rw [List.nil_append, List.dropWhile_cons, if_neg (by simpa using hstop)]
    exact ⟨[], b, after, rfl, hb, fun _ h => absurd h List.not_mem_nil⟩
  | cons b' before ih =>
    rw [List.cons_append, List.dropWhile_cons]
    split
    · exact ih fun x hx => hbefore x (List.mem_cons_of_mem _ hx)
    · exact ⟨b' :: before, b, after, rfl, hb, hbefore⟩

theorem EndsAt.endBloc_le {e : Nat} {blocs : List Bloc} (h : EndsAt e blocs) {finish : UInt16}
    (he : e < finish.toNat) : (endBloc blocs finish).toNat ≤ e := by
  have hfinish := finish.toNat_lt
  obtain ⟨before, b, after, rfl, hb, hbefore⟩ := h
  have hhead (x : Bloc) (rest : List Bloc) (hx : x.stop ≤ e) : (endBloc (x :: rest) finish).toNat ≤ e := by
    unfold Bloc.stop at hx
    rw [endBloc, if_pos (by omega), UInt16.toNat_add]
    omega
  cases before with
  | nil => exact hhead b after (Nat.le_of_eq hb)
  | cons x before => exact hhead x _ (hbefore x List.mem_cons_self)

section stuck
variable {host : Host δ} {fru : FruInfo} {id : UInt8}

/-- Every turn of the loop leaves an even offset before the odd one. -/
theorem writeTurns_stuck (haccess : fru.access = true)
    (hanswers : ∀ d offset data, ∃ rsp, (host.exchange d (setRequest fru id offset data)).1 = some rsp ∧
      (rsp.ccode = 0 ∨ 32 < data.length ∧ fruCcRq2big rsp.ccode = true))
    {e : Nat} (hodd : e % 2 = 1) {finish : UInt16} (he : e < finish.toNat) (pFrubuf : Nat → UInt8) (fuel : Nat) :
    ∀ (blocs : List Bloc) (doffset soffset : UInt16) (s : State δ), EndsAt e blocs → doffset.toNat < e →
      doffset.toNat % 2 = 0 →
      Throws (writeTurns host fru id finish pFrubuf fuel blocs doffset soffset) s .waiting := by
  induction fuel with
  | zero => exact fun _ _ _ _ _ _ _ => Throws.throw
  | succ fuel ih =>
    intro blocs doffset soffset s hends hlt heven
    have hends := hends.dropWhile hlt
    have hle : doffset ≤ finish := UInt16.le_iff_toNat_le.2 (by omega)
    obtain ⟨hlow, -⟩ := endBloc_bounds blocs hle
    have hhigh := hends.endBloc_le he
    refine Throws.get_bind ?_
    simp only
    generalize (blocs.dropWhile fun b => b.start.toNat + b.size.toNat ≤ doffset.toNat) = blocs at hends hlow hhigh ⊢
    generalize endBloc blocs finish = stop at hlow hhigh ⊢
    obtain ⟨hlen, hlenEven⟩ := toNat_writeLength fru s.maxWriteSize (stop - doffset)
    have hsize : (fru.align (if s.maxWriteSize.toUInt16 < stop - doffset then s.maxWriteSize
        else (stop - doffset).toUInt8)).toNat ≤ s.maxWriteSize.toNat := by
      have := toNat_part s.maxWriteSize (stop - doffset)
      rw [toNat_align]
      split <;> omega
    generalize fru.align
      (if s.maxWriteSize.toUInt16 < stop - doffset then s.maxWriteSize else (stop - doffset).toUInt8) = writeLength
      at hlen hlenEven hsize ⊢
    rw [UInt16.toNat_sub_of_le _ _ hlow] at hlen
    have hstop := finish.toNat_lt
    have hlow' := UInt16.le_iff_toNat_le.1 hlow
    have hlt' : doffset < finish := UInt16.lt_iff_toNat_lt.2 (by omega)
    have hlenEven := hlenEven haccess
    have hadd : (doffset + writeLength.toUInt16).toNat = doffset.toNat + writeLength.toNat := by
      rw [UInt16.toNat_add, UInt8.toNat_toUInt16]
      omega
    obtain ⟨rsp, hrsp, hcode⟩ := hanswers s.dev doffset (slice pFrubuf soffset.toNat writeLength.toNat)
    rw [length_slice] at hcode
    refine Throws.returns_bind (sendrecv_returns _ s) fun answer t ht => ?_
    obtain ⟨hanswer, rfl⟩ := ht
    obtain rfl := hanswer.trans hrsp
    rcases hcode with hok | ⟨hlong, hbig⟩
    · -- the offset does not reach `e`, which is odd
      have hnot : ¬ (fruCcRq2big (0 : UInt8) = true ∧ fruAreaMaximumBlockSz < s.maxWriteSize) :=
        fun h => absurd h.1 (by decide)
      have hnext : doffset + writeLength.toUInt16 < finish := UInt16.lt_iff_toNat_lt.2 (by omega)
      simp only [hok]
      rw [if_neg hnot, if_neg (by decide), if_neg (by decide), if_pos hnext]
      exact ih blocs _ _ _ hends (by omega) (by omega)
    · have hmax : fruAreaMaximumBlockSz < s.maxWriteSize :=
        UInt8.lt_iff_toNat_lt.2 (show 32 < s.maxWriteSize.toNat by omega)
      simp only
      rw [if_pos ⟨hbig, hmax⟩]
      refine Throws.modify_bind ?_
      rw [if_pos hlt']
      exact ih blocs doffset soffset _ hends hlt heven

theorem and_one_of_even {n : UInt16} (h : n.toNat % 2 = 0) : n &&& 1 = 0 := by
  apply UInt16.toNat_inj.1
  rw [UInt16.toNat_and]
  simpa [Nat.and_one_is_mod] using h

end stuck

/-- Where the access is by words and a block ends at an odd offset of the range, a write never returns, although the
device completes all of it. -/
theorem writeFruArea_stuck {host : Host δ} {fru : FruInfo} {id : UInt8} (haccess : fru.access = true)
    (hanswers : ∀ d offset data, ∃ rsp, (host.exchange d (setRequest fru id offset data)).1 = some rsp ∧
      (rsp.ccode = 0 ∨ 32 < data.length ∧ fruCcRq2big rsp.ccode = true))
    (hwrite : 4 ≤ host.maxRequestDataSize) {doffset length : UInt16} (hdoffset : doffset.toNat % 2 = 0)
    (hlength : length.toNat % 2 = 0) (hsize : doffset.toNat + length.toNat ≤ fru.size.toNat) {e : Nat}
    (hodd : e % 2 = 1) (hlow : doffset.toNat < e) (hhigh : e < doffset.toNat + length.toNat)
    {stack : Nat → UInt8} {s : State δ}
    (hblocs : Returns (buildFruBloc host fru id stack) s fun blocs _ => EndsAt e blocs)
    (fuel : Nat) (soffset : UInt16) (pFrubuf : Nat → UInt8) :
    Throws (writeFruArea host fru id fuel stack soffset doffset length pFrubuf) s .waiting := by
  have hlt := fru.size.toNat_lt
  have hadd : (doffset + length).toNat = doffset.toNat + length.toNat := by
    rw [UInt16.toNat_add]
    omega
  have hfinish : ¬ fru.size < doffset + length := UInt16.not_lt.2 (UInt16.le_iff_toNat_le.2 (by omega))
  have heven : ¬ (fru.access = true ∧ (doffset &&& 1 ≠ 0 ∨ length &&& 1 ≠ 0)) := by
    simp [and_one_of_even hdoffset, and_one_of_even hlength]
  unfold writeFruArea
  simp only
  rw [if_neg hfinish, if_neg heven]
  refine Throws.returns_bind hblocs fun blocs t hends => Throws.get_bind ?_
  have hend : e < (doffset + length).toNat := hadd ▸ hhigh
  have hturns (u : State δ) :=
    writeTurns_stuck haccess hanswers hodd hend pFrubuf fuel blocs doffset soffset u hends hlow hdoffset
  by_cases h0 : t.maxWriteSize = 0
  · rw [if_pos h0]
    have hmax : ¬ host.maxRequestDataSize ≤ 3 :=
      fun h => absurd (UInt16.le_trans hwrite h) (by decide)
    unfold writeSize
    simp only
    rw [if_neg hmax]
    exact Throws.modify_bind (hturns _)
  · rw [if_neg h0]
    exact hturns t

/-! ### A device -/

/-- A memory as a FRU by words; what is left of a word is not given. -/
def wordDevice (mem : Nat → UInt8) (req : IpmiRq) : Option Rsp × (Nat → UInt8) :=
  match req.data with
  | _ :: lo :: hi :: rest =>
    let offset := 2 * (lo.toNat + 256 * hi.toNat)
    if req.cmd = getFruData then
      match rest with
      | [count] =>
        (some ⟨0, count.toNat / 2 * 2 + 1, fun i => if i = 0 then count / 2 else mem (offset + (i - 1))⟩, mem)
      | _ => (none, mem)
    else (some ⟨0, 1, mem⟩, store mem offset rest)
  | _ => (none, mem)

def wordHost : Host (Nat → UInt8) := ⟨wordDevice, 60, 60⟩

def wordFru : FruInfo := ⟨300, true⟩

/-- A common header, and a record of 7 bytes. -/
def wordMemory : Nat → UInt8 :=
  store (store (fun _ => 0) 0 [1, 0, 0, 0, 0, 8, 0, 0xF7]) 64 [0xC0, 0x82, 2, 0, 0xBC]

theorem wordDevice_set (d : Nat → UInt8) (offset : UInt16) (data : List UInt8) :
    ∃ rsp, (wordHost.exchange d (setRequest wordFru 0 offset data)).1 = some rsp ∧
      (rsp.ccode = 0 ∨ 32 < data.length ∧ fruCcRq2big rsp.ccode = true) := by
  refine ⟨⟨0, 1, d⟩, ?_, .inl rfl⟩
  simp [wordHost, wordDevice, setRequest, request, setFruData, getFruData]

theorem wordMemory_blocs :
    Returns (buildFruBloc wordHost wordFru 0 blank) ⟨wordMemory, 0, 0⟩ fun blocs _ => EndsAt 71 blocs :=
  ⟨[⟨0, 64⟩, ⟨64, 7⟩, ⟨71, 229⟩], _, rfl, [⟨0, 64⟩], ⟨64, 7⟩, [⟨71, 229⟩], rfl, rfl, by simp [Bloc.stop]⟩

theorem wordWrite_stuck :
    Throws (writeFruArea wordHost wordFru 0 1000 blank 0 0 100 blank) ⟨wordMemory, 0, 0⟩ .waiting :=
  writeFruArea_stuck rfl wordDevice_set (by decide) (by decide) (by decide) (by decide) (show 71 % 2 = 1 by decide)
    (by decide) (by decide) wordMemory_blocs 1000 0 blank

end KTools.Fru
