import KTools.Fru.Reads

/-!
# What a device refuses

The offsets at which a device refuses to write, as protected, are noted in a list beside it (`Host.logged`). The
functions do the same with this host as with the host itself (`writeFruArea_logged`).
-/

namespace KTools.Fru
open KTools.Lib KTools.Lib.Bytes KTools.Lanplus
open KTools.Sdr (Rsp request netfnStorage)

variable {δ : Type}

/-- The offset that a write by bytes is for. -/
def sentOffset (req : IpmiRq) : Nat := (req.data.getD 1 0).toNat + 256 * (req.data.getD 2 0).toNat

/-- A write is refused as protected. -/
def refusal (req : IpmiRq) (answer : Option Rsp) : Bool :=
  req.cmd == setFruData && answer.any fun rsp => rsp.ccode == ccFruWriteProtectedOffset

/-- The host, with the offsets at which a write has been refused as protected. -/
def Host.logged (host : Host δ) : Host (δ × List Nat) where
  exchange d req :=
    let (answer, dev) := host.exchange d.1 req
    (answer, dev, if refusal req answer then sentOffset req :: d.2 else d.2)
  maxRequestDataSize := host.maxRequestDataSize
  maxResponseDataSize := host.maxResponseDataSize

/-! ### The list changes nothing -/

/-- The state without the list. -/
def unlogged (s : State (δ × List Nat)) : State δ := ⟨s.dev.1, s.maxReadSize, s.maxWriteSize⟩

section mirror
variable (host : Host δ) (fru : FruInfo) (id : UInt8)

theorem sendrecv_logged (req : IpmiRq) : Mirrors unlogged (sendrecv host.logged req) (sendrecv host req) :=
  fun _ => rfl

theorem readTurns_logged (finish : UInt32) (fuel : Nat) :
    ∀ off left pos frubuf, Mirrors unlogged (readTurns host.logged fru id finish fuel off left pos frubuf)
      (readTurns host fru id finish fuel off left pos frubuf) := by
  induction fuel with
  | zero => exact fun _ _ _ _ => Mirrors.throw _
  | succ fuel ih =>
    intro off left pos frubuf
    refine Mirrors.get_bind fun s => (sendrecv_logged host _).bind fun answer => ?_
    cases answer with
    | none => exact Mirrors.pure _
    | some rsp =>
      apply Mirrors.ite
      · -- refused, and read again in smaller parts
        apply Mirrors.ite
        · refine Mirrors.bind (Mirrors.modify fun _ => rfl) fun _ => ?_
          exact (ih _ _ _ _).ite (Mirrors.pure _)
        · exact Mirrors.pure _
      · -- completed: two ways to end, then the next part
        apply Mirrors.ite (Mirrors.pure _)
        apply Mirrors.ite (Mirrors.pure _)
        exact (ih _ _ _ _).ite (Mirrors.pure _)

theorem readFruArea_logged (offset length : UInt32) (frubuf : Nat → UInt8) :
    Mirrors unlogged (readFruArea host.logged fru id offset length frubuf)
      (readFruArea host fru id offset length frubuf) := by
  have hrange (finish length : UInt32) (frubuf : Nat → UInt8) :
      Mirrors unlogged (readRange host.logged fru id offset finish length frubuf)
        (readRange host fru id offset finish length frubuf) := by
    have hturns := readTurns_logged host fru id finish ((finish - offset).toNat + 256) offset length 0 frubuf
    refine Mirrors.get_bind fun s => Mirrors.ite ?_ hturns
    have hsize : readSize host.logged fru = readSize host fru := rfl
    rw [hsize]
    cases readSize host fru with
    | none => exact Mirrors.pure _
    | some size => exact Mirrors.bind (Mirrors.modify fun _ => rfl) fun _ => hturns
  apply Mirrors.ite (Mirrors.pure _)
  apply Mirrors.ite
  · exact Mirrors.ite (Mirrors.throw _) (hrange _ _ _)
  · exact hrange _ _ _

theorem multiTurns_logged (fuel : Nat) :
    ∀ off recHdr blocs, Mirrors unlogged (multiTurns host.logged fru id fuel off recHdr blocs)
      (multiTurns host fru id fuel off recHdr blocs) := by
  induction fuel with
  | zero => exact fun _ _ _ => Mirrors.throw _
  | succ fuel ih =>
    intro off recHdr blocs
    apply Mirrors.ite (Mirrors.pure _)
    refine (readFruArea_logged host fru id off 5 recHdr).bind fun p => ?_
    apply Mirrors.ite (Mirrors.pure _)
    apply Mirrors.ite (Mirrors.pure _)
    exact (ih _ _ _).ite (Mirrors.pure _)

theorem buildFruBloc_logged (stack : Nat → UInt8) :
    Mirrors unlogged (buildFruBloc host.logged fru id stack) (buildFruBloc host fru id stack) := by
  refine (sendrecv_logged host _).bind fun answer => ?_
  cases answer with
  | none => exact Mirrors.pure _
  | some rsp =>
    -- no list, a wrong checksum, or another version
    apply Mirrors.ite (Mirrors.pure _)
    apply Mirrors.ite (Mirrors.pure _)
    apply Mirrors.ite (Mirrors.pure _)
    refine Mirrors.ite ?_ (Mirrors.pure _)
    exact (multiTurns_logged host fru id _ _ _ _).bind fun p => Mirrors.pure _

theorem writeTurns_logged (finish : UInt16) (pFrubuf : Nat → UInt8) (fuel : Nat) :
    ∀ blocs doffset soffset, Mirrors unlogged (writeTurns host.logged fru id finish pFrubuf fuel blocs doffset soffset)
      (writeTurns host fru id finish pFrubuf fuel blocs doffset soffset) := by
  induction fuel with
  | zero => exact fun _ _ _ => Mirrors.throw _
  | succ fuel ih =>
    intro blocs doffset soffset
    refine Mirrors.get_bind fun s => (sendrecv_logged host _).bind fun answer => ?_
    cases answer with
    | none => exact Mirrors.pure _
    | some rsp =>
      have hnext (blocs : List Bloc) (doffset soffset : UInt16) (rc : Int) (c : Prop) [Decidable c] :
          Mirrors unlogged (if c then writeTurns host.logged fru id finish pFrubuf fuel blocs doffset soffset else pure rc)
            (if c then writeTurns host fru id finish pFrubuf fuel blocs doffset soffset else pure rc) :=
        (ih blocs doffset soffset).ite (Mirrors.pure rc)
      apply Mirrors.ite
      · -- too long, and sent again in smaller parts
        exact Mirrors.bind (Mirrors.modify fun _ => rfl) fun _ => hnext _ _ _ _ _
      · apply Mirrors.ite
        · -- protected: the next block
          exact hnext _ _ _ _ _
        · apply Mirrors.ite (Mirrors.pure _)
          exact hnext _ _ _ _ _

theorem writeFruArea_logged (fuel : Nat) (stack : Nat → UInt8) (soffset doffset length : UInt16)
    (pFrubuf : Nat → UInt8) :
    Mirrors unlogged (writeFruArea host.logged fru id fuel stack soffset doffset length pFrubuf)
      (writeFruArea host fru id fuel stack soffset doffset length pFrubuf) := by
  have hturns := writeTurns_logged host fru id (doffset + length) pFrubuf fuel
  apply Mirrors.ite (Mirrors.pure _)
  apply Mirrors.ite (Mirrors.pure _)
  refine (buildFruBloc_logged host fru id stack).bind fun blocs => ?_
  refine Mirrors.get_bind fun s => Mirrors.ite ?_ (hturns _ _ _)
  have hsize : writeSize host.logged fru = writeSize host fru := rfl
  rw [hsize]
  cases writeSize host fru with
  | none => exact Mirrors.pure _
  | some size => exact Mirrors.bind (Mirrors.modify fun _ => rfl) fun _ => hturns _ _ _

end mirror

/-! ### What is noted -/

/-- What has been refused stays refused, and every refusal of a write is among it. -/
structure Notes (fru : FruInfo) (id : UInt8) (exchange : δ → IpmiRq → Option Rsp × δ) (Refused : δ → Nat → Prop) :
    Prop where
  stays : ∀ d req o, Refused d o → Refused (exchange d req).2 o
  notes : fru.access = false → ∀ d offset data rsp, fru.Addressable offset.toUInt32 →
    (exchange d (setRequest fru id offset data)).1 = some rsp → rsp.ccode = ccFruWriteProtectedOffset →
    Refused (exchange d (setRequest fru id offset data)).2 offset.toNat

/-- Nothing is refused as protected. -/
theorem IsFru.notes {fru : FruInfo} {id : UInt8} {exchange : δ → IpmiRq → Option Rsp × δ}
    {contents : δ → Nat → UInt8} (hdev : IsFru fru id exchange contents fun _ => False) :
    Notes fru id exchange fun _ _ => False where
  stays _ _ _ h := h
  notes _ d offset data rsp haddr hrsp hcode := (hdev.refuses d offset data rsp haddr hrsp hcode).1

section logged
variable {host : Host δ} {fru : FruInfo} {id : UInt8} {contents : δ → Nat → UInt8} {Protects : Nat → Prop}

theorem sentOffset_setRequest (hbytes : fru.access = false) (id : UInt8) (offset : UInt16) (data : List UInt8) :
    sentOffset (setRequest fru id offset data) = offset.toNat := by
  simpa [sentOffset, setRequest, request, FruInfo.place, hbytes] using offset_of_word offset

theorem logged_notes (host : Host δ) (fru : FruInfo) (id : UInt8) :
    Notes fru id host.logged.exchange fun d o => o ∈ d.2 where
  stays d req o h := by
    simp only [Host.logged]
    split
    · exact List.mem_cons_of_mem _ h
    · exact h
  notes hbytes d offset data rsp _ hrsp hcode := by
    simp only [Host.logged] at hrsp
    have hrefusal : refusal (setRequest fru id offset data)
        (host.exchange d.1 (setRequest fru id offset data)).1 = true := by
      rw [hrsp]
      simp [refusal, hcode, setRequest, request]
    simp only [Host.logged, hrefusal, if_true, sentOffset_setRequest hbytes]
    exact List.mem_cons_self

/-- With the list, the device is the same FRU. -/
theorem IsFru.logged (hdev : IsFru fru id host.exchange contents Protects) :
    IsFru fru id host.logged.exchange (fun d => contents d.1) Protects where
  keeps d := hdev.keeps d.1
  gives d := hdev.gives d.1
  givesSome d := hdev.givesSome d.1
  writes d := hdev.writes d.1
  completes d := hdev.completes d.1
  refuses d := hdev.refuses d.1

end logged

end KTools.Fru
