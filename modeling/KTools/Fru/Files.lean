import KTools.Fru.Writes

/-!
# A FRU and files

`ipmi_fru_read_to_bin` reads a whole FRU into a file, and `ipmi_fru_write_from_bin` writes a file to the start of a
FRU. Neither looks at what comes of the reading or writing. So the file that is read has as many bytes as the FRU
wherever the FRU tells its size, and from where the reading failed on they are what was in the memory before.
-/

namespace KTools.Fru
open KTools.Lib KTools.Lib.Bytes KTools.Lanplus
open KTools.Sdr (Rsp request netfnStorage)

variable {δ : Type}

/-! ### The commands -/

def getFruInfo : UInt8 := 0x10

def infoRequest (id : UInt8) : IpmiRq := request netfnStorage getFruInfo [id]

/-- What an answer says of the FRU. -/
def fruInfo (data : Nat → UInt8) : FruInfo where
  size := (data 1).toUInt16 <<< 8 ||| (data 0).toUInt16
  access := data 2 &&& 1 = 1

section commands
variable (host : Host δ) (id : UInt8)

/-- `memset(&fru, 0, sizeof(fru))`. -/
def cleared (s : State δ) : State δ := { s with maxReadSize := 0, maxWriteSize := 0 }

/-- `ipmi_fru_read_to_bin`, with the memory that `malloc` gives. The file that is written. -/
def ipmiFruReadToBin (malloc : Option (Nat → UInt8)) : FruM δ (Option (List UInt8)) := do
  match ← sendrecv host (infoRequest id) with
  | none => return none
  | some rsp =>
    if rsp.ccode ≠ 0 then return none
    else
      let fru := fruInfo rsp.data
      modify cleared
      match malloc with
      | none => return none
      | some pFruBuf =>
        let (_, pFruBuf) ← readFruArea host fru id 0 fru.size.toUInt32 pFruBuf
        return some (slice pFruBuf 0 fru.size.toNat)

/-- `ipmi_fru_write_from_bin`; there is no file where it is not opened. -/
def ipmiFruWriteFromBin (fuel : Nat) (malloc : Option (Nat → UInt8)) (stack : Nat → UInt8)
    (file : Option (List UInt8)) : FruM δ Unit := do
  match ← sendrecv host (infoRequest id) with
  | none => return ()
  | some rsp =>
    if rsp.ccode ≠ 0 then return ()
    else
      let fru := fruInfo rsp.data
      modify cleared
      match malloc with
      | none => return ()
      | some pFruBuf =>
        let part := (file.getD []).take fru.size.toNat
        let len := UInt16.ofNat part.length
        if len ≠ 0 then
          let _ ← writeFruArea host fru id fuel stack 0 0 len (store pFruBuf 0 part)
          return ()
        else return ()

end commands

/-- A buffer that has been filled up to `n`. -/
theorem slice_store_take (heap c : Nat → UInt8) {n size : Nat} (h : n ≤ size) :
    slice (store heap 0 (slice c 0 n)) 0 size = slice c 0 n ++ slice heap n (size - n) := by
  obtain ⟨k, rfl⟩ := Nat.exists_eq_add_of_le h
  have hfirst : slice (store heap 0 (slice c 0 n)) 0 n = slice c 0 n := by
    simpa using slice_store heap 0 (slice c 0 n)
  have hrest : slice (store heap 0 (slice c 0 n)) (0 + n) k = slice heap n k := by
    rw [Nat.zero_add]
    exact slice_congr fun i hi _ => store_of_le heap 0 _ (by simpa using hi)
  rw [slice_add, hfirst, hrest, Nat.add_sub_cancel_left]

/-- The file for an answer to `Get FRU Inventory Area Info`: where the FRU is told it has as many bytes as the FRU,
first bytes of the FRU, and from where the reading failed what was in the memory before. -/
structure FileOf (fru : FruInfo) (c heap : Nat → UInt8) (info : Option Rsp) (file : Option (List UInt8)) : Prop where
  told : (∃ rsp, info = some rsp ∧ rsp.ccode = 0) → ∃ n ≤ fru.size.toNat,
    file = some (slice c 0 n ++ slice heap n (fru.size.toNat - n))
  untold : (∀ rsp, info = some rsp → rsp.ccode ≠ 0) → file = none

/-- A file is written just where the FRU tells its size, whatever is refused after that. -/
theorem ipmiFruReadToBin_file {host : Host δ} {fru : FruInfo} {id : UInt8} {contents : δ → Nat → UInt8}
    {Protects : Nat → Prop} (hdev : IsFru fru id host.exchange contents Protects)
    (hinfo : ∀ d, contents (host.exchange d (infoRequest id)).2 = contents d ∧
      ∀ rsp, (host.exchange d (infoRequest id)).1 = some rsp → rsp.ccode = 0 → fruInfo rsp.data = fru)
    (hread : 4 ≤ host.maxResponseDataSize) (heap : Nat → UInt8) (s : State δ) :
    Returns (ipmiFruReadToBin host id (some heap)) s fun file t => contents t.dev = contents s.dev ∧
      FileOf fru (contents s.dev) heap (host.exchange s.dev (infoRequest id)).1 file := by
  refine (sendrecv_returns _ s).bind fun answer t ht => ?_
  obtain ⟨rfl, rfl⟩ := ht
  obtain ⟨hkeeps, hfru⟩ := hinfo s.dev
  cases hanswer : (host.exchange s.dev (infoRequest id)).1 with
  | none => exact Returns.pure ⟨hkeeps, ⟨fun ⟨rsp, h, _⟩ => absurd h (by simp), fun _ => rfl⟩⟩
  | some rsp =>
    refine Returns.ite (fun hbad => ?_) fun hok => ?_
    · refine Returns.pure ⟨hkeeps, ⟨fun ⟨rsp', h, h0⟩ => ?_, fun _ => rfl⟩⟩
      obtain rfl := Option.some.inj h
      exact absurd h0 hbad
    · have hok := not_not.1 hok
      simp only [hfru rsp hanswer hok]
      refine Returns.modify_bind ?_
      have hrange : (0 : UInt32).toNat + fru.size.toUInt32.toNat ≤ fru.size.toNat := by simp
      rw [readFruArea_inside hrange]
      refine (readRange_returns hdev (.inr hread) hrange fun _ => rfl).bind fun p u hu => ?_
      obtain ⟨hu, n, hn, hbuf, -⟩ := hu
      have hn : n ≤ fru.size.toNat := by simpa using hn
      have hcontents : contents (cleared { s with dev := (host.exchange s.dev (infoRequest id)).2 }).dev =
          contents s.dev := hkeeps
      rw [hcontents] at hbuf
      refine Returns.pure ⟨hu.trans hkeeps, ⟨fun _ => ⟨n, hn, ?_⟩, fun h => absurd hok (h rsp rfl)⟩⟩
      rw [hbuf]
      exact congrArg some (slice_store_take heap (contents s.dev) hn)

/-! ### A device -/

/-- A memory of 300 bytes that tells its size. -/
def cardDevice (limit : Nat) (mem : Nat → UInt8) (req : IpmiRq) : Option Rsp × (Nat → UInt8) :=
  if req.cmd = getFruInfo then (some ⟨0, 3, fun i => if i = 0 then 44 else if i = 1 then 1 else 0⟩, mem)
  else memoryDevice limit [] mem req

section card
variable (id : UInt8) (limit : Nat) (mem : Nat → UInt8)

theorem cardDevice_get (offset : UInt32) (count : UInt8) :
    cardDevice limit mem (getRequest smallFru id offset count) =
      memoryDevice limit [] mem (getRequest smallFru id offset count) :=
  if_neg (show getFruData ≠ getFruInfo by decide)

theorem cardDevice_set (offset : UInt16) (data : List UInt8) :
    cardDevice limit mem (setRequest smallFru id offset data) =
      memoryDevice limit [] mem (setRequest smallFru id offset data) :=
  if_neg (show setFruData ≠ getFruInfo by decide)

/-- What the device says of itself. -/
theorem cardDevice_info (rsp : Rsp) (h : (cardDevice limit mem (infoRequest id)).1 = some rsp) (_ : rsp.ccode = 0) :
    fruInfo rsp.data = smallFru := by
  obtain rfl := Option.some.inj h
  rfl

end card

theorem cardDevice_isFru (id : UInt8) (limit : Nat) :
    IsFru smallFru id (cardDevice limit) memory fun _ => False where
  keeps d offset count := by
    rw [cardDevice_get]
    exact (memoryDevice_isFru 300 id limit []).keeps d offset count
  gives d offset count rsp haddr := by
    rw [cardDevice_get]
    exact (memoryDevice_isFru 300 id limit []).gives d offset count rsp haddr
  givesSome d offset count rsp := by
    rw [cardDevice_get]
    exact (memoryDevice_isFru 300 id limit []).givesSome d offset count rsp
  writes d offset data haddr := by
    rw [cardDevice_set]
    exact (memoryDevice_isFru 300 id limit []).writes d offset data haddr
  completes d offset data rsp haddr := by
    rw [cardDevice_set]
    exact (memoryDevice_isFru 300 id limit []).completes d offset data rsp haddr
  refuses d offset data rsp haddr := by
    rw [cardDevice_set]
    intro hrsp hprotected
    exact absurd ((memoryDevice_isFru 300 id limit []).refuses d offset data rsp haddr hrsp hprotected).1
      List.not_mem_nil

/-- A FRU that refuses all lengths that are tried. -/
def fussyHost : Host (Nat → UInt8) := ⟨cardDevice 4, 60, 60⟩

def FussyFile (file : Option (List UInt8)) (s : State (Nat → UInt8)) : Prop :=
  memory s.dev = memory smallMemory ∧
    FileOf smallFru (memory smallMemory) blank (fussyHost.exchange smallMemory (infoRequest 0)).1 file

theorem fussyRead_file : Returns (ipmiFruReadToBin fussyHost 0 (some blank)) ⟨smallMemory, 0, 0⟩ FussyFile :=
  ipmiFruReadToBin_file (cardDevice_isFru 0 4) (fun d => ⟨rfl, cardDevice_info 0 4 d⟩) (by decide) blank
    ⟨smallMemory, 0, 0⟩

end KTools.Fru
