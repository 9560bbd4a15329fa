import KTools.Sdr.Records

/-!
# Reading and writing a FRU

`read_fru_area` and `write_fru_area` move a range between the FRU device and a buffer in parts, which become shorter
where the device says that they are too long. A write goes block by block, as `build_fru_bloc` finds the blocks in the
device, and jumps over a block that is protected.

The device is a state and what a request makes of it. A loop with an argument for the number of its turns stops when
that is used up. A buffer is the memory from its start on; the program ends where it fills 4 GiB less 64 KiB or more.
-/

namespace KTools.Fru
open KTools.Lib KTools.Lib.Bytes KTools.Lanplus
open KTools.Sdr (Rsp request netfnStorage)

def getFruData : UInt8 := 0x11
def setFruData : UInt8 := 0x12

def ccReqDataInvLength : UInt8 := 0xC7
def ccReqDataFieldExceed : UInt8 := 0xC8
def ccCantRetNumReqBytes : UInt8 := 0xCA
def ccFruWriteProtectedOffset : UInt8 := 0x80

/-- `fru_cc_rq2big`. -/
def fruCcRq2big (code : UInt8) : Bool :=
  code == ccReqDataInvLength || code == ccReqDataFieldExceed || code == ccCantRetNumReqBytes

/-- `FRU_BLOCK_SZ` and `FRU_AREA_MAXIMUM_BLOCK_SZ`. -/
def fruBlockSz : UInt8 := 8
def fruAreaMaximumBlockSz : UInt8 := 32

/-- The part of `struct fru_info` that does not change; `access` is by words. -/
structure FruInfo where
  size : UInt16
  access : Bool

/-- What a request makes of the device, and the data sizes that the interface allows. -/
structure Host (δ : Type) where
  exchange : δ → IpmiRq → Option Rsp × δ
  maxRequestDataSize : UInt16
  maxResponseDataSize : UInt16

/-- The device, and `max_read_size` and `max_write_size` of the `struct fru_info`. -/
structure State (δ : Type) where
  dev : δ
  maxReadSize : UInt8
  maxWriteSize : UInt8

/-- A loop has used up its turns, or a memory that does not belong to the program is written. -/
inductive Stop where
  | waiting
  | fault

abbrev FruM (δ : Type) := EStateM Stop (State δ)

section transfer
variable {δ : Type} (host : Host δ) (fru : FruInfo) (id : UInt8)

def sendrecv (req : IpmiRq) : FruM δ (Option Rsp) := do
  let s ← get
  modify fun s => { s with dev := (host.exchange s.dev req).2 }
  return (host.exchange s.dev req).1

/-- An even size where the access is by words. -/
def FruInfo.align (size : UInt8) : UInt8 := if fru.access then size &&& 0xFE else size

/-- An offset as it is sent. -/
def FruInfo.place (offset : UInt32) : UInt32 := if fru.access then offset >>> 1 else offset

def getRequest (offset : UInt32) (count : UInt8) : IpmiRq :=
  let tmp := fru.place offset
  request netfnStorage getFruData [id, (tmp &&& 0xFF).toUInt8, (tmp >>> 8).toUInt8, count]

def setRequest (offset : UInt16) (data : List UInt8) : IpmiRq :=
  let tmp := fru.place offset.toUInt32
  request netfnStorage setFruData ([id, tmp.toUInt8, (tmp >>> 8).toUInt8] ++ data)

/-! ### `read_fru_area` -/

/-- The bytes that an answer says it has. -/
def FruInfo.given (data : Nat → UInt8) : UInt32 :=
  if fru.access then (data 0).toUInt32 <<< 1 else (data 0).toUInt32

/-- Where the loop of `read_fru_area` ends. -/
def readRc (off finish : UInt32) : Int := if off < finish then -1 else 0

/-- The loop of `read_fru_area`; `pos` is how far `frubuf` has moved. -/
def readTurns (finish : UInt32) :
    Nat → UInt32 → UInt32 → Nat → (Nat → UInt8) → FruM δ (Int × (Nat → UInt8))
  | 0, _, _, _, _ => throw .waiting
  | fuel + 1, off, sizeLeftInBuffer, pos, frubuf => do
    let s ← get
    let tmp := finish - off
    let count := if s.maxReadSize.toUInt32 < tmp then s.maxReadSize else tmp.toUInt8
    match ← sendrecv host (getRequest fru id off count) with
    | none => return (readRc off finish, frubuf)
    | some rsp =>
      if rsp.ccode ≠ 0 then
        if fruCcRq2big rsp.ccode ∧ fruBlockSz < s.maxReadSize then
          modify fun s => { s with
            maxReadSize := if fruAreaMaximumBlockSz < s.maxReadSize then s.maxReadSize - fruBlockSz
              else s.maxReadSize - 1 }
          if off < finish then readTurns finish fuel off sizeLeftInBuffer pos frubuf else return (0, frubuf)
        else return (readRc off finish, frubuf)
      else
        let tmp := fru.given rsp.data
        if rsp.dataLen < 1 ∨ rsp.dataLen - 1 < tmp.toNat ∨ sizeLeftInBuffer < tmp then return (-1, frubuf)
        else
          let frubuf := store frubuf pos (slice rsp.data 1 tmp.toNat)
          if tmp = 0 ∧ off + tmp < finish then return (0, frubuf)
          else if off + tmp < finish then
            readTurns finish fuel (off + tmp) (sizeLeftInBuffer - tmp) (pos + tmp.toNat) frubuf
          else return (0, frubuf)

/-- `max_read_size` for an interface. -/
def readSize : Option UInt8 :=
  let maxRsSize := host.maxResponseDataSize - 1
  if maxRsSize ≤ 1 then none
  else some (fru.align (if 255 < maxRsSize - 1 then 255 else (maxRsSize - 1).toUInt8))

/-- The reading, with the range that is inside the FRU. -/
def readRange (offset finish length : UInt32) (frubuf : Nat → UInt8) : FruM δ (Int × (Nat → UInt8)) := do
  let s ← get
  if s.maxReadSize = 0 then
    match readSize host fru with
    | none => return (-1, frubuf)
    | some size =>
      modify fun s => { s with maxReadSize := size }
      readTurns host fru id finish ((finish - offset).toNat + 256) offset length 0 frubuf
  else readTurns host fru id finish ((finish - offset).toNat + 256) offset length 0 frubuf

/-- The memory with zeros at `n` places. -/
def zeroed (m : Nat → UInt8) (start n : Nat) : Nat → UInt8 := fun i => if start ≤ i ∧ i < start + n then 0 else m i

def readFruArea (offset length : UInt32) (frubuf : Nat → UInt8) : FruM δ (Int × (Nat → UInt8)) :=
  let size := fru.size.toUInt32
  if size < offset then return (-1, frubuf)
  else
    let finish := offset + length
    if size < finish then
      if length < size then throw .fault
      else
        readRange host fru id offset size (size - offset) (zeroed frubuf size.toNat (length - size).toNat)
    else readRange host fru id offset finish length frubuf

/-! ### The blocks -/

/-- `t_ipmi_fru_bloc`, less its text. -/
structure Bloc where
  start : UInt16
  size : UInt16

/-- A block at the end of the list, which ends the one before it. -/
def addBloc (size start : UInt16) : List Bloc → List Bloc
  | [] => [⟨start, size - start⟩]
  | [b] => [⟨b.start, start - b.start⟩, ⟨start, size - start⟩]
  | b :: blocs => b :: addBloc size start blocs

/-- The loop over the multi-record area; `rec_hdr` is a buffer. The list, and where the area ends. -/
def multiTurns : Nat → UInt32 → (Nat → UInt8) → List Bloc → FruM δ (UInt32 × List Bloc)
  | 0, _, _, _ => throw .waiting
  | fuel + 1, off, recHdr, blocs => do
    if fru.access ∧ off &&& 1 ≠ 0 then return (off + 1, blocs)
    else
      let (rc, recHdr) ← readFruArea host fru id off 5 recHdr
      if rc < 0 then return (off, blocs)
      else
        let blocs := addBloc fru.size off.toUInt16 blocs
        let off := off + ((recHdr 2).toUInt32 + 5)
        if ipmiCsum (slice recHdr 0 5) ≠ 0 then return (off, blocs)
        else if recHdr 1 &&& 0x80 = 0 ∧ off < fru.size.toUInt32 then multiTurns fuel off recHdr blocs
        else return (off, blocs)

/-- The blocks of the internal, chassis, board and product areas. -/
def areaBlocs (offsets : List UInt8) : List Bloc :=
  (offsets.take 4).foldl
    (fun blocs offset => if offset ≠ 0 then addBloc fru.size (offset.toUInt16 * 8) blocs else blocs)
    [⟨0, fru.size⟩]

/-- `build_fru_bloc`; `stack` is what is in `rec_hdr` before it is read. -/
def buildFruBloc (stack : Nat → UInt8) : FruM δ (List Bloc) := do
  match ← sendrecv host (request netfnStorage getFruData [id, 0, 0, 8]) with
  | none => return []
  | some rsp =>
    if rsp.ccode ≠ 0 then return []
    else
      let header := slice rsp.data 1 8
      if ipmiCsum header ≠ 0 then return []
      else if header.getD 0 0 ≠ 1 then return []
      else
        let offsets := (header.drop 1).take 5
        let blocs := areaBlocs fru offsets
        if offsets.getD 4 0 ≠ 0 then
          let (off, blocs) ← multiTurns host fru id (fru.size.toNat + 2) ((offsets.getD 4 0).toUInt32 * 8) stack blocs
          return (if off < fru.size.toUInt32 then addBloc fru.size off.toUInt16 blocs else blocs)
        else return blocs

/-! ### `write_fru_area` -/

/-- The end of the block that `doffset` is in, or of the range. -/
def endBloc (blocs : List Bloc) (finish : UInt16) : UInt16 :=
  match blocs with
  | [] => finish
  | b :: _ => if b.start.toNat + b.size.toNat < finish.toNat then b.start + b.size else finish

def writeRc (doffset finish : UInt16) : Int := if finish ≤ doffset then 1 else 0

/-- The loop of `write_fru_area`. -/
def writeTurns (finish : UInt16) (pFrubuf : Nat → UInt8) :
    Nat → List Bloc → UInt16 → UInt16 → FruM δ Int
  | 0, _, _, _ => throw .waiting
  | fuel + 1, blocs, doffset, soffset => do
    let s ← get
    let blocs := blocs.dropWhile fun b => b.start.toNat + b.size.toNat ≤ doffset.toNat
    let endOfBloc := endBloc blocs finish
    let tmp := endOfBloc - doffset
    let writeLength := fru.align (if s.maxWriteSize.toUInt16 < tmp then s.maxWriteSize else tmp.toUInt8)
    match ← sendrecv host (setRequest fru id doffset (slice pFrubuf soffset.toNat writeLength.toNat)) with
    | none => return writeRc doffset finish
    | some rsp =>
      if fruCcRq2big rsp.ccode ∧ fruAreaMaximumBlockSz < s.maxWriteSize then
        modify fun s => { s with maxWriteSize := s.maxWriteSize - fruBlockSz }
        if doffset < finish then writeTurns finish pFrubuf fuel blocs doffset soffset
        else return writeRc doffset finish
      else if rsp.ccode = ccFruWriteProtectedOffset then
        if endOfBloc < finish then writeTurns finish pFrubuf fuel blocs endOfBloc (soffset + (endOfBloc - doffset))
        else return writeRc endOfBloc finish
      else if rsp.ccode ≠ 0 then return writeRc doffset finish
      else if doffset + writeLength.toUInt16 < finish then
        writeTurns finish pFrubuf fuel blocs (doffset + writeLength.toUInt16) (soffset + writeLength.toUInt16)
      else return writeRc (doffset + writeLength.toUInt16) finish

/-- `max_write_size` for an interface. -/
def writeSize : Option UInt8 :=
  let maxRqSize := host.maxRequestDataSize
  if maxRqSize ≤ 3 then none
  else some (fru.align (if 255 < maxRqSize - 3 then 255 else (maxRqSize - 3).toUInt8))

/-- `write_fru_area`, with so many turns. -/
def writeFruArea (fuel : Nat) (stack : Nat → UInt8) (soffset doffset length : UInt16) (pFrubuf : Nat → UInt8) :
    FruM δ Int := do
  let finish := doffset + length
  if fru.size < finish then return -1
  else if fru.access ∧ (doffset &&& 1 ≠ 0 ∨ length &&& 1 ≠ 0) then return -1
  else
    let blocs ← buildFruBloc host fru id stack
    let s ← get
    if s.maxWriteSize = 0 then
      match writeSize host fru with
      | none => return -1
      | some size =>
        modify fun s => { s with maxWriteSize := size }
        writeTurns host fru id finish pFrubuf fuel blocs doffset soffset
    else writeTurns host fru id finish pFrubuf fuel blocs doffset soffset

end transfer

end KTools.Fru
