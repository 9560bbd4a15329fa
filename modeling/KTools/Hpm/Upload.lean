import KTools.Hpm.Commands

/-!
# The upgrade stage

An image is a header, action records, and a signature. `HpmfwupgUpgradeStage` goes through the records and does what
each of them says: two kinds are one command to the board, the third one holds a firmware, which
`HpmFwupgActionUploadFirmware` sends block by block.

A block that the board refuses for its length is sent again with fewer bytes, as long as none has been accepted.
With its answer to a block the board may ask for another section of the firmware, and the blocks go on from there.
The bytes of the image are memory, since no length in it is compared with its size.
-/

namespace KTools.Hpm
open KTools.Lib KTools.Lib.Bytes KTools.Lanplus

/-- `sizeof (struct HpmfwupgActionRecord)`. -/
def actionRecordSize : Nat := 3

/-- `sizeof (struct HpmfwupgFirmwareImage)`. -/
def firmwareImageSize : Nat := 31

/-- `sizeof (struct HpmfwupgImageHeader)`. -/
def imageHeaderSize : Nat := 34

def md5SignatureLength : Nat := 16

/-- `sizeof (struct HpmfwupgUploadFirmwareBlockReq)`. -/
def uploadReqSize : UInt16 := 2

/-- What of `struct HpmfwupgUpgradeCtx` and of the options is used. -/
structure Upgrade where
  cap : TargetCap
  compUpdateMask : UInt8
  compare : Bool

/-! ### The firmware -/

/-- The pointers into the firmware, as distances from its first byte, and the other variables of the loop. -/
structure Progress where
  pData : Nat
  pDataTemp : Nat
  lengthOfBlock : UInt32
  bufLength : UInt16
  bufLengthIsSet : Bool
  totalSent : UInt32
  blockNumber : UInt8
  rc : Rc

def Progress.stop (p : Progress) : Nat := p.pDataTemp + p.lengthOfBlock.toNat

def Progress.count (p : Progress) : Nat :=
  if p.pData + p.bufLength.toNat ≤ p.stop then p.bufLength.toNat else p.stop - p.pData

/-- After a block that was not accepted. -/
def Progress.refused (intf : Intf) (rc : Rc) (p : Progress) : Progress :=
  if rc = .uploadBlockLength ∧ p.bufLengthIsSet = false then
    if intf.lan = true ∧ 8 < p.bufLength then { p with bufLength := p.bufLength - 8 }
    else if p.bufLength ≠ 0 then { p with bufLength := p.bufLength - 1 }
    else { p with rc := .error }
  else if rc = .uploadRetry then p
  else { p with rc := .error }

/-- After a block that was accepted: the section that is asked for, if any, must be part of the firmware. -/
def Progress.accepted (firmwareLength : UInt32) (imageOffset blockLength : UInt32) (p : Progress) : Progress :=
  if firmwareLength < imageOffset + blockLength ∨ imageOffset + blockLength < blockLength then
    { p with bufLengthIsSet := true, rc := .error }
  else
    let sent :=
      { p with
        bufLengthIsSet := true
        totalSent := p.totalSent + UInt32.ofNat p.count
        blockNumber := p.blockNumber + 1 }
    if imageOffset ≠ 0 then
      { sent with lengthOfBlock := blockLength, pDataTemp := imageOffset.toNat, pData := imageOffset.toNat }
    else { sent with pData := p.pData + p.count }

/-- The bytes that are sent next. -/
def Progress.block (firmware : Nat → UInt8) (p : Progress) : List UInt8 := slice firmware p.pData p.count

def Progress.next (intf : Intf) (firmwareLength : UInt32) (p : Progress) (u : Upload) : Progress :=
  if u.rc = .success then p.accepted firmwareLength u.imageOffset u.blockLength else p.refused intf u.rc

/-- The loop, with so many turns left. `rc` is `HPMFWUPG_SUCCESS` when a block is sent. -/
def uploadTurns (host : Host) (intf : Intf) (cap : TargetCap) (firmware : Nat → UInt8) (firmwareLength : UInt32) :
    Nat → Progress → HpmM Progress
  | fuel, p => do
    if p.pData < p.stop ∧ p.rc = .success then
      match fuel with
      | 0 => throw .waiting
      | fuel + 1 =>
        let u ← hpmfwupgUploadFirmwareBlock host intf cap p.blockNumber (p.block firmware)
        uploadTurns host intf cap firmware firmwareLength fuel (p.next intf firmwareLength u)
    else return p

/-- The variables before the loop. -/
def Progress.start (maxRqSize : UInt16) (firmwareLength : UInt32) : Progress where
  pData := 0
  pDataTemp := 0
  lengthOfBlock := firmwareLength
  bufLength := maxRqSize - uploadReqSize
  bufLengthIsSet := false
  totalSent := 0
  blockNumber := 0
  rc := .success

/-- What is done with a firmware for a component that is selected; the flag says whether `*pImagePtr` moves. -/
def uploadFirmware (host : Host) (intf : Intf) (up : Upgrade) (components componentId : UInt8)
    (firmware : Nat → UInt8) (firmwareLength : UInt32) : HpmM (Rc × Bool) := do
  if ← malloc host then
    let rc ← hpmfwupgInitiateUpgradeAction host intf up.cap components
      (if up.compare then upgradeActionCompare else upgradeActionUpgrade)
    if rc = .success then
      let s ← get
      let p ← uploadTurns host intf up.cap firmware firmwareLength (s.answers.length + 1)
        (.start (ipmiIntfGetMaxRequestDataSize intf) firmwareLength)
      if p.rc = .success then
        let rc ← hpmfwupgFinishFirmwareUpload host intf up.cap up.compare componentId p.totalSent
        return (rc, true)
      else return (p.rc, false)
    else return (rc, true)
  else return (.error, false)

/-- The number of the highest bit, of so many bits. -/
def componentIdOf : Nat → UInt8 → UInt8
  | 0, _ => 0
  | bits + 1, byte => if byte >>> 1 ≠ 0 then componentIdOf bits (byte >>> 1) + 1 else 0

/-- Whether the component is one of those to be upgraded. -/
def Upgrade.selects (up : Upgrade) (componentId : UInt8) : Bool := (1 <<< componentId) &&& up.compUpdateMask != 0

/-- The firmware of the record at `pImagePtr`. -/
def firmwareAt (image : Nat → UInt8) (pImagePtr : Nat) : Nat → UInt8 :=
  fun i => image (pImagePtr + actionRecordSize + firmwareImageSize + i)

def firmwareLengthAt (image : Nat → UInt8) (pImagePtr : Nat) : UInt32 := wordAt image (pImagePtr + actionRecordSize + 27)

/-- `HpmFwupgActionUploadFirmware`, and `*pImagePtr` afterwards. -/
def hpmFwupgActionUploadFirmware (host : Host) (intf : Intf) (up : Upgrade) (image : Nat → UInt8)
    (components : UInt8) (pImagePtr : Nat) : HpmM (Rc × Nat) := do
  if ipmiIntfGetMaxRequestDataSize intf ≤ uploadReqSize then return (.error, pImagePtr)
  else
    let next := pImagePtr + actionRecordSize + firmwareImageSize + (firmwareLengthAt image pImagePtr).toNat
    let componentId := componentIdOf 8 components
    if up.selects componentId then
      let (rc, moves) ←
        uploadFirmware host intf up components componentId (firmwareAt image pImagePtr) (firmwareLengthAt image pImagePtr)
      return (rc, if moves then next else pImagePtr)
    else return (.success, next)

/-! ### The records -/

/-- The sum of the bytes. -/
def hpmfwupgCalculateChecksum (bytes : List UInt8) : UInt8 := bytes.foldl (· + ·) 0

def actionBackupComponents : UInt8 := 0
def actionPrepareComponents : UInt8 := 1
def actionUploadFirmware : UInt8 := 2

/-- The checksum of a firmware record may be over its first 3 bytes or over the 34 before the firmware. -/
def hpmfwupgValidateActionRecordChecksum (image : Nat → UInt8) (pActionRecord : Nat) : Bool :=
  hpmfwupgCalculateChecksum (slice image pActionRecord actionRecordSize) == 0 ||
    (image pActionRecord == actionUploadFirmware &&
      hpmfwupgCalculateChecksum (slice image pActionRecord (actionRecordSize + firmwareImageSize)) == 0)

/-- The command for the selected ones of the components. -/
def initiateFor (host : Host) (intf : Intf) (up : Upgrade) (components upgradeAction : UInt8) : HpmM Rc :=
  if up.compare = false ∧ up.compUpdateMask &&& components ≠ 0 then
    hpmfwupgInitiateUpgradeAction host intf up.cap (up.compUpdateMask &&& components) upgradeAction
  else return .success

/-- A valid record: the result, and the next record. -/
def recordAction (host : Host) (intf : Intf) (up : Upgrade) (image : Nat → UInt8) (pImagePtr : Nat) :
    HpmM (Rc × Nat) := do
  let components := image (pImagePtr + 1)
  if image pImagePtr = actionBackupComponents then
    let rc ← initiateFor host intf up components upgradeActionBackup
    return (rc, pImagePtr + actionRecordSize)
  else if image pImagePtr = actionPrepareComponents then
    let rc ← initiateFor host intf up components upgradeActionPrepare
    return (rc, pImagePtr + actionRecordSize)
  else if image pImagePtr = actionUploadFirmware then
    hpmFwupgActionUploadFirmware host intf up image components pImagePtr
  else return (.error, pImagePtr)

/-- The loop, with so many turns left: each record has at least 3 bytes. -/
def stageTurns (host : Host) (intf : Intf) (up : Upgrade) (image : Nat → UInt8) (imageSize : Nat) :
    Nat → Nat → HpmM Rc
  | fuel, pImagePtr => do
    if pImagePtr < imageSize - md5SignatureLength then
      match fuel with
      | 0 => throw .waiting
      | fuel + 1 =>
        if hpmfwupgValidateActionRecordChecksum image pImagePtr then
          let (rc, pImagePtr) ← recordAction host intf up image pImagePtr
          if rc = .success then stageTurns host intf up image imageSize fuel pImagePtr else return rc
        else return .error
    else return .success

/-- `HpmfwupgUpgradeStage`. -/
def hpmfwupgUpgradeStage (host : Host) (intf : Intf) (up : Upgrade) (image : Nat → UInt8) (imageSize : Nat) :
    HpmM Rc :=
  let oemDataLength := (image 32).toNat + 256 * (image 33).toNat
  stageTurns host intf up image imageSize imageSize (imageHeaderSize + oemDataLength + 1)

end KTools.Hpm
