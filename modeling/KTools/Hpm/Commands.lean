import KTools.Lib.Bytes
import KTools.Lib.Triple
import KTools.Lanplus.Hpm2

/-!
# The commands of an HPM.1 upgrade

`HpmfwupgSendCmd` repeats a request while the board does not answer or is busy, and makes an answer up where the
silence has a meaning: a board that restarts, or a network that drops packets that are too large. A command that
takes long is answered with 0x80, and its result is asked for with Get Upgrade Status.

The answers of the board are a list: where it is used up, the run is not over, and stops. `inaccessTimeout` and
`upgradeTimeout` are counted with `time`, whose values are `clock`.
-/

namespace KTools.Hpm
open KTools.Lib KTools.Lib.Bytes KTools.Lanplus

def netfnPicmg : UInt8 := 0x2C
def initiateUpgradeActionCmd : UInt8 := 0x31
def uploadFirmwareBlockCmd : UInt8 := 0x32
def finishFirmwareUploadCmd : UInt8 := 0x33
def getUpgradeStatusCmd : UInt8 := 0x34
def activateFirmwareCmd : UInt8 := 0x35
def querySelftestResultCmd : UInt8 := 0x36
def queryRollbackStatusCmd : UInt8 := 0x37
def manualFirmwareRollbackCmd : UInt8 := 0x38

def picmgIdentifier : UInt8 := 0
def commandInProgress : UInt8 := 0x80
def intChecksumError : UInt8 := 0x82
def reqDataInvLength : UInt8 := 0xC7
def reqDataFieldExceed : UInt8 := 0xC8

/-- `RETRY_COUNT_MAX`. -/
def retryCountMax : Nat := 3

/-- `HPM_LAN_PACKET_RESIZE_LIMIT`. -/
def lanPacketResizeLimit : Nat := 6

/-- What of `struct ipmi_intf` is used; `lan` if its name has "lan" in it. -/
structure Intf where
  lan : Bool
  myAddr : UInt32
  targetAddr : UInt32
  targetChannel : UInt8
  transitAddr : UInt32
  transitChannel : UInt8
  maxRequestDataSize : UInt16

def ipmiIntfGetBridgingLevel (intf : Intf) : UInt8 :=
  if intf.targetAddr ≠ 0 ∧ intf.targetAddr ≠ intf.myAddr then
    if intf.transitAddr ≠ 0 ∧ (intf.transitAddr ≠ intf.targetAddr ∨ intf.transitChannel ≠ intf.targetChannel) then 2
    else 1
  else 0

def ipmiIntfGetMaxRequestDataSize (intf : Intf) : UInt16 :=
  let bridgingLevel := ipmiIntfGetBridgingLevel intf
  let dflt := ipmiDefaultPayloadSize.toInt16
  let size := intf.maxRequestDataSize.toInt16
  let size := if size = 0 then (if bridgingLevel ≠ 0 then dflt + 8 else dflt) else size
  let size :=
    if bridgingLevel ≠ 0 then
      let size := size - 8
      let size := if dflt < size then dflt else size
      if bridgingLevel = 2 then size - 8 else size
    else size
  if size < 0 then 0 else size.toUInt16

/-- A response: the bytes of its buffer, of which the first `dataLen` were received. -/
structure Reply where
  ccode : UInt8
  dataLen : Nat
  data : Nat → UInt8

/-- The timeouts that the board has given, in units of 5 s. -/
structure TargetCap where
  inaccessTimeout : UInt8
  upgradeTimeout : UInt8

/-- What the calls of the library give: the values of `time`, and whether an allocation succeeds. -/
structure Host where
  clock : Nat → UInt32
  mallocs : Nat → Bool

/-- `HPMFWUPG_SUCCESS`, `HPMFWUPG_ERROR`, `HPMFWUPG_UPLOAD_BLOCK_LENGTH` and `HPMFWUPG_UPLOAD_RETRY`. -/
inductive Rc where
  | success
  | error
  | uploadBlockLength
  | uploadRetry
  deriving DecidableEq

/-- A call of `HpmfwupgUploadFirmwareBlock` that has returned. -/
structure Upload where
  number : UInt8
  data : List UInt8
  rc : Rc
  imageOffset : UInt32
  blockLength : UInt32
  deriving DecidableEq

/-- The answers to come, the results of `open`, how often `time` and `malloc` have been called, the requests handed
to `sendrecv`, and the static variables: `isValidSize` and the `errorCount` of `HpmfwupgSendCmd`, and the
`errorCount` of the file. As a note that no step reads, the uploads. -/
structure State where
  answers : List (Option Reply)
  opens : List Bool
  ticks : Nat
  allocs : Nat
  sent : List IpmiRq
  isValidSize : Bool
  resizeErrors : Nat
  errorCount : Nat
  uploads : List Upload

/-- There are no more answers. -/
inductive Stop where
  | waiting

abbrev HpmM := EStateM Stop State

/-! ### `HpmfwupgSendCmd` -/

def time (host : Host) : HpmM UInt32 := do
  let s ← get
  modify fun s => { s with ticks := s.ticks + 1 }
  return host.clock s.ticks

def malloc (host : Host) : HpmM Bool := do
  let s ← get
  modify fun s => { s with allocs := s.allocs + 1 }
  return host.mallocs s.allocs

/-- `fakeRsp`. -/
def Reply.fake (ccode : UInt8) : Reply where
  ccode := ccode
  dataLen := 0
  data := fun _ => 0

/-- `inaccessTimeoutCounter`, `upgradeTimeoutCounter` and `timeoutSec1`. -/
structure Waited where
  inaccess : UInt32
  upgrade : UInt32
  since : UInt32

/-- The session is opened again and again, until it is open or the time is over. -/
def reopenTurns (host : Host) (inaccessTimeout : UInt32) : List Bool → Waited → HpmM Waited
  | [], _ => throw .waiting
  | opened :: opens, w => do
    modify fun s => { s with opens := opens }
    if !opened && decide (w.inaccess < inaccessTimeout) then
      let now ← time host
      let since ← time host
      reopenTurns host inaccessTimeout opens { w with inaccess := w.inaccess + (now - w.since), since := since }
    else return w

/-- `time` where the code counts the seconds that have gone by. -/
def Waited.inaccessible (host : Host) (w : Waited) : HpmM Waited := do
  let now ← time host
  if w.since < now then
    let since ← time host
    return { w with inaccess := w.inaccess + (now - w.since), since := since }
  else return w

/-- As for `inaccessible`, but `timeoutSec1` is set before it is subtracted. -/
def Waited.busy (host : Host) (w : Waited) : HpmM Waited := do
  let now ← time host
  if w.since < now then
    let since ← time host
    return { w with upgrade := w.upgrade + (now - since), since := since }
  else return w

/-- What becomes of no answer. -/
def noAnswer (host : Host) (intf : Intf) (inaccessTimeout : UInt32) (req : IpmiRq) (w : Waited) :
    HpmM (Option Reply × Waited) := do
  let s ← get
  if !intf.lan then return (none, w)
  else if req.netfn = netfnPicmg ∧ req.cmd = uploadFirmwareBlockCmd ∧ s.resizeErrors < lanPacketResizeLimit ∧
      s.isValidSize = false then
    modify fun s => { s with resizeErrors := s.resizeErrors + 1 }
    return (some (.fake reqDataInvLength), w)
  else if req.netfn = netfnPicmg ∧ (req.cmd = activateFirmwareCmd ∨ req.cmd = manualFirmwareRollbackCmd) then
    return (some (.fake commandInProgress), w)
  else if req.netfn = netfnPicmg ∧
      (req.cmd = queryRollbackStatusCmd ∨ req.cmd = getUpgradeStatusCmd ∨ req.cmd = querySelftestResultCmd) ∧
      (intf.targetAddr = 0 ∨ intf.targetAddr = intf.myAddr) then
    let w ← reopenTurns host inaccessTimeout s.opens w
    return (some (.fake 0xC3), w)
  else return (none, w)

/-- The answer, or what is made of none. -/
def noticed (host : Host) (intf : Intf) (inaccessTimeout : UInt32) (req : IpmiRq) (w : Waited) :
    Option Reply → HpmM (Option Reply × Waited)
  | some r => return (some r, w)
  | none => noAnswer host intf inaccessTimeout req w

/-- The completion codes that are taken for an inaccessible board. -/
def inaccessible (rsp : Option Reply) : Bool :=
  match rsp with
  | none => true
  | some r => r.ccode = 0xFF ∨ r.ccode = 0xC3 ∨ r.ccode = 0xD3

/-- After an answer that is not waited on. -/
def State.answered (s : State) (req : IpmiRq) (r : Reply) : State :=
  { s with
    errorCount := if r.ccode = 0 then 0 else s.errorCount
    isValidSize := s.isValidSize || decide (req.netfn = netfnPicmg ∧ req.cmd = uploadFirmwareBlockCmd) }

/-- The loop, a turn for each answer. -/
def sendTurns (host : Host) (intf : Intf) (inaccessTimeout upgradeTimeout : UInt32) (req : IpmiRq) :
    List (Option Reply) → Waited → HpmM (Option Reply)
  | [], _ => do
    modify fun s => { s with sent := s.sent ++ [req] }
    throw .waiting
  | answer :: answers, w => do
    modify fun s => { s with sent := s.sent ++ [req], answers := answers }
    let (rsp, w) ← noticed host intf inaccessTimeout req w answer
    if inaccessible rsp then
      if w.inaccess < inaccessTimeout then
        let w ← w.inaccessible host
        sendTurns host intf inaccessTimeout upgradeTimeout req answers w
      else return rsp
    else match rsp with
      | none => return none
      | some r =>
        if r.ccode = 0xC0 then
          if w.upgrade < upgradeTimeout then
            let w ← w.busy host
            sendTurns host intf inaccessTimeout upgradeTimeout req answers w
          else return some r
        else
          modify fun s => s.answered req r
          return some r

/-- `HpmfwupgSendCmd` in the context of an upgrade. -/
def hpmfwupgSendCmd (host : Host) (intf : Intf) (cap : TargetCap) (req : IpmiRq) : HpmM (Option Reply) := do
  let since ← time host
  let s ← get
  sendTurns host intf (cap.inaccessTimeout.toUInt32 * 5) (cap.upgradeTimeout.toUInt32 * 5) req s.answers
    { inaccess := 0, upgrade := 0, since := since }

/-! ### Long commands -/

/-- `HPMFWUPG_IS_RETRYABLE`. -/
def isRetryable (ccode : UInt8) : HpmM Bool := do
  if ccode = 0x83 ∨ ccode = 0x82 ∨ ccode = 0x80 then
    let s ← get
    modify fun s => { s with errorCount := s.errorCount + 1 }
    return s.errorCount < retryCountMax
  else return false

def hpmRequest (cmd : UInt8) (data : List UInt8) : IpmiRq where
  netfn := netfnPicmg
  lun := 0
  cmd := cmd
  data := data

/-- `HpmfwupgGetUpgradeStatus`, and `lastCmdCompCode` where it succeeds. -/
def hpmfwupgGetUpgradeStatus (host : Host) (intf : Intf) (cap : TargetCap) : HpmM (Option UInt8) := do
  match ← hpmfwupgSendCmd host intf cap (hpmRequest getUpgradeStatusCmd [picmgIdentifier]) with
  | none => return none
  | some rsp =>
    if rsp.ccode = 0 then return some (rsp.data 2)
    else if ← isRetryable rsp.ccode then return some commandInProgress
    else return none

/-- The loop: a status for each turn. Where there is none, the code that is looked at at the end is not set, and
the result is the error in any case. -/
def waitTurns (host : Host) (intf : Intf) (cap : TargetCap) (upgradeTimeout timeoutSec1 : UInt32) :
    Nat → UInt32 → Option UInt8 → HpmM Rc
  | fuel, timeoutSec2, status => do
    match status with
    | none => return .error
    | some code =>
      if (code = 0x80 ∨ code = 0xD5) ∧ timeoutSec2 - timeoutSec1 < upgradeTimeout then
        match fuel with
        | 0 => throw .waiting
        | fuel + 1 =>
          let timeoutSec2 ← time host
          let status ← hpmfwupgGetUpgradeStatus host intf cap
          waitTurns host intf cap upgradeTimeout timeoutSec1 fuel timeoutSec2 status
      else if code ≠ 0 then return .error
      else return .success

/-- `HpmfwupgWaitLongDurationCmd` in the context of an upgrade. -/
def hpmfwupgWaitLongDurationCmd (host : Host) (intf : Intf) (cap : TargetCap) : HpmM Rc := do
  let now ← time host
  let s ← get
  let status ← hpmfwupgGetUpgradeStatus host intf cap
  waitTurns host intf cap (cap.upgradeTimeout.toUInt32 * 5) now s.answers.length now status

/-! ### The commands -/

def upgradeActionBackup : UInt8 := 0
def upgradeActionPrepare : UInt8 := 1
def upgradeActionUpgrade : UInt8 := 2
def upgradeActionCompare : UInt8 := 3

def hpmfwupgInitiateUpgradeAction (host : Host) (intf : Intf) (cap : TargetCap) (componentsMask upgradeAction : UInt8) :
    HpmM Rc := do
  match ← hpmfwupgSendCmd host intf cap
      (hpmRequest initiateUpgradeActionCmd [picmgIdentifier, componentsMask, upgradeAction]) with
  | none => return .error
  | some rsp =>
    if rsp.ccode = commandInProgress then hpmfwupgWaitLongDurationCmd host intf cap
    else if rsp.ccode ≠ 0 then return .error
    else return .success

/-- The little-endian word at `i`. -/
def wordAt (data : Nat → UInt8) (i : Nat) : UInt32 :=
  ((data (i + 3)).toUInt32 <<< 24) + ((data (i + 2)).toUInt32 <<< 16) + ((data (i + 1)).toUInt32 <<< 8) +
    (data i).toUInt32

/-- The completion code, `imageOffset` and `blockLength` that the answer to a block gives: with an answer of a wrong
length, the code is changed. -/
def blockAnswer (rsp : Reply) : UInt8 × UInt32 × UInt32 :=
  if (rsp.ccode = commandInProgress ∨ rsp.ccode = 0) ∧ 1 < rsp.dataLen then
    if rsp.dataLen = 9 then (rsp.ccode, wordAt rsp.data 1, wordAt rsp.data 5)
    else (intChecksumError, 0, 0)
  else (rsp.ccode, 0, 0)

/-- The result for a completion code. -/
def blockResult (host : Host) (intf : Intf) (cap : TargetCap) (ccode : UInt8) : HpmM Rc := do
  if ccode = commandInProgress then hpmfwupgWaitLongDurationCmd host intf cap
  else if ccode ≠ 0 then
    if ← isRetryable ccode then return .uploadRetry
    else if ccode = reqDataInvLength ∨ ccode = reqDataFieldExceed then return .uploadBlockLength
    else return .error
  else return .success

/-- A block, with `*imageOffset` and `*blockLength`, which the caller has set to 0. -/
def uploadBlock (host : Host) (intf : Intf) (cap : TargetCap) (blockNumber : UInt8) (data : List UInt8) :
    HpmM Upload := do
  match ← hpmfwupgSendCmd host intf cap (hpmRequest uploadFirmwareBlockCmd ([picmgIdentifier, blockNumber] ++ data)) with
  | none => return ⟨blockNumber, data, .error, 0, 0⟩
  | some rsp =>
    let rc ← blockResult host intf cap (blockAnswer rsp).1
    return ⟨blockNumber, data, rc, (blockAnswer rsp).2.1, (blockAnswer rsp).2.2⟩

/-- `HpmfwupgUploadFirmwareBlock`. -/
def hpmfwupgUploadFirmwareBlock (host : Host) (intf : Intf) (cap : TargetCap) (blockNumber : UInt8)
    (data : List UInt8) : HpmM Upload := do
  let upload ← uploadBlock host intf cap blockNumber data
  modify fun s => { s with uploads := s.uploads ++ [upload] }
  return upload

def hpmfwupgFinishFirmwareUpload (host : Host) (intf : Intf) (cap : TargetCap) (compare : Bool) (componentId : UInt8)
    (imageLength : UInt32) : HpmM Rc := do
  match ← hpmfwupgSendCmd host intf cap
      (hpmRequest finishFirmwareUploadCmd ([picmgIdentifier, componentId] ++ le32 imageLength)) with
  | none => return .error
  | some rsp =>
    if rsp.ccode = commandInProgress then hpmfwupgWaitLongDurationCmd host intf cap
    else if compare = true ∧ rsp.ccode = 0x83 then return .success
    else if rsp.ccode ≠ 0 then return .error
    else return .success

end KTools.Hpm
