import KTools.Lib.Bytes
import KTools.Lib.Triple
import KTools.Lanplus.Build

/-!
# Reading sensor data records

The records of a repository are a chain: the answer to a request for a part of a record has the id of the next one.
`ipmi_sdr_get_next_header` reads the first 5 bytes of a record, and `ipmi_sdr_get_record` the rest of it, in as many
parts as the interface makes necessary; where the reservation has been lost it gets another one. What has been read
is kept in a list, and the lookups go through the list first and read on from where the last one stopped.

The device is a function of the number of the request and of the request, and a run stops when it has exchanged so
many requests. Allocations succeed, and an empty repository is not filled.
-/

namespace KTools.Sdr
open KTools.Lib KTools.Lib.Bytes KTools.Lanplus

def netfnSe : UInt8 := 0x04
def netfnApp : UInt8 := 0x06
def netfnStorage : UInt8 := 0x0A
def bmcGetDeviceId : UInt8 := 0x01
def getSdrRepoInfo : UInt8 := 0x20
def getDeviceSdrInfo : UInt8 := 0x20
def getDeviceSdr : UInt8 := 0x21
def getSdrReserveRepo : UInt8 := 0x22
def getSdr : UInt8 := 0x23

def ccResCanceled : UInt8 := 0xC5
def ccCantRetNumReqBytes : UInt8 := 0xCA

/-- A response: the bytes of its buffer, of which the first `dataLen` were received. -/
structure Rsp where
  ccode : UInt8
  dataLen : Nat
  data : Nat → UInt8

/-- The device, the number of requests after which a run stops, `ipmi_intf_get_max_response_data_size`, and the memory
behind an allocated block. -/
structure World where
  device : Nat → IpmiRq → Option Rsp
  patience : Nat
  maxResponseDataSize : UInt16
  heap : Nat → UInt8

/-- `struct ipmi_sdr_iterator`, as far as it is used. -/
structure Iterator where
  next : UInt16
  reservation : UInt16
  useBuiltIn : Bool

/-- `struct sdr_record_list`, as far as it is used; the record with the memory behind it. -/
structure Entry where
  id : UInt16
  type : UInt8
  record : Nat → UInt8

/-- The number of requests handed over, and the static variables; `records` is the list from `sdr_list_head` on. -/
structure State where
  exchanges : Nat
  sdrMaxReadLen : Int
  useBuiltIn : Bool
  sdrListItr : Option Iterator
  records : List Entry

/-- The run has not ended when it stops, or goes on to fill an empty repository. -/
inductive Stop where
  | waiting
  | rebuild

abbrev SdrM := EStateM Stop State

def sendrecv (w : World) (req : IpmiRq) : SdrM (Option Rsp) := do
  let s ← get
  if s.exchanges < w.patience then
    modify fun s => { s with exchanges := s.exchanges + 1 }
    return w.device s.exchanges req
  else throw .waiting

def request (netfn cmd : UInt8) (data : List UInt8) : IpmiRq where
  netfn := netfn
  lun := 0
  cmd := cmd
  data := data

/-- The little-endian word at `i`. -/
def wordAt (data : Nat → UInt8) (i : Nat) : UInt16 := (data (i + 1)).toUInt16 <<< 8 ||| (data i).toUInt16

def wordBytes (w : UInt16) : List UInt8 := [w.toUInt8, (w >>> 8).toUInt8]

/-! ### The iterator -/

def ipmiSdrGetReservation (w : World) (useBuiltin : Bool) : SdrM (Option UInt16) := do
  match ← sendrecv w (request (if useBuiltin then netfnSe else netfnStorage) getSdrReserveRepo []) with
  | none => return none
  | some rsp => if rsp.ccode ≠ 0 then return none else return some (wordAt rsp.data 0)

/-- The iterator with a reservation. -/
def reservedIterator (w : World) (useBuiltIn : Bool) : SdrM (Option Iterator) := do
  match ← ipmiSdrGetReservation w useBuiltIn with
  | none => return none
  | some reservation => return some ⟨0, reservation, useBuiltIn⟩

/-- What `ipmi_sdr_start` makes of the device ID: whether the SDRs are those of the device, or an error. -/
def usesDeviceSdrs (wanted before : Bool) (devid : Nat → UInt8) : Option Bool :=
  if wanted = false ∧ devid 1 &&& 0x80 ≠ 0 then
    if devid 5 &&& 2 = 0 then (if devid 5 &&& 1 ≠ 0 then some true else none) else some before
  else some before

def ipmiSdrStart (w : World) (useBuiltin : Bool) : SdrM (Option Iterator) := do
  match ← sendrecv w (request netfnApp bmcGetDeviceId []) with
  | none => return none
  | some devid =>
    if devid.ccode ≠ 0 then return none
    else
      let s ← get
      match usesDeviceSdrs useBuiltin s.useBuiltIn devid.data with
      | none => return none
      | some useBuiltIn =>
        modify fun s => { s with useBuiltIn := useBuiltIn }
        if useBuiltin || useBuiltIn then
          match ← sendrecv w (request netfnSe getDeviceSdrInfo []) with
          | none => return none
          | some rsp => if rsp.dataLen = 0 ∨ rsp.ccode ≠ 0 then return none else reservedIterator w true
        else
          match ← sendrecv w (request netfnStorage getSdrRepoInfo []) with
          | none => return none
          | some rsp =>
            if rsp.ccode ≠ 0 then return none
            else if wordAt rsp.data 1 = 0 then throw .rebuild
            else reservedIterator w false

/-! ### A record -/

/-- The request for a part of a record. -/
def sdrRequest (itr : Iterator) (id : UInt16) (offset length : UInt8) : IpmiRq :=
  request (if itr.useBuiltIn then netfnSe else netfnStorage) (if itr.useBuiltIn then getDeviceSdr else getSdr)
    (wordBytes itr.reservation ++ wordBytes id ++ [offset, length])

/-- `struct sdr_get_rs`. -/
structure Header where
  next : UInt16
  id : UInt16
  type : UInt8
  length : UInt8

/-- The loop of `ipmi_sdr_get_header`, with so many tries left. -/
def headerTries (w : World) : Nat → Iterator → SdrM (Option Rsp × Iterator)
  | 0, itr => return (none, itr)
  | tries + 1, itr => do
    match ← sendrecv w (sdrRequest itr itr.next 0 5) with
    | none => headerTries w tries itr
    | some rsp =>
      if rsp.ccode = ccResCanceled then
        match ← ipmiSdrGetReservation w itr.useBuiltIn with
        | none => return (none, itr)
        | some reservation => headerTries w tries { itr with reservation := reservation }
      else if rsp.ccode ≠ 0 then headerTries w tries itr
      else return (some rsp, itr)

/-- The header, with the id that was asked for if it is not 0. -/
def headerOf (next : UInt16) (rsp : Rsp) : Option Header :=
  if rsp.data 6 = 0 then none
  else some
    { next := wordAt rsp.data 0
      id := if next ≠ 0 then next else wordAt rsp.data 2
      type := rsp.data 5
      length := rsp.data 6 }

def ipmiSdrGetHeader (w : World) (itr : Iterator) : SdrM (Option Header × Iterator) := do
  let (rsp, itr) ← headerTries w 5 itr
  return (rsp.bind (headerOf itr.next), itr)

def ipmiSdrGetNextHeader (w : World) (itr : Iterator) : SdrM (Option Header × Iterator) := do
  if itr.next = 0xFFFF then return (none, itr)
  else
    let (header, itr) ← ipmiSdrGetHeader w itr
    match header with
    | none => return (none, itr)
    | some header => return (some header, { itr with next := header.next })

/-- The length that is asked for, a byte. -/
def readLength (rest : Nat) (sdrMaxReadLen : Int) : UInt8 :=
  let length := if (rest : Int) < sdrMaxReadLen then (rest : Int) else sdrMaxReadLen
  UInt8.ofNat (length % 256).toNat

/-- The loop of `ipmi_sdr_get_record`, with so many turns left. -/
def recordTurns (w : World) (id : UInt16) (len : Nat) :
    Nat → Iterator → Nat → (Nat → UInt8) → SdrM (Option (Nat → UInt8) × Iterator)
  | fuel, itr, i, data => do
    if i < len then
      match fuel with
      | 0 => throw .waiting
      | fuel + 1 =>
        let s ← get
        let length := readLength (len - i) s.sdrMaxReadLen
        match ← sendrecv w (sdrRequest itr id (UInt8.ofNat (i + 5)) length) with
        | none =>
          modify fun s => { s with sdrMaxReadLen := (length.toNat : Int) - 1 }
          if 1 < length then recordTurns w id len fuel itr i data else return (none, itr)
        | some rsp =>
          if rsp.ccode = ccCantRetNumReqBytes then
            modify fun s => { s with sdrMaxReadLen := (length.toNat : Int) - 1 }
            if 1 < length then recordTurns w id len fuel itr i data else return (none, itr)
          else if rsp.ccode = ccResCanceled then
            match ← ipmiSdrGetReservation w itr.useBuiltIn with
            | none => return (none, itr)
            | some reservation => recordTurns w id len fuel { itr with reservation := reservation } i data
          else if rsp.ccode ≠ 0 ∨ rsp.dataLen = 0 then return (none, itr)
          else
            recordTurns w id len fuel itr (i + length.toNat) (store data i (slice rsp.data 2 length.toNat))
    else return (some data, itr)

/-- `sdr_max_read_len` before a record is read. -/
def setReadLen (w : World) : SdrM PUnit :=
  modify fun s =>
    if s.sdrMaxReadLen = 0 then
      let size := (w.maxResponseDataSize.toNat : Int) - 2
      { s with sdrMaxReadLen := if 0xFE < size then 0xFE else size }
    else s

/-- The allocated block: zeros, and what is behind it. -/
def blankRecord (w : World) (len : Nat) : Nat → UInt8 := fun i => if i ≤ len then 0 else w.heap i

def ipmiSdrGetRecord (w : World) (header : Header) (itr : Iterator) : SdrM (Option (Nat → UInt8) × Iterator) := do
  let len := header.length.toNat
  if len < 1 then return (none, itr)
  else
    setReadLen w
    let s ← get
    recordTurns w header.id len (w.patience - s.exchanges + 1) itr 0 (blankRecord w len)

/-! ### The lookups -/

def fullSensor : UInt8 := 0x01
def compactSensor : UInt8 := 0x02
def eventonlySensor : UInt8 := 0x03
def entityAssoc : UInt8 := 0x08
def genericDeviceLocator : UInt8 := 0x10
def fruDeviceLocator : UInt8 := 0x11
def mcDeviceLocator : UInt8 := 0x12

/-- The types of record that are kept. -/
def known (type : UInt8) : Bool :=
  [fullSensor, compactSensor, eventonlySensor, genericDeviceLocator, fruDeviceLocator, mcDeviceLocator,
    entityAssoc].contains type

/-- What a turn of the loops reads: no header, a record that is left out, or one that is kept. -/
inductive Turn where
  | finished
  | left
  | kept (e : Entry)

def readOn (w : World) (itr : Iterator) : SdrM Turn := do
  let (header, itr) ← ipmiSdrGetNextHeader w itr
  match header with
  | none =>
    modify fun s => { s with sdrListItr := some itr }
    return .finished
  | some header =>
    let (record, itr) ← ipmiSdrGetRecord w header itr
    modify fun s => { s with sdrListItr := some itr }
    match record with
    | none => return .left
    | some record =>
      if known header.type then
        let e : Entry := ⟨header.id, header.type, record⟩
        modify fun s => { s with records := s.records ++ [e] }
        return .kept e
      else return .left

/-- The loop of a lookup for one record, with so many turns left. -/
def findOneTurns (w : World) (matching : Entry → Bool) : Nat → SdrM (Option Entry)
  | 0 => throw .waiting
  | fuel + 1 => do
    let s ← get
    match s.sdrListItr with
    | none => return none
    | some itr =>
      match ← readOn w itr with
      | .finished => return none
      | .left => findOneTurns w matching fuel
      | .kept e => if matching e then return some e else findOneTurns w matching fuel

/-- The loop of a lookup for all records, with so many turns left. -/
def findAllTurns (w : World) (matching : Entry → Bool) : Nat → List Entry → SdrM (List Entry)
  | 0, _ => throw .waiting
  | fuel + 1, head => do
    let s ← get
    match s.sdrListItr with
    | none => return head
    | some itr =>
      match ← readOn w itr with
      | .finished => return head
      | .left => findAllTurns w matching fuel head
      | .kept e => findAllTurns w matching fuel (if matching e then head ++ [e] else head)

/-- `sdr_list_itr`, opened if necessary. -/
def opened (w : World) : SdrM Bool := do
  let s ← get
  match s.sdrListItr with
  | some _ => return true
  | none =>
    let itr ← ipmiSdrStart w false
    modify fun s => { s with sdrListItr := itr }
    return itr.isSome

/-- A lookup for the first record. -/
def findOne (w : World) (matching : Entry → Bool) : SdrM (Option Entry) := do
  if ← opened w then
    let s ← get
    match s.records.find? matching with
    | some e => return some e
    | none => findOneTurns w matching (w.patience - s.exchanges + 1)
  else return none

/-- A lookup for all records; `none` is NULL. -/
def findAll (w : World) (matching : Entry → Bool) : SdrM (Option (List Entry)) := do
  if ← opened w then
    let s ← get
    let head ← findAllTurns w matching (w.patience - s.exchanges + 1) (s.records.filter matching)
    return some head
  else return none

/-- Where the sensor type is in a sensor record. -/
def sensorTypeOffset (type : UInt8) : Option Nat :=
  if type = fullSensor ∨ type = compactSensor then some 7
  else if type = eventonlySensor then some 5
  else none

/-- Where the entity is. -/
def entityOffset (type : UInt8) : Option Nat :=
  if type = fullSensor ∨ type = compactSensor ∨ type = eventonlySensor then some 3
  else if type = genericDeviceLocator ∨ type = fruDeviceLocator ∨ type = mcDeviceLocator then some 7
  else if type = entityAssoc then some 0
  else none

def hasSensorType (sensorType : UInt8) (type : UInt8) (record : Nat → UInt8) : Bool :=
  (sensorTypeOffset type).any fun i => record i == sensorType

def hasNumberAndType (genId : UInt16) (num sensorType : UInt8) (type : UInt8) (record : Nat → UInt8) : Bool :=
  (sensorTypeOffset type).any fun i =>
    record 2 == num && record 0 == (genId &&& 0xFF).toUInt8 && record i == sensorType

def hasEntity (id inst : UInt8) (type : UInt8) (record : Nat → UInt8) : Bool :=
  (entityOffset type).any fun i => record i == id && (inst == 0x7F || record (i + 1) &&& 0x7F == inst)

def Entry.has (matching : UInt8 → (Nat → UInt8) → Bool) (e : Entry) : Bool := matching e.type e.record

def ipmiSdrFindSdrBynumtype (w : World) (genId : UInt16) (num type : UInt8) : SdrM (Option Entry) :=
  findOne w (Entry.has (hasNumberAndType genId num type))

def ipmiSdrFindSdrBysensortype (w : World) (type : UInt8) : SdrM (Option (List Entry)) :=
  findAll w (Entry.has (hasSensorType type))

def ipmiSdrFindSdrByentity (w : World) (id inst : UInt8) : SdrM (Option (List Entry)) :=
  findAll w (Entry.has (hasEntity id inst))

def ipmiSdrFindSdrBytype (w : World) (type : UInt8) : SdrM (Option (List Entry)) :=
  findAll w (Entry.has fun t _ => t == type)

end KTools.Sdr
