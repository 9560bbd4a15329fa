import KTools.Ktime.RoundTrip
import KTools.Lib.Keeps

/-!
# Loading the module

`ktime_snoop_init_module` reads the file, parses it and registers two probes for each record, or one
probe for a record that measures the whole function. `register_record_kprobes` stops at the first
number it cannot parse and at the first probe the kernel refuses; the init function ignores that and
prints all records. The answers of the kernel (the allocations, the file, the number parsers and
`register_kprobe`) are the environment of a load (`LoadEnv`).
-/

namespace KTools.Ktime
open KTools.Lib

/-! ### `struct kprobe_record` -/

structure Kprobe where
  /-- The symbol is the function name of a record, by the index of the record. -/
  symbolName : Option Nat := none
  offset : Int := 0
  /-- Whether `pre_handler` is `handler_pre`, and `post_handler` is `handler_post`; NULL otherwise. -/
  preHandler : Bool := false
  postHandler : Bool := false
  deriving DecidableEq

structure KprobeRecord where
  lineRec : Option Nat := none
  headKp : Kprobe := {}
  headOk : Bool := false
  tailKp : Kprobe := {}
  tailOk : Bool := false
  startTime : UInt64 := 0
  endTime : UInt64 := 0
  startOffset : Int := 0
  endOffset : Int := 0
  time : UInt64 := 0
  procComm : Option (List UInt8) := none
  a1 : UInt64 := 0
  a2 : UInt64 := 0
  a3 : UInt64 := 0
  a4 : UInt64 := 0

inductive Side where
  | head
  | tail
  deriving DecidableEq

/-- What the kernel answers while the module is loaded; the last five by record index. -/
structure LoadEnv where
  /-- `kmalloc` of `buf`, `all_records` and `kp_records`. -/
  kmalloc : Bool × Bool × Bool
  /-- `filp_open` returns a file. -/
  filpOpen : Bool
  /-- `kernel_read` returns a negative value. -/
  readFails : Bool
  /-- The result of `kstrtoint` on the two offsets and of `kstrtoul` on the threshold. -/
  startOffset : Nat → Option Int
  endOffset : Nat → Option Int
  time : Nat → Option UInt64
  /-- The value of `register_kprobe`. -/
  registerTail : Nat → Int
  registerHead : Nat → Int

/-- The static variables of the module while the probes are registered, with the indices used with
`kp_records` and the probes the kernel accepted. -/
structure LoadState where
  kpRecords : Nat → KprobeRecord
  kpAccesses : List Nat
  registered : List (Nat × Side)

/-- A program of the module; it stops at a `return` of a negative value. -/
abbrev Load := EStateM Int LoadState

/-! ### `register_record_kprobes` -/

/-- An assignment to members of `kp_records[i]`. -/
def updateRecord (i : Nat) (f : KprobeRecord → KprobeRecord) : Load PUnit :=
  modify fun s =>
    { s with
      kpRecords := fun j => if j = i then f (s.kpRecords j) else s.kpRecords j
      kpAccesses := s.kpAccesses ++ [i] }

def KprobeRecord.setOk (r : KprobeRecord) : Side → KprobeRecord
  | .head => { r with headOk := true }
  | .tail => { r with tailOk := true }

/-- `ret = register_kprobe(..)` for a probe of `kp_records[i]`, then the `return` of a negative `ret` or
the assignment to `head_ok` or `tail_ok`. -/
def registerKprobe (i : Nat) (side : Side) (ret : Int) : Load PUnit := do
  modify fun s =>
    { s with
      kpAccesses := s.kpAccesses ++ [i]
      registered := if ret < 0 then s.registered else s.registered ++ [(i, side)] }
  if ret < 0 then throw ret
  else updateRecord i fun r => r.setOk side

/-- `"NULL"` as a byte string. -/
def nullWord : List UInt8 := [78, 85, 76, 76]

/-- The probe at the start of a record, without and with a tail probe. -/
def wholeProbe (i : Nat) (kp : Kprobe) : Kprobe :=
  { kp with symbolName := some i, preHandler := true, postHandler := true }

def headProbe (i : Nat) (offset : Int) (kp : Kprobe) : Kprobe :=
  { kp with symbolName := some i, offset := offset, preHandler := true, postHandler := false }

def tailProbe (i : Nat) (offset : Int) (kp : Kprobe) : Kprobe :=
  { kp with symbolName := some i, offset := offset, preHandler := false, postHandler := true }

/-- The body of the loop. -/
def registerRecord (env : LoadEnv) (allRecords : Mem) (i : Nat) : Load PUnit := do
  updateRecord i fun r => { r with lineRec := some i }
  let some startOffset := env.startOffset i | throw (-1)
  updateRecord i fun r => { r with startOffset := startOffset }
  let some endOffset := env.endOffset i | throw (-1)
  updateRecord i fun r => { r with endOffset := endOffset }
  let procComm := fieldString allRecords i 3
  updateRecord i fun r => { r with procComm := if procComm = nullWord then none else some procComm }
  let some time := env.time i | throw (-1)
  updateRecord i fun r => { r with time := time }
  if startOffset = endOffset ∧ startOffset = -1 then
    updateRecord i fun r => { r with headKp := wholeProbe i r.headKp }
  else do
    updateRecord i fun r =>
      { r with headKp := headProbe i startOffset r.headKp, tailKp := tailProbe i endOffset r.tailKp }
    registerKprobe i .tail (env.registerTail i)
  registerKprobe i .head (env.registerHead i)

def registerRecordKprobes (env : LoadEnv) (allRecords : Mem) (totRecords : Nat) : Load PUnit :=
  countedLoop (registerRecord env allRecords) 0 totRecords

/-- `display_all_kprobes` only reads `kp_records[i]`. -/
def displayAllKprobes (totRecords : Nat) : Load PUnit :=
  countedLoop (fun i => modify fun s => { s with kpAccesses := s.kpAccesses ++ [i] }) 0 totRecords

/-! ### `ktime_snoop_init_module` -/

def LoadState.zero : LoadState := ⟨fun _ => {}, [], []⟩

/-- `-ENOMEM`, `-ENOENT` and `-EIO`. -/
def enomem : Int := -12
def enoent : Int := -2
def eio : Int := -5

/-- A load: the returned value, the parser's final state and the probes. -/
structure LoadResult where
  ret : Int
  parse : ParseState
  probes : LoadState

/-- The parser state before `process_record`. -/
def ParseState.zero : ParseState := ⟨0, 0, 0, 0, fun _ => 0, []⟩

def ktimeSnoopInitModule (env : LoadEnv) (content : List UInt8) : LoadResult :=
  if !env.kmalloc.1 || !env.kmalloc.2.1 || !env.kmalloc.2.2 then ⟨enomem, .zero, .zero⟩
  else if !env.filpOpen then ⟨enoent, .zero, .zero⟩
  else if env.readFails then ⟨eio, .zero, .zero⟩
  else
    let parse := processRecord (bufOf content) content.length
    -- the value of `register_record_kprobes` is not looked at
    let probes := finalState (registerRecordKprobes env parse.allRecords parse.recordCurr) .zero
    ⟨0, parse, finalState (displayAllKprobes parse.recordCurr) probes⟩

/-- The file is opened and read, so that it is parsed. -/
def LoadEnv.Reads (env : LoadEnv) : Prop :=
  env.kmalloc = (true, true, true) ∧ env.filpOpen = true ∧ env.readFails = false

/-! ### `ktime_snoop_exit_module` -/

/-- The probes the kernel knows while the module is unloaded, and the `unregister_kprobe` calls. -/
structure UnloadState where
  registered : List (Nat × Side)
  calls : List (Nat × Side)

abbrev Unload := EStateM Int UnloadState

/-- `unregister_kprobe` of a probe of `kp_records`, after the test of its flag. -/
def unregisterKprobe (ok : Bool) (kp : Nat × Side) : Unload PUnit :=
  if ok = true then
    modify fun s => { registered := s.registered.filter (· ≠ kp), calls := s.calls ++ [kp] }
  else pure ⟨⟩

def unregisterRecord (kpRecords : Nat → KprobeRecord) (i : Nat) : Unload PUnit := do
  unregisterKprobe (kpRecords i).headOk (i, .head)
  unregisterKprobe (kpRecords i).tailOk (i, .tail)

def unregisterRecordKprobes (kpRecords : Nat → KprobeRecord) (totRecords : Nat) : Unload PUnit :=
  countedLoop (unregisterRecord kpRecords) 0 totRecords

/-- The unload of a module that was loaded; the three `kfree` calls come after it. -/
def ktimeSnoopExitModule (load : LoadResult) : UnloadState :=
  finalState (unregisterRecordKprobes load.probes.kpRecords load.parse.recordCurr)
    ⟨load.probes.registered, []⟩

end KTools.Ktime
