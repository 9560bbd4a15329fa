import Mathlib.Algebra.Group.Nat.Defs
import KTools.Lanplus.Types

/-!
# Setting a SOL parameter

`ipmi_sol_set_param` writes one SOL parameter of a channel. With guarding on, it writes "set-in-progress" before
the parameter, and "commit-write" and "set-complete" behind it. A field that shares its parameter with other
fields is written together with them, as `ipmi_get_sol_info` has read them into a structure on the stack.

A call makes its requests one after the other, and the BMC answers each or not; the log of a call is the list of
its requests with what came back.
-/

namespace KTools.Sol.Config
open KTools.Lanplus

def setSolConfigParameters : UInt8 := 0x21
def getSolConfigParameters : UInt8 := 0x22

/-- A request; the network function is always that of the transport commands. -/
structure SolRq where
  cmd : UInt8
  data : List UInt8
  deriving DecidableEq

/-- A request with its response, `none` for NULL. -/
structure Exchange where
  rq : SolRq
  rsp : Option CmdRsp
  deriving DecidableEq

/-- `intf->sendrecv`; `replies` are the responses by the number of the request. -/
def sendrecv (replies : Nat → Option CmdRsp) (rq : SolRq) (log : List Exchange) : Option CmdRsp × List Exchange :=
  (replies log.length, log ++ [⟨rq, replies log.length⟩])

/-! ### Values -/

/-- `isspace` in the C locale. -/
def isspace (c : Char) : Bool := c == ' ' || ('\t' ≤ c && c ≤ '\r')

/-- The value of a digit or a letter. -/
def digitOf (c : Char) : Option Nat :=
  if '0' ≤ c ∧ c ≤ '9' then some (c.toNat - '0'.toNat)
  else if 'a' ≤ c ∧ c ≤ 'z' then some (c.toNat - 'a'.toNat + 10)
  else if 'A' ≤ c ∧ c ≤ 'Z' then some (c.toNat - 'A'.toNat + 10)
  else none

def isDigitOf (base : Nat) (c : Char) : Bool := (digitOf c).any (· < base)

/-- The base of a number that says it itself, and the number without the sign of its base. -/
def baseOf : List Char → Nat × List Char
  | '0' :: x :: c :: rest =>
    if (x = 'x' ∨ x = 'X') ∧ isDigitOf 16 c then (16, c :: rest) else (8, '0' :: x :: c :: rest)
  | '0' :: rest => (8, '0' :: rest)
  | s => (10, s)

/-- `strtoul` with base 0: the number, what follows it, and whether `errno` is set. -/
def strtoul (s : List Char) : Nat × List Char × Bool :=
  let t := s.dropWhile isspace
  let neg := t.head? = some '-'
  let t := if t.head? = some '-' ∨ t.head? = some '+' then t.tail else t
  let (base, t) := baseOf t
  let digits := t.takeWhile (isDigitOf base)
  let n := digits.foldl (fun n c => n * base + (digitOf c).getD 0) 0
  if digits = [] then (0, s, false)
  else if 2 ^ 64 ≤ n then (2 ^ 64 - 1, t.dropWhile (isDigitOf base), true)
  else (if neg then (2 ^ 64 - n) % 2 ^ 64 else n, t.dropWhile (isDigitOf base), false)

def str2uchar (s : List Char) : Option UInt8 :=
  let r := strtoul s
  if r.2.1 ≠ [] ∨ r.2.2 = true then none
  else if 255 < r.1 then none
  else some (UInt8.ofNat r.1)

def ipmiSolSetParamIsvalidUint8 (strval : String) (minval maxval : UInt8) : Option UInt8 :=
  (str2uchar strval.toList).filter fun v => !(v < minval || maxval < v)

/-! ### Parameters -/

/-- The parameters by the names on the command line. -/
inductive SolParam where
  | setInProgress
  | enabled
  | forceEncryption
  | forceAuthentication
  | privilegeLevel
  | characterAccumulateLevel
  | characterSendThreshold
  | retryCount
  | retryInterval
  | nonVolatileBitRate
  | volatileBitRate
  deriving DecidableEq

/-- `struct sol_config_parameters`. -/
structure SolConfigParameters where
  setInProgress : UInt8
  enabled : UInt8
  forceEncryption : UInt8
  forceAuthentication : UInt8
  privilegeLevel : UInt8
  characterAccumulateLevel : UInt8
  characterSendThreshold : UInt8
  retryCount : UInt8
  retryInterval : UInt8
  nonVolatileBitRate : UInt8
  volatileBitRate : UInt8
  payloadChannel : UInt8
  payloadPort : UInt16
  deriving DecidableEq

namespace SolParam

def names : List (String × SolParam) :=
  [("set-in-progress", setInProgress), ("enabled", enabled), ("force-encryption", forceEncryption),
    ("force-authentication", forceAuthentication), ("privilege-level", privilegeLevel),
    ("character-accumulate-level", characterAccumulateLevel),
    ("character-send-threshold", characterSendThreshold), ("retry-count", retryCount),
    ("retry-interval", retryInterval), ("non-volatile-bit-rate", nonVolatileBitRate),
    ("volatile-bit-rate", volatileBitRate)]

/-- The comparisons with `param`. -/
def ofName (param : String) : Option SolParam := names.lookup param

def bitRates : List (String × UInt8) :=
  [("serial", 0x00), ("9.6", 0x06), ("19.2", 0x07), ("38.4", 0x08), ("57.6", 0x09), ("115.2", 0x0A)]

def setComplete : UInt8 := 0x00
def setInProgressValue : UInt8 := 0x01
def commitWrite : UInt8 := 0x02

/-- The byte that `value` stands for, `none` if it is not valid. -/
def parse (p : SolParam) (value : String) : Option UInt8 :=
  match p with
  | setInProgress =>
    [("set-complete", setComplete), ("set-in-progress", setInProgressValue), ("commit-write", commitWrite)].lookup
      value
  | enabled => [("true", 0x01), ("false", 0x00)].lookup value
  | forceEncryption => [("true", 0x80), ("false", 0x00)].lookup value
  | forceAuthentication => [("true", 0x40), ("false", 0x00)].lookup value
  | privilegeLevel => [("user", 0x02), ("operator", 0x03), ("admin", 0x04), ("oem", 0x05)].lookup value
  | characterAccumulateLevel => ipmiSolSetParamIsvalidUint8 value 1 255
  | characterSendThreshold => ipmiSolSetParamIsvalidUint8 value 0 255
  | retryCount => ipmiSolSetParamIsvalidUint8 value 0 7
  | retryInterval => ipmiSolSetParamIsvalidUint8 value 0 255
  | nonVolatileBitRate => bitRates.lookup value
  | volatileBitRate => bitRates.lookup value

/-- The number of the parameter in the requests. -/
def selector : SolParam → UInt8
  | setInProgress => 0x00
  | enabled => 0x01
  | forceEncryption | forceAuthentication | privilegeLevel => 0x02
  | characterAccumulateLevel | characterSendThreshold => 0x03
  | retryCount | retryInterval => 0x04
  | nonVolatileBitRate => 0x05
  | volatileBitRate => 0x06

/-- "We need other values to complete the request". -/
def shared : SolParam → Bool
  | setInProgress | enabled | nonVolatileBitRate | volatileBitRate => false
  | _ => true

/-- The data of the request behind the channel and the selector; `own` is the byte of the value. -/
def fields (p : SolParam) (own : UInt8) (params : SolConfigParameters) : List UInt8 :=
  match p with
  | forceEncryption => [own ||| (if params.forceAuthentication ≠ 0 then 0x40 else 0x00) ||| params.privilegeLevel]
  | forceAuthentication => [own ||| (if params.forceEncryption ≠ 0 then 0x80 else 0x00) ||| params.privilegeLevel]
  | privilegeLevel =>
    [own ||| (if params.forceEncryption ≠ 0 then 0x80 else 0x00) |||
      (if params.forceAuthentication ≠ 0 then 0x40 else 0x00)]
  | characterAccumulateLevel => [own, params.characterSendThreshold]
  | characterSendThreshold => [params.characterAccumulateLevel, own]
  | retryCount => [own, params.retryInterval]
  | retryInterval => [params.retryCount, own]
  | _ => [own]

end SolParam

/-! ### `ipmi_get_sol_info` -/

/-- One of its reads: the selector, the length of a good response, where its data goes, and what is done when the
parameter is not supported, `none` to give up. -/
structure SolRead where
  selector : UInt8
  size : Nat
  store : List UInt8 → SolConfigParameters → SolConfigParameters
  notSupported : Option (SolConfigParameters → SolConfigParameters)

def authenticationRead : SolRead where
  selector := 0x02
  size := 2
  store := fun data p =>
    let byte := data.getD 1 0
    { p with
      forceEncryption := if byte &&& 0x80 ≠ 0 then 1 else 0
      forceAuthentication := if byte &&& 0x40 ≠ 0 then 1 else 0
      privilegeLevel := byte &&& 0x0F }
  notSupported := some id

def characterIntervalRead : SolRead where
  selector := 0x03
  size := 3
  store := fun data p => { p with
    characterAccumulateLevel := data.getD 1 0
    characterSendThreshold := data.getD 2 0 }
  notSupported := some id

def retryRead : SolRead where
  selector := 0x04
  size := 3
  store := fun data p => { p with
    retryCount := data.getD 1 0
    retryInterval := data.getD 2 0 }
  notSupported := some id

/-- The reads in their order; `port` is the port of the session, if there is one. -/
def solReads (channel : UInt8) (port : Option UInt16) : List SolRead :=
  [⟨0x00, 2, fun data p => { p with setInProgress := data.getD 1 0 }, some id⟩,
    ⟨0x01, 2, fun data p => { p with enabled := data.getD 1 0 }, some id⟩,
    authenticationRead, characterIntervalRead, retryRead,
    ⟨0x05, 2, fun data p => { p with nonVolatileBitRate := data.getD 1 0 &&& 0x0F }, some id⟩,
    ⟨0x06, 2, fun data p => { p with volatileBitRate := data.getD 1 0 &&& 0x0F }, some id⟩,
    ⟨0x07, 2, fun data p => { p with payloadChannel := data.getD 1 0 },
      some fun p => { p with payloadChannel := channel }⟩,
    ⟨0x08, 3, fun data p => { p with payloadPort := (data.getD 1 0).toUInt16 ||| (data.getD 2 0).toUInt16 <<< 8 },
      port.map fun n p => { p with payloadPort := n }⟩]

/-- What a response makes of the structure; `none` is the return of -1. -/
def SolRead.step (r : SolRead) (params : SolConfigParameters) : Option CmdRsp → Option SolConfigParameters
  | none => none
  | some rsp =>
    if rsp.ccode = 0x00 then some (if rsp.data.length = r.size then r.store rsp.data params else params)
    else if rsp.ccode = 0x80 then r.notSupported.map (· params)
    else none

def SolRead.rq (r : SolRead) (channel : UInt8) : SolRq := ⟨getSolConfigParameters, [channel, r.selector, 0x00, 0x00]⟩

/-- `ipmi_get_sol_info` over its reads; `none` is the return of -1. -/
def ipmiGetSolInfo (replies : Nat → Option CmdRsp) (channel : UInt8) :
    List SolRead → SolConfigParameters → List Exchange → Option SolConfigParameters × List Exchange
  | [], params, log => (some params, log)
  | r :: rest, params, log =>
    let s := sendrecv replies (r.rq channel) log
    match r.step params s.1 with
    | none => (none, s.2)
    | some params => ipmiGetSolInfo replies channel rest params s.2

/-! ### `ipmi_sol_set_param` -/

def setRq (channel : UInt8) (p : SolParam) (fields : List UInt8) : SolRq :=
  ⟨setSolConfigParameters, channel :: p.selector :: fields⟩

/-- The function for "set-in-progress", which is never guarded. -/
def setIndicator (replies : Nat → Option CmdRsp) (channel value : UInt8) (log : List Exchange) : Int × List Exchange :=
  let s := sendrecv replies (setRq channel .setInProgress [value]) log
  match s.1 with
  | none => (-1, s.2)
  | some rsp => if value ≠ SolParam.commitWrite ∧ rsp.ccode ≠ 0 then (-1, s.2) else (0, s.2)

/-- The request of a parameter other than "set-in-progress", with the guard around it. -/
def executeRequest (replies : Nat → Option CmdRsp) (channel : UInt8) (rq : SolRq) (guarded : Bool)
    (log : List Exchange) : Int × List Exchange :=
  let s := if guarded then setIndicator replies channel SolParam.setInProgressValue log else (0, log)
  if s.1 ≠ 0 then (-1, s.2)
  else
    -- The command proper
    let s := sendrecv replies rq s.2
    match s.1 with
    | none => (-1, s.2)
    | some rsp =>
      if rsp.ccode ≠ 0 then
        if guarded then (-1, (setIndicator replies channel SolParam.setComplete s.2).2) else (-1, s.2)
      else if guarded then
        let s := setIndicator replies channel SolParam.commitWrite s.2
        let s := setIndicator replies channel SolParam.setComplete s.2
        if s.1 ≠ 0 then (-1, s.2) else (0, s.2)
      else (0, s.2)

/-- A call of `ipmi_sol_set_param`; `stack` is what `params` holds before it is filled, `port` the port of the
session, if there is one. -/
structure Call where
  channel : UInt8
  param : String
  value : String
  guarded : Bool
  port : Option UInt16
  stack : SolConfigParameters
  replies : Nat → Option CmdRsp

/-- The result, and the log of the requests. -/
def ipmiSolSetParam (x : Call) : Int × List Exchange :=
  match SolParam.ofName x.param with
  | none => (-1, [])
  | some p =>
    match p.parse x.value with
    | none => (-1, [])
    | some own =>
      if p = .setInProgress then setIndicator x.replies x.channel own []
      else if p.shared then
        match ipmiGetSolInfo x.replies x.channel (solReads x.channel x.port) x.stack [] with
        | (none, log) => (-1, log)
        | (some params, log) =>
          executeRequest x.replies x.channel (setRq x.channel p (p.fields own params)) x.guarded log
      else executeRequest x.replies x.channel (setRq x.channel p (p.fields own x.stack)) x.guarded []

/-! ### What a call gets to -/

/-- The response of a BMC that does what it was asked. -/
def Succeeds (rsp : Option CmdRsp) : Prop := ∃ r, rsp = some r ∧ r.ccode = 0

/-- The read does not make the call give up. -/
def SolRead.Passes (r : SolRead) (rsp : Option CmdRsp) : Prop :=
  ∃ a, rsp = some a ∧ (a.ccode = 0x00 ∨ (a.ccode = 0x80 ∧ r.notSupported.isSome))

/-- The reads pass, the first of them with response `first`. -/
def AllPass (replies : Nat → Option CmdRsp) : List SolRead → Nat → Prop
  | [], _ => True
  | r :: rest, first => r.Passes (replies first) ∧ AllPass replies rest (first + 1)

def SolParam.readCount (p : SolParam) : Nat := if p.shared then 9 else 0

namespace Call
variable (x : Call)

def log : List Exchange := (ipmiSolSetParam x).2

/-- The requests of the guard. -/
def openRq : SolRq := setRq x.channel .setInProgress [SolParam.setInProgressValue]
def commitRq : SolRq := setRq x.channel .setInProgress [SolParam.commitWrite]
def closeRq : SolRq := setRq x.channel .setInProgress [SolParam.setComplete]

/-- The call gets to its write: the parameter is `p`, its value the byte `own`, and no read gives up. -/
structure Prepared (p : SolParam) (own : UInt8) : Prop where
  name : SolParam.ofName x.param = some p
  other : p ≠ .setInProgress
  value : p.parse x.value = some own
  reads : p.shared → AllPass x.replies (solReads x.channel x.port) 0

end Call

theorem SolRead.step_isSome (r : SolRead) (params : SolConfigParameters) (rsp : Option CmdRsp) :
    (r.step params rsp).isSome ↔ r.Passes rsp := by
  unfold step Passes
  cases rsp with
  | none => simp
  | some a =>
    by_cases h0 : a.ccode = 0
    · simp [h0]
    · by_cases h80 : a.ccode = 0x80
      · simp [h80]
      · simp [h0, h80]

section SolInfo
variable (replies : Nat → Option CmdRsp) (channel : UInt8)

/-- The part of a log that a list of reads makes. -/
def readLog : List SolRead → Nat → List Exchange
  | [], _ => []
  | r :: rest, first => ⟨r.rq channel, replies first⟩ :: readLog rest (first + 1)

/-- Reads that all pass fill the structure. -/
theorem ipmiGetSolInfo_some : ∀ (reads : List SolRead) (params : SolConfigParameters) (log : List Exchange),
    AllPass replies reads log.length → ∃ params', ipmiGetSolInfo replies channel reads params log =
      (some params', log ++ readLog replies channel reads log.length) := by
  intro reads
  induction reads with
  | nil =>
    intro params log _
    exact ⟨params, by rw [ipmiGetSolInfo, readLog, List.append_nil]⟩
  | cons r rest ih =>
    intro params log ⟨hpass, hall⟩
    obtain ⟨params₁, hstep⟩ := Option.isSome_iff_exists.1 ((r.step_isSome params _).2 hpass)
    obtain ⟨params', hrest⟩ := ih params₁ (log ++ [⟨r.rq channel, replies log.length⟩]) (by simpa using hall)
    refine ⟨params', ?_⟩
    simp only [ipmiGetSolInfo, sendrecv, hstep, hrest]
    rw [readLog, List.append_assoc, List.length_append]
    rfl

/-- A read that does not pass ends the call. -/
theorem ipmiGetSolInfo_none : ∀ (reads : List SolRead) (params : SolConfigParameters) (log : List Exchange),
    ¬ AllPass replies reads log.length → ∃ log', ipmiGetSolInfo replies channel reads params log =
      (none, log ++ log') ∧ ∀ e ∈ log', e.rq.cmd = getSolConfigParameters := by
  intro reads
  induction reads with
  | nil =>
    intro params log h
    exact absurd trivial h
  | cons r rest ih =>
    intro params log h
    have hcmd : (r.rq channel).cmd = getSolConfigParameters := rfl
    cases hstep : r.step params (replies log.length) with
    | none =>
      refine ⟨[⟨r.rq channel, replies log.length⟩], by simp only [ipmiGetSolInfo, sendrecv, hstep], ?_⟩
      simpa using hcmd
    | some params₁ =>
      have hpass := (r.step_isSome params (replies log.length)).1 (by rw [hstep]; rfl)
      obtain ⟨log', hrest, hall⟩ := ih params₁ (log ++ [⟨r.rq channel, replies log.length⟩]) fun hrest =>
        h ⟨hpass, by simpa using hrest⟩
      refine ⟨⟨r.rq channel, replies log.length⟩ :: log', ?_, List.forall_mem_cons.2 ⟨hcmd, hall⟩⟩
      simp only [ipmiGetSolInfo, sendrecv, hstep, hrest]
      rw [List.append_assoc]
      rfl

end SolInfo

/-! ### The course of a call -/

section Execute
variable (x : Call) (rq : SolRq) (log : List Exchange)

/-- Writing the indicator is one request; only "commit-write" may fail. -/
theorem setIndicator_eq (value : UInt8) : ∃ result, setIndicator x.replies x.channel value log =
    (result, log ++ [⟨setRq x.channel .setInProgress [value], x.replies log.length⟩]) ∧
      (value ≠ SolParam.commitWrite → (result = 0 ↔ Succeeds (x.replies log.length))) := by
  unfold setIndicator sendrecv Succeeds
  cases x.replies log.length with
  | none => exact ⟨-1, rfl, by simp⟩
  | some rsp =>
    by_cases h : value ≠ SolParam.commitWrite ∧ rsp.ccode ≠ 0
    · exact ⟨-1, by simp only [if_pos h], by simp [h.2]⟩
    · refine ⟨0, by simp only [if_neg h], fun hvalue => ?_⟩
      simpa using fun hccode => h ⟨hvalue, hccode⟩

/-- What a call sends from the guard on. -/
inductive Course : Int → List Exchange → Prop where
  | refused (hguard : x.guarded = true) (h : ¬ Succeeds (x.replies log.length)) :
      Course (-1) (log ++ [⟨x.openRq, x.replies log.length⟩])
  | unanswered (hguard : x.guarded = true) (h : Succeeds (x.replies log.length))
      (hnone : x.replies (log.length + 1) = none) :
      Course (-1) (log ++ [⟨x.openRq, x.replies log.length⟩, ⟨rq, none⟩])
  | closed (hguard : x.guarded = true) (h : Succeeds (x.replies log.length)) {rsp : CmdRsp}
      (hsome : x.replies (log.length + 1) = some rsp) (result : Int) (mid : List Exchange) (last : Option CmdRsp)
      (hmid : ∀ e ∈ mid, e.rq = x.commitRq) :
      Course result (log ++ [⟨x.openRq, x.replies log.length⟩, ⟨rq, some rsp⟩] ++ mid ++ [⟨x.closeRq, last⟩])
  | unguarded (hguard : x.guarded = false) (result : Int) :
      Course result (log ++ [⟨rq, x.replies log.length⟩])

theorem executeRequest_course : Course x rq log (executeRequest x.replies x.channel rq x.guarded log).1
    (executeRequest x.replies x.channel rq x.guarded log).2 := by
  unfold executeRequest
  cases hguard : x.guarded with
  | false =>
    simp only [Bool.false_eq_true, if_false, ne_eq, not_true_eq_false]
    have h : ∀ result, Course x rq log result _ := .unguarded hguard
    unfold sendrecv
    split
    · exact h _
    · split <;> exact h _
  | true =>
    obtain ⟨opened, hopen, hiff⟩ := setIndicator_eq x log SolParam.setInProgressValue
    have hopened := hiff (by decide)
    change setIndicator _ _ _ _ = (opened, log ++ [⟨x.openRq, _⟩]) at hopen
    simp only [if_true, hopen]
    by_cases hzero : opened = 0
    · have hsucceeds := hopened.1 hzero
      rw [if_neg (not_not_intro hzero)]
      simp only [sendrecv, List.length_append, List.length_singleton, List.append_assoc, List.singleton_append]
      cases hrsp : x.replies (log.length + 1) with
      | none => exact .unanswered hguard hsucceeds hrsp
      | some rsp =>
        have hclosed : ∀ result mid last, _ → Course x rq log result _ := .closed hguard hsucceeds hrsp
        obtain ⟨done, hdone⟩ : ∃ done, done = log ++ [⟨x.openRq, x.replies log.length⟩, ⟨rq, some rsp⟩] := ⟨_, rfl⟩
        rw [← hdone] at hclosed
        simp only [← hdone]
        by_cases hccode : rsp.ccode = 0
        · -- the write has succeeded: commit, and close
          obtain ⟨_, hcommit, -⟩ := setIndicator_eq x done SolParam.commitWrite
          obtain ⟨result, hclose, -⟩ := setIndicator_eq x (done ++ [⟨x.commitRq, x.replies done.length⟩])
            SolParam.setComplete
          change setIndicator _ _ _ _ = (_, done ++ [⟨x.commitRq, _⟩]) at hcommit
          rw [if_neg (not_not_intro hccode), hcommit, hclose]
          have h := fun result last => hclosed result [⟨x.commitRq, x.replies done.length⟩] last (by simp)
          split <;> exact h _ _
        · obtain ⟨result, hclose, -⟩ := setIndicator_eq x done SolParam.setComplete
          rw [if_pos hccode, hclose]
          have h := fun last => hclosed (-1) [] last (by simp)
          rw [List.append_nil] at h
          exact h _
    · rw [if_pos hzero]
      exact .refused hguard (mt hopened.2 hzero)

end Execute

/-- The log of the reads that precede the write of `p`. -/
def Call.readsOf (x : Call) (p : SolParam) : List Exchange :=
  if p.shared then readLog x.replies x.channel (solReads x.channel x.port) 0 else []

/-- How a call ends for a parameter other than "set-in-progress": without a write, or with the course of its
request. -/
inductive Call.Ends (x : Call) : Prop where
  | indicator (hname : SolParam.ofName x.param = some .setInProgress)
  | failed (hnot : ∀ p own, ¬ x.Prepared p own) (hresult : (ipmiSolSetParam x).1 = -1)
      (hlog : ∀ e ∈ x.log, e.rq.cmd = getSolConfigParameters)
  | wrote {p : SolParam} {own : UInt8} (params : SolConfigParameters) (hprepared : x.Prepared p own)
      (hparams : p.shared →
        (ipmiGetSolInfo x.replies x.channel (solReads x.channel x.port) x.stack []).1 = some params)
      (hcourse : Course x (setRq x.channel p (p.fields own params)) (x.readsOf p) (ipmiSolSetParam x).1 x.log)

theorem Call.ends (x : Call) : x.Ends := by
  cases hname : SolParam.ofName x.param with
  | none =>
    have hrun : ipmiSolSetParam x = (-1, []) := by simp only [ipmiSolSetParam, hname]
    refine .failed (fun p own h => ?_) (by rw [hrun]) (by simp [log, hrun])
    rw [h.name] at hname
    cases hname
  | some p =>
    by_cases hp : p = .setInProgress
    · exact .indicator (hp ▸ hname)
    cases hvalue : p.parse x.value with
    | none =>
      have hrun : ipmiSolSetParam x = (-1, []) := by simp only [ipmiSolSetParam, hname, hvalue]
      refine .failed (fun p' own h => ?_) (by rw [hrun]) (by simp [log, hrun])
      obtain rfl : p' = p := Option.some.inj (h.name.symm.trans hname)
      rw [h.value] at hvalue
      cases hvalue
    | some own =>
      by_cases hshared : p.shared = true
      · by_cases hall : AllPass x.replies (solReads x.channel x.port) 0
        · obtain ⟨params, hinfo⟩ :=
            ipmiGetSolInfo_some x.replies x.channel (solReads x.channel x.port) x.stack [] hall
          have hrun : ipmiSolSetParam x = executeRequest x.replies x.channel (setRq x.channel p (p.fields own params))
              x.guarded (x.readsOf p) := by
            simp only [ipmiSolSetParam, hname, hvalue, if_neg hp, if_pos hshared, hinfo, readsOf]
            rfl
          refine .wrote params ⟨hname, hp, hvalue, fun _ => hall⟩ (fun _ => by rw [hinfo]) ?_
          rw [log, hrun]
          exact executeRequest_course _ _ _
        · obtain ⟨log', hinfo, hlog⟩ :=
            ipmiGetSolInfo_none x.replies x.channel (solReads x.channel x.port) x.stack [] hall
          have hrun : ipmiSolSetParam x = (-1, log') := by
            simp only [ipmiSolSetParam, hname, hvalue, if_neg hp, if_pos hshared, hinfo, List.nil_append]
          refine .failed (fun p' own' h => ?_) (by rw [hrun]) (by simpa [log, hrun] using hlog)
          obtain rfl : p' = p := Option.some.inj (h.name.symm.trans hname)
          exact hall (h.reads hshared)
      · have hrun : ipmiSolSetParam x = executeRequest x.replies x.channel (setRq x.channel p (p.fields own x.stack))
            x.guarded (x.readsOf p) := by
          simp only [ipmiSolSetParam, hname, hvalue, if_neg hp, if_neg hshared, readsOf]
        refine .wrote x.stack ⟨hname, hp, hvalue, fun h => absurd h hshared⟩ (fun h => absurd h hshared) ?_
        rw [log, hrun]
        exact executeRequest_course _ _ _

/-! ### The guard is closed -/

namespace Call
variable (x : Call)

/-- The call uses the guard. -/
def Guards : Prop := x.guarded = true ∧ SolParam.ofName x.param ≠ some .setInProgress

/-- Behind a guard that was opened there is the request that closes it. -/
def Closes : Prop :=
  x.Guards → ∀ pre e post, x.log = pre ++ e :: post → e.rq = x.openRq → Succeeds e.rsp → ∃ e' ∈ post, e'.rq = x.closeRq

/-- The write behind an open guard gets a response. -/
def Answered : Prop :=
  x.guarded = true → ∀ p own, x.Prepared p own → Succeeds (x.replies p.readCount) →
    (x.replies (p.readCount + 1)).isSome

theorem openRq_ne_closeRq : x.openRq ≠ x.closeRq := by
  intro h
  have := congrArg (fun rq => rq.data.getD 2 0) h
  exact absurd this (by decide : SolParam.setInProgressValue ≠ SolParam.setComplete)

/-- The write of a parameter is no request of the guard. -/
theorem setRq_ne {p : SolParam} (hp : p ≠ .setInProgress) (fields : List UInt8) (value : UInt8) :
    setRq x.channel p fields ≠ setRq x.channel .setInProgress [value] := by
  intro h
  have hselector : p.selector = 0 := congrArg (fun rq => rq.data.getD 1 0) h
  cases p with
  | setInProgress => exact hp rfl
  | _ => exact absurd hselector (by decide)

theorem length_readsOf (p : SolParam) : (x.readsOf p).length = p.readCount := by
  unfold readsOf SolParam.readCount
  split <;> rfl

theorem cmd_readsOf (p : SolParam) : ∀ e ∈ x.readsOf p, e.rq.cmd = getSolConfigParameters := by
  unfold readsOf
  split
  · simp [readLog, solReads, SolRead.rq]
  · simp

/-- No read is a request of the guard. -/
theorem not_openRq_of_cmd {e : Exchange} (h : e.rq.cmd = getSolConfigParameters) : e.rq ≠ x.openRq := by
  intro hopen
  rw [hopen] at h
  exact absurd h (by decide : setSolConfigParameters ≠ getSolConfigParameters)

/-- The guard is closed exactly when the write behind it gets a response. -/
theorem closes_iff : x.Closes ↔ x.Answered := by
  constructor
  · intro hcloses hguarded p own hprepared hopen
    cases x.ends with
    | indicator hname => exact absurd (Option.some.inj (hprepared.name.symm.trans hname)) hprepared.other
    | failed hnot => exact absurd hprepared (hnot p own)
    | @wrote p' own' params hprepared' hparams hcourse =>
      obtain rfl : p' = p := Option.some.inj (hprepared'.name.symm.trans hprepared.name)
      rw [← x.length_readsOf] at hopen ⊢
      generalize hlog : x.log = log at hcourse
      generalize (ipmiSolSetParam x).1 = result at hcourse
      cases hcourse with
      | refused _ hrefused => exact absurd hopen hrefused
      | unanswered _ _ hnone =>
        -- nothing but the write itself lies behind the open guard
        have hguards : x.Guards :=
          ⟨hguarded, fun h => hprepared.other (Option.some.inj (hprepared.name.symm.trans h))⟩
        obtain ⟨e, hmem, hclose⟩ := hcloses hguards (x.readsOf p') _ _ hlog rfl hopen
        rw [List.mem_singleton.1 hmem] at hclose
        exact absurd hclose (x.setRq_ne hprepared.other _ _)
      | closed _ _ hsome => rw [hsome]; rfl
      | unguarded hunguarded =>
        rw [hguarded] at hunguarded
        cases hunguarded
  · intro hanswered hguards pre e post hlog he hsucceeds
    have hmem : e ∈ x.log := by
      rw [hlog]
      exact List.mem_append_right _ List.mem_cons_self
    cases x.ends with
    | indicator hname => exact absurd hname hguards.2
    | failed _ _ hreads => exact absurd he (x.not_openRq_of_cmd (hreads e hmem))
    | @wrote p own params hprepared hparams hcourse =>
      generalize x.log = log at hlog hmem hcourse
      generalize (ipmiSolSetParam x).1 = result at hcourse
      cases hcourse with
      | refused _ hrefused =>
        rcases List.mem_append.1 hmem with hread | hopen
        · exact absurd he (x.not_openRq_of_cmd (x.cmd_readsOf p e hread))
        · rw [List.mem_singleton.1 hopen] at hsucceeds
          exact absurd hsucceeds hrefused
      | unanswered _ hopen hnone =>
        rw [x.length_readsOf] at hopen hnone
        have := hanswered hguards.1 p own hprepared hopen
        rw [hnone] at this
        cases this
      | closed =>
        -- the request that closes the guard is the last one
        rcases List.eq_nil_or_concat post with rfl | ⟨post', l, rfl⟩
        · obtain ⟨-, hlast⟩ := List.append_inj' hlog rfl
          rw [← (List.cons.inj hlast).1] at he
          exact absurd he.symm x.openRq_ne_closeRq
        · rw [List.concat_eq_append, ← List.cons_append, ← List.append_assoc] at hlog
          obtain ⟨-, hlast⟩ := List.append_inj' hlog rfl
          refine ⟨l, by simp, ?_⟩
          rw [← (List.cons.inj hlast).1]
      | unguarded hunguarded =>
        rw [hguards.1] at hunguarded
        cases hunguarded

/-- A BMC that opens the guard and then falls silent. -/
def silent : Call where
  channel := 1
  param := "enabled"
  value := "true"
  guarded := true
  port := some 623
  stack := ⟨0, 0, 0, 0, 0, 0, 0, 0, 0, 0, 0, 0, 0⟩
  replies := fun n => if n = 0 then some ⟨0, []⟩ else none

theorem silent_not_closes : ¬ silent.Closes := by
  intro h
  have hlog : silent.log = [] ++ ⟨silent.openRq, some ⟨0, []⟩⟩ :: [⟨⟨0x21, [1, 1, 1]⟩, none⟩] := by decide
  obtain ⟨e, hmem, hclose⟩ := h ⟨rfl, by decide⟩ _ _ _ hlog rfl ⟨_, rfl, rfl⟩
  rw [List.mem_singleton.1 hmem] at hclose
  exact absurd hclose (by decide)

end Call

end KTools.Sol.Config
