import KTools.Ktime.Module
import Mathlib.Data.List.Induction

/-!
# The two handlers and the durations they report

`handler_pre` notes the time at the head probe in the record, for every task; `handler_post` reads it at
the tail probe, filters by the record's `proc_comm` and reports. The kernel calls them for any task and
in any order, one hit at a time (`run`).

In a run the slot `start_time` holds the time of the latest head hit of the record, whoever made it
(`run_startTime`). A report is therefore the task's own duration as long as that hit is its own
(`OwnHeads`), and then hits of filtered tasks change nothing (`ArmedRun.measures_of_ownHeads`). When
another task comes in between, the time of its hit is taken (`overlap_not_measures`).
-/

namespace KTools.Ktime

structure PtRegs where
  di : UInt64
  si : UInt64
  dx : UInt64
  cx : UInt64

/-- What the handlers read of `current`, and which task it is. -/
structure Task where
  pid : Nat
  comm : List UInt8

/-- The array `kp_records`. -/
abbrev KpRecords := Nat → KprobeRecord

/-- A line of `handler_post`; the four registers are printed when the head is the function entry. -/
structure Report where
  comm : List UInt8
  id : Nat
  time : UInt64
  args : Option (UInt64 × UInt64 × UInt64 × UInt64)
  deriving DecidableEq

/-! ### The handlers -/

def setRecord (records : KpRecords) (i : Nat) (r : KprobeRecord) : KpRecords :=
  fun j => if j = i then r else records j

/-- `container_of(kp, struct kprobe_record, member)`, when `kp` is that member of a record. -/
def containerOf (member : Side) (kp : Nat × Side) : Option Nat :=
  if kp.2 = member then some kp.1 else none

theorem containerOf_eq_some {member : Side} {kp : Nat × Side} {i : Nat}
    (h : containerOf member kp = some i) : kp.1 = i := by
  unfold containerOf at h
  split at h
  · exact Option.some.inj h
  · cases h

def KprobeRecord.probe (r : KprobeRecord) : Side → Kprobe
  | .head => r.headKp
  | .tail => r.tailKp

def handlerPre (records : KpRecords) (kp : Nat × Side) (now : UInt64) (regs : PtRegs) : KpRecords :=
  match containerOf .head kp with
  | none => records
  | some i =>
    let kpr := { records i with startTime := now }
    setRecord records i <|
      if kpr.startOffset = 0 then
        { kpr with a1 := regs.di, a2 := regs.si, a3 := regs.dx, a4 := regs.cx }
      else kpr

/-- The comparison of `handler_post`: the record has no `proc_comm`, or it is the task's. -/
def commMatches (procComm : Option (List UInt8)) (comm : List UInt8) : Bool :=
  match procComm with
  | none => true
  | some procComm => comm == procComm

/-- The line that `handler_post` prints, once `end_time` is set. -/
def postReport (kpr : KprobeRecord) (i : Nat) (current : Task) : Option Report :=
  let time := kpr.endTime - kpr.startTime
  if commMatches kpr.procComm current.comm = true ∧ ¬ time < kpr.time then
    some ⟨current.comm, i, time,
      if kpr.startOffset ≠ 0 then none else some (kpr.a1, kpr.a2, kpr.a3, kpr.a4)⟩
  else none

def handlerPost (records : KpRecords) (kp : Nat × Side) (current : Task) (now : UInt64) :
    KpRecords × Option Report :=
  let member := if ((records kp.1).probe kp.2).preHandler then Side.head else Side.tail
  match containerOf member kp with
  | none => (records, none)
  | some i =>
    let kpr := { records i with endTime := now }
    (setRecord records i kpr, postReport kpr i current)

/-! ### Runs -/

inductive Phase where
  | pre
  | post
  deriving DecidableEq

/-- A hit of a probe, before or after its instruction, at a time of `ktime_get_ns`. -/
structure Event where
  kp : Nat × Side
  phase : Phase
  current : Task
  now : UInt64
  regs : PtRegs

/-- The kernel calls the handler of the phase, if the probe has one. -/
def hit (records : KpRecords) (e : Event) : KpRecords × Option Report :=
  let kp := (records e.kp.1).probe e.kp.2
  match e.phase with
  | .pre => (if kp.preHandler then handlerPre records e.kp e.now e.regs else records, none)
  | .post => if kp.postHandler then handlerPost records e.kp e.current e.now else (records, none)

/-- The records after the hits of a run. -/
def run (records : KpRecords) (trace : List Event) : KpRecords :=
  trace.foldl (fun records e => (hit records e).1) records

/-- Both probes of a record are armed: only the head has a `handler_pre`, only the tail a
`handler_post`. -/
structure Armed (r : KprobeRecord) : Prop where
  headPre : r.headKp.preHandler = true
  headPost : r.headKp.postHandler = false
  tailPre : r.tailKp.preHandler = false
  tailPost : r.tailKp.postHandler = true

def Event.isHead (id : Nat) (e : Event) : Bool := e.kp == (id, Side.head) && e.phase == Phase.pre

def Event.isTail (id : Nat) (e : Event) : Bool := e.kp == (id, Side.tail) && e.phase == Phase.post

/-- The latest head hit of a record. -/
def lastHead (id : Nat) (trace : List Event) : Option Event := (trace.filter (Event.isHead id)).getLast?

/-- The latest head hit of a record by one task. -/
def lastOwnHead (id : Nat) (pid : Nat) (trace : List Event) : Option Event :=
  (trace.filter fun e => e.isHead id && e.current.pid == pid).getLast?

/-- What the tail hits of a record report, as durations. -/
def durations (id : Nat) : KpRecords → List Event → List (Option UInt64)
  | _, [] => []
  | records, e :: trace =>
    let rest := durations id (hit records e).1 trace
    if e.isTail id then (hit records e).2.map Report.time :: rest else rest

/-! ### One hit -/

/-- The parts of a record that no handler writes. -/
structure SameSetup (r r' : KprobeRecord) : Prop where
  headKp : r'.headKp = r.headKp
  tailKp : r'.tailKp = r.tailKp
  procComm : r'.procComm = r.procComm
  time : r'.time = r.time

theorem SameSetup.refl (r : KprobeRecord) : SameSetup r r := ⟨rfl, rfl, rfl, rfl⟩

theorem SameSetup.trans {r r' r'' : KprobeRecord} (h : SameSetup r r') (h' : SameSetup r' r'') :
    SameSetup r r'' :=
  ⟨h'.headKp.trans h.headKp, h'.tailKp.trans h.tailKp, h'.procComm.trans h.procComm,
    h'.time.trans h.time⟩

theorem SameSetup.armed {r r' : KprobeRecord} (h : SameSetup r r') (ha : Armed r) : Armed r' := by
  obtain ⟨hhead, htail, -, -⟩ := h
  exact ⟨hhead ▸ ha.headPre, hhead ▸ ha.headPost, htail ▸ ha.tailPre, htail ▸ ha.tailPost⟩

theorem handlerPre_apply (records : KpRecords) (i id : Nat) (side : Side) (now : UInt64)
    (regs : PtRegs) :
    SameSetup (records id) (handlerPre records (i, side) now regs id) ∧
      (handlerPre records (i, side) now regs id).startTime =
        if (i, side) = (id, Side.head) then now else (records id).startTime := by
  cases side with
  | tail => exact ⟨SameSetup.refl _, by simp [handlerPre, containerOf]⟩
  | head =>
    by_cases hid : id = i
    · subst hid
      simp only [handlerPre, containerOf, setRecord, if_true]
      split
      · exact ⟨⟨rfl, rfl, rfl, rfl⟩, rfl⟩
      · exact ⟨⟨rfl, rfl, rfl, rfl⟩, rfl⟩
    · have hne : ¬ i = id := fun h => hid h.symm
      refine ⟨?_, ?_⟩ <;> simp [handlerPre, containerOf, setRecord, hid, hne, SameSetup.refl]

theorem handlerPost_apply (records : KpRecords) (kp : Nat × Side) (id : Nat) (current : Task)
    (now : UInt64) :
    SameSetup (records id) ((handlerPost records kp current now).1 id) ∧
      ((handlerPost records kp current now).1 id).startTime = (records id).startTime := by
  simp only [handlerPost]
  generalize containerOf _ kp = member
  cases member with
  | none => exact ⟨SameSetup.refl _, rfl⟩
  | some i =>
    by_cases hid : id = i
    · subst hid
      refine ⟨?_, ?_⟩
      · simpa only [setRecord, if_true] using ⟨rfl, rfl, rfl, rfl⟩
      · simp only [setRecord, if_true]
    · simpa only [setRecord, if_neg hid, and_true] using SameSetup.refl (records id)

/-- A hit moves `start_time` of a record exactly when it is a hit of its head. -/
theorem hit_apply {records : KpRecords} {id : Nat} (hhead : (records id).headKp.preHandler = true)
    (e : Event) :
    SameSetup (records id) ((hit records e).1 id) ∧
      ((hit records e).1 id).startTime = if e.isHead id then e.now else (records id).startTime := by
  obtain ⟨⟨i, side⟩, phase, current, now, regs⟩ := e
  cases phase with
  | pre =>
    by_cases hpre : ((records i).probe side).preHandler = true
    · simpa [hit, hpre, Event.isHead] using handlerPre_apply records i id side now regs
    · have hother : ¬ (i, side) = (id, Side.head) := by
        rintro ⟨rfl, rfl⟩
        exact hpre hhead
      simpa [hit, hpre, Event.isHead, hother] using SameSetup.refl (records id)
  | post =>
    by_cases hpost : ((records i).probe side).postHandler = true
    · simpa [hit, hpost, Event.isHead] using handlerPost_apply records (i, side) id current now
    · simpa [hit, hpost, Event.isHead] using SameSetup.refl (records id)

/-- A hit of the tail of an armed record reports the time since `start_time`, if the filter and the
threshold let it through. -/
theorem hit_tail {records : KpRecords} {id : Nat} (ha : Armed (records id)) {e : Event}
    (he : e.isTail id = true) :
    (hit records e).2.map Report.time =
      if commMatches (records id).procComm e.current.comm = true ∧
          (records id).time ≤ e.now - (records id).startTime then
        some (e.now - (records id).startTime)
      else none := by
  obtain ⟨kp, phase, current, now, regs⟩ := e
  simp only [Event.isTail, Bool.and_eq_true, beq_iff_eq] at he
  obtain ⟨rfl, rfl⟩ := he
  have hpre : ((records id).probe .tail).preHandler = false := ha.tailPre
  have hpost : ((records id).probe .tail).postHandler = true := ha.tailPost
  simp only [hit, hpost, handlerPost, hpre, containerOf, if_true, Bool.false_eq_true, if_false,
    postReport, UInt64.not_lt]
  split
  · rfl
  · rfl

/-! ### A run -/

theorem run_append (records : KpRecords) (pre rest : List Event) :
    run records (pre ++ rest) = run (run records pre) rest :=
  List.foldl_append

theorem run_concat (records : KpRecords) (pre : List Event) (e : Event) :
    run records (pre ++ [e]) = (hit (run records pre) e).1 := run_append records pre [e]

theorem lastHead_concat (id : Nat) (pre : List Event) (e : Event) :
    lastHead id (pre ++ [e]) = if e.isHead id then some e else lastHead id pre := by
  unfold lastHead
  rw [List.filter_append]
  by_cases he : e.isHead id = true
  · simp [he]
  · simp [he]

/-- **The shared slot**: in a run, `start_time` is the time of the latest head hit, of any task. -/
theorem run_startTime {records : KpRecords} {id : Nat} (ha : Armed (records id)) (trace : List Event) :
    SameSetup (records id) (run records trace id) ∧
      (run records trace id).startTime =
        ((lastHead id trace).map Event.now).getD (records id).startTime := by
  induction trace using List.reverseRecOn with
  | nil => exact ⟨SameSetup.refl _, rfl⟩
  | append_singleton pre e ih =>
    obtain ⟨hsetup, hstart⟩ := ih
    obtain ⟨hsetup', hstart'⟩ := hit_apply (hsetup.armed ha).headPre e
    rw [run_concat, lastHead_concat]
    refine ⟨hsetup.trans hsetup', ?_⟩
    rw [hstart', hstart]
    by_cases he : e.isHead id = true
    · simp [he]
    · simp [he]

/-- Filtering once more keeps the last element, if it passes. -/
theorem getLast?_filter_filter {α : Type*} {p q : α → Bool} {l : List α} {a : α}
    (h : (l.filter p).getLast? = some a) (ha : q a = true) :
    ((l.filter p).filter q).getLast? = some a := by
  obtain ⟨init, hinit⟩ := List.getLast?_eq_some_iff.1 h
  rw [hinit, List.filter_append]
  simp [ha]

/-! ### The measurement of one record -/

/-- A run on a record whose two probes are armed. -/
structure ArmedRun where
  records : KpRecords
  id : Nat
  armed : Armed (records id)
  trace : List Event

namespace ArmedRun

/-- The record's filter lets the task of the hit through. -/
def passes (x : ArmedRun) (e : Event) : Bool := commMatches (x.records x.id).procComm e.current.comm

/-- The run without the head hits of filtered tasks. -/
def kept (x : ArmedRun) (e : Event) : Bool := !(e.isHead x.id && !x.passes e)

/-- Every reported duration is the reporting task's own, and head hits of filtered tasks do not count. -/
structure Measures (x : ArmedRun) : Prop where
  own : ∀ pre e post time, x.trace = pre ++ e :: post → e.isTail x.id = true →
    (hit (run x.records pre) e).2.map Report.time = some time →
    ∃ h, lastOwnHead x.id e.current.pid pre = some h ∧ time = e.now - h.now
  filtered : durations x.id x.records (x.trace.filter x.kept) = durations x.id x.records x.trace

/-- At every tail hit that the filter lets through, the latest head hit of the record is by the same
task, and the filter lets it through too. -/
def OwnHeads (x : ArmedRun) : Prop :=
  ∀ pre e post, x.trace = pre ++ e :: post → e.isTail x.id = true → x.passes e = true →
    ∃ h, lastHead x.id pre = some h ∧ h.current.pid = e.current.pid ∧ x.passes h = true

section
variable (x : ArmedRun)

theorem lastOwnHead_of_lastHead {pre : List Event} {id pid : Nat} {h : Event}
    (hlast : lastHead id pre = some h) (hpid : h.current.pid = pid) :
    lastOwnHead id pid pre = some h := by
  unfold lastOwnHead
  rw [← getLast?_filter_filter (q := fun e => e.current.pid == pid) hlast (by simp [hpid]),
    List.filter_filter]
  simp only [Bool.and_comm]

theorem lastHead_filter_kept {pre : List Event} {h : Event} (hlast : lastHead x.id pre = some h)
    (hpass : x.passes h = true) : lastHead x.id (pre.filter x.kept) = some h := by
  unfold lastHead
  rw [← getLast?_filter_filter (q := x.kept) hlast (by simp [kept, hpass]), List.filter_filter,
    List.filter_filter]
  simp only [Bool.and_comm]

/-- A tail hit reports by the filter, the threshold and the latest head hit before it. -/
theorem hit_run_tail {pre : List Event} {e h : Event} (he : e.isTail x.id = true)
    (hlast : lastHead x.id pre = some h) :
    (hit (run x.records pre) e).2.map Report.time =
      if x.passes e = true ∧ (x.records x.id).time ≤ e.now - h.now then some (e.now - h.now)
      else none := by
  obtain ⟨hsetup, hstart⟩ := run_startTime x.armed pre
  rw [hit_tail (hsetup.armed x.armed) he, hsetup.procComm, hsetup.time, hstart, hlast]
  rfl

theorem hit_run_filtered {pre : List Event} {e : Event} (he : e.isTail x.id = true)
    (hpass : x.passes e = false) : (hit (run x.records pre) e).2.map Report.time = none := by
  obtain ⟨hsetup, -⟩ := run_startTime x.armed pre
  rw [hit_tail (hsetup.armed x.armed) he, hsetup.procComm, if_neg]
  rintro ⟨hcomm, -⟩
  exact absurd (hcomm.symm.trans hpass) (by decide)

theorem own_of_ownHeads (hown : x.OwnHeads) {pre post : List Event} {e : Event} {time : UInt64}
    (htrace : x.trace = pre ++ e :: post) (he : e.isTail x.id = true)
    (hreport : (hit (run x.records pre) e).2.map Report.time = some time) :
    ∃ h, lastOwnHead x.id e.current.pid pre = some h ∧ time = e.now - h.now := by
  by_cases hpass : x.passes e = true
  · obtain ⟨h, hlast, hpid, -⟩ := hown pre e post htrace he hpass
    refine ⟨h, lastOwnHead_of_lastHead hlast hpid, ?_⟩
    rw [x.hit_run_tail he hlast] at hreport
    split at hreport
    · exact (Option.some.inj hreport).symm
    · cases hreport
  · rw [x.hit_run_filtered he (by simpa using hpass)] at hreport
    cases hreport

/-- From two points of the runs with and without the filtered head hits, the rest reports the same. -/
theorem durations_filter (hown : x.OwnHeads) (rest : List Event) :
    ∀ pre, x.trace = pre ++ rest →
      durations x.id (run x.records (pre.filter x.kept)) (rest.filter x.kept) =
        durations x.id (run x.records pre) rest := by
  induction rest with
  | nil => intro pre _; rfl
  | cons e rest ih =>
    intro pre htrace
    have hrest := ih (pre ++ [e]) (by simpa using htrace)
    rw [run_concat] at hrest
    by_cases hkept : x.kept e = true
    · have hfilter : (pre ++ [e]).filter x.kept = pre.filter x.kept ++ [e] := by simp [hkept]
      rw [hfilter, run_concat] at hrest
      rw [List.filter_cons_of_pos hkept]
      unfold durations
      rw [hrest]
      by_cases he : e.isTail x.id = true
      · rw [if_pos he, if_pos he]
        congr 1
        by_cases hpass : x.passes e = true
        · obtain ⟨h, hlast, -, hpassh⟩ := hown pre e rest htrace he hpass
          rw [x.hit_run_tail he hlast, x.hit_run_tail he (x.lastHead_filter_kept hlast hpassh)]
        · have hpass : x.passes e = false := by simpa using hpass
          rw [x.hit_run_filtered he hpass, x.hit_run_filtered he hpass]
      · rw [if_neg he, if_neg he]
    · -- a filtered head hit is dropped on one side and reports nothing on the other
      have hhead : e.isHead x.id = true := by
        by_contra hhead
        exact hkept (by simp [kept, hhead])
      have htail : ¬ e.isTail x.id = true := by
        simp only [Event.isHead, Event.isTail, Bool.and_eq_true, beq_iff_eq] at hhead ⊢
        rw [hhead.2]
        rintro ⟨-, h⟩
        cases h
      have hfilter : (pre ++ [e]).filter x.kept = pre.filter x.kept := by simp [hkept]
      rw [hfilter] at hrest
      rw [List.filter_cons_of_neg hkept, hrest, durations, if_neg htail]

/-- **A record measures the tasks' own durations** in every run where the latest head hit before each
tail hit that the filter lets through is by the same task. -/
theorem measures_of_ownHeads (hown : x.OwnHeads) : x.Measures :=
  ⟨fun _ _ _ _ htrace he hreport => x.own_of_ownHeads hown htrace he hreport,
    x.durations_filter hown x.trace [] rfl⟩

end

/-- A record on `comm` `a` from the function entry on, without a threshold. -/
def armedRecord : KprobeRecord :=
  { headKp := headProbe 0 0 {}, tailKp := tailProbe 0 9 {}, headOk := true, tailOk := true
    endOffset := 9, procComm := some [97] }

def headHit (pid : Nat) (comm : List UInt8) (now : UInt64) : Event :=
  ⟨(0, .head), .pre, ⟨pid, comm⟩, now, ⟨0, 0, 0, 0⟩⟩

def tailHit (pid : Nat) (comm : List UInt8) (now : UInt64) : Event :=
  ⟨(0, .tail), .post, ⟨pid, comm⟩, now, ⟨0, 0, 0, 0⟩⟩

def onArmedRecord (trace : List Event) : ArmedRun where
  records := fun _ => armedRecord
  id := 0
  armed := ⟨rfl, rfl, rfl, rfl⟩
  trace := trace

/-- Two tasks, one after the other. -/
theorem serial_measures :
    (onArmedRecord [headHit 1 [97] 100, tailHit 1 [97] 200, headHit 2 [97] 300,
      tailHit 2 [97] 450]).Measures := by
  refine measures_of_ownHeads _ fun pre e post htrace he hpass => ?_
  match pre with
  | [] =>
    obtain ⟨rfl, -⟩ := List.cons.inj htrace
    cases he
  | [h] =>
    obtain ⟨rfl, hrest⟩ := List.cons.inj htrace
    obtain ⟨rfl, -⟩ := List.cons.inj hrest
    exact ⟨_, rfl, rfl, rfl⟩
  | [h, t] =>
    obtain ⟨rfl, -⟩ := List.cons.inj (List.cons.inj (List.cons.inj htrace).2).2
    cases he
  | [h, t, h'] =>
    obtain ⟨rfl, hrest⟩ := List.cons.inj htrace
    obtain ⟨rfl, hrest'⟩ := List.cons.inj hrest
    obtain ⟨rfl, hlast⟩ := List.cons.inj hrest'
    obtain ⟨rfl, -⟩ := List.cons.inj hlast
    exact ⟨_, rfl, rfl, rfl⟩
  | _ :: _ :: _ :: _ :: _ => simp [onArmedRecord] at htrace

/-- A task called `b` enters the function between the two hits of the task called `a`: the duration
reported for `a` is 50, not 100. -/
theorem overlap_not_measures : ¬ ∀ x : ArmedRun, x.Measures := by
  intro h
  have hmeasures := h (onArmedRecord [headHit 1 [97] 100, headHit 2 [98] 150, tailHit 1 [97] 200])
  obtain ⟨own, hown, htime⟩ := hmeasures.own [headHit 1 [97] 100, headHit 2 [98] 150]
    (tailHit 1 [97] 200) [] 50 rfl rfl rfl
  obtain rfl := Option.some.inj (show some (headHit 1 [97] 100) = some own from hown)
  revert htime
  decide

end ArmedRun

end KTools.Ktime
