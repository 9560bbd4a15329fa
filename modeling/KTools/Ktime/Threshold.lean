import Mathlib.Algebra.Group.Int.Defs
import Mathlib.Algebra.Group.Nat.Defs
import KTools.Ktime.Handlers

/-!
# The threshold in the two versions of the module

The module exists twice. In the version of `es-diagnose` the threshold is an `unsigned long` and the duration
is compared as it is; in `src/ktime_snoop.c` the threshold is an `int` and the duration is cast to `int`
first. The cast keeps the low 32 bits, with the highest of them as the sign, so the second version loses
durations of 2 seconds and more, and finds some of them again after 4 seconds (`Measurement.agrees_iff`).
-/

namespace KTools.Ktime

/-- `(int)x`. -/
def toInt (x : UInt64) : Int32 := x.toUInt32.toInt32

theorem toInt_toInt (x : UInt64) :
    (toInt x).toInt =
      if x.toNat % 2 ^ 32 < 2 ^ 31 then (x.toNat % 2 ^ 32 : Int) else x.toNat % 2 ^ 32 - 2 ^ 32 := by
  have hcast : (toInt x).toInt = x.toUInt32.toBitVec.toInt := rfl
  have hlow : x.toUInt32.toBitVec.toNat = x.toNat % 2 ^ 32 := UInt64.toNat_toUInt32 x
  rw [hcast, BitVec.toInt_eq_toNat_cond, hlow]
  split
  · rw [if_pos (by omega)]
    omega
  · rw [if_neg (by omega)]
    omega

/-! ### `src/ktime_snoop.c` -/

namespace Signed

structure KprobeRecord where
  /-- `line_rec->func`. -/
  func : List UInt8
  headKp : Kprobe
  tailKp : Kprobe
  startTime : UInt64
  endTime : UInt64
  time : Int32
  procComm : Option (List UInt8)

def KprobeRecord.probe (r : KprobeRecord) : Side → Kprobe
  | .head => r.headKp
  | .tail => r.tailKp

/-- What `handler_post` prints; after the last kind of line it calls `save_dmesg`. -/
inductive Line where
  | flag0Case1
  | timeRunning (time threshold : Int32)
  | flag0Case2
  | report (id : Nat) (func : List UInt8) (time : UInt64)
  deriving DecidableEq

/-- The lines of a hit, once `end_time` is set. -/
def postLines (kpr : KprobeRecord) (i : Nat) (current : Task) : List Line :=
  let time := kpr.endTime - kpr.startTime
  let case1 := commMatches kpr.procComm current.comm = false
  let case2 := toInt time < kpr.time
  (if case1 then [.flag0Case1] else []) ++ [.timeRunning (toInt time) kpr.time] ++
    (if case2 then [.flag0Case2] else []) ++
    if ¬ case1 ∧ ¬ case2 then [.report i kpr.func time] else []

def handlerPost (records : Nat → KprobeRecord) (kp : Nat × Side) (current : Task) (now : UInt64) :
    (Nat → KprobeRecord) × List Line :=
  let member := if ((records kp.1).probe kp.2).preHandler then Side.head else Side.tail
  match containerOf member kp with
  | none => (records, [])
  | some i =>
    let kpr := { records i with endTime := now }
    (fun j => if j = i then kpr else records j, postLines kpr i current)

/-- The hit is reported. -/
def Line.isReport : Line → Bool
  | .report _ _ _ => true
  | _ => false

theorem postLines_report {kpr : KprobeRecord} {i : Nat} {current : Task} :
    (postLines kpr i current).any Line.isReport = true ↔
      commMatches kpr.procComm current.comm = true ∧ ¬ toInt (kpr.endTime - kpr.startTime) < kpr.time := by
  unfold postLines
  by_cases hcomm : commMatches kpr.procComm current.comm = true
  · by_cases htime : toInt (kpr.endTime - kpr.startTime) < kpr.time
    · simp [hcomm, htime, Line.isReport]
    · simp [hcomm, htime, Line.isReport]
  · by_cases htime : toInt (kpr.endTime - kpr.startTime) < kpr.time
    · simp [hcomm, htime, Line.isReport]
    · simp [hcomm, htime, Line.isReport]

end Signed

/-! ### One hit in the two versions -/

/-- A hit of the probe that ends a measurement, on a record of each version with the same start time, filter
and threshold. -/
structure Measurement where
  start : UInt64
  finish : UInt64
  le : start ≤ finish
  threshold : Nat
  threshold_lt : threshold < 2 ^ 31
  procComm : Option (List UInt8)
  current : Task
  /-- The hit probe; `pre_handler` is set in a head probe only. -/
  kp : Nat × Side
  records : KpRecords
  handlers : ((records kp.1).probe kp.2).preHandler = decide (kp.2 = .head)
  startTime : (records kp.1).startTime = start
  time : (records kp.1).time = UInt64.ofNat threshold
  filter : (records kp.1).procComm = procComm
  signedRecords : Nat → Signed.KprobeRecord
  signedHandlers : ((signedRecords kp.1).probe kp.2).preHandler = decide (kp.2 = .head)
  signedStartTime : (signedRecords kp.1).startTime = start
  signedTime : (signedRecords kp.1).time = Int32.ofNat threshold
  signedFilter : (signedRecords kp.1).procComm = procComm

namespace Measurement
variable (x : Measurement)

def Reports : Prop := (handlerPost x.records x.kp x.current x.finish).2.isSome = true

def SignedReports : Prop :=
  (Signed.handlerPost x.signedRecords x.kp x.current x.finish).2.any Signed.Line.isReport = true

/-- The duration in nanoseconds. -/
def duration : Nat := x.finish.toNat - x.start.toNat

/-- The record is for any task or for this one. -/
def Passes : Prop := commMatches x.procComm x.current.comm = true

/-- Both versions report exactly when the filter lets the task through and the duration has reached the
threshold. -/
structure Agrees : Prop where
  unsigned : x.Reports ↔ x.Passes ∧ x.threshold ≤ x.duration
  signed : x.SignedReports ↔ x.Passes ∧ x.threshold ≤ x.duration

theorem toNat_sub : (x.finish - x.start).toNat = x.duration :=
  UInt64.toNat_sub_of_le _ _ (UInt64.le_iff_toNat_le.1 x.le)

theorem containerOf_kp : containerOf (if decide (x.kp.2 = .head) then Side.head else .tail) x.kp =
    some x.kp.1 := by
  obtain ⟨i, side⟩ := x.kp
  cases side <;> rfl

/-- The comparison of `unsigned long` values is the one of the numbers. -/
theorem reports_iff : x.Reports ↔ x.Passes ∧ x.threshold ≤ x.duration := by
  have hthreshold : (UInt64.ofNat x.threshold).toNat = x.threshold :=
    UInt64.toNat_ofNat_of_lt (Nat.lt_trans x.threshold_lt (by decide))
  unfold Reports handlerPost
  simp only [x.handlers, x.containerOf_kp, postReport, x.startTime, x.time, x.filter, UInt64.lt_iff_toNat_lt,
    x.toNat_sub, hthreshold, Nat.not_lt]
  unfold Passes
  split
  · rename_i h
    exact iff_of_true rfl h
  · rename_i h
    exact iff_of_false (by simp) h

/-- The comparison of `int` values is the one of the low 32 bits, as a signed number. -/
theorem signedReports_iff :
    x.SignedReports ↔ x.Passes ∧ x.threshold ≤ x.duration % 2 ^ 32 ∧ x.duration % 2 ^ 32 < 2 ^ 31 := by
  have hthreshold : (Int32.ofNat x.threshold).toInt = x.threshold := Int32.toInt_ofNat_of_lt x.threshold_lt
  unfold SignedReports Signed.handlerPost
  simp only [x.signedHandlers, x.containerOf_kp]
  rw [Signed.postLines_report]
  simp only [x.signedStartTime, x.signedTime, x.signedFilter, Int32.lt_iff_toInt_lt, hthreshold,
    toInt_toInt, x.toNat_sub]
  refine and_congr Iff.rfl ?_
  split
  · omega
  · omega

/-- **The two versions agree exactly** on the hits that are filtered out, on durations below the threshold,
and on durations whose low 32 bits reach the threshold and are not negative as an `int`. -/
theorem agrees_iff :
    x.Agrees ↔ ¬ x.Passes ∨ x.duration < x.threshold ∨
      (x.threshold ≤ x.duration % 2 ^ 32 ∧ x.duration % 2 ^ 32 < 2 ^ 31) := by
  have hlow : x.duration < x.threshold → x.duration % 2 ^ 32 < x.threshold := fun h =>
    Nat.lt_of_le_of_lt (Nat.mod_le _ _) h
  constructor
  · rintro ⟨-, hsigned⟩
    rw [signedReports_iff] at hsigned
    by_cases hpass : x.Passes
    · by_cases hreach : x.threshold ≤ x.duration
      · exact Or.inr (Or.inr (hsigned.2 ⟨hpass, hreach⟩).2)
      · exact Or.inr (Or.inl (Nat.lt_of_not_le hreach))
    · exact Or.inl hpass
  · intro h
    refine ⟨x.reports_iff, x.signedReports_iff.trans (and_congr_right fun hpass => ?_)⟩
    rcases h with h | h | h
    · exact absurd hpass h
    · have := hlow h
      omega
    · have := Nat.mod_le x.duration (2 ^ 32)
      exact iff_of_true h (Nat.le_trans h.1 this)

/-- A duration of `2 ^ 31` ns against the threshold of 2 s. -/
def longDuration : Measurement where
  start := 0
  finish := 2147483648
  le := by decide
  threshold := 2000000000
  threshold_lt := by decide
  procComm := none
  current := ⟨1, []⟩
  kp := (0, .tail)
  records := fun _ => { tailKp := tailProbe 0 9 {}, time := 2000000000 }
  handlers := by decide
  startTime := rfl
  time := rfl
  filter := rfl
  signedRecords := fun _ => ⟨[], {}, tailProbe 0 9 {}, 0, 0, 2000000000, none⟩
  signedHandlers := by decide
  signedStartTime := rfl
  signedTime := rfl
  signedFilter := rfl

/-- `(int)` makes the duration negative: it is not reported by `src/ktime_snoop.c`. -/
theorem longDuration_not_agrees : ¬ ∀ x : Measurement, x.Agrees := by
  intro h
  have hreports : longDuration.SignedReports := (h longDuration).signed.2 ⟨rfl, by decide⟩
  revert hreports
  unfold SignedReports
  decide +kernel

end Measurement

end KTools.Ktime
