import Mathlib.Algebra.Group.Nat.Defs
import Mathlib.Data.List.Basic
import Mathlib.Data.List.Induction
import Mathlib.Tactic.Common

/-!
# The wakeup statistics of the scheduler patch

The patch to `try_to_wake_up` keeps, for each pid of the target task, the CPU that was selected at the last
wakeup, and counts the wakeups whose CPU is the same, is another one of the same node, or is on another node.
Three minutes after the first target wakeup it prints the counters once. A call is one step (`step`), a run is
a list of calls.

The counters are the numbers of consecutive wakeups of their kind, as far as these fit an `int`
(`counters_run`). The report leaves out the pids whose first counter is zero, so it is complete exactly when
no pid has moved at every wakeup (`Run.statistics_right_iff`).
-/

namespace KTools.Schedule

/-! ### Consecutive CPUs -/

/-- How a task moves from one wakeup to the next one. -/
inductive Move where
  | sameCpu
  | sameNode
  | crossNode
  deriving DecidableEq

/-- The node of a CPU. -/
def nodeOf (cpu : Nat) : Nat := cpu / 4

def moveOf (prev cpu : Nat) : Move :=
  if cpu = prev then .sameCpu else if nodeOf cpu = nodeOf prev then .sameNode else .crossNode

/-- The moves of a task that was woken on these CPUs. -/
def movesOf (cpus : List Nat) : List Move := (cpus.zip cpus.tail).map fun p => moveOf p.1 p.2

theorem length_movesOf (cpus : List Nat) : (movesOf cpus).length = cpus.length - 1 := by
  simp [movesOf]

/-- One more wakeup is one more move, unless it is the first one. -/
theorem movesOf_concat (cpus : List Nat) (cpu : Nat) :
    movesOf (cpus ++ [cpu]) = movesOf cpus ++ (cpus.getLast?.map fun prev => moveOf prev cpu).toList := by
  induction cpus with
  | nil => rfl
  | cons first rest ih =>
    cases rest with
    | nil => rfl
    | cons second rest =>
      change moveOf first second :: movesOf (second :: rest ++ [cpu]) = _
      rw [ih, List.getLast?_cons_cons]
      rfl

/-- Every move is of one kind. -/
theorem count_moves (l : List Move) :
    l.count .sameCpu + l.count .sameNode + l.count .crossNode = l.length := by
  induction l with
  | nil => rfl
  | cons move rest ih =>
    rw [List.length_cons, ← ih]
    cases move
    · simp only [List.count_cons_self, List.count_cons_of_ne (show Move.sameCpu ≠ .sameNode by decide),
        List.count_cons_of_ne (show Move.sameCpu ≠ .crossNode by decide)]
      omega
    · simp only [List.count_cons_self, List.count_cons_of_ne (show Move.sameNode ≠ .sameCpu by decide),
        List.count_cons_of_ne (show Move.sameNode ≠ .crossNode by decide)]
      omega
    · simp only [List.count_cons_self, List.count_cons_of_ne (show Move.crossNode ≠ .sameCpu by decide),
        List.count_cons_of_ne (show Move.crossNode ≠ .sameNode by decide)]
      omega

/-! ### `try_to_wake_up` -/

/-- `"fstime"`. -/
def targetTask : List UInt8 := [102, 115, 116, 105, 109, 101]

/-- A call of `try_to_wake_up` that gets as far as the statistics: the task, the CPU that `select_task_rq`
gives, and `jiffies`. -/
structure Wakeup where
  comm : List UInt8
  pid : Nat
  cpu : Nat
  jiffies : UInt64

/-- `strcmp(p->comm, "fstime") == 0`. -/
def Wakeup.isTarget (w : Wakeup) : Bool := w.comm == targetTask

/-- `cpus_info[pid]`; `last` is -1 before the first wakeup. -/
structure CpuInfo where
  same : Int32
  node : Int32
  cross : Int32
  last : Int
  deriving DecidableEq

def CpuInfo.zero : CpuInfo := ⟨0, 0, 0, 0⟩

def CpuInfo.counter (r : CpuInfo) : Move → Int32
  | .sameCpu => r.same
  | .sameNode => r.node
  | .crossNode => r.cross

/-- The counters and the CPU after a target wakeup. -/
def CpuInfo.add (r : CpuInfo) (cpu : Nat) : CpuInfo :=
  let r :=
    if r.last ≠ -1 then
      if cpu = r.last then { r with same := r.same + 1 }
      else if (cpu / 4 : Nat) = r.last / 4 then { r with node := r.node + 1 }
      else { r with cross := r.cross + 1 }
    else r
  { r with last := cpu }

/-- A line of the report. -/
structure Line where
  same : Int32
  node : Int32
  cross : Int32
  deriving DecidableEq

def CpuInfo.line (r : CpuInfo) : Line := ⟨r.same, r.node, r.cross⟩

/-- The statics of the function. -/
structure Stat where
  initJiff : UInt64
  cpusInfo : Nat → CpuInfo
  flag : Bool
  output : Bool

def Stat.initial : Stat := ⟨0, fun _ => .zero, false, false⟩

def pids : Nat := 8192

/-- The first target wakeup clears the CPUs and sets the time. -/
def Stat.begin (s : Stat) (w : Wakeup) : Stat :=
  if w.isTarget = true ∧ s.flag = false then
    { s with
      flag := true
      cpusInfo := fun i => if i < pids then { s.cpusInfo i with last := -1 } else s.cpusInfo i
      initJiff := w.jiffies }
  else s

def Stat.count (s : Stat) (w : Wakeup) : Stat :=
  if w.isTarget = true then
    { s with cpusInfo := fun i => if i = w.pid then (s.cpusInfo i).add w.cpu else s.cpusInfo i }
  else s

def Stat.Due (s : Stat) (w : Wakeup) : Prop :=
  w.jiffies > s.initJiff + 180 * 250 ∧ s.output = false ∧ s.initJiff ≠ 0

instance (s : Stat) (w : Wakeup) : Decidable (s.Due w) := inferInstanceAs (Decidable (_ ∧ _))

/-- The loop over the pids. -/
def Stat.report (s : Stat) : List Line :=
  ((List.range pids).filter fun i => (s.cpusInfo i).same ≠ 0).map fun i => (s.cpusInfo i).line

/-- A call, and the report if it prints it. -/
def step (s : Stat) (w : Wakeup) : Stat × Option (List Line) :=
  let s := (s.begin w).count w
  if s.Due w then ({ s with output := true }, some s.report) else (s, none)

section
variable {s : Stat} {w : Wakeup}

theorem step_of_due (h : ((s.begin w).count w).Due w) :
    step s w = ({ (s.begin w).count w with output := true }, some ((s.begin w).count w).report) :=
  if_pos h

theorem step_of_not_due (h : ¬ ((s.begin w).count w).Due w) : step s w = ((s.begin w).count w, none) :=
  if_neg h

end

def run (trace : List Wakeup) : Stat := trace.foldl (fun s w => (step s w).1) .initial

/-- The reports of a run. -/
def reports : Stat → List Wakeup → List (List Line)
  | _, [] => []
  | s, w :: rest => (step s w).2.toList ++ reports (step s w).1 rest

theorem run_concat (pre : List Wakeup) (w : Wakeup) : run (pre ++ [w]) = (step (run pre) w).1 := by
  unfold run
  rw [List.foldl_append, List.foldl_cons, List.foldl_nil]

/-! ### What the statistics stand for -/

/-- A wakeup of the target task with the pid. -/
def Wakeup.isOf (pid : Nat) (w : Wakeup) : Bool := w.isTarget && w.pid == pid

/-- The CPUs of the target wakeups with the pid. -/
def cpusOf (pid : Nat) (trace : List Wakeup) : List Nat := (trace.filter (Wakeup.isOf pid)).map Wakeup.cpu

/-- The number of consecutive wakeups of a kind. -/
def moves (pid : Nat) (trace : List Wakeup) (move : Move) : Nat := (movesOf (cpusOf pid trace)).count move

theorem cpusOf_concat (pid : Nat) (pre : List Wakeup) (w : Wakeup) :
    cpusOf pid (pre ++ [w]) = cpusOf pid pre ++ if w.isOf pid then [w.cpu] else [] := by
  unfold cpusOf
  rw [List.filter_append, List.map_append]
  cases hof : w.isOf pid with
  | true => rw [List.filter_cons_of_pos hof]; rfl
  | false => rw [List.filter_cons_of_neg (by rw [hof]; decide)]; rfl

/-- The remembered CPU. -/
def lastOf (cpus : List Nat) : Int := (cpus.getLast?.map Int.ofNat).getD (-1)

/-- The row of a task that was woken on these CPUs. -/
structure RowOf (r : CpuInfo) (cpus : List Nat) : Prop where
  counters : ∀ move, r.counter move = Int32.ofNat ((movesOf cpus).count move)
  last : r.last = lastOf cpus

/-- The kind of a wakeup on the row of the wakeup before. -/
theorem counter_add {r : CpuInfo} {prev : Nat} (hlast : r.last = prev) (cpu : Nat) (move : Move) :
    (r.add cpu).counter move = r.counter move + if moveOf prev cpu = move then 1 else 0 := by
  have hset : r.last ≠ -1 := by omega
  have hcpu : ((cpu : Int) = r.last) ↔ cpu = prev := by omega
  have hnode : (((cpu / 4 : Nat) : Int) = r.last / 4) ↔ nodeOf cpu = nodeOf prev := by
    unfold nodeOf
    omega
  simp only [CpuInfo.add, if_pos hset, hcpu, hnode, moveOf]
  split
  · cases move <;> simp [CpuInfo.counter]
  · split
    · cases move <;> simp [CpuInfo.counter]
    · cases move <;> simp [CpuInfo.counter]

theorem counter_add_first {r : CpuInfo} (hlast : r.last = -1) (cpu : Nat) (move : Move) :
    (r.add cpu).counter move = r.counter move := by
  have hset : ¬ r.last ≠ -1 := not_not_intro hlast
  simp only [CpuInfo.add, if_neg hset]
  cases move <;> rfl

theorem RowOf.add {r : CpuInfo} {cpus : List Nat} (h : RowOf r cpus) (cpu : Nat) :
    RowOf (r.add cpu) (cpus ++ [cpu]) := by
  refine ⟨fun move => ?_, ?_⟩
  · rw [movesOf_concat, List.count_append, Int32.ofNat_add, ← h.counters]
    cases hprev : cpus.getLast? with
    | none =>
      have hlast : r.last = -1 := by rw [h.last, lastOf, hprev]; rfl
      rw [counter_add_first hlast]
      exact (Int32.add_zero _).symm
    | some prev =>
      have hlast : r.last = prev := by rw [h.last, lastOf, hprev]; rfl
      rw [counter_add hlast]
      simp only [Option.map_some, Option.toList_some, List.count_singleton, beq_iff_eq]
      split
      · rfl
      · rfl
  · rw [lastOf, List.getLast?_append]
    rfl

/-! ### One call -/

/-- The rows are those of the wakeups so far, once the target task has been woken. -/
structure Counted (s : Stat) (trace : List Wakeup) : Prop where
  rows : s.flag = true → ∀ pid < pids, RowOf (s.cpusInfo pid) (cpusOf pid trace)
  unset : s.flag = false → ∀ pid, s.cpusInfo pid = .zero ∧ cpusOf pid trace = []

theorem Counted.begin {s : Stat} {trace : List Wakeup} (h : Counted s trace) (w : Wakeup) :
    Counted (s.begin w) trace ∧ (w.isTarget = true → (s.begin w).flag = true) := by
  unfold Stat.begin
  by_cases hfirst : w.isTarget = true ∧ s.flag = false
  · rw [if_pos hfirst]
    refine ⟨⟨fun _ pid hpid => ?_, nofun⟩, fun _ => rfl⟩
    obtain ⟨hzero, hnone⟩ := h.unset hfirst.2 pid
    simp only [if_pos hpid, hzero, hnone]
    exact ⟨fun move => by cases move <;> rfl, rfl⟩
  · rw [if_neg hfirst]
    refine ⟨h, fun htarget => ?_⟩
    cases hflag : s.flag with
    | true => rfl
    | false => exact absurd ⟨htarget, hflag⟩ hfirst

theorem Counted.count {s : Stat} {trace : List Wakeup} (h : Counted s trace) {w : Wakeup}
    (hflag : w.isTarget = true → s.flag = true) : Counted (s.count w) (trace ++ [w]) := by
  unfold Stat.count
  cases htarget : w.isTarget with
  | false =>
    have hsame : ∀ pid, cpusOf pid (trace ++ [w]) = cpusOf pid trace := by
      intro pid
      rw [cpusOf_concat]
      simp [Wakeup.isOf, htarget]
    refine ⟨fun hset pid hpid => ?_, fun hset pid => ?_⟩
    · rw [hsame]
      exact h.rows hset pid hpid
    · rw [hsame]
      exact h.unset hset pid
  | true =>
    rw [if_pos rfl]
    refine ⟨fun _ pid hpid => ?_, fun hset => ?_⟩
    · have hrow := h.rows (hflag htarget) pid hpid
      rw [cpusOf_concat]
      by_cases hown : pid = w.pid
      · simp only [Wakeup.isOf, htarget, hown, if_pos, beq_self_eq_true, Bool.and_self]
        exact (hown ▸ hrow).add w.cpu
      · simp only [Wakeup.isOf, htarget, if_neg hown, Bool.true_and, beq_iff_eq, if_neg (Ne.symm hown),
          List.append_nil]
        exact hrow
    · exact absurd (hset.symm.trans (hflag htarget)) (by decide)

theorem step_stat (s : Stat) (w : Wakeup) : (step s w).1.cpusInfo = ((s.begin w).count w).cpusInfo ∧
    (step s w).1.flag = ((s.begin w).count w).flag := by
  by_cases hdue : ((s.begin w).count w).Due w
  · rw [step_of_due hdue]
    exact ⟨rfl, rfl⟩
  · rw [step_of_not_due hdue]
    exact ⟨rfl, rfl⟩

/-- **The rows of a run** are those of the wakeups so far. -/
theorem run_counted (trace : List Wakeup) : Counted (run trace) trace := by
  induction trace using List.reverseRecOn with
  | nil => exact ⟨nofun, fun _ _ => ⟨rfl, rfl⟩⟩
  | append_singleton pre w ih =>
    obtain ⟨hbegin, hflag⟩ := ih.begin w
    have hcount := hbegin.count hflag
    obtain ⟨hinfo, hflag'⟩ := step_stat (run pre) w
    rw [run_concat]
    refine ⟨fun hset pid hpid => ?_, fun hset pid => ?_⟩
    · rw [hinfo]
      exact hcount.rows (hflag' ▸ hset) pid hpid
    · rw [hinfo]
      exact hcount.unset (hflag' ▸ hset) pid

/-- The counters are the numbers of moves, as far as they fit. -/
theorem counters_run (trace : List Wakeup) {pid : Nat} (hpid : pid < pids) (move : Move) :
    ((run trace).cpusInfo pid).counter move = Int32.ofNat (moves pid trace move) := by
  have hcounted := run_counted trace
  cases hflag : (run trace).flag with
  | true => exact (hcounted.rows hflag pid hpid).counters move
  | false =>
    obtain ⟨hzero, hnone⟩ := hcounted.unset hflag pid
    rw [hzero, moves, hnone]
    cases move <;> rfl

/-! ### The report -/

/-- The report is due in a call. -/
def Prints (pre : List Wakeup) (w : Wakeup) : Prop := ((run pre).begin w).Due w

instance (pre : List Wakeup) (w : Wakeup) : Decidable (Prints pre w) :=
  inferInstanceAs (Decidable (Stat.Due _ _))

theorem count_due (s : Stat) (w : Wakeup) : (s.count w).Due w ↔ s.Due w := by
  unfold Stat.count
  split
  · rfl
  · rfl

theorem step_report {pre : List Wakeup} {w : Wakeup} {lines : List Line} :
    (step (run pre) w).2 = some lines ↔ Prints pre w ∧ lines = (run (pre ++ [w])).report := by
  have hreport : (((run pre).begin w).count w).report = (run (pre ++ [w])).report := by
    unfold Stat.report
    rw [run_concat, (step_stat (run pre) w).1]
  have hprints : Prints pre w ↔ (((run pre).begin w).count w).Due w := (count_due _ w).symm
  rw [← hreport, hprints]
  by_cases hdue : (((run pre).begin w).count w).Due w
  · rw [step_of_due hdue]
    simp only [hdue, true_and, Option.some.injEq]
    exact eq_comm
  · rw [step_of_not_due hdue]
    simp only [hdue, false_and, reduceCtorEq]

theorem begin_output (s : Stat) (w : Wakeup) : (s.begin w).output = s.output := by
  unfold Stat.begin
  split
  · rfl
  · rfl

/-- There is no report after the first one. -/
theorem reports_of_output (trace : List Wakeup) : ∀ s : Stat, s.output = true → reports s trace = [] := by
  induction trace with
  | nil => exact fun _ _ => rfl
  | cons w rest ih =>
    intro s hs
    have houtput : ((s.begin w).count w).output = true := by
      rw [← hs, ← begin_output s w]
      unfold Stat.count
      split
      · rfl
      · rfl
    have hnot : ¬ ((s.begin w).count w).Due w := fun hdue => absurd (houtput.symm.trans hdue.2.1) (by decide)
    rw [reports, step_of_not_due hnot]
    exact ih _ houtput

theorem length_reports_le (trace : List Wakeup) : ∀ s : Stat, (reports s trace).length ≤ 1 := by
  induction trace with
  | nil => exact fun _ => Nat.zero_le _
  | cons w rest ih =>
    intro s
    rw [reports]
    by_cases hdue : ((s.begin w).count w).Due w
    · rw [step_of_due hdue, reports_of_output rest _ rfl]
      exact Nat.le_refl 1
    · rw [step_of_not_due hdue]
      exact ih _

/-- A report of every pid with a counter that is not zero. -/
def Stat.fullReport (s : Stat) : List Line :=
  ((List.range pids).filter fun i => (s.cpusInfo i).same ≠ 0 ∨ (s.cpusInfo i).node ≠ 0 ∨ (s.cpusInfo i).cross ≠ 0).map
    fun i => (s.cpusInfo i).line

/-- A filter that keeps less, and yields the same list, keeps the same elements. -/
theorem map_filter_eq_iff {α β : Type} {p q : α → Bool} (f : α → β) (h : ∀ a, p a = true → q a = true)
    (l : List α) : (l.filter p).map f = (l.filter q).map f ↔ ∀ a ∈ l, q a = true → p a = true := by
  constructor
  · intro heq a ha hq
    have hlength := congrArg List.length heq
    rw [List.length_map, List.length_map] at hlength
    have hsub : (l.filter p).Sublist (l.filter q) := List.monotone_filter_right l h
    have hmem : a ∈ l.filter q := List.mem_filter.2 ⟨ha, hq⟩
    rw [← hsub.eq_of_length hlength] at hmem
    exact (List.mem_filter.1 hmem).2
  · intro hall
    congr 1
    refine List.filter_congr fun a ha => Bool.eq_iff_iff.2 ⟨h a, hall a ha⟩

theorem report_eq_iff (s : Stat) : s.report = s.fullReport ↔
    ∀ pid < pids, (∃ move, (s.cpusInfo pid).counter move ≠ 0) → (s.cpusInfo pid).counter .sameCpu ≠ 0 := by
  unfold Stat.report Stat.fullReport
  rw [map_filter_eq_iff]
  · refine forall_congr' fun pid => imp_congr List.mem_range ?_
    rw [decide_eq_true_eq, decide_eq_true_eq]
    refine imp_congr_left ⟨?_, ?_⟩
    · rintro (h | h | h)
      · exact ⟨.sameCpu, h⟩
      · exact ⟨.sameNode, h⟩
      · exact ⟨.crossNode, h⟩
    · rintro ⟨move, h⟩
      cases move with
      | sameCpu => exact .inl h
      | sameNode => exact .inr (.inl h)
      | crossNode => exact .inr (.inr h)
  · intro pid h
    rw [decide_eq_true_eq] at h ⊢
    exact .inl h

/-- The moves of a part of a run are among those of the run. -/
theorem moves_le (pid : Nat) (pre post : List Wakeup) (move : Move) :
    moves pid pre move ≤ moves pid (pre ++ post) move := by
  induction post using List.reverseRecOn with
  | nil => exact Nat.le_of_eq (by rw [List.append_nil])
  | append_singleton post w ih =>
    refine Nat.le_trans ih ?_
    rw [← List.append_assoc]
    unfold moves
    rw [cpusOf_concat]
    split
    · rw [movesOf_concat, List.count_append]
      exact Nat.le_add_right _ _
    · exact Nat.le_of_eq (by rw [List.append_nil])

/-! ### Runs -/

/-- A run in which every task has a pid below the size of the array. -/
structure Run where
  trace : List Wakeup
  pid_lt : ∀ w ∈ trace, w.pid < pids

namespace Run

/-- The counters of each pid are the numbers of its moves, which are one less than its wakeups, and the one
report has every pid with a counter. -/
structure Right (x : Run) : Prop where
  counters : ∀ pid < pids, ∀ move,
    (((run x.trace).cpusInfo pid).counter move).toInt = moves pid x.trace move
  sum : ∀ pid < pids, ((run x.trace).cpusInfo pid).same.toInt + ((run x.trace).cpusInfo pid).node.toInt +
    ((run x.trace).cpusInfo pid).cross.toInt = ((cpusOf pid x.trace).length - 1 : Nat)
  once : (reports .initial x.trace).length ≤ 1
  report : ∀ pre w post lines, x.trace = pre ++ w :: post → (step (run pre) w).2 = some lines →
    lines = (run (pre ++ [w])).fullReport

/-- The counters fit an `int`, and when the report is due every pid that has moved was woken twice in a row on
one CPU. -/
structure Fits (x : Run) : Prop where
  counters : ∀ pid < pids, ∀ move, moves pid x.trace move < 2 ^ 31
  report : ∀ pre w post, x.trace = pre ++ w :: post → Prints pre w → ∀ pid < pids,
    (∃ move, moves pid (pre ++ [w]) move ≠ 0) → moves pid (pre ++ [w]) .sameCpu ≠ 0

theorem ofNat_eq_zero_iff {n : Nat} (h : n < 2 ^ 31) : Int32.ofNat n = 0 ↔ n = 0 := by
  rw [← Int32.toInt_inj, Int32.toInt_ofNat_of_lt h]
  exact Int.natCast_eq_zero

theorem counters_iff (trace : List Wakeup) :
    (∀ pid < pids, ∀ move, (((run trace).cpusInfo pid).counter move).toInt = moves pid trace move) ↔
      ∀ pid < pids, ∀ move, moves pid trace move < 2 ^ 31 := by
  refine forall_congr' fun pid => forall_congr' fun hpid => forall_congr' fun move => ⟨fun h => ?_, fun h => ?_⟩
  · have hlt := Int32.toInt_lt (((run trace).cpusInfo pid).counter move)
    omega
  · rw [counters_run trace hpid, Int32.toInt_ofNat_of_lt h]

/-- The report in a run whose counters fit. -/
theorem report_iff {trace pre post : List Wakeup} {w : Wakeup} (hsplit : trace = pre ++ w :: post)
    (hfits : ∀ pid < pids, ∀ move, moves pid trace move < 2 ^ 31) :
    (run (pre ++ [w])).report = (run (pre ++ [w])).fullReport ↔ ∀ pid < pids,
      (∃ move, moves pid (pre ++ [w]) move ≠ 0) → moves pid (pre ++ [w]) .sameCpu ≠ 0 := by
  rw [report_eq_iff]
  refine forall_congr' fun pid => forall_congr' fun hpid => ?_
  have hnonzero : ∀ move, ((run (pre ++ [w])).cpusInfo pid).counter move ≠ 0 ↔ moves pid (pre ++ [w]) move ≠ 0 := by
    intro move
    have hlt : moves pid (pre ++ [w]) move < 2 ^ 31 := by
      refine Nat.lt_of_le_of_lt (moves_le pid _ post move) ?_
      rw [List.append_assoc, List.singleton_append, ← hsplit]
      exact hfits pid hpid move
    rw [counters_run _ hpid]
    exact not_congr (ofNat_eq_zero_iff hlt)
  rw [hnonzero]
  exact imp_congr_left (exists_congr hnonzero)

/-- **When the statistics are right**: the counters fit, and no pid has moved at every wakeup when the report
is printed. -/
theorem statistics_right_iff (x : Run) : x.Right ↔ x.Fits := by
  constructor
  · intro h
    have hfits := (counters_iff x.trace).1 h.counters
    refine ⟨hfits, fun pre w post hsplit hprints => ?_⟩
    exact (report_iff hsplit hfits).1 (h.report pre w post _ hsplit (step_report.2 ⟨hprints, rfl⟩))
  · intro h
    have hcounters := (counters_iff x.trace).2 h.counters
    refine ⟨hcounters, fun pid hpid => ?_, length_reports_le _ _, fun pre w post lines hsplit hlines => ?_⟩
    · have hsum := count_moves (movesOf (cpusOf pid x.trace))
      rw [length_movesOf] at hsum
      have hsame : ((run x.trace).cpusInfo pid).same.toInt = moves pid x.trace .sameCpu :=
        hcounters pid hpid .sameCpu
      have hnode : ((run x.trace).cpusInfo pid).node.toInt = moves pid x.trace .sameNode :=
        hcounters pid hpid .sameNode
      have hcross : ((run x.trace).cpusInfo pid).cross.toInt = moves pid x.trace .crossNode :=
        hcounters pid hpid .crossNode
      unfold moves at hsame hnode hcross
      omega
    · obtain ⟨hprints, hreport⟩ := step_report.1 hlines
      rw [hreport]
      exact (report_iff hsplit h.counters).2 (h.report pre w post hsplit hprints)

end Run

/-- A task that is woken on two nodes in turn, three minutes apart. -/
def migrating : Run where
  trace := [⟨targetTask, 7, 0, 1⟩, ⟨targetTask, 7, 4, 50000⟩]
  pid_lt := by decide

/-- The report is empty. -/
theorem migrating_not_right : ¬ ∀ x : Run, x.Right := by
  intro h
  have hright := h migrating
  have hfits := (Run.counters_iff migrating.trace).1 hright.counters
  have hsplit : migrating.trace = [⟨targetTask, 7, 0, 1⟩] ++ ⟨targetTask, 7, 4, 50000⟩ :: [] := rfl
  have hreport := hright.report _ _ _ _ hsplit (step_report.2 ⟨by decide, rfl⟩)
  have hmoved := (Run.report_iff hsplit hfits).1 hreport 7 (by decide) ⟨.crossNode, by decide⟩
  exact absurd hmoved (by decide)

end KTools.Schedule
